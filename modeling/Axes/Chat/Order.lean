import Axes.Chat.View

/-!
# The order of a room's events on a queue

In the order of dispatching, a room's events are well bracketed: between the join that
begins a membership and the leave that ends it versions grow, and nothing of the room is
outside. On a queue the order is that of sending, after the lock: two tasks can send in
the other order than they dispatched, and then the property fails. It holds of the queue
where no event of the room overtakes an earlier one.
-/

namespace Axes.Chat

open Axes.Lib Axes.Lib.Mailbox

/-- Well-bracketed events of a room; `inside` is the last version seen in the current
membership. A repeated `JoinedRoom` does not begin a membership. -/
def Bracketed : Option Nat → List ChatEvent → Prop
  | _, [] => True
  | inside, .joinedRoom snapshot :: rest => Bracketed (some (inside.getD snapshot.version)) rest
  | _, .leftRoom _ :: rest => Bracketed none rest
  | inside, .roomMessage message :: rest =>
      (∃ version ∈ inside, version < message.version) ∧ Bracketed (some message.version) rest
  | inside, .presenceChanged presence :: rest =>
      (∃ version ∈ inside, version < presence.version) ∧ Bracketed (some presence.version) rest
  | inside, _ :: rest => Bracketed inside rest

/-- What makes sense to a client is well bracketed. -/
theorem bracketed_of_hear {events : List ChatEvent} {view view' : Option Replica}
    (h : Replica.hearAll view events = some view') :
    Bracketed (view.map (·.version)) events := by
  induction events generalizing view with
  | nil => trivial
  | cons event events ih =>
      -- The view at each point says whether a membership is open, and at which version.
      obtain ⟨next, hhear, hrest⟩ := Option.bind_eq_some_iff.mp h
      have hlater := ih hrest
      cases view with
      | none =>
          cases event with
          | joinedRoom snapshot =>
              obtain rfl := Option.some.inj hhear
              exact hlater
          | connected | leftRoom | roomMessage | roomState | presenceChanged | pong | error =>
              cases hhear
      | some replica =>
          cases event with
          | joinedRoom snapshot =>
              simp only [Replica.hear] at hhear
              split at hhear
              · next hversion =>
                  obtain rfl := Option.some.inj hhear
                  simpa [Bracketed, Replica.ofSnapshot, hversion] using hlater
              · cases hhear
          | leftRoom notice =>
              obtain rfl := Option.some.inj hhear
              exact hlater
          | roomMessage message =>
              simp only [Replica.hear, Replica.apply] at hhear
              split at hhear
              · next hversion =>
                  obtain rfl := Option.some.inj hhear
                  refine ⟨⟨replica.version, rfl, ?_⟩, hlater⟩
                  rw [hversion]
                  exact Nat.lt_succ_self _
              · cases hhear
          | presenceChanged presence =>
              simp only [Replica.hear, Replica.apply] at hhear
              split at hhear
              · next hversion =>
                  obtain rfl := Option.some.inj hhear
                  refine ⟨⟨replica.version, rfl, ?_⟩, hlater⟩
                  rw [hversion]
                  exact Nat.lt_succ_self _
              · cases hhear
          | roomState snapshot =>
              obtain rfl := Option.some.inj hhear
              exact hlater
          | connected | pong | error => cases hhear

namespace ChatWorld

/-- A pending dispatch about room `r` to session `d`. -/
def Concerns (d : Nat) (r : String) (entry : ChatDispatch × Nat) : Prop :=
  entry.1.sender = d ∧ entry.1.event.roomId? = some r

instance {d : Nat} {r : String} {entry : ChatDispatch × Nat} : Decidable (Concerns d r entry) :=
  inferInstanceAs (Decidable (_ ∧ _))

/-- The step does not send an event about `r` to `d` before one dispatched earlier. -/
def InTurn (d : Nat) (r : String) (tr : Transition ChatWorld Action) : Prop :=
  ∀ entry ∈ tr.pre.sending tr.action, Concerns d r entry →
    ∀ other ∈ tr.pre.pending, Concerns d r other → entry.2 ≤ other.2

instance {d : Nat} {r : String} {tr : Transition ChatWorld Action} :
    Decidable (InTurn d r tr) :=
  inferInstanceAs (Decidable (∀ entry ∈ tr.pre.sending tr.action, _))

/-- The events about room `r` that go to channel `d`. -/
def selectRoom (d : Nat) (r : String) (dispatch : ChatDispatch) : Option ChatEvent :=
  (addressed d dispatch).filter fun event => event.roomId? = some r

/-- The part of channel `d` about room `r`. -/
def roomQueue (world : ChatWorld) (d : Nat) (r : String) : List (ChatEvent × Nat) :=
  (world.queues d).filter fun x => x.1.roomId? = some r

variable {world world' : ChatWorld} {action : Action} {d : Nat} {r : String}
  {start : ChatWorld} {ts : List (Transition ChatWorld Action)}

theorem selectRoom_eq_some {dispatch : ChatDispatch} {event : ChatEvent} :
    selectRoom d r dispatch = some event ↔
      dispatch.event = event ∧ dispatch.sender = d ∧ event.roomId? = some r := by
  simp only [selectRoom, addressed, Option.filter_eq_some_iff, Option.ite_none_right_eq_some,
    Option.some.injEq, decide_eq_true_eq]
  constructor
  · rintro ⟨⟨hd, rfl⟩, hr⟩
    exact ⟨rfl, hd, hr⟩
  · rintro ⟨rfl, hd, hr⟩
    exact ⟨⟨hd, rfl⟩, hr⟩

theorem filterMap_selectRoom (log : List ChatDispatch) :
    log.filterMap (selectRoom d r) = about r (received d log) := by
  unfold about received
  rw [List.filter_filterMap]
  rfl

theorem roomQueue_map : (world.roomQueue d r).map (·.1) = about r (world.queue d) := by
  unfold roomQueue about queue
  rw [List.filter_map]
  rfl

theorem Posted.room (h : world.Posted) :
    Accounted (selectRoom d r) world.log (world.roomQueue d r) world.pending :=
  (h d).restrict _

/-- A step in turn keeps a room's events in order. -/
theorem InTurn.step (hturn : InTurn d r ⟨world, action, world'⟩) (hposted : world.Posted)
    (h : InOrder (selectRoom d r) (world.roomQueue d r) world.pending)
    (hstep : chat.step world action = some world') :
    InOrder (selectRoom d r) (world'.roomQueue d r) world'.pending := by
  cases step_posts hstep with
  | dispatched new _ _ hqueues hpending =>
      unfold roomQueue
      rw [hqueues]
      exact h.dispatch hposted.room hpending
  | sent entry hsending _ hqueues hpending =>
      have hqueue : world'.roomQueue d r =
          world.roomQueue d r ++ (pick (selectRoom d r) entry).toList := by
        unfold roomQueue
        rw [hqueues, queues_sent, List.filter_append]
        congr 1
        simp only [pick, selectRoom]
        cases addressed d entry.1 with
        | none => rfl
        | some event => by_cases hr : event.roomId? = some r <;> simp [hr, Option.filter]
      rw [hqueue]
      refine h.send hposted.room hpending ?_
      intro x hx y hy
      obtain ⟨event, hselect, rfl⟩ := Option.map_eq_some_iff.mp hx
      obtain ⟨later, place⟩ := y
      obtain ⟨dispatch, hmem, hlater⟩ := mem_share.mp hy
      obtain ⟨rfl, hd, hr⟩ := selectRoom_eq_some.mp hselect
      obtain ⟨rfl, hd', hr'⟩ := selectRoom_eq_some.mp hlater
      exact hturn entry hsending ⟨hd, hr⟩ (dispatch, place)
        (hpending.symm.subset (List.mem_cons_of_mem _ hmem)) ⟨hd', hr'⟩

theorem inOrder_run (hinit : chat.init start) (hrun : chat.Run start ts world)
    (hts : ∀ tr ∈ ts, InTurn d r tr) :
    InOrder (selectRoom d r) (world.roomQueue d r) world.pending := by
  induction hrun with
  | refl =>
      obtain rfl := hinit
      exact inOrder_nil
  | @step ts world action world' hrun hstep ih =>
      have hturn := hts ⟨world, action, world'⟩ (List.mem_append_right _ List.mem_cons_self)
      exact hturn.step (posted.run hinit hrun)
        (ih fun tr htr => hts tr (List.mem_append_left _ htr)) hstep

/-- **A room's events are well bracketed** in the order of dispatching, in every reachable
state; and on the queue, in every run in which no event of the room overtakes another one
on its way there. -/
theorem events_bracketed (hinit : chat.init start) (hrun : chat.Run start ts world) (d : Nat)
    (r : String) :
    Bracketed none (about r (received d world.log)) ∧
      ((∀ tr ∈ ts, InTurn d r tr) → Bracketed none (about r (world.queue d))) := by
  obtain ⟨view, hview, -⟩ := (followed.run hinit hrun).2 d r
  refine ⟨bracketed_of_hear hview, ?_⟩
  intro hts
  have hprefix := (inOrder_run hinit hrun hts).isPrefix (posted.run hinit hrun).room
  -- A prefix of what makes sense makes sense.
  rw [roomQueue_map, filterMap_selectRoom] at hprefix
  obtain ⟨later, hlater⟩ := hprefix
  rw [← hlater, Replica.hearAll_append] at hview
  obtain ⟨seen, hseen, -⟩ := Option.bind_eq_some_iff.mp hview
  exact bracketed_of_hear hseen

/-- Ann joins and posts, and Bob joins and leaves; every event is sent at once. -/
theorem events_bracketed_in_turn : ∃ ts world, chat.Run .start ts world ∧
    (about "lobby" (world.queue 0)).length = 4 ∧
      Bracketed none (about "lobby" (world.queue 0)) := by
  have hchecked : (chat.exec [] .start inTurn).any (fun r =>
      (about "lobby" (r.2.queue 0)).length = 4 ∧ ∀ tr ∈ r.1, InTurn 0 "lobby" tr) = true := by
    decide
  obtain ⟨ts, world, hrun, hchecked⟩ := TSys.exists_run hchecked
  obtain ⟨hlength, hturn⟩ := of_decide_eq_true hchecked
  exact ⟨ts, world, hrun, hlength, (events_bracketed rfl hrun 0 "lobby").2 hturn⟩

/-- Bob's join is dispatched before Ann's message, and sent to her after it. -/
def overtaking : List Action :=
  twoSessions ++ [.command 0 (.joinRoom "lobby") 0, .send 0, .command 1 (.joinRoom "lobby") 0,
    .command 0 (.sendRoomMessage "lobby" "hi") 5, .send 0, .send 0, .send 1, .send 1]

/-- On the queue a room's events need not be well bracketed: version 2 comes after 3. -/
theorem not_bracketed_overtaking : ¬∀ world, chat.Reachable world → ∀ d r,
    Bracketed none (about r (world.queue d)) := by
  intro h
  have hchecked : (chat.exec [] .start overtaking).any (fun r => about "lobby" (r.2.queue 0) = [
      .joinedRoom ⟨"lobby", [⟨"u1", "ann"⟩], [], 1⟩,
      .roomMessage ⟨"lobby", "msg-1", "u1", "ann", "hi", 5, 3⟩,
      .presenceChanged (.joining "lobby" ⟨"u2", "bob"⟩ 2)]) = true := by decide
  obtain ⟨ts, world, hrun, hqueue⟩ := TSys.exists_run hchecked
  have hbracketed := h world ⟨.start, ts, rfl, hrun⟩ 0 "lobby"
  rw [of_decide_eq_true hqueue] at hbracketed
  simp [Bracketed, ChatPresenceChange.joining] at hbracketed

end ChatWorld

end Axes.Chat
