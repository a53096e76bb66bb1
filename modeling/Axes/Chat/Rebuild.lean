import Axes.Chat.Order

/-!
# A client can rebuild the room

Where each `process_message` and `unregister_connection` finishes its sends before the
next takes the lock, nothing overtakes, and a queue with nothing pending is the whole of
what was dispatched. Folding a room's events from the last `JoinedRoom` then gives what
`sync_room_state` returns.
-/

namespace Axes.Chat

open Axes.Lib Axes.Lib.Mailbox

/-! ## The sorted members -/

instance : Std.TransCmp ChatUserSummary.cmp :=
  inferInstanceAs (Std.TransCmp (compareLex (compareOn ChatUserSummary.userId)
    (compareOn ChatUserSummary.userName)))

theorem ChatUserSummary.eq_of_cmp {left right : ChatUserSummary} (h : left.cmp right = .eq) :
    left = right := by
  obtain ⟨hid, hname⟩ := Ordering.then_eq_eq.mp h
  cases left
  cases right
  simp only [ChatUserSummary.mk.injEq]
  exact ⟨Std.LawfulEqOrd.eq_of_compare hid, Std.LawfulEqOrd.eq_of_compare hname⟩

instance : Std.Total fun left right : ChatUserSummary => (left.cmp right).isLE = true where
  total left right := by
    by_cases h : (left.cmp right).isLE = true
    · exact .inl h
    · exact .inr (Ordering.isLE_of_eq_lt (Std.OrientedCmp.lt_of_not_isLE h))

instance : IsTrans ChatUserSummary fun left right => (left.cmp right).isLE = true where
  trans _ _ _ := Std.TransCmp.isLE_trans

/-- Sorting forgets the order of a multiset. -/
theorem sortMembers_perm {left right : List ChatUserSummary} (h : left.Perm right) :
    sortMembers left = sortMembers right := by
  refine List.Perm.eq_of_pairwise ?_ (List.pairwise_insertionSort _ _)
    (List.pairwise_insertionSort _ _) ?_
  · intro a b _ _ hab hba
    exact ChatUserSummary.eq_of_cmp (Std.OrientedCmp.isLE_antisymm hab hba)
  · exact (List.perm_insertionSort _ _).trans (h.trans (List.perm_insertionSort _ _).symm)

/-! ## From the last snapshot -/

/-- The last `JoinedRoom` among a room's events, and what comes after it. -/
def lastJoined : List ChatEvent → Option (ChatRoomSnapshot × List ChatEvent)
  | [] => none
  | event :: later =>
      match lastJoined later, event with
      | some found, _ => some found
      | none, .joinedRoom snapshot => some (snapshot, later)
      | none, _ => none

/-- Fold a room's events into a replica; each must take the version one further. -/
def Replica.rebuild (replica : Replica) (events : List ChatEvent) : Option Replica :=
  events.foldlM Replica.apply replica

/-- Who is inside after an event was given the snapshot, or was inside and folded it. -/
theorem hear_inside {view : Option Replica} {event : ChatEvent} {after : Replica}
    (h : Replica.hear view event = some (some after)) :
    (∃ snapshot, event = .joinedRoom snapshot ∧ after = .ofSnapshot snapshot) ∨
      (∀ snapshot, event ≠ .joinedRoom snapshot) ∧
        ∃ before, view = some before ∧ before.apply event = some after := by
  cases event with
  | joinedRoom snapshot =>
      refine .inl ⟨snapshot, rfl, ?_⟩
      cases view with
      | none => exact (Option.some.inj (Option.some.inj h)).symm
      | some before =>
          simp only [Replica.hear] at h
          split at h
          · exact (Option.some.inj (Option.some.inj h)).symm
          · cases h
  | leftRoom notice => cases view <;> cases h
  | connected | roomMessage | roomState | presenceChanged | pong | error =>
      cases view with
      | none => cases h
      | some before =>
          refine .inr ⟨fun _ => by simp, before, rfl, ?_⟩
          simpa [Replica.hear] using h

/-- A view that ends inside the room is rebuilt from the last snapshot, or from where it
began when there is none. -/
theorem rebuild_of_hear {events : List ChatEvent} {view : Option Replica} {replica : Replica}
    (h : Replica.hearAll view events = some (some replica)) :
    (∃ snapshot later, lastJoined events = some (snapshot, later) ∧
      (Replica.ofSnapshot snapshot).rebuild later = some replica) ∨
    (lastJoined events = none ∧ ∃ before, view = some before ∧
      before.rebuild events = some replica) := by
  induction events generalizing view with
  | nil =>
      obtain rfl := Option.some.inj h
      exact .inr ⟨rfl, replica, rfl, rfl⟩
  | cons event events ih =>
      obtain ⟨next, hhear, hrest⟩ := Option.bind_eq_some_iff.mp h
      rcases ih hrest with ⟨snapshot, later, hlast, hrebuild⟩ | ⟨hnone, after, rfl, hrebuild⟩
      · exact .inl ⟨snapshot, later, by simp [lastJoined, hlast], hrebuild⟩
      -- No snapshot comes later: this event is one, or is folded as well.
      · rcases hear_inside hhear with ⟨snapshot, rfl, rfl⟩ | ⟨hother, before, rfl, happly⟩
        · exact .inl ⟨snapshot, events, by simp [lastJoined, hnone], hrebuild⟩
        · refine .inr ⟨?_, before, rfl, Option.bind_eq_some_iff.mpr ⟨after, happly, hrebuild⟩⟩
          cases event with
          | joinedRoom snapshot => exact absurd rfl (hother snapshot)
          | connected | leftRoom | roomMessage | roomState | presenceChanged | pong | error =>
              simp [lastJoined, hnone]

namespace ChatWorld

/-! ## Serial runs -/

/-- The step takes the lock for `process_message` or `unregister_connection`. -/
def Action.locks : Action → Bool
  | .command _ _ _ | .close _ => true
  | .register _ _ | .connected _ | .invalid _ | .reply _ | .send _ => false

/-- A step that takes the lock finds no room event unsent: the step before it that took
the lock has finished its sends. -/
def Serial (tr : Transition ChatWorld Action) : Prop :=
  Action.locks tr.action = true → ∀ entry ∈ tr.pre.pending, entry.1.event.roomId? = none

instance {tr : Transition ChatWorld Action} : Decidable (Serial tr) :=
  inferInstanceAs (Decidable (Action.locks tr.action = true → _))

/-- A session that still has a room event to send. -/
def RoomPending (session : Session) : Prop :=
  ∃ entry ∈ session.task.pending, entry.1.event.roomId? ≠ none

/-- Each task sends in the order of dispatching, and at most one of them has room events
to send. -/
structure OneSender (world : ChatWorld) : Prop where
  sorted : ∀ (i : Nat) (session : Session), world.sessions[i]? = some session →
    session.task.pending.Pairwise fun x y => x.2 < y.2
  unique : ∀ (i j : Nat) (left right : Session), world.sessions[i]? = some left →
    world.sessions[j]? = some right → RoomPending left → RoomPending right → i = j

variable {world world' : ChatWorld} {action : Action} {d i : Nat} {r : String}
  {start : ChatWorld} {ts : List (Transition ChatWorld Action)}

theorem mem_pending {entry : ChatDispatch × Nat} : entry ∈ world.pending ↔
    ∃ (i : Nat) (session : Session), world.sessions[i]? = some session ∧
      entry ∈ session.task.pending := by
  rw [pending, List.mem_flatMap]
  constructor
  · rintro ⟨session, hsession, hentry⟩
    obtain ⟨i, hfound⟩ := List.mem_iff_getElem?.mp hsession
    exact ⟨i, session, hfound, hentry⟩
  · rintro ⟨i, session, hfound, hentry⟩
    exact ⟨session, List.mem_of_getElem? hfound, hentry⟩

theorem oneSender_start : ChatWorld.start.OneSender where
  sorted i session hfound := by simp [ChatWorld.start] at hfound
  unique i j left right hleft := by simp [ChatWorld.start] at hleft

/-- A session that has nothing to send is added. -/
theorem OneSender.append (h : world.OneSender) {session : Session}
    (hsessions : world'.sessions = world.sessions ++ [session])
    (hidle : session.task.pending = []) : world'.OneSender := by
  have hold : ∀ (j : Nat) (other : Session), world'.sessions[j]? = some other →
      world.sessions[j]? = some other ∨ other = session := by
    intro j other hother
    rw [hsessions, List.getElem?_append] at hother
    split at hother
    · exact .inl hother
    · exact .inr (List.mem_singleton.mp (List.mem_of_getElem? hother))
  have hquiet : ¬RoomPending session := by
    rintro ⟨entry, hentry, -⟩
    rw [hidle] at hentry
    cases hentry
  constructor
  · intro j other hother
    rcases hold j other hother with hother | rfl
    · exact h.sorted j other hother
    · rw [hidle]
      exact .nil
  · intro j k left right hleft hright hl hr
    rcases hold j left hleft with hleft | rfl
    · rcases hold k right hright with hright | rfl
      · exact h.unique j k left right hleft hright hl hr
      · exact absurd hr hquiet
    · exact absurd hl hquiet

/-- One session's task is replaced. -/
theorem OneSender.set (h : world.OneSender) {session session' : Session}
    (hfound : world.sessions[i]? = some session)
    (hsessions : world'.sessions = world.sessions.set i session')
    (hsorted : session'.task.pending.Pairwise fun x y => x.2 < y.2)
    (hroom : RoomPending session' → RoomPending session ∨
      ∀ (j : Nat) (other : Session), world.sessions[j]? = some other → ¬RoomPending other) :
    world'.OneSender where
  sorted j other hother := by
    rw [hsessions, getElem?_set_of_some hfound] at hother
    split at hother
    · obtain rfl := Option.some.inj hother
      exact hsorted
    · exact h.sorted j other hother
  unique j k left right hleft hright hl hr := by
    -- Another sender besides the new one would have been another before.
    have hown : ∀ (j : Nat) (other : Session), world.sessions[j]? = some other →
        RoomPending other → RoomPending session' → j = i := by
      intro j other hother hpending hpending'
      rcases hroom hpending' with hbefore | hnone
      · exact h.unique j i other session hother hfound hpending hbefore
      · exact absurd hpending (hnone j other hother)
    rw [hsessions, getElem?_set_of_some hfound] at hleft hright
    split at hleft
    · next hj =>
        obtain rfl := Option.some.inj hleft
        split at hright
        · next hk => rw [hj, hk]
        · rw [hj, hown k right hright hr hl]
    · split at hright
      · next hk =>
          obtain rfl := Option.some.inj hright
          rw [hk, hown j left hleft hl hr]
      · exact h.unique j k left right hleft hright hl hr

theorem sendToConnection_roomless {runtime : ChatRuntime} {c : String} {event : ChatEvent}
    {n : Nat} {user : ChatSessionUser} (hevent : event.roomId? = none) :
    ¬RoomPending ⟨user, .running ((runtime.sendToConnection c event).zipIdx n)⟩ := by
  rintro ⟨entry, hentry, hroom⟩
  have hdispatch := List.fst_mem_of_mem_zipIdx hentry
  unfold ChatRuntime.sendToConnection dispatchToConnection at hdispatch
  cases hsender : runtime.connections c with
  | none => simp [hsender] at hdispatch
  | some sender =>
      simp only [hsender, Option.map_some, Option.toList_some, List.mem_singleton] at hdispatch
      rw [hdispatch] at hroom
      exact hroom hevent

theorem OneSender.step (h : world.OneSender) (hserial : Serial ⟨world, action, world'⟩)
    (hstep : chat.step world action = some world') : world'.OneSender := by
  have hnone : Action.locks action = true → ∀ (j : Nat) (other : Session),
      world.sessions[j]? = some other → ¬RoomPending other := by
    rintro hlocks j other hother ⟨entry, hentry, hroom⟩
    exact hroom (hserial hlocks entry (mem_pending.mpr ⟨j, other, hother, hentry⟩))
  cases step_cases hstep with
  | register => exact h.append rfl rfl
  | connected found =>
      exact h.set found rfl (pairwise_zipIdx _ _) fun hroom =>
        absurd hroom (sendToConnection_roomless rfl)
  | command found => exact h.set found rfl (pairwise_zipIdx _ _) fun _ => .inr (hnone rfl)
  | refused found =>
      exact h.set found rfl List.Pairwise.nil fun ⟨_, hentry, _⟩ => absurd hentry List.not_mem_nil
  | invalid found =>
      exact h.set found rfl List.Pairwise.nil fun ⟨_, hentry, _⟩ => absurd hentry List.not_mem_nil
  | reply found =>
      exact h.set found rfl (pairwise_zipIdx _ _) fun hroom =>
        absurd hroom (sendToConnection_roomless rfl)
  | @sent i user task entry rest open_or_closed found =>
      have htask := Task.pending_of_sends open_or_closed
      have hsorted := h.sorted i _ found
      rw [htask] at hsorted
      refine h.set found rfl (by rw [htask]; exact (List.pairwise_cons.mp hsorted).2) ?_
      rintro ⟨later, hlater, hroom⟩
      rw [htask] at hlater
      exact .inl ⟨later, by rw [htask]; exact List.mem_cons_of_mem _ hlater, hroom⟩
  | close found => exact h.set found rfl (pairwise_zipIdx _ _) fun _ => .inr (hnone rfl)

/-- With one sender at a time, what is sent is the earliest. -/
theorem OneSender.inTurn (h : world.OneSender) : InTurn d r ⟨world, action, world'⟩ := by
  intro entry hsending hconcerns other hother hconcerns'
  cases action with
  | send i =>
      obtain ⟨session, hfound, hhead⟩ := Option.bind_eq_some_iff.mp hsending
      obtain ⟨j, session', hfound', hentry'⟩ := mem_pending.mp hother
      have hentry : entry ∈ session.task.pending := List.mem_of_mem_head? hhead
      have hji : j = i := h.unique j i session' session hfound' hfound
        ⟨other, hentry', by simp [hconcerns'.2]⟩ ⟨entry, hentry, by simp [hconcerns.2]⟩
      subst hji
      rw [hfound] at hfound'
      obtain rfl := Option.some.inj hfound'
      obtain ⟨rest, hpending⟩ := List.head?_eq_some_iff.mp hhead
      have hsorted := h.sorted j session hfound
      rw [hpending] at hsorted hentry'
      rcases List.mem_cons.mp hentry' with rfl | hlater
      · exact Nat.le_refl _
      · exact Nat.le_of_lt ((List.pairwise_cons.mp hsorted).1 other hlater)
  | register | connected | command | invalid | reply | close => cases hsending

theorem oneSender_run (hinit : chat.init start) (hrun : chat.Run start ts world)
    (hserial : ∀ tr ∈ ts, Serial tr) : world.OneSender ∧ ∀ tr ∈ ts, tr.pre.OneSender := by
  refine hrun.always ?_ (fun _ _ _ h hserial hstep => h.step hserial hstep) hserial
  obtain rfl := hinit
  exact oneSender_start

theorem normalized : chat.Inductive fun world => world.runtime.hub.Normalized where
  init := by
    rintro world rfl r room hfound
    cases hfound
  step world action world' h hstep := by
    cases step_cases hstep with
    | register | connected | refused | invalid | reply | sent => exact h
    | @command i user message now runtime dispatches found processed =>
        obtain ⟨hub, hfst, hhub⟩ := ChatRuntime.processMessage_fst world.runtime user message now
        rw [processed] at hfst
        simp only at hfst
        subst hfst
        rcases hhub with rfl | ⟨call, reply, hmoves, -⟩
        · exact h
        · exact h.move hmoves
    | @close i user found =>
        obtain ⟨reply, hmoves⟩ :=
          ChatRuntime.unregisterConnection_hub world.runtime user.connectionId
        exact h.move hmoves

/-- **A client can rebuild the room from its event stream.** In a serial run, for a session
in a room with nothing of the room pending for it: folding its events from the last
`JoinedRoom` on, each taking the version one further, gives what `sync_room_state`
returns. -/
theorem rebuilds (hinit : chat.init start) (hrun : chat.Run start ts world)
    (hserial : ∀ tr ∈ ts, Serial tr) {session : Session}
    (hsession : world.sessions[d]? = some session)
    (hmember : world.runtime.hub.Member session.user.connectionId r)
    (hquiet : ∀ entry ∈ world.pending, ¬Concerns d r entry) :
    ∃ snapshot later replica, lastJoined (about r (world.queue d)) = some (snapshot, later) ∧
      (Replica.ofSnapshot snapshot).rebuild later = some replica ∧
      world.runtime.hub.syncRoomState session.user.connectionId r = .ok {
        roomId := r
        members := sortMembers replica.members
        recentMessages := replica.history
        version := replica.version } := by
  obtain ⟨hregistered, hfollowed⟩ := followed.run hinit hrun
  have hid := hregistered.ids d session hsession
  rw [hid] at hmember ⊢
  -- the queue is all that was dispatched
  have hturn : ∀ tr ∈ ts, InTurn d r tr := fun tr htr =>
    ((oneSender_run hinit hrun hserial).2 tr htr).inTurn
  have hnothing : share (selectRoom d r) world.pending = [] := by
    refine List.eq_nil_iff_forall_not_mem.mpr ?_
    rintro ⟨event, place⟩ hmem
    obtain ⟨dispatch, hpending, hselect⟩ := mem_share.mp hmem
    obtain ⟨rfl, hd, hr⟩ := selectRoom_eq_some.mp hselect
    exact hquiet _ hpending ⟨hd, hr⟩
  have hqueue := (inOrder_run hinit hrun hturn).complete (posted.run hinit hrun).room hnothing
  rw [roomQueue_map, filterMap_selectRoom] at hqueue
  -- and what was dispatched mirrors the room
  obtain ⟨view, hview, hmirrors⟩ := hfollowed d r
  obtain ⟨live, hlive, hopen⟩ := hregistered.session_of_member hmember
  obtain ⟨room, hfound, hin⟩ := hmember
  obtain ⟨replica, rfl, hmembers, hhistory, hversion⟩ := (hmirrors fun other hother => by
    rw [hlive] at hother
    rw [← Option.some.inj hother]
    exact hopen).inside hfound hin
  rcases rebuild_of_hear hview with ⟨snapshot, later, hlast, hrebuild⟩ | ⟨-, before, hbefore, -⟩
  · refine ⟨snapshot, later, replica, hqueue ▸ hlast, hrebuild, ?_⟩
    have hname := normalized.run hinit hrun r room hfound
    have hcontains : room.members.contains (connectionIdOf d) = true := hin
    simp only [ChatHub.syncRoomState, hname, hfound, hcontains, if_true, sortedMembers,
      sortMembers_perm hmembers, hhistory, hversion]
  · cases hbefore

/-- Ann rebuilds the room after Bob joined, she posted and Bob left. -/
theorem rebuilds_in_turn : ∃ ts world session, chat.Run .start ts world ∧
    world.sessions[0]? = some session ∧
    ∃ snapshot later replica,
      lastJoined (about "lobby" (world.queue 0)) = some (snapshot, later) ∧ later.length = 3 ∧
      (Replica.ofSnapshot snapshot).rebuild later = some replica ∧
      world.runtime.hub.syncRoomState session.user.connectionId "lobby" = .ok {
        roomId := "lobby"
        members := sortMembers replica.members
        recentMessages := replica.history
        version := replica.version } := by
  have hchecked : (chat.exec [] .start inTurn).any (fun r =>
      (∀ tr ∈ r.1, Serial tr) ∧ (∀ entry ∈ r.2.pending, ¬Concerns 0 "lobby" entry) ∧
      (lastJoined (about "lobby" (r.2.queue 0))).map (·.2.length) = some 3 ∧
      (r.2.sessions[0]?).any (fun session =>
        r.2.runtime.hub.Member session.user.connectionId "lobby") = true) = true := by decide
  obtain ⟨ts, world, hrun, hchecked⟩ := TSys.exists_run hchecked
  obtain ⟨hserial, hquiet, hlater, hinside⟩ := of_decide_eq_true hchecked
  obtain ⟨session, hsession, hmember⟩ := (Option.any_eq_true _ _).mp hinside
  obtain ⟨snapshot, later, replica, hlast, hrebuild, hsync⟩ :=
    rebuilds rfl hrun hserial hsession (of_decide_eq_true hmember) hquiet
  refine ⟨ts, world, session, hrun, hsession, snapshot, later, replica, hlast, ?_, hrebuild, hsync⟩
  simpa [hlast] using hlater

end ChatWorld

end Axes.Chat
