import Axes.Lib.Mailbox
import Axes.Chat.Registry

/-!
# Exactly-once fan-out

The runtime's lock and the channels make a mailbox for each session: what sits on a
channel and what is pending for it are its share of everything dispatched. Each locked
step dispatches to a channel what its connection is answered and owed, so over a whole run
the messages and presence changes are the owed ones, each once.
-/

namespace Axes.Chat

open Axes.Lib Axes.Lib.Mailbox

/-- A message or a presence change: what is fanned out to a room. -/
def ChatEvent.isFanOut : ChatEvent → Bool
  | roomMessage _ | presenceChanged _ => true
  | connected _ _ | joinedRoom _ | leftRoom _ | roomState _ | pong | error _ => false

namespace ChatWorld

/-- Everything dispatched and not yet sent, task by task. -/
def pending (world : ChatWorld) : Pending := world.sessions.flatMap (·.task.pending)

/-- The events on a channel, in the order they were sent. -/
def queue (world : ChatWorld) (d : Nat) : List ChatEvent := (world.queues d).map (·.1)

/-- The events still to be sent on a channel. -/
def pendingFor (world : ChatWorld) (d : Nat) : List ChatEvent :=
  (share (addressed d) world.pending).map (·.1)

/-- The dispatch a step is about to send. -/
def sending (world : ChatWorld) : Action → Option (ChatDispatch × Nat)
  | .send i => (world.sessions[i]?).bind fun session => session.task.pending.head?
  | _ => none

/-- What a step owes to connection `c`. -/
def owed (world : ChatWorld) (action : Action) (c : String) : List ChatEvent :=
  match action with
  | .command i message now =>
      match world.sessions[i]? with
      | some session => world.runtime.hub.owed session.user message now c
      | none => []
  | .close i =>
      match world.sessions[i]? with
      | some session => world.runtime.hub.owedOnClose session.user c
      | none => []
  | .register _ _ | .connected _ | .invalid _ | .reply _ | .send _ => []

/-- What a step answers to session `d`. -/
def answered (world : ChatWorld) (action : Action) (d : Nat) : List ChatEvent :=
  match action with
  | .connected i =>
      match world.sessions[i]? with
      | some session =>
          if d = i then [.connected session.user.userId session.user.userName] else []
      | none => []
  | .command i message _ =>
      match world.sessions[i]? with
      | some session => if d = i then world.runtime.hub.answer session.user message else []
      | none => []
  | .reply i =>
      match world.sessions[i]? with
      | some ⟨_, .failed payload⟩ => if d = i then [.error payload] else []
      | _ => []
  | .register _ _ | .invalid _ | .send _ | .close _ => []

variable {world world' : ChatWorld} {action : Action} {d i : Nat}

/-! ## The mailboxes -/

/-- What a step does to the log, the channels and the pending dispatches. -/
inductive Posts (world : ChatWorld) (action : Action) (world' : ChatWorld) : Prop
  | dispatched (new : List ChatDispatch) (idle : world.sending action = none)
      (log : world'.log = world.log ++ new) (queues : world'.queues = world.queues)
      (pending : world'.pending.Perm (world.pending ++ new.zipIdx world.log.length)) :
      Posts world action world'
  | sent (entry : ChatDispatch × Nat) (sending : world.sending action = some entry)
      (log : world'.log = world.log)
      (queues : world'.queues = Function.update world.queues entry.1.sender
        (world.queues entry.1.sender ++ [(entry.1.event, entry.2)]))
      (pending : world.pending.Perm (entry :: world'.pending)) : Posts world action world'

/-- Replacing one element replaces its part of a `flatMap`, up to order. -/
theorem flatMap_set_perm {α β : Type} {xs : List α} {x : α} (h : xs[i]? = some x)
    (f : α → List β) :
    ∃ rest, (xs.flatMap f).Perm (f x ++ rest) ∧
      ∀ y, ((xs.set i y).flatMap f).Perm (f y ++ rest) := by
  obtain ⟨hi, rfl⟩ := List.getElem?_eq_some_iff.mp h
  have hset : ∀ y, ((xs.set i y).flatMap f).Perm
      (f y ++ ((xs.take i).flatMap f ++ (xs.drop (i + 1)).flatMap f)) := by
    intro y
    rw [List.set_eq_take_append_cons_drop, if_pos hi, List.flatMap_append, List.flatMap_cons,
      ← List.append_assoc, ← List.append_assoc]
    exact List.Perm.append_right _ List.perm_append_comm
  refine ⟨_, ?_, hset⟩
  have hself := hset xs[i]
  rwa [List.set_getElem_self] at hself

/-- A locked step of a task that has nothing pending. -/
theorem locked_pending {runtime : ChatRuntime} {user : ChatSessionUser} {task : Pending → Task}
    {session : Session} {new : List ChatDispatch} (hfound : world.sessions[i]? = some session)
    (hidle : session.task.pending = []) (htask : ∀ p, (task p).pending = p) :
    (world.locked i runtime user task new).pending.Perm
      (world.pending ++ new.zipIdx world.log.length) := by
  obtain ⟨rest, hbefore, hafter⟩ := flatMap_set_perm hfound (·.task.pending)
  refine (hafter _).trans ?_
  simp only [hidle, List.nil_append] at hbefore
  rw [htask]
  exact List.perm_append_comm.trans (List.Perm.append_right _ hbefore.symm)

theorem failing_pending {user : ChatSessionUser} {payload : ChatErrorPayload} {session : Session}
    (hfound : world.sessions[i]? = some session) (hidle : session.task.pending = []) :
    (world.failing i user payload).pending.Perm world.pending := by
  obtain ⟨rest, hbefore, hafter⟩ := flatMap_set_perm hfound (·.task.pending)
  simp only [hidle, List.nil_append] at hbefore
  exact (hafter _).trans hbefore.symm

theorem sent_pending {user : ChatSessionUser} {task : Pending → Task} {session : Session}
    {entry : ChatDispatch × Nat} {rest : Pending} (hfound : world.sessions[i]? = some session)
    (hfirst : session.task.pending = entry :: rest) (htask : ∀ p, (task p).pending = p) :
    world.pending.Perm (entry :: (world.sent i user task entry rest).pending) := by
  obtain ⟨others, hbefore, hafter⟩ := flatMap_set_perm hfound (·.task.pending)
  refine hbefore.trans ?_
  -- The task gives up its first pending item and keeps the others.
  have hlater := hafter ⟨user, task rest⟩
  rw [htask] at hlater
  rw [hfirst]
  exact List.Perm.cons entry hlater.symm

theorem step_posts (hstep : chat.step world action = some world') :
    world.Posts action world' := by
  cases step_cases hstep with
  | register =>
      refine .dispatched [] rfl (List.append_nil _).symm rfl ?_
      simp [pending, Task.pending]
  | connected found => exact .dispatched _ rfl rfl rfl (locked_pending found rfl fun _ => rfl)
  | command found => exact .dispatched _ rfl rfl rfl (locked_pending found rfl fun _ => rfl)
  | refused found =>
      refine .dispatched [] rfl (List.append_nil _).symm rfl ?_
      simpa using failing_pending found rfl
  | invalid found =>
      refine .dispatched [] rfl (List.append_nil _).symm rfl ?_
      simpa using failing_pending found rfl
  | reply found => exact .dispatched _ rfl rfl rfl (locked_pending found rfl fun _ => rfl)
  | @sent i user task entry rest open_or_closed found =>
      have htask := Task.pending_of_sends open_or_closed
      refine .sent entry ?_ rfl rfl (sent_pending found (htask _) htask)
      simp [sending, found, htask]
  | close found => exact .dispatched _ rfl rfl rfl (locked_pending found rfl fun _ => rfl)

/-- Every session's channel is a mailbox of the log. -/
def Posted (world : ChatWorld) : Prop :=
  ∀ d, Accounted (addressed d) world.log (world.queues d) world.pending

theorem queues_sent {entry : ChatDispatch × Nat} :
    Function.update world.queues entry.1.sender
      (world.queues entry.1.sender ++ [(entry.1.event, entry.2)]) d =
        world.queues d ++ (pick (addressed d) entry).toList := by
  unfold pick addressed
  by_cases hd : entry.1.sender = d
  · subst hd
    simp
  · simp [hd, Ne.symm hd]

theorem Posted.step (h : world.Posted) (hstep : chat.step world action = some world') :
    world'.Posted := by
  intro d
  cases step_posts hstep with
  | dispatched new _ hlog hqueues hpending =>
      rw [hlog, hqueues]
      exact (h d).dispatch hpending
  | sent entry _ hlog hqueues hpending =>
      rw [hlog, hqueues, queues_sent]
      exact (h d).send hpending

theorem posted : chat.Inductive Posted where
  init := by
    rintro world rfl d
    exact accounted_nil
  step _ _ _ h hstep := h.step hstep

/-! ## What a step dispatches -/

/-- **One step's dispatches.** Each channel receives what its session is answered and its
connection is owed. -/
theorem Registered.received (h : world.Registered)
    (hstep : chat.step world action = some world') (d : Nat) :
    ∃ new, world'.log = world.log ++ new ∧
      received d new = world.answered action d ++ world.owed action (connectionIdOf d) := by
  cases step_cases hstep with
  | register => exact ⟨[], (List.append_nil _).symm, rfl⟩
  | @connected i user found =>
      obtain ⟨-, hsender⟩ := h.users_of_live found rfl
      refine ⟨_, rfl, ?_⟩
      simp [ChatRuntime.sendToConnection, hsender, answered, owed, found]
  | @command i user message now runtime dispatches found processed =>
      obtain ⟨huser, hsender⟩ := h.users_of_live found rfl
      refine ⟨_, rfl, ?_⟩
      simp only [answered, owed, found]
      exact h.wired.processMessage huser hsender (congrArg Prod.snd processed)
  | @refused i user message now e found processed =>
      refine ⟨[], (List.append_nil _).symm, ?_⟩
      obtain ⟨-, hanswer, howed⟩ :=
        ChatRuntime.processMessage_refused (congrArg Prod.snd processed)
      simp [answered, owed, found, hanswer, howed]
  | invalid => exact ⟨[], (List.append_nil _).symm, rfl⟩
  | @reply i user payload found =>
      obtain ⟨-, hsender⟩ := h.users_of_live found rfl
      refine ⟨_, rfl, ?_⟩
      simp [ChatRuntime.sendToConnection, hsender, answered, owed, found]
  | sent => exact ⟨[], (List.append_nil _).symm, rfl⟩
  | @close i user found =>
      obtain ⟨huser, -⟩ := h.users_of_live found rfl
      refine ⟨_, rfl, ?_⟩
      simp only [answered, owed, found, List.nil_append]
      exact h.wired.unregisterConnection huser

end ChatWorld

namespace ChatHub

theorem answer_isFanOut {user : ChatSessionUser} {message : ChatCommand} {hub : ChatHub} :
    (hub.answer user message).filter ChatEvent.isFanOut = [] := by
  cases message <;> simp only [answer] <;> (try split) <;> rfl

theorem owed_isFanOut {user : ChatSessionUser} {message : ChatCommand} {now : Int} {c : String}
    {hub : ChatHub} :
    (hub.owed user message now c).filter ChatEvent.isFanOut = hub.owed user message now c := by
  cases message <;> simp only [owed] <;> (try split) <;> (try split) <;> rfl

theorem owedOnClose_isFanOut {user : ChatSessionUser} {c : String} {hub : ChatHub} :
    (hub.owedOnClose user c).filter ChatEvent.isFanOut = hub.owedOnClose user c := by
  refine List.filter_eq_self.mpr ?_
  intro event hevent
  obtain ⟨r, -, rfl⟩ := List.mem_map.mp hevent
  rfl

end ChatHub

namespace ChatWorld

variable {world world' : ChatWorld} {action : Action} {d : Nat}

theorem answered_isFanOut : (world.answered action d).filter ChatEvent.isFanOut = [] := by
  cases action <;> simp only [answered] <;> (try split) <;> (try split) <;>
    first | rfl | exact ChatHub.answer_isFanOut

theorem owed_isFanOut {c : String} :
    (world.owed action c).filter ChatEvent.isFanOut = world.owed action c := by
  cases action <;> simp only [owed] <;> (try split) <;>
    first | rfl | exact ChatHub.owed_isFanOut | exact ChatHub.owedOnClose_isFanOut

/-- Everything fanned out to a channel over a run is what its connection was owed. -/
theorem log_owed {start : ChatWorld} {ts : List (Transition ChatWorld Action)}
    (hinit : chat.init start) (hrun : chat.Run start ts world) :
    (received d world.log).filter ChatEvent.isFanOut =
      ts.flatMap fun tr => tr.pre.owed tr.action (connectionIdOf d) := by
  induction hrun with
  | refl =>
      obtain rfl := hinit
      rfl
  | @step ts world action world' hrun hstep ih =>
      obtain ⟨new, hlog, hnew⟩ := (registered.run hinit hrun).received hstep d
      rw [hlog, received_append, List.filter_append, ih, hnew, List.filter_append,
        answered_isFanOut, owed_isFanOut, List.nil_append, List.flatMap_append]
      simp

/-- **Exactly-once fan-out.** In every reachable state, the messages and presence changes
on a session's channel and still pending for it are, up to order, what the steps of the
run owed to its connection. -/
theorem fan_out_exactly_once {start : ChatWorld} {ts : List (Transition ChatWorld Action)}
    (hinit : chat.init start) (hrun : chat.Run start ts world) {session : Session}
    (hsession : world.sessions[d]? = some session) :
    ((world.queue d ++ world.pendingFor d).filter ChatEvent.isFanOut).Perm
      (ts.flatMap fun tr => tr.pre.owed tr.action session.user.connectionId) := by
  rw [(registered.run hinit hrun).ids d session hsession, ← log_owed hinit hrun]
  exact (posted.run hinit hrun d).values.filter _

/-- Ann is owed Bob's join, her own message and Bob's leave, and has them on her channel. -/
theorem fan_out_exactly_once_in_turn : ∃ ts world session, chat.Run .start ts world ∧
    world.sessions[0]? = some session ∧
    (ts.flatMap fun tr => tr.pre.owed tr.action session.user.connectionId).length = 3 ∧
    ((world.queue 0 ++ world.pendingFor 0).filter ChatEvent.isFanOut).Perm
      (ts.flatMap fun tr => tr.pre.owed tr.action session.user.connectionId) := by
  have hthree : (chat.exec [] .start inTurn).any (fun r => (r.2.sessions[0]?).any fun session =>
      (r.1.flatMap fun tr => tr.pre.owed tr.action session.user.connectionId).length = 3) =
      true := by decide
  obtain ⟨ts, world, hrun, hlength⟩ := TSys.exists_run hthree
  obtain ⟨session, hsession, howed⟩ := (Option.any_eq_true _ _).mp hlength
  exact ⟨ts, world, session, hrun, hsession, of_decide_eq_true howed,
    fan_out_exactly_once rfl hrun hsession⟩

end ChatWorld

end Axes.Chat
