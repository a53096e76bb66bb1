import Axes.Chat.ExactlyOnce
import Axes.Chat.Replica

/-!
# What a session is dispatched keeps its replicas

Heard in the order of dispatching, the events of a room make sense to a session from its
first to its last, and as long as it is registered they leave it with what the hub stores.
The queue is another order, and the next modules say when it is this one.
-/

namespace Axes.Chat

open Axes.Lib Axes.Lib.Mailbox

namespace ChatHub

variable {hub : ChatHub} {user : ChatSessionUser} {message : ChatCommand} {now : Int}
  {c : String}

/-- Someone who is in no room is owed nothing. -/
theorem owed_of_stranger (h : ∀ r, ¬hub.Member c r) : hub.owed user message now c = [] := by
  cases message <;> simp only [owed, h, and_false, if_false] <;> split <;> rfl

theorem owedOnClose_of_stranger (h : ∀ r, ¬hub.Member c r) : hub.owedOnClose user c = [] := by
  simp [owedOnClose, h]

end ChatHub

theorem ChatRuntime.Wired.follows {users : String → Option ChatSessionUser}
    {runtime : ChatRuntime} (h : runtime.Wired users) {user : ChatSessionUser}
    (huser : users user.connectionId = some user) (message : ChatCommand) (now : Int)
    (c r : String) :
    runtime.hub.Follows (runtime.processMessage user message now).1.hub c r
      (runtime.hub.heard user message now c) := by
  cases message with
  | joinRoom raw =>
      rw [ChatRuntime.processMessage]
      exact ChatHub.follows_joinRoom runtime.hub user raw now c r
  | leaveRoom raw =>
      rw [ChatRuntime.processMessage]
      exact ChatHub.follows_leaveRoom h.named huser raw now c r
  | sendRoomMessage raw content =>
      rw [ChatRuntime.processMessage]
      exact ChatHub.follows_sendRoomMessage runtime.hub user raw content now c r
  | syncRoomState raw => exact ChatHub.follows_syncRoomState runtime.hub user raw now c r
  | ping =>
      refine .silent ?_ rfl
      intro event hevent
      simp only [ChatHub.heard, ChatHub.answer, ChatHub.owed, List.append_nil,
        List.mem_ite_nil_right, List.mem_singleton] at hevent
      obtain ⟨-, rfl⟩ := hevent
      simp [ChatEvent.roomId?]

namespace ChatWorld

variable {world world' : ChatWorld} {action : Action} {d i : Nat} {r : String}

/-- Session `d` is not unregistered. -/
def Open (world : ChatWorld) (d : Nat) : Prop :=
  ∀ session, world.sessions[d]? = some session → session.task.live = true

/-- Whoever is in a room is a session that is still registered. -/
theorem Registered.session_of_member (h : world.Registered)
    (hmember : world.runtime.hub.Member (connectionIdOf d) r) :
    ∃ session, world.sessions[d]? = some session ∧ session.task.live = true := by
  obtain ⟨j, hj⟩ := h.wired.member hmember
  obtain ⟨session, hfound, -, hlive⟩ := (h.senders _ j).mp hj
  obtain rfl := connectionIdOf_inj (h.wired.channel _ _ hj)
  exact ⟨session, hfound, hlive⟩

theorem Registered.connectionId_eq (h : world.Registered) {session : Session}
    (hfound : world.sessions[i]? = some session) :
    connectionIdOf d = session.user.connectionId ↔ d = i := by
  rw [h.ids i session hfound]
  exact ⟨fun heq => connectionIdOf_inj heq, fun heq => heq ▸ rfl⟩

/-- Whoever acts is registered. -/
theorem ne_of_closed {session acting : Session} (hfound : world.sessions[d]? = some session)
    (hclosed : session.task.live = false) (hacting : world.sessions[i]? = some acting)
    (hlive : acting.task.live = true) : d ≠ i := by
  rintro rfl
  rw [hfound] at hacting
  rw [Option.some.inj hacting, hlive] at hclosed
  cases hclosed

/-- Nothing is dispatched to a session that is unregistered. -/
theorem Registered.nothing_of_closed (h : world.Registered)
    (hstep : chat.step world action = some world') {session : Session}
    (hfound : world.sessions[d]? = some session) (hclosed : session.task.live = false) :
    world.answered action d = [] ∧ world.owed action (connectionIdOf d) = [] := by
  have hstranger : ∀ r, ¬world.runtime.hub.Member (connectionIdOf d) r := by
    intro r hmember
    obtain ⟨session', hfound', hlive⟩ := h.session_of_member hmember
    rw [hfound] at hfound'
    rw [Option.some.inj hfound', hlive] at hclosed
    cases hclosed
  cases step_cases hstep with
  | register | invalid | sent => exact ⟨rfl, rfl⟩
  | connected found => simp [answered, owed, found, ne_of_closed hfound hclosed found rfl]
  | reply found => simp [answered, owed, found, ne_of_closed hfound hclosed found rfl]
  | command found =>
      simp [answered, owed, found, ne_of_closed hfound hclosed found rfl,
        ChatHub.owed_of_stranger hstranger]
  | refused found =>
      simp [answered, owed, found, ne_of_closed hfound hclosed found rfl,
        ChatHub.owed_of_stranger hstranger]
  | close found => simp [answered, owed, found, ChatHub.owedOnClose_of_stranger hstranger]

/-- What a step dispatches to a session that it does not unregister keeps its view. -/
theorem Registered.follows (h : world.Registered) (hstep : chat.step world action = some world')
    (hclose : action ≠ .close d) (r : String) :
    world.runtime.hub.Follows world'.runtime.hub (connectionIdOf d) r
      (world.answered action d ++ world.owed action (connectionIdOf d)) := by
  cases step_cases hstep with
  | register | invalid | sent => exact .silent (by simp [answered, owed]) rfl
  | connected found =>
      refine .silent ?_ rfl
      intro event hevent
      simp only [answered, owed, found, List.append_nil, List.mem_ite_nil_right,
        List.mem_singleton] at hevent
      obtain ⟨-, rfl⟩ := hevent
      simp [ChatEvent.roomId?]
  | reply found =>
      refine .silent ?_ rfl
      intro event hevent
      simp only [answered, owed, found, List.append_nil, List.mem_ite_nil_right,
        List.mem_singleton] at hevent
      obtain ⟨-, rfl⟩ := hevent
      simp [ChatEvent.roomId?]
  | @command i user message now runtime dispatches found processed =>
      obtain ⟨huser, -⟩ := h.users_of_live found rfl
      have hfollows := h.wired.follows huser message now (connectionIdOf d) r
      rw [processed] at hfollows
      simpa only [ChatHub.heard, answered, owed, found, h.connectionId_eq found, locked]
        using hfollows
  | @refused i user message now e found processed =>
      obtain ⟨huser, -⟩ := h.users_of_live found rfl
      have hfollows := h.wired.follows huser message now (connectionIdOf d) r
      rw [processed] at hfollows
      simpa only [ChatHub.heard, answered, owed, found, h.connectionId_eq found, failing]
        using hfollows
  | @close i user found =>
      obtain ⟨huser, -⟩ := h.users_of_live found rfl
      have hc : connectionIdOf d ≠ user.connectionId := fun heq =>
        hclose (congrArg Action.close ((h.connectionId_eq found).mp heq).symm)
      have hfollows := ChatHub.follows_disconnect h.wired.coherent h.wired.named huser hc r
      simpa only [answered, owed, found, List.nil_append, locked,
        ChatRuntime.unregisterConnection] using hfollows

/-- A session that unregisters hears nothing of it, and is closed. -/
theorem Registered.closing (h : world.Registered)
    (hstep : chat.step world (.close d) = some world') :
    world.answered (.close d) d = [] ∧ world.owed (.close d) (connectionIdOf d) = [] ∧
      ¬world'.Open d := by
  cases step_cases hstep with
  | @close _ user found =>
      refine ⟨rfl, ?_, ?_⟩
      · simp [owed, found, ChatHub.owedOnClose, (h.connectionId_eq found).mpr rfl]
      · intro hopen
        have hlive := hopen _ ((getElem?_set_of_some found).trans (if_pos rfl))
        cases hlive

/-- Heard in the order of dispatching, every room makes sense to every session, and mirrors
the hub while the session is registered. -/
def Followed (world : ChatWorld) : Prop :=
  ∀ d r, ∃ view, Replica.hearAll none (about r (received d world.log)) = some view ∧
    (world.Open d → world.runtime.hub.Mirrors (connectionIdOf d) r view)

/-- An unregistered session stays so. -/
theorem closed_stays (hstep : chat.step world action = some world') {session : Session}
    (hfound : world.sessions[d]? = some session) (hclosed : session.task.live = false) :
    ∃ session', world'.sessions[d]? = some session' ∧ session'.task.live = false := by
  have hother : ∀ {i : Nat} {acting : Session} {new : Session},
      world.sessions[i]? = some acting → acting.task.live = true →
      ∃ session', (world.sessions.set i new)[d]? = some session' ∧
        session'.task.live = false := by
    intro i acting new hacting hlive
    refine ⟨session, ?_, hclosed⟩
    rw [getElem?_set_of_some hacting, if_neg (ne_of_closed hfound hclosed hacting hlive), hfound]
  cases step_cases hstep with
  | register =>
      obtain ⟨hlt, -⟩ := List.getElem?_eq_some_iff.mp hfound
      exact ⟨session, by rw [List.getElem?_append_left hlt, hfound], hclosed⟩
  | connected found => exact hother found rfl
  | command found => exact hother found rfl
  | refused found => exact hother found rfl
  | invalid found => exact hother found rfl
  | reply found => exact hother found rfl
  | close found => exact hother found rfl
  | @sent i user task entry rest open_or_closed found =>
      rcases open_or_closed with rfl | rfl
      · exact hother found rfl
      · by_cases hd : d = i
        · exact ⟨⟨user, .closed rest⟩, by rw [sent, getElem?_set_of_some found, if_pos hd], rfl⟩
        · exact ⟨session, by rw [sent, getElem?_set_of_some found, if_neg hd, hfound], hclosed⟩

theorem Open.before (hstep : chat.step world action = some world') (hopen : world'.Open d) :
    world.Open d := by
  intro session hfound
  by_contra hclosed
  obtain ⟨session', hfound', hclosed'⟩ :=
    closed_stays hstep hfound (Bool.eq_false_iff.mpr hclosed)
  rw [hopen session' hfound'] at hclosed'
  cases hclosed'

theorem Followed.step (h : world.Followed) (hregistered : world.Registered)
    (hstep : chat.step world action = some world') : world'.Followed := by
  intro d r
  obtain ⟨view, hview, hmirrors⟩ := h d r
  obtain ⟨new, hlog, hnew⟩ := hregistered.received hstep d
  rw [hlog, received_append, about_append, Replica.hearAll_append, hview, hnew, Option.bind_some]
  -- Its own unregistering ends what is asked of the view.
  by_cases hclose : action = .close d
  · subst hclose
    obtain ⟨hanswered, howed, hclosed⟩ := hregistered.closing hstep
    rw [hanswered, howed]
    exact ⟨view, rfl, fun hopen => absurd hopen hclosed⟩
  by_cases hopen : world.Open d
  · obtain ⟨view', hheard, hview'⟩ := hregistered.follows hstep hclose r view (hmirrors hopen)
    exact ⟨view', hheard, fun _ => hview'⟩
  · have hclosed := hopen
    -- Unregistered before: it is dispatched nothing, and stays unregistered.
    unfold Open at hclosed
    push Not at hclosed
    obtain ⟨session, hfound, hlive⟩ := hclosed
    obtain ⟨hanswered, howed⟩ :=
      hregistered.nothing_of_closed hstep hfound (Bool.eq_false_iff.mpr hlive)
    rw [hanswered, howed]
    exact ⟨view, rfl, fun hopen' => absurd (hopen'.before hstep) hopen⟩

theorem followed : chat.Inductive fun world => world.Registered ∧ world.Followed := by
  refine registered.strengthen ?_ fun _ _ _ h _ hfollowed hstep => hfollowed.step h hstep
  rintro world rfl d r
  refine ⟨none, rfl, ?_⟩
  intro _
  rintro ⟨room, hfound, -⟩
  cases hfound

end ChatWorld

end Axes.Chat
