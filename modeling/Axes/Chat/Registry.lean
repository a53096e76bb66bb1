import Axes.Chat.FanOut

/-!
# Sessions, senders and members

`Registered` couples the two tables of the runtime to the sessions: ids are handed out in
order, a sender is registered as long as its session lives, and everyone the hub knows is
a registered session under its own identity. `ChatWorld.Steps` says what each step does.
-/

namespace Axes.Chat

open Axes.Lib

def Task.live : Task → Bool
  | connecting | running _ | failed _ => true
  | closed _ => false

/-- A task that can send has the dispatches it is built from. -/
theorem Task.pending_of_sends {task : Pending → Task} (h : task = running ∨ task = closed)
    (entries : Pending) : (task entries).pending = entries := by
  rcases h with rfl | rfl
  · rfl
  · rfl

namespace ChatWorld

/-- **What a step can do.** -/
inductive Steps (world : ChatWorld) : Action → ChatWorld → Prop
  | register {userId userName} :
      Steps world (.register userId userName) { world with
        runtime :=
          (world.runtime.registerConnection userId userName world.sessions.length).1
        sessions := world.sessions ++ [⟨(world.runtime.registerConnection userId userName
          world.sessions.length).2, .connecting⟩] }
  | connected {i user} (found : world.sessions[i]? = some ⟨user, .connecting⟩) :
      Steps world (.connected i) (world.locked i world.runtime user .running
        (world.runtime.sendToConnection user.connectionId
          (.connected user.userId user.userName)))
  | command {i user message now runtime dispatches}
      (found : world.sessions[i]? = some ⟨user, .running []⟩)
      (processed : world.runtime.processMessage user message now = (runtime, .ok dispatches)) :
      Steps world (.command i message now) (world.locked i runtime user .running dispatches)
  | refused {i user message now e} (found : world.sessions[i]? = some ⟨user, .running []⟩)
      (processed : world.runtime.processMessage user message now = (world.runtime, .error e)) :
      Steps world (.command i message now) (world.failing i user e.payload)
  | invalid {i user} (found : world.sessions[i]? = some ⟨user, .running []⟩) :
      Steps world (.invalid i) (world.failing i user invalidMessage)
  | reply {i user payload} (found : world.sessions[i]? = some ⟨user, .failed payload⟩) :
      Steps world (.reply i) (world.locked i world.runtime user .running
        (world.runtime.sendToConnection user.connectionId (.error payload)))
  | sent {i user task dispatch rest} (open_or_closed : task = .running ∨ task = .closed)
      (found : world.sessions[i]? = some ⟨user, task (dispatch :: rest)⟩) :
      Steps world (.send i) (world.sent i user task dispatch rest)
  | close {i user} (found : world.sessions[i]? = some ⟨user, .running []⟩) :
      Steps world (.close i) (world.locked i
        (world.runtime.unregisterConnection user.connectionId).1 user .closed
        (world.runtime.unregisterConnection user.connectionId).2)

theorem step_cases {world world' : ChatWorld} {action : Action}
    (h : chat.step world action = some world') : world.Steps action world' := by
  cases action with
  | register userId userName =>
      obtain rfl := Option.some.inj h
      exact .register
  | connected i =>
      simp only [chat, step] at h
      split at h
      · next found =>
          obtain rfl := Option.some.inj h
          exact .connected found
      · cases h
  | command i message now =>
      simp only [chat, step] at h
      split at h
      · next user found =>
          split at h
          · next runtime dispatches processed =>
              obtain rfl := Option.some.inj h
              exact .command found processed
          · next runtime e processed =>
              obtain rfl := Option.some.inj h
              -- A refused command leaves the runtime as it is.
              have hsame : runtime = world.runtime := by
                have hrefused := ChatRuntime.processMessage_refused (congrArg Prod.snd processed)
                rw [← hrefused.1, processed]
              subst hsame
              exact .refused found processed
      · cases h
  | invalid i =>
      simp only [chat, step] at h
      split at h
      · next found =>
          obtain rfl := Option.some.inj h
          exact .invalid found
      · cases h
  | reply i =>
      simp only [chat, step] at h
      split at h
      · next found =>
          obtain rfl := Option.some.inj h
          exact .reply found
      · cases h
  | send i =>
      simp only [chat, step] at h
      split at h
      · next found =>
          obtain rfl := Option.some.inj h
          exact .sent (.inl rfl) found
      · next found =>
          obtain rfl := Option.some.inj h
          exact .sent (.inr rfl) found
      · cases h
  | close i =>
      simp only [chat, step] at h
      split at h
      · next found =>
          obtain rfl := Option.some.inj h
          exact .close found
      · cases h

/-- The user a registered connection id belongs to. -/
def users (world : ChatWorld) (c : String) : Option ChatSessionUser :=
  (world.runtime.connections c).bind fun i => (world.sessions[i]?).map (·.user)

/-- Sessions, senders and members agree. -/
structure Registered (world : ChatWorld) : Prop where
  count : world.runtime.nextConnectionId = world.sessions.length
  ids : ∀ i session, world.sessions[i]? = some session →
    session.user.connectionId = connectionIdOf i
  senders : ∀ c i, world.runtime.connections c = some i ↔ ∃ session,
    world.sessions[i]? = some session ∧ session.user.connectionId = c ∧
      session.task.live = true
  wired : world.runtime.Wired world.users

variable {world world' : ChatWorld} {action : Action} {i d : Nat} {user : ChatSessionUser}
  {task task' : Task}

theorem registered_start : start.Registered where
  count := rfl
  ids i session h := by simp [start] at h
  senders c i := by simp [start, ChatRuntime.default]
  wired := by
    refine ⟨?_, ?_, ChatHub.coherent_default, ChatHub.named_default⟩ <;>
      simp [start, ChatRuntime.default, users]

theorem Registered.users_of_live (h : world.Registered)
    (hfound : world.sessions[i]? = some ⟨user, task⟩) (hlive : task.live = true) :
    world.users user.connectionId = some user ∧
      world.runtime.connections user.connectionId = some i := by
  have hsender := (h.senders user.connectionId i).mpr ⟨_, hfound, rfl, hlive⟩
  exact ⟨by simp [users, hsender, hfound], hsender⟩

theorem getElem?_set_of_some {α : Type} {xs : List α} {x y : α} {j : Nat}
    (h : xs[i]? = some x) : (xs.set i y)[j]? = if j = i then some y else xs[j]? := by
  obtain ⟨hi, -⟩ := List.getElem?_eq_some_iff.mp h
  rw [List.getElem?_set]
  by_cases hj : i = j
  · subst hj
    simp [hi]
  · simp [hj, Ne.symm hj]

theorem user_set (h : world.sessions[i]? = some ⟨user, task⟩) (j : Nat) :
    ((world.sessions.set i ⟨user, task'⟩)[j]?).map (·.user) =
      (world.sessions[j]?).map (·.user) := by
  rw [getElem?_set_of_some h]
  by_cases hj : j = i
  · subst hj
    simp [h]
  · simp [hj]

/-- Sessions keep their ids. -/
theorem Registered.ids_set (h : world.Registered)
    (hfound : world.sessions[i]? = some ⟨user, task⟩) (j : Nat) (session : Session)
    (hj : (world.sessions.set i ⟨user, task'⟩)[j]? = some session) :
    session.user.connectionId = connectionIdOf j := by
  rw [getElem?_set_of_some hfound] at hj
  split at hj
  · next hji =>
      obtain rfl := Option.some.inj hj
      have hid := h.ids i _ hfound
      rw [hji]
      exact hid
  · exact h.ids j session hj

/-- A session goes on under the same user. -/
theorem Registered.resume (h : world.Registered)
    (hfound : world.sessions[i]? = some ⟨user, task⟩)
    (hsessions : world'.sessions = world.sessions.set i ⟨user, task'⟩)
    (hlive : task'.live = task.live)
    (hconnections : world'.runtime.connections = world.runtime.connections)
    (hcount : world'.runtime.nextConnectionId = world.runtime.nextConnectionId)
    (hwired : world'.runtime.Wired world.users) : world'.Registered where
  count := by rw [hcount, h.count, hsessions, List.length_set]
  ids j session hj := by
    rw [hsessions] at hj
    exact h.ids_set hfound j session hj
  senders c j := by
    rw [hconnections, h.senders, hsessions, getElem?_set_of_some hfound]
    by_cases hj : j = i
    · subst hj
      simp [hfound, hlive]
    · simp [hj]
  wired := by
    have husers : world'.users = world.users := by
      funext c
      simp only [users, hconnections, hsessions, user_set hfound]
    rw [husers]
    exact hwired

/-- A fresh id: no session has it, and no sender. -/
theorem Registered.fresh (h : world.Registered) :
    world.runtime.connections (connectionIdOf world.sessions.length) = none := by
  by_contra hsome
  obtain ⟨i, hi⟩ := Option.ne_none_iff_exists'.mp hsome
  obtain ⟨session, hfound, hid, -⟩ := (h.senders _ i).mp hi
  rw [h.ids i session hfound] at hid
  obtain ⟨hlt, -⟩ := List.getElem?_eq_some_iff.mp hfound
  exact absurd (connectionIdOf_inj hid) (Nat.ne_of_lt hlt)

theorem Registered.register (h : world.Registered) {userId userName : String} :
    Registered { world with
      runtime := (world.runtime.registerConnection userId userName world.sessions.length).1
      sessions := world.sessions ++ [⟨(world.runtime.registerConnection userId userName
        world.sessions.length).2, .connecting⟩] } := by
  have hid : s!"chat-{world.runtime.nextConnectionId + 1}" =
      connectionIdOf world.sessions.length := by rw [h.count, connectionIdOf]
  simp only [ChatRuntime.registerConnection, hid]
  -- The new session is the last of the list, under the next id.
  generalize hnew : (⟨⟨connectionIdOf world.sessions.length, userId, userName⟩, .connecting⟩ :
    Session) = new
  have hnewId : new.user.connectionId = connectionIdOf world.sessions.length := by rw [← hnew]
  have hnewLive : new.task.live = true := by rw [← hnew]; rfl
  have hget : ∀ j session, (world.sessions ++ [new])[j]? = some session ↔
      world.sessions[j]? = some session ∨ (j = world.sessions.length ∧ session = new) := by
    intro j session
    rcases Nat.lt_trichotomy j world.sessions.length with hj | rfl | hj
    · simp [List.getElem?_append_left hj, Nat.ne_of_lt hj]
    · simp [eq_comm]
    · have hlength : (world.sessions ++ [new]).length ≤ j := by simpa using Nat.succ_le_of_lt hj
      simp [List.getElem?_eq_none hlength, List.getElem?_eq_none (Nat.le_of_lt hj),
        Nat.ne_of_gt hj]
  constructor
  case count => simp [h.count]
  case ids =>
    intro j session hj
    rcases (hget j session).mp hj with hold | ⟨rfl, rfl⟩
    · exact h.ids j session hold
    · exact hnewId
  case senders =>
    intro c j
    simp only [hget]
    by_cases hc : c = connectionIdOf world.sessions.length
    · subst hc
      rw [Function.update_self, Option.some.injEq]
      constructor
      · rintro rfl
        exact ⟨new, .inr ⟨rfl, rfl⟩, hnewId, hnewLive⟩
      · rintro ⟨session, hold | ⟨rfl, -⟩, hsame, -⟩
        -- An older session has an older id.
        · rw [h.ids j session hold] at hsame
          exact (connectionIdOf_inj hsame).symm
        · rfl
    · rw [Function.update_of_ne hc, h.senders]
      constructor
      · rintro ⟨session, hold, hsession⟩
        exact ⟨session, .inl hold, hsession⟩
      · rintro ⟨session, hold | ⟨-, rfl⟩, hsame, hlive⟩
        · exact ⟨session, hold, hsame, hlive⟩
        · exact absurd (hsame.symm.trans hnewId) hc
  case wired =>
    refine ⟨?_, ?_, h.wired.coherent, h.wired.named.mono ?_⟩
    · intro c j hj
      by_cases hc : c = connectionIdOf world.sessions.length
      · subst hc
        simp only [Function.update_self, Option.some.injEq] at hj
        rw [hj]
      · simp only [Function.update_of_ne hc] at hj
        exact h.wired.channel c j hj
    · intro c user huser
      obtain ⟨j, hj, -⟩ := Option.bind_eq_some_iff.mp huser
      exact ⟨j, hj⟩
    · -- the users known before are known by the same sessions
      intro c user huser
      obtain ⟨j, hj, hsession⟩ := Option.bind_eq_some_iff.mp huser
      have hc : c ≠ connectionIdOf world.sessions.length := by
        rintro rfl
        rw [h.fresh] at hj
        cases hj
      obtain ⟨session, hold, rfl⟩ := Option.map_eq_some_iff.mp hsession
      simp [users, Function.update_of_ne hc, hj, (hget j session).mpr (.inl hold)]

theorem Registered.close (h : world.Registered)
    (hfound : world.sessions[i]? = some ⟨user, .running []⟩) :
    (world.locked i (world.runtime.unregisterConnection user.connectionId).1 user .closed
      (world.runtime.unregisterConnection user.connectionId).2).Registered := by
  have hid : user.connectionId = connectionIdOf i := h.ids i _ hfound
  constructor
  case count =>
    simp only [locked, List.length_set]
    exact h.count
  case ids =>
    intro j session hj
    exact h.ids_set hfound j session hj
  case senders =>
    intro c j
    simp only [locked, getElem?_set_of_some hfound, ChatRuntime.unregisterConnection_connections]
    by_cases hc : c = user.connectionId
    · subst hc
      -- its own sender is gone, and no other session has its id
      simp only [Function.update_self, reduceCtorEq, false_iff]
      rintro ⟨session, hj, hsame, hlive⟩
      split at hj
      · obtain rfl := Option.some.inj hj
        cases hlive
      · next hji =>
          rw [h.ids j session hj, hid] at hsame
          exact hji (connectionIdOf_inj hsame)
    · rw [Function.update_of_ne hc, h.senders]
      by_cases hj : j = i
      · subst hj
        simp [hfound, Ne.symm hc]
      · simp [hj]
  case wired =>
    have husers : users (world.locked i
        (world.runtime.unregisterConnection user.connectionId).1 user .closed
        (world.runtime.unregisterConnection user.connectionId).2) =
        Function.update world.users user.connectionId none := by
      funext c
      simp only [users, locked, user_set hfound, ChatRuntime.unregisterConnection_connections]
      by_cases hc : c = user.connectionId
      · subst hc
        simp
      · simp [hc, users]
    rw [husers]
    exact h.wired.unregister user.connectionId

theorem Registered.step (h : world.Registered) (hstep : chat.step world action = some world') :
    world'.Registered := by
  cases step_cases hstep with
  | register => exact h.register
  | connected found => exact h.resume found rfl rfl rfl rfl h.wired
  | @command i user message now runtime dispatches found processed =>
      obtain ⟨huser, -⟩ := h.users_of_live found rfl
      have hnext : (world.runtime.processMessage user message now).1.Wired world.users :=
        h.wired.processMessage_next huser
      obtain ⟨hub, hfst, -⟩ := ChatRuntime.processMessage_fst world.runtime user message now
      rw [processed] at hnext hfst
      simp only at hnext hfst
      exact h.resume found rfl rfl (by rw [locked, hfst]) (by rw [locked, hfst]) hnext
  | refused found => exact h.resume found rfl rfl rfl rfl h.wired
  | invalid found => exact h.resume found rfl rfl rfl rfl h.wired
  | reply found => exact h.resume found rfl rfl rfl rfl h.wired
  | sent open_or_closed found =>
      rcases open_or_closed with rfl | rfl
      · exact h.resume found rfl rfl rfl rfl h.wired
      · exact h.resume found rfl rfl rfl rfl h.wired
  | close found => exact h.close found

theorem registered : chat.Inductive Registered where
  init := by
    rintro world rfl
    exact registered_start
  step _ _ _ h hstep := h.step hstep

end ChatWorld

end Axes.Chat
