import Axes.Chat.Identity
import Axes.Chat.View

/-!
# The life of a connection

A session's channel is reached by no one before its own task has sent `Connected`: until
then its connection is in no room, and only a room fans out. While it lives, the runtime
and the hub know it under one id and one user; once it is unregistered neither does again.
-/

namespace Axes.Chat

open Axes.Lib Axes.Lib.Mailbox

/-- The session an action is a step of. -/
def Action.actor : Action → Option Nat
  | register _ _ => none
  | connected i | command i _ _ | invalid i | reply i | send i | close i => some i

/-- A call adds no one to a room but who joins. -/
theorem HubCall.pairs_subset {members : String → String → Prop} {call : HubCall}
    {reply : HubReply} {c r : String} (h : call.pairs members reply c r) :
    members c r ∨ ∃ user raw, call = .joinRoom user raw ∧ c = user.connectionId := by
  unfold pairs at h
  split at h
  · next user raw result =>
      rcases h with ⟨hc, -⟩ | h
      · exact .inr ⟨user, raw, rfl, hc⟩
      · exact .inl h
  · exact .inl h.1
  · exact .inl h.1
  · exact .inl h

namespace ChatWorld

variable {world world' : ChatWorld} {action : Action} {d i : Nat} {user : ChatSessionUser}

/-! ## Before the greeting -/

/-- No one has reached channel `d`: nothing was sent on it, no other session is about to,
and its connection is in no room. -/
structure Untouched (world : ChatWorld) (d : Nat) : Prop where
  outside : ∀ r, ¬world.runtime.hub.Member (connectionIdOf d) r
  silent : ∀ j session, world.sessions[j]? = some session → j ≠ d →
    ∀ entry ∈ session.task.pending, entry.1.sender ≠ d
  empty : world.queues d = []

theorem answered_of_other (hother : action.actor ≠ some d) : world.answered action d = [] := by
  have hne : ∀ {i}, some i ≠ some d → ¬d = i := by
    rintro i h rfl
    exact h rfl
  cases action with
  | register | invalid | send | close => rfl
  | connected i | command i _ _ | reply i =>
      simp only [answered]
      split
      · rw [if_neg (hne hother)]
      · rfl

theorem owed_of_outside {c : String} (h : ∀ r, ¬world.runtime.hub.Member c r) :
    world.owed action c = [] := by
  cases action with
  | register | connected | invalid | reply | send => rfl
  | command i message now =>
      simp only [owed]
      split
      · exact ChatHub.owed_of_stranger h
      · rfl
  | close i =>
      simp only [owed]
      split
      · exact ChatHub.owedOnClose_of_stranger h
      · rfl

/-- Another session's step does not bring a connection into a room. -/
theorem Registered.outside_step (h : world.Registered)
    (hstep : chat.step world action = some world') (hother : action.actor ≠ some d)
    (houtside : ∀ r, ¬world.runtime.hub.Member (connectionIdOf d) r) (r : String) :
    ¬world'.runtime.hub.Member (connectionIdOf d) r := by
  cases step_cases hstep with
  | register | connected | refused | invalid | reply | sent => exact houtside r
  | @command i user message now runtime dispatches found processed =>
      obtain ⟨hub, hfst, hsame | ⟨call, reply, hmoves, hjoins⟩⟩ :=
        ChatRuntime.processMessage_fst world.runtime user message now
      · rw [processed] at hfst
        obtain rfl : runtime = _ := hfst
        rw [locked, hsame]
        exact houtside r
      · rw [processed] at hfst
        obtain rfl : runtime = _ := hfst
        show ¬hub.Member _ r
        rw [hmoves.member h.wired.coherent]
        intro hmember
        rcases HubCall.pairs_subset hmember with hbefore | ⟨joiner, raw, hcall, hself⟩
        · exact houtside r hbefore
        · obtain rfl := hjoins joiner raw hcall
          exact hother (congrArg some ((h.connectionId_eq found).mp hself).symm)
  | @close i user found =>
      have hmoves := world.runtime.hub.disconnect_moves user.connectionId
      show ¬(world.runtime.hub.disconnect user.connectionId).1.Member _ r
      rw [hmoves.member h.wired.coherent]
      intro hmember
      exact houtside r hmember.1

theorem not_mem_of_received {dispatches : List ChatDispatch} (h : received d dispatches = []) :
    ∀ dispatch ∈ dispatches, dispatch.sender ≠ d := by
  intro dispatch hmem hsender
  have hnone := List.filterMap_eq_nil_iff.mp h dispatch hmem
  rw [addressed, if_pos hsender] at hnone
  cases hnone

/-- A locked step that dispatches nothing to the channel. -/
theorem Untouched.locked (h : world.Untouched d) {runtime : ChatRuntime} {session : Session}
    {task : Pending → Task} {dispatches : List ChatDispatch}
    (hfound : world.sessions[i]? = some session) (htask : ∀ p, (task p).pending = p)
    (hnew : received d dispatches = [])
    (houtside : ∀ r, ¬runtime.hub.Member (connectionIdOf d) r) :
    (world.locked i runtime user task dispatches).Untouched d where
  outside := houtside
  silent j session' hj hne entry hentry := by
    simp only [ChatWorld.locked] at hj
    rw [getElem?_set_of_some hfound] at hj
    split at hj
    · obtain rfl := Option.some.inj hj
      rw [htask] at hentry
      exact not_mem_of_received hnew entry.1 (List.fst_mem_of_mem_zipIdx hentry)
    · exact h.silent j session' hj hne entry hentry
  empty := h.empty

theorem Untouched.failing (h : world.Untouched d) {session : Session}
    (hfound : world.sessions[i]? = some session) (payload : ChatErrorPayload) :
    (world.failing i user payload).Untouched d where
  outside := h.outside
  silent j session' hj hne entry hentry := by
    simp only [ChatWorld.failing] at hj
    rw [getElem?_set_of_some hfound] at hj
    split at hj
    · obtain rfl := Option.some.inj hj
      cases hentry
    · exact h.silent j session' hj hne entry hentry
  empty := h.empty

/-- **Only its own session reaches an untouched channel.** -/
theorem Untouched.step (h : world.Untouched d) (hregistered : world.Registered)
    (hstep : chat.step world action = some world') (hother : action.actor ≠ some d) :
    world'.Untouched d := by
  have houtside := hregistered.outside_step hstep hother h.outside
  obtain ⟨new, hlog, hnew⟩ := hregistered.received hstep d
  rw [answered_of_other hother, owed_of_outside h.outside] at hnew
  cases step_cases hstep with
  | register =>
      refine ⟨houtside, ?_, h.empty⟩
      intro j session hj hne entry hentry
      rw [List.getElem?_append] at hj
      split at hj
      · exact h.silent j session hj hne entry hentry
      · rw [List.getElem?_singleton] at hj
        split at hj
        · obtain rfl := Option.some.inj hj
          cases hentry
        · cases hj
  | connected found | command found | reply found =>
      rw [← List.append_cancel_left hlog] at hnew
      exact h.locked found (fun _ => rfl) hnew houtside
  | close found =>
      rw [← List.append_cancel_left hlog] at hnew
      exact h.locked found (fun _ => rfl) hnew houtside
  | refused found | invalid found => exact h.failing found _
  | @sent i user task entry rest open_or_closed found =>
      have htask := Task.pending_of_sends open_or_closed
      have hi : i ≠ d := fun hi => hother (congrArg some hi)
      have hsender : entry.1.sender ≠ d :=
        h.silent i _ found hi entry (by rw [htask]; exact List.mem_cons_self)
      refine ⟨houtside, ?_, ?_⟩
      · intro j session hj hne entry' hentry
        simp only [sent] at hj
        rw [getElem?_set_of_some found] at hj
        split at hj
        · obtain rfl := Option.some.inj hj
          rw [htask] at hentry
          refine h.silent i _ found hi entry' ?_
          rw [htask]
          exact List.mem_cons_of_mem _ hentry
        · exact h.silent j session hj hne entry' hentry
      · show Function.update world.queues _ _ d = []
        rw [Function.update_of_ne hsender.symm]
        exact h.empty

/-! ## The greeting -/

/-- How far session `d` is with its `Connected` event. -/
inductive Greeting (world : ChatWorld) (d : Nat) (user : ChatSessionUser) : Task → Prop
  | waiting (untouched : world.Untouched d) : Greeting world d user .connecting
  | dispatched {place} (untouched : world.Untouched d) :
      Greeting world d user
        (.running [(⟨d, .connected user.userId user.userName⟩, place)])
  | sent {task place rest}
      (queue : world.queues d = (.connected user.userId user.userName, place) :: rest) :
      Greeting world d user task

/-- Every session is greeted first, and a channel without a session is untouched. -/
structure Greeted (world : ChatWorld) : Prop where
  sessions : ∀ d session, world.sessions[d]? = some session →
    world.Greeting d session.user session.task
  later : ∀ d, world.sessions.length ≤ d → world.Untouched d

/-- What is on a channel stays there. -/
theorem queue_step (hstep : chat.step world action = some world') {entry : ChatEvent × Nat}
    {rest : List (ChatEvent × Nat)} (h : world.queues d = entry :: rest) :
    ∃ rest', world'.queues d = entry :: rest' := by
  cases step_posts hstep with
  | dispatched _ _ _ hqueues _ => exact ⟨rest, by rw [hqueues, h]⟩
  | sent sentEntry _ _ hqueues _ =>
      rw [hqueues, queues_sent, h]
      exact ⟨_, rfl⟩

/-- A session goes on as it was while others act. -/
theorem session_of_other (hstep : chat.step world action = some world')
    (hother : action.actor ≠ some d) (hd : d < world.sessions.length) :
    world'.sessions[d]? = world.sessions[d]? := by
  have hne : ∀ {i}, some i ≠ some d → i ≠ d := fun h hi => h (congrArg some hi)
  cases step_cases hstep with
  | register => exact List.getElem?_append_left hd
  | connected | command | reply | close | refused | invalid | sent =>
      exact List.getElem?_set_ne (hne hother)

theorem map_user_set {session : Session} (h : world.sessions[i]? = some session) (task : Task) :
    (world.sessions.set i ⟨session.user, task⟩).map (·.user) = world.sessions.map (·.user) := by
  refine List.ext_getElem? ?_
  intro j
  rw [List.getElem?_map, List.getElem?_map]
  exact user_set h j

/-- Sessions are only added, and keep their users. -/
theorem users_step (hstep : chat.step world action = some world') :
    world.sessions.map (·.user) <+: world'.sessions.map (·.user) := by
  cases step_cases hstep with
  | register =>
      rw [List.map_append]
      exact List.prefix_append _ _
  | connected found | command found | reply found | close found | refused found | invalid found
  | sent _ found =>
      exact ⟨[], (List.append_nil _).trans (map_user_set found _).symm⟩

theorem user_step (hstep : chat.step world action = some world') {session : Session}
    (hfound : world.sessions[d]? = some session) :
    ∃ session', world'.sessions[d]? = some session' ∧ session'.user = session.user := by
  obtain ⟨later, hlater⟩ := users_step hstep
  have huser : (world.sessions.map (·.user))[d]? = some session.user := by
    rw [List.getElem?_map, hfound, Option.map_some]
  obtain ⟨hd, -⟩ := List.getElem?_eq_some_iff.mp huser
  have hkept : (world.sessions.map (·.user) ++ later)[d]? = some session.user :=
    (List.getElem?_append_left hd).trans huser
  rw [hlater, List.getElem?_map] at hkept
  exact Option.map_eq_some_iff.mp hkept

/-- A session's own steps, from registering to the event on its channel. -/
theorem Greeting.own (hregistered : world.Registered)
    (hstep : chat.step world action = some world') (hactor : action.actor = some d)
    {task : Task} (hfound : world.sessions[d]? = some ⟨user, task⟩)
    (h : world.Greeting d user task) :
    ∃ task', world'.sessions[d]? = some ⟨user, task'⟩ ∧ world'.Greeting d user task' := by
  cases h with
  | waiting huntouched =>
      obtain ⟨-, hsender⟩ := hregistered.users_of_live hfound rfl
      cases step_cases hstep with
      | register => cases hactor
      | command found | reply found | close found | refused found | invalid found =>
          obtain rfl := Option.some.inj hactor
          rw [hfound] at found
          cases found
      | sent open_or_closed found =>
          obtain rfl := Option.some.inj hactor
          rw [hfound] at found
          rcases open_or_closed with rfl | rfl
          · cases found
          · cases found
      | @connected i _ found =>
          obtain rfl : d = i := (Option.some.inj hactor).symm
          rw [hfound] at found
          cases found
          have hdispatches : world.runtime.sendToConnection user.connectionId
              (.connected user.userId user.userName) =
              [⟨d, .connected user.userId user.userName⟩] := by
            rw [ChatRuntime.sendToConnection, hsender]
            rfl
          rw [hdispatches]
          refine ⟨_, (getElem?_set_of_some hfound).trans (if_pos rfl), .dispatched ?_⟩
          refine ⟨huntouched.outside, ?_, huntouched.empty⟩
          intro j session hj hne entry hentry
          simp only [ChatWorld.locked] at hj
          rw [getElem?_set_of_some hfound, if_neg hne] at hj
          exact huntouched.silent j session hj hne entry hentry
  | @dispatched place huntouched =>
      cases step_cases hstep with
      | register => cases hactor
      | connected found | command found | reply found | close found | refused found
      | invalid found =>
          obtain rfl := Option.some.inj hactor
          rw [hfound] at found
          cases found
      | @sent i _ _ _ _ open_or_closed found =>
          obtain rfl : d = i := (Option.some.inj hactor).symm
          rw [hfound] at found
          rcases open_or_closed with rfl | rfl
          · cases found
            have hqueue : Function.update world.queues d (world.queues d ++
                [(ChatEvent.connected user.userId user.userName, place)]) d =
                [(.connected user.userId user.userName, place)] := by
              rw [Function.update_self, huntouched.empty, List.nil_append]
            exact ⟨_, (getElem?_set_of_some hfound).trans (if_pos rfl), .sent hqueue⟩
          · cases found
  | sent hqueue =>
      obtain ⟨⟨user', task'⟩, hfound', rfl⟩ := user_step hstep hfound
      obtain ⟨rest, hqueue'⟩ := queue_step hstep hqueue
      exact ⟨task', hfound', .sent hqueue'⟩

/-- A channel without a session is reached by no session. -/
theorem not_actor (hstep : chat.step world action = some world')
    (hd : world.sessions.length ≤ d) : action.actor ≠ some d := by
  have hbound : ∀ {i session}, world.sessions[i]? = some session → some i ≠ some d := by
    intro i session hfound hi
    obtain ⟨hlt, -⟩ := List.getElem?_eq_some_iff.mp hfound
    have heq := Option.some.inj hi
    omega
  cases step_cases hstep with
  | register =>
      intro h
      cases h
  | connected found | command found | reply found | close found | refused found | invalid found
  | sent _ found => exact hbound found

/-- What others do to a session's greeting. -/
theorem Greeting.other {task : Task} (hregistered : world.Registered)
    (hstep : chat.step world action = some world') (hother : action.actor ≠ some d)
    (h : world.Greeting d user task) : world'.Greeting d user task := by
  cases h with
  | waiting huntouched => exact .waiting (huntouched.step hregistered hstep hother)
  | dispatched huntouched => exact .dispatched (huntouched.step hregistered hstep hother)
  | sent hqueue =>
      obtain ⟨rest, hqueue'⟩ := queue_step hstep hqueue
      exact .sent hqueue'

/-- A session that was not there has just registered. -/
theorem registered_now (hstep : chat.step world action = some world') {session : Session}
    (hfound : world'.sessions[d]? = some session) (hd : world.sessions.length ≤ d) :
    session.task = .connecting ∧ d = world.sessions.length := by
  have hnone : world.sessions[d]? = none := List.getElem?_eq_none hd
  have hother := not_actor hstep hd
  cases step_cases hstep with
  | register =>
      rw [List.getElem?_append_right hd, List.getElem?_singleton] at hfound
      split at hfound
      · obtain rfl := Option.some.inj hfound
        exact ⟨rfl, by omega⟩
      · cases hfound
  | connected | command | reply | close | refused | invalid | sent =>
      have hne : ∀ {i}, some i ≠ some d → i ≠ d := fun h hi => h (congrArg some hi)
      simp only [locked, failing, ChatWorld.sent] at hfound
      rw [List.getElem?_set_ne (hne hother), hnone] at hfound
      cases hfound

theorem Greeted.step (h : world.Greeted) (hregistered : world.Registered)
    (hstep : chat.step world action = some world') : world'.Greeted := by
  have hlength := (users_step hstep).length_le
  rw [List.length_map, List.length_map] at hlength
  constructor
  case later =>
    intro d hd
    have hbefore := hlength.trans hd
    exact (h.later d hbefore).step hregistered hstep (not_actor hstep hbefore)
  case sessions =>
    intro d session hfound
    by_cases hd : d < world.sessions.length
    · have hbefore : world.sessions[d]? = some world.sessions[d] := List.getElem?_eq_getElem hd
      have hgreeting := h.sessions d _ hbefore
      by_cases hactor : action.actor = some d
      · obtain ⟨task', hfound', hgreeting'⟩ := hgreeting.own hregistered hstep hactor hbefore
        rw [hfound] at hfound'
        rw [Option.some.inj hfound']
        exact hgreeting'
      · rw [session_of_other hstep hactor hd, hbefore] at hfound
        obtain rfl := Option.some.inj hfound
        exact hgreeting.other hregistered hstep hactor
    · have hd : world.sessions.length ≤ d := by omega
      obtain ⟨htask, -⟩ := registered_now hstep hfound hd
      rw [htask]
      exact .waiting ((h.later d hd).step hregistered hstep (not_actor hstep hd))

theorem greeted : chat.Inductive fun world => world.Registered ∧ world.Greeted := by
  refine registered.strengthen ?_ fun _ _ _ h _ hgreeted hstep => hgreeted.step h hstep
  rintro world rfl
  constructor
  · intro d session hfound
    cases hfound
  · intro d _
    refine ⟨?_, ?_, rfl⟩
    · rintro r ⟨room, hfound, -⟩
      cases hfound
    · intro j session hfound
      cases hfound

/-! ## The whole life -/

/-- Who the two tables know is a registered session, under its own user. -/
structure Known (world : ChatWorld) (c : String) (i : Nat) (user : ChatSessionUser) : Prop where
  session : ∃ task, world.sessions[i]? = some ⟨user, task⟩
  id : user.connectionId = c
  sender : world.runtime.connections c = some i

theorem Registered.known (h : world.Registered) {c : String} (huser : world.users c = some user) :
    ∃ i, world.Known c i user := by
  obtain ⟨i, hsender, hsession⟩ := Option.bind_eq_some_iff.mp huser
  obtain ⟨⟨user', task⟩, hfound, rfl⟩ := Option.map_eq_some_iff.mp hsession
  refine ⟨i, ⟨task, hfound⟩, ?_, hsender⟩
  rw [h.wired.channel c i hsender]
  exact h.ids i _ hfound

/-- The tables hold nothing of a connection. -/
structure Gone (world : ChatWorld) (c : String) : Prop where
  sender : world.runtime.connections c = none
  connection : world.runtime.hub.connections c = none
  member : ∀ r, ¬world.runtime.hub.Member c r

theorem Registered.gone (h : world.Registered) {session : Session}
    (hfound : world.sessions[i]? = some session) (hclosed : session.task.live = false) :
    world.Gone session.user.connectionId := by
  have hsender : world.runtime.connections session.user.connectionId = none := by
    by_contra hsome
    obtain ⟨j, hj⟩ := Option.ne_none_iff_exists'.mp hsome
    obtain ⟨session', hfound', hid, hlive⟩ := (h.senders _ j).mp hj
    rw [h.ids j session' hfound', h.ids i session hfound] at hid
    obtain rfl := connectionIdOf_inj hid
    rw [hfound] at hfound'
    rw [Option.some.inj hfound', hlive] at hclosed
    cases hclosed
  have hmember : ∀ r, ¬world.runtime.hub.Member session.user.connectionId r := by
    intro r hr
    obtain ⟨j, hj⟩ := h.wired.member hr
    rw [hsender] at hj
    cases hj
  refine ⟨hsender, ?_, hmember⟩
  cases hknown : world.runtime.hub.connections session.user.connectionId with
  | none => rfl
  | some connection =>
      obtain ⟨r, hr⟩ := h.wired.coherent.joined _ connection hknown
      exact absurd ((h.wired.coherent.index _ r).mpr ⟨connection, hknown, hr⟩) (hmember r)

/-- What an earlier state of a run says of a later one. -/
theorem closed_run {start : ChatWorld} {ts : List (Transition ChatWorld Action)}
    (hrun : chat.Run start ts world) :
    (∀ tr ∈ ts, tr.pre.sessions.map (·.user) <+: world.sessions.map (·.user)) ∧
    ∀ tr ∈ ts, ∀ i, tr.action = .close i → ∃ session, world.sessions[i]? = some session ∧
      session.task.live = false ∧ tr.pre.sessions[i]?.map (·.user) = some session.user := by
  induction hrun with
  | refl => exact ⟨by simp, by simp⟩
  | @step ts world action world' _ hstep ih =>
      obtain ⟨husers, hclosed⟩ := ih
      have hlast := users_step hstep
      constructor
      · intro tr htr
        rcases List.mem_append.mp htr with htr | htr
        · exact (husers tr htr).trans hlast
        · obtain rfl := List.mem_singleton.mp htr
          exact hlast
      · intro tr htr i hclose
        rcases List.mem_append.mp htr with htr | htr
        · obtain ⟨session, hfound, hlive, huser⟩ := hclosed tr htr i hclose
          obtain ⟨session', hfound', hlive'⟩ := closed_stays hstep hfound hlive
          obtain ⟨session'', hfound'', huser''⟩ := user_step hstep hfound
          rw [hfound'] at hfound''
          obtain rfl := Option.some.inj hfound''
          exact ⟨session', hfound', hlive', by rw [huser, huser'']⟩
        · obtain rfl := List.mem_singleton.mp htr
          obtain rfl : action = .close i := hclose
          cases step_cases hstep with
          | close found =>
              refine ⟨_, (getElem?_set_of_some found).trans (if_pos rfl), rfl, ?_⟩
              rw [found]
              rfl

/-- **The life of a connection.** -/
theorem connection_lifecycle {start : ChatWorld} {ts : List (Transition ChatWorld Action)}
    (hinit : chat.init start) (hrun : chat.Run start ts world) :
    -- Ids are distinct, and no session ever registered gives its own up.
    (world.sessions.map (·.user.connectionId)).Nodup ∧
    (∀ tr ∈ ts, tr.pre.sessions.map (·.user) <+: world.sessions.map (·.user)) ∧
    -- The hub knows registered sessions, as whom they registered.
    (∀ r c member, world.runtime.hub.stored r c = some member →
      ∃ i user, world.Known c i user ∧ member = user.summary) ∧
    (∀ c connection, world.runtime.hub.connections c = some connection →
      ∃ i, world.Known c i connection.user) ∧
    -- An unregistered connection is gone, now and later.
    (∀ tr ∈ ts, ∀ i session, tr.action = .close i → tr.pre.sessions[i]? = some session →
      world.Gone session.user.connectionId) ∧
    -- The first event on a channel is its `Connected`.
    (∀ (i : Nat) session entry rest, world.sessions[i]? = some session →
      world.queues i = entry :: rest →
      entry.1 = .connected session.user.userId session.user.userName) := by
  obtain ⟨hregistered, hgreeted⟩ := greeted.run hinit hrun
  obtain ⟨husers, hclosed⟩ := closed_run hrun
  refine ⟨?_, husers, ?_, ?_, ?_, ?_⟩
  · have hids : world.sessions.map (·.user.connectionId) =
        (List.range world.sessions.length).map connectionIdOf := by
      refine List.ext_getElem (by simp) ?_
      intro i hi _
      rw [List.getElem_map, List.getElem_map, List.getElem_range]
      rw [List.length_map] at hi
      exact hregistered.ids i _ (List.getElem?_eq_getElem hi)
    rw [hids]
    exact List.nodup_range.map fun _ _ => connectionIdOf_inj
  · intro r c member hstored
    obtain ⟨room, hfound, hmember⟩ := Option.bind_eq_some_iff.mp hstored
    obtain ⟨user, huser, rfl⟩ := hregistered.wired.named.member r room c member hfound hmember
    obtain ⟨i, hknown⟩ := hregistered.known huser
    exact ⟨i, user, hknown, rfl⟩
  · intro c connection hconnection
    exact hregistered.known (hregistered.wired.named.connection c connection hconnection)
  · intro tr htr i session hclose hsession
    obtain ⟨session', hfound', hlive, huser⟩ := hclosed tr htr i hclose
    rw [hsession, Option.map_some, Option.some.injEq] at huser
    rw [huser]
    exact hregistered.gone hfound' hlive
  · rintro i ⟨user, task⟩ entry rest hfound hqueue
    have hgreeting : world.Greeting i user task := hgreeted.sessions i _ hfound
    -- An untouched channel is empty.
    cases hgreeting with
    | waiting huntouched | dispatched huntouched =>
        rw [huntouched.empty] at hqueue
        cases hqueue
    | sent hsent =>
        rw [hsent] at hqueue
        rw [← (List.cons.inj hqueue).1]

/-- Ann and Bob meet in a room, and Bob goes. -/
theorem connection_lifecycle_in_turn : ∃ ts world, chat.Run .start ts world ∧
    (world.sessions.map (·.user.connectionId)).Nodup ∧ world.sessions.length = 2 ∧
    ∀ tr ∈ ts, ∀ i session, tr.action = .close i → tr.pre.sessions[i]? = some session →
      world.Gone session.user.connectionId := by
  have htwo : (chat.exec [] .start (inTurn ++ [.close 1])).any
      (fun r => r.2.sessions.length = 2) = true := by decide
  obtain ⟨ts, world, hrun, hlength⟩ := TSys.exists_run htwo
  obtain ⟨hnodup, -, -, -, hgone, -⟩ := connection_lifecycle rfl hrun
  exact ⟨ts, world, hrun, hnodup, of_decide_eq_true hlength, hgone⟩

end ChatWorld

end Axes.Chat
