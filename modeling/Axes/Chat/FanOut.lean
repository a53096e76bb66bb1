import Axes.Chat.Membership
import Axes.Chat.State

/-!
# Whom a locked step dispatches to

A locked step answers the connection that acts and owes an event to others in the room;
`answer` and `owed` read this off the hub before the step. The dispatches go through a
second table, from connection ids to senders: `Wired` couples it to the hub, and under it
each channel receives exactly what it is answered and owed.
-/

namespace Axes.Chat

open Axes.Lib

/-- The id `register_connection` gives to the `i`-th session. -/
def connectionIdOf (i : Nat) : String := s!"chat-{i + 1}"

theorem connectionIdOf_inj {i j : Nat} (h : connectionIdOf i = connectionIdOf j) : i = j :=
  Nat.succ.inj (Text.append_natRepr_inj h)

/-! ## What is answered and what is owed -/

namespace ChatHub

/-- The direct answer to the connection that sent the command. -/
def answer (user : ChatSessionUser) (message : ChatCommand) (hub : ChatHub) : List ChatEvent :=
  match message with
  | .joinRoom raw =>
      match (hub.joinRoom user raw).2 with
      | .ok joined => [.joinedRoom ⟨joined.roomId, joined.members, joined.recentMessages,
          joined.version⟩]
      | .error _ => []
  | .leaveRoom raw =>
      match (hub.leaveRoom user.connectionId raw).2 with
      | .ok (leftNotice, _, _) => [.leftRoom leftNotice]
      | .error _ => []
  | .sendRoomMessage _ _ => []
  | .syncRoomState raw =>
      match hub.syncRoomState user.connectionId raw with
      | .ok snapshot => [.roomState snapshot]
      | .error _ => []
  | .ping => [.pong]

/-- What a command owes to connection `c`: a message accepted in a room `c` is in, a
connection newly joining another room of `c`'s, or leaving one. -/
def owed (user : ChatSessionUser) (message : ChatCommand) (now : Int) (c : String)
    (hub : ChatHub) : List ChatEvent :=
  match message with
  | .joinRoom raw =>
      match (hub.joinRoom user raw).2 with
      | .ok joined =>
          if joined.joinedNewly = true ∧ c ≠ user.connectionId ∧ hub.Member c joined.roomId then
            [.presenceChanged (.joining joined.roomId user.summary
              ((hub.room joined.roomId).version + 1))]
          else []
      | .error _ => []
  | .leaveRoom raw =>
      match (hub.leaveRoom user.connectionId raw).2 with
      | .ok (leftNotice, _, _) =>
          if c ≠ user.connectionId ∧ hub.Member c leftNotice.roomId then
            [.presenceChanged (.leaving leftNotice.roomId user.summary
              ((hub.room leftNotice.roomId).version + 1))]
          else []
      | .error _ => []
  | .sendRoomMessage raw content =>
      match (hub.sendRoomMessage user.connectionId raw content now).2 with
      | .ok sent => if hub.Member c sent.roomId then [.roomMessage sent.message] else []
      | .error _ => []
  | .syncRoomState _ | .ping => []

/-- What the unregistering of `user` owes to connection `c`: one event for each room
they share. -/
def owedOnClose (user : ChatSessionUser) (c : String) (hub : ChatHub) : List ChatEvent :=
  ((hub.joinedRooms user.connectionId).toList.filter fun r =>
    c ≠ user.connectionId ∧ hub.Member c r).map fun r =>
      .presenceChanged (.leaving r user.summary ((hub.room r).version + 1))

theorem mem_chatMemberConnectionIds {hub : ChatHub} {c r : String} :
    c ∈ hub.chatMemberConnectionIds r ↔ hub.Member c r := by
  unfold chatMemberConnectionIds Member
  cases hub.rooms r with
  | none => simp
  | some room => simp

theorem nodup_chatMemberConnectionIds {hub : ChatHub} {r : String} :
    (hub.chatMemberConnectionIds r).Nodup := by
  unfold chatMemberConnectionIds
  cases hub.rooms r with
  | none => exact List.nodup_nil
  | some room => exact Std.ExtTreeMap.nodup_keys

end ChatHub

/-! ## What a channel receives -/

/-- The event, if the dispatch goes to channel `d`. -/
def addressed (d : Nat) (dispatch : ChatDispatch) : Option ChatEvent :=
  if dispatch.sender = d then some dispatch.event else none

/-- The events of some dispatches that go to channel `d`. -/
def received (d : Nat) (dispatches : List ChatDispatch) : List ChatEvent :=
  dispatches.filterMap (addressed d)

variable {d i : Nat} {e : ChatEvent}

@[simp] theorem received_nil : received d [] = [] := rfl

@[simp] theorem received_append (left right : List ChatDispatch) :
    received d (left ++ right) = received d left ++ received d right :=
  List.filterMap_append ..

theorem received_flatMap {α : Type} (xs : List α) (f : α → List ChatDispatch) :
    received d (xs.flatMap f) = xs.flatMap fun x => received d (f x) := by
  induction xs with
  | nil => rfl
  | cons x xs ih => simp [ih]

theorem flatMap_ite {α β : Type} (xs : List α) (p : α → Prop) [DecidablePred p] (f : α → β) :
    (xs.flatMap fun x => if p x then [f x] else []) = (xs.filter fun x => p x).map f := by
  induction xs with
  | nil => rfl
  | cons x xs ih =>
      by_cases hx : p x
      · simp [hx, ih]
      · simp [hx, ih]

@[simp] theorem received_dispatchToConnection :
    received d (dispatchToConnection (some i) e).toList = if d = i then [e] else [] := by
  by_cases hd : i = d
  · simp [received, addressed, dispatchToConnection, hd]
  · simp [received, addressed, dispatchToConnection, hd, Ne.symm hd]

/-- Fan-out through the table of senders reaches each listed channel once. -/
theorem received_dispatchToEach {connections : String → Option Nat} {ids : List String}
    (hchannel : ∀ c i, connections c = some i → c = connectionIdOf i) (hids : ids.Nodup)
    (hregistered : ∀ c ∈ ids, ∃ i, connections c = some i) :
    received d (dispatchToEach connections ids e) =
      if connectionIdOf d ∈ ids then [e] else [] := by
  induction ids with
  | nil => rfl
  | cons c ids ih =>
      obtain ⟨hc, hids⟩ := List.nodup_cons.mp hids
      obtain ⟨i, hi⟩ := hregistered c List.mem_cons_self
      have hlater := ih hids fun c' hc' => hregistered c' (List.mem_cons_of_mem _ hc')
      have hsplit : dispatchToEach connections (c :: ids) e =
          (dispatchToConnection (some i) e).toList ++ dispatchToEach connections ids e := by
        simp [dispatchToEach, hi, dispatchToConnection]
      obtain rfl := hchannel c i hi
      rw [hsplit, received_append, received_dispatchToConnection, hlater]
      by_cases hd : d = i
      · subst hd
        simp [hc]
      · have hother : connectionIdOf d ≠ connectionIdOf i := fun h => hd (connectionIdOf_inj h)
        simp [hd, hother]

/-! ## The two tables together -/

/-- The senders' table and the hub agree on who is connected, and as whom. -/
structure ChatRuntime.Wired (users : String → Option ChatSessionUser) (runtime : ChatRuntime) :
    Prop where
  channel : ∀ c i, runtime.connections c = some i → c = connectionIdOf i
  registered : ∀ c user, users c = some user → ∃ i, runtime.connections c = some i
  coherent : runtime.hub.Coherent
  named : runtime.hub.Named users

namespace ChatRuntime

variable {users : String → Option ChatSessionUser} {runtime runtime' : ChatRuntime}
  {user : ChatSessionUser} {message : ChatCommand} {now : Int}
  {dispatches : List ChatDispatch} {c r : String}

theorem Wired.member (h : runtime.Wired users) (hmember : runtime.hub.Member c r) :
    ∃ i, runtime.connections c = some i := by
  obtain ⟨room, hfound, hin⟩ := hmember
  obtain ⟨summary, hstored⟩ := BTreeMap.mem_iff.mp hin
  obtain ⟨user, huser, _⟩ := h.named.member r room c summary hfound hstored
  exact h.registered c user huser

theorem Wired.joinRoom (h : runtime.Wired users) {raw : String}
    (hsender : runtime.connections user.connectionId = some i)
    (hprocessed : (runtime.processMessage user (.joinRoom raw) now).2 = .ok dispatches) :
    received d dispatches =
      (if d = i then runtime.hub.answer user (.joinRoom raw) else []) ++
        runtime.hub.owed user (.joinRoom raw) now (connectionIdOf d) := by
  have hmoves := ChatHub.joinRoom_moves runtime.hub user raw
  simp only [ChatRuntime.processMessage, hsender] at hprocessed
  simp only [ChatHub.answer, ChatHub.owed]
  generalize runtime.hub.joinRoom user raw = outcome at hmoves hprocessed ⊢
  obtain ⟨hub', result⟩ := outcome
  cases hmoves with
  | joinFailed => cases hprocessed
  | @rejoined _ _ r room _ _ _ =>
      obtain rfl := Except.ok.inj hprocessed
      simp [ChatRoom.joinResult]
  | @joined _ _ r room _ _ hentered =>
      obtain rfl := Except.ok.inj hprocessed
      -- The peers are the members before the join; the joiner is filtered out.
      have hpeers : ∀ c, c ∈ room.members.keys.filter (fun id => id ≠ user.connectionId) ↔
          c ≠ user.connectionId ∧ runtime.hub.Member c r := by
        intro c
        rw [List.mem_filter, Std.ExtTreeMap.mem_keys, hentered, ChatHub.mem_enter,
          ChatHub.member_iff]
        simp only [decide_eq_true_eq]
        constructor
        · rintro ⟨hself | hin, hc⟩
          · exact absurd hself hc
          · exact ⟨hc, hin⟩
        · rintro ⟨hc, hin⟩
          exact ⟨.inr hin, hc⟩
      have hreceived (event : ChatEvent) := received_dispatchToEach (d := d) (e := event)
        h.channel (Std.ExtTreeMap.nodup_keys.filter _) fun c hc => h.member ((hpeers c).mp hc).2
      simp only [ChatRoom.joinResult, if_true, received_append, received_dispatchToConnection,
        true_and, ← hpeers]
      rw [← ChatPresenceChange.joining, hreceived, hentered]
      rfl

theorem Wired.leaveRoom (h : runtime.Wired users) {raw : String}
    (huser : users user.connectionId = some user)
    (hsender : runtime.connections user.connectionId = some i)
    (hprocessed : (runtime.processMessage user (.leaveRoom raw) now).2 = .ok dispatches) :
    received d dispatches =
      (if d = i then runtime.hub.answer user (.leaveRoom raw) else []) ++
        runtime.hub.owed user (.leaveRoom raw) now (connectionIdOf d) := by
  have hmoves := ChatHub.leaveRoom_moves runtime.hub user.connectionId raw
  simp only [ChatRuntime.processMessage, hsender] at hprocessed
  simp only [ChatHub.answer, ChatHub.owed]
  generalize runtime.hub.leaveRoom user.connectionId raw = outcome at hmoves hprocessed ⊢
  obtain ⟨hub', result⟩ := outcome
  cases hmoves with
  | leaveFailed => cases hprocessed
  | @left _ _ r connection room summary _ _ hfound hstored =>
      obtain rfl := Except.ok.inj hprocessed
      obtain rfl := h.named.stored huser hfound hstored
      -- The notice to the others goes to the members that are left.
      have hpeers : ∀ c, c ∈ (room.leave user.connectionId).members.keys ↔
          c ≠ user.connectionId ∧ runtime.hub.Member c r := by
        intro c
        rw [Std.ExtTreeMap.mem_keys, ChatRoom.leave, BTreeMap.mem_erase_iff,
          ChatHub.member_of_found hfound]
      have hroom := ChatHub.room_of_found hfound
      have hreceived (event : ChatEvent) := received_dispatchToEach (d := d) (e := event)
        h.channel Std.ExtTreeMap.nodup_keys fun c hc => h.member ((hpeers c).mp hc).2
      simp only [received_append, received_dispatchToConnection, hreceived, hpeers, hroom]

theorem Wired.sendRoomMessage (h : runtime.Wired users) {raw content : String}
    (hprocessed : (runtime.processMessage user (.sendRoomMessage raw content) now).2 =
      .ok dispatches) :
    received d dispatches =
      runtime.hub.owed user (.sendRoomMessage raw content) now (connectionIdOf d) := by
  have hmoves := ChatHub.sendRoomMessage_moves runtime.hub user.connectionId raw content now
  simp only [ChatRuntime.processMessage] at hprocessed
  simp only [ChatHub.owed]
  generalize runtime.hub.sendRoomMessage user.connectionId raw content now = outcome
    at hmoves hprocessed ⊢
  obtain ⟨hub', result⟩ := outcome
  cases hmoves with
  | sendFailed => cases hprocessed
  | @sent _ _ _ _ r text connection room message _ _ _ hfound _ _ =>
      obtain rfl := Except.ok.inj hprocessed
      have hmembers : ∀ c, c ∈ room.members.keys ↔ runtime.hub.Member c r := by
        intro c
        rw [Std.ExtTreeMap.mem_keys, ChatHub.member_of_found hfound]
      simp only [received_dispatchToEach h.channel Std.ExtTreeMap.nodup_keys
        fun c hc => h.member ((hmembers c).mp hc), hmembers]

/-- **A command's dispatches.** Each channel receives what its connection is answered and
owed. -/
theorem Wired.processMessage (h : runtime.Wired users)
    (huser : users user.connectionId = some user)
    (hsender : runtime.connections user.connectionId = some i)
    (hprocessed : (runtime.processMessage user message now).2 = .ok dispatches) :
    received d dispatches =
      (if d = i then runtime.hub.answer user message else []) ++
        runtime.hub.owed user message now (connectionIdOf d) := by
  cases message with
  | joinRoom raw => exact h.joinRoom hsender hprocessed
  | leaveRoom raw => exact h.leaveRoom huser hsender hprocessed
  | sendRoomMessage raw content =>
      rw [h.sendRoomMessage hprocessed]
      simp [ChatHub.answer]
  | syncRoomState raw =>
      simp only [ChatRuntime.processMessage, hsender] at hprocessed
      simp only [ChatHub.answer, ChatHub.owed, List.append_nil]
      cases hresult : runtime.hub.syncRoomState user.connectionId raw with
      | error e =>
          rw [hresult] at hprocessed
          cases hprocessed
      | ok snapshot =>
          rw [hresult] at hprocessed
          obtain rfl := Except.ok.inj hprocessed
          exact received_dispatchToConnection
  | ping =>
      simp only [ChatRuntime.processMessage, hsender] at hprocessed
      obtain rfl := Except.ok.inj hprocessed
      simp [ChatHub.answer, ChatHub.owed]

/-- **The dispatches of an unregistering.** Each other channel receives one event for each
room it shared with the connection. -/
theorem Wired.unregisterConnection (h : runtime.Wired users)
    (huser : users user.connectionId = some user) :
    received d (runtime.unregisterConnection user.connectionId).2 =
      runtime.hub.owedOnClose user (connectionIdOf d) := by
  have hmoves := ChatHub.disconnect_moves runtime.hub user.connectionId
  simp only [ChatRuntime.unregisterConnection, ChatHub.owedOnClose, received_flatMap]
  generalize runtime.hub.disconnect user.connectionId = outcome at hmoves ⊢
  obtain ⟨hub', changes⟩ := outcome
  simp only at hmoves ⊢
  cases hmoves with
  | stranger hunknown => simp [ChatHub.joinedRooms, hunknown]
  | @disconnected _ connection hknown =>
      have hnamed : connection.user = user := by
        have hconnection := h.named.connection _ connection hknown
        rw [huser] at hconnection
        exact (Option.some.inj hconnection).symm
      have hrooms : runtime.hub.joinedRooms user.connectionId = connection.joinedRooms := by
        simp [ChatHub.joinedRooms, hknown]
      -- every room on the connection's side exists
      have hchanges : (connection.joinedRooms.toList.filterMap fun r =>
          (runtime.hub.rooms r).map fun room =>
            ChatPresenceChange.leaving r connection.user.summary (room.version + 1)) =
          connection.joinedRooms.toList.map fun r =>
            .leaving r user.summary ((runtime.hub.room r).version + 1) := by
        rw [← List.filterMap_eq_map]
        refine List.filterMap_congr ?_
        intro r hr
        have hjoined : runtime.hub.Joined user.connectionId r :=
          ⟨connection, hknown, Std.ExtTreeSet.mem_toList.mp hr⟩
        obtain ⟨room, hfound, -⟩ := (h.coherent.index _ _).mpr hjoined
        simp [ChatHub.room_of_found hfound, hfound, hnamed]
      -- what is left of a room's members is still registered
      have hreceived : ∀ presence, received d (dispatchToEach
          (Function.update runtime.connections user.connectionId none)
          ((runtime.hub.drop user.connectionId).chatMemberConnectionIds presence.roomId)
          (.presenceChanged presence)) =
          if connectionIdOf d ≠ user.connectionId ∧
            runtime.hub.Member (connectionIdOf d) presence.roomId then
              [.presenceChanged presence]
          else [] := by
        intro presence
        have hleft : ∀ c, c ∈ (runtime.hub.drop user.connectionId).chatMemberConnectionIds
            presence.roomId ↔ c ≠ user.connectionId ∧ runtime.hub.Member c presence.roomId := by
          intro c
          rw [ChatHub.mem_chatMemberConnectionIds, h.coherent.member_drop, and_comm]
        rw [received_dispatchToEach]
        · simp only [hleft]
        · intro c i hc
          by_cases hself : c = user.connectionId
          · subst hself
            simp at hc
          · rw [Function.update_of_ne hself] at hc
            exact h.channel c i hc
        · exact ChatHub.nodup_chatMemberConnectionIds
        · intro c hc
          obtain ⟨hself, hmember⟩ := (hleft c).mp hc
          rw [Function.update_of_ne hself]
          exact h.member hmember
      rw [hrooms, hchanges, List.flatMap_map]
      simp only [hreceived]
      exact flatMap_ite _ _ _

/-! ## The runtime after a locked step -/

/-- A command moves the hub by at most one call, in the user's own name. -/
theorem processMessage_fst (runtime : ChatRuntime) (user : ChatSessionUser)
    (message : ChatCommand) (now : Int) :
    ∃ hub, (runtime.processMessage user message now).1 = { runtime with hub := hub } ∧
      (hub = runtime.hub ∨ ∃ call reply, runtime.hub.Moves call reply hub ∧
        ∀ other raw, call = .joinRoom other raw → other = user) := by
  cases message with
  | joinRoom raw =>
      refine ⟨(runtime.hub.joinRoom user raw).1, by rw [processMessage], .inr ⟨_, _,
        ChatHub.joinRoom_moves _ user raw, ?_⟩⟩
      rintro other raw' ⟨⟩
      rfl
  | leaveRoom raw =>
      refine ⟨(runtime.hub.leaveRoom user.connectionId raw).1, by rw [processMessage],
        .inr ⟨_, _, ChatHub.leaveRoom_moves _ user.connectionId raw, ?_⟩⟩
      rintro other raw' ⟨⟩
  | sendRoomMessage raw content =>
      refine ⟨(runtime.hub.sendRoomMessage user.connectionId raw content now).1,
        by rw [processMessage], .inr ⟨_, _,
          ChatHub.sendRoomMessage_moves _ user.connectionId raw content now, ?_⟩⟩
      rintro other raw' ⟨⟩
  | syncRoomState raw => exact ⟨_, rfl, .inl rfl⟩
  | ping => exact ⟨_, rfl, .inl rfl⟩

/-- A refused command changes nothing, and is answered and owed nothing. -/
theorem processMessage_refused {e : ChatError}
    (h : (runtime.processMessage user message now).2 = .error e) :
    (runtime.processMessage user message now).1 = runtime ∧
      runtime.hub.answer user message = [] ∧
      ∀ c, runtime.hub.owed user message now c = [] := by
  cases message with
  | joinRoom raw =>
      simp only [ChatRuntime.processMessage] at h
      simp only [ChatRuntime.processMessage, ChatHub.answer, ChatHub.owed]
      cases hresult : (runtime.hub.joinRoom user raw).2 with
      | error e =>
          rw [ChatHub.joinRoom_error hresult]
          exact ⟨rfl, rfl, fun _ => rfl⟩
      | ok joined =>
          rw [hresult] at h
          cases h
  | leaveRoom raw =>
      simp only [ChatRuntime.processMessage] at h
      simp only [ChatRuntime.processMessage, ChatHub.answer, ChatHub.owed]
      cases hresult : (runtime.hub.leaveRoom user.connectionId raw).2 with
      | error e =>
          rw [ChatHub.leaveRoom_error hresult]
          exact ⟨rfl, rfl, fun _ => rfl⟩
      | ok left =>
          rw [hresult] at h
          cases h
  | sendRoomMessage raw content =>
      simp only [ChatRuntime.processMessage] at h
      simp only [ChatRuntime.processMessage, ChatHub.answer, ChatHub.owed]
      cases hresult : (runtime.hub.sendRoomMessage user.connectionId raw content now).2 with
      | error e =>
          rw [ChatHub.sendRoomMessage_error hresult]
          exact ⟨rfl, trivial, fun _ => rfl⟩
      | ok sent =>
          rw [hresult] at h
          cases h
  | syncRoomState raw =>
      simp only [ChatRuntime.processMessage] at h
      simp only [ChatRuntime.processMessage, ChatHub.answer, ChatHub.owed]
      cases hresult : runtime.hub.syncRoomState user.connectionId raw with
      | error e => exact ⟨trivial, rfl, fun _ => trivial⟩
      | ok snapshot =>
          rw [hresult] at h
          cases h
  | ping => cases h

theorem Wired.processMessage_next (h : runtime.Wired users)
    (huser : users user.connectionId = some user) :
    (runtime.processMessage user message now).1.Wired users := by
  obtain ⟨hub, hnext, rfl | ⟨call, reply, hmoves, hcall⟩⟩ :=
    processMessage_fst runtime user message now
  · rw [hnext]
    exact h
  · rw [hnext]
    refine ⟨h.channel, h.registered, h.coherent.move hmoves, h.named.move hmoves ?_⟩
    rintro other raw rfl
    rw [hcall other raw rfl]
    exact huser

theorem unregisterConnection_hub (runtime : ChatRuntime) (c : String) :
    ∃ reply, runtime.hub.Moves (.disconnect c) reply (runtime.unregisterConnection c).1.hub :=
  ⟨_, ChatHub.disconnect_moves runtime.hub c⟩

theorem unregisterConnection_connections (runtime : ChatRuntime) (c : String) :
    (runtime.unregisterConnection c).1.connections =
      Function.update runtime.connections c none := rfl

theorem Wired.unregistered (h : runtime.Wired users) (c : String) :
    (∀ r, ¬(runtime.unregisterConnection c).1.hub.Member c r) ∧
      (runtime.unregisterConnection c).1.hub.connections c = none := by
  obtain ⟨reply, hmoves⟩ := unregisterConnection_hub runtime c
  refine ⟨?_, ?_⟩
  · intro r hmember
    exact ((hmoves.member h.coherent).mp hmember).2 rfl
  · generalize (runtime.unregisterConnection c).1.hub = hub' at hmoves ⊢
    cases hmoves with
    | stranger hunknown => exact hunknown
    | disconnected => exact Function.update_self ..

theorem Wired.unregister (h : runtime.Wired users) (c : String) :
    (runtime.unregisterConnection c).1.Wired (Function.update users c none) := by
  obtain ⟨reply, hmoves⟩ := unregisterConnection_hub runtime c
  obtain ⟨hmember, hconnection⟩ := h.unregistered c
  refine ⟨?_, ?_, h.coherent.move hmoves, ?_⟩
  · intro c' i hc'
    rw [unregisterConnection_connections] at hc'
    by_cases hc : c' = c
    · subst hc
      simp at hc'
    · rw [Function.update_of_ne hc] at hc'
      exact h.channel c' i hc'
  · intro c' user huser
    rw [unregisterConnection_connections]
    by_cases hc : c' = c
    · subst hc
      simp at huser
    · rw [Function.update_of_ne hc] at huser ⊢
      exact h.registered c' user huser
  · refine (h.named.move hmoves ?_).forget hconnection hmember
    rintro user raw ⟨⟩

end ChatRuntime

end Axes.Chat
