import Axes.Chat.Rebuild
import Axes.Chat.Socket

/-!
# What a client may count on

Every event the service sends is well formed: names are trimmed and not empty, rooms are
known by normalized ids, contents are as the checks leave them, members are sorted, and the
history of a room is short, in order, and no newer than the room.
-/

namespace Axes.Chat

open Axes.Lib Axes.Lib.Mailbox

/-! ## Well-formed data -/

/-- What `connect` lets through. -/
def Trimmed (s : String) : Prop := s ≠ "" ∧ Text.trim s = s

def RoomId (r : String) : Prop := normalizedRoomId r = .ok r

structure ChatUserSummary.Valid (member : ChatUserSummary) : Prop where
  userId : Trimmed member.userId
  userName : Trimmed member.userName

structure ChatRoomMessage.Valid (r : String) (message : ChatRoomMessage) : Prop where
  room : message.roomId = r
  sender : ChatUserSummary.Valid ⟨message.senderId, message.senderName⟩
  content : normalizedContent message.content = .ok message.content

/-- The last messages of a room of some version. -/
structure ValidHistory (r : String) (version : Nat) (messages : List ChatRoomMessage) : Prop where
  short : messages.length ≤ 20
  ordered : messages.Pairwise fun earlier later => earlier.version < later.version
  each : ∀ message ∈ messages, message.Valid r ∧ message.version ≤ version

structure ChatRoom.Valid (r : String) (room : ChatRoom) : Prop where
  members : ∀ (c : String) (member : ChatUserSummary),
    room.members[c]? = some member → member.Valid
  history : ValidHistory r room.version room.recentMessages

structure ChatRoomSnapshot.Valid (snapshot : ChatRoomSnapshot) : Prop where
  room : RoomId snapshot.roomId
  members : ∀ member ∈ snapshot.members, member.Valid
  sorted : snapshot.members.Pairwise fun left right => (left.cmp right).isLE = true
  history : ValidHistory snapshot.roomId snapshot.version snapshot.recentMessages

/-- One member comes or goes. -/
inductive ChatPresenceChange.Valid : ChatPresenceChange → Prop
  | joining {r member version} (room : RoomId r) (valid : member.Valid) :
      Valid (.joining r member version)
  | leaving {r member version} (room : RoomId r) (valid : member.Valid) :
      Valid (.leaving r member version)

/-- The errors a client is told of. -/
inductive ChatErrorPayload.Valid : ChatErrorPayload → Prop
  | invalidMessage : Valid Chat.invalidMessage
  | invalidRoomId : Valid ChatError.invalidRoomId.payload
  | emptyContent : Valid ChatError.emptyContent.payload
  | contentTooLong : Valid (ChatError.contentTooLong 500).payload
  | notInRoom {r} (room : RoomId r) : Valid (ChatError.notInRoom r).payload

def ChatEvent.Valid : ChatEvent → Prop
  | connected userId userName => ChatUserSummary.Valid ⟨userId, userName⟩
  | joinedRoom snapshot | roomState snapshot => snapshot.Valid
  | leftRoom notice => RoomId notice.roomId
  | roomMessage message => RoomId message.roomId ∧ message.Valid message.roomId
  | presenceChanged presence => presence.Valid
  | pong => True
  | error payload => payload.Valid

/-- Rooms are known by their normalized ids, and all that is stored is well formed. -/
structure ChatHub.Valid (hub : ChatHub) : Prop where
  rooms : ∀ r room, hub.rooms r = some room → RoomId r ∧ room.Valid r
  users : ∀ c connection, hub.connections c = some connection → connection.user.summary.Valid

theorem normalizedContent_idem {raw content : String} (h : normalizedContent raw = .ok content) :
    normalizedContent content = .ok content := by
  simp only [normalizedContent] at h ⊢
  split at h
  · cases h
  · next hnonempty =>
      split at h
      · cases h
      · next hshort =>
          obtain rfl := Except.ok.inj h
          rw [Text.trim_trim, if_neg hnonempty, if_neg hshort]

theorem valid_of_roomId {raw : String} {e : ChatError} (h : normalizedRoomId raw = .error e) :
    e.payload.Valid := by
  rw [normalizedRoomId_of_not_ok (not_roomIdOk_of_normalized h)] at h
  rw [← Except.error.inj h]
  exact .invalidRoomId

theorem valid_of_content {content : String} {e : ChatError}
    (h : normalizedContent content = .error e) : e.payload.Valid := by
  rw [normalizedContent_eq] at h
  split at h
  · rw [← Except.error.inj h]
    exact .emptyContent
  · split at h
    · rw [← Except.error.inj h]
      exact .contentTooLong
    · cases h

/-! ## Rooms -/

theorem ChatRoom.new_valid (r : String) : ChatRoom.new.Valid r where
  members c member h := by simp [ChatRoom.new] at h
  history := ⟨Nat.zero_le _, .nil, fun _ h => (List.not_mem_nil h).elim⟩

theorem ValidHistory.later {r : String} {version : Nat} {messages : List ChatRoomMessage}
    (h : ValidHistory r version messages) : ValidHistory r (version + 1) messages where
  short := h.short
  ordered := h.ordered
  each message hmessage :=
    ⟨(h.each message hmessage).1, Nat.le_succ_of_le (h.each message hmessage).2⟩

namespace ChatRoom.Valid

variable {r c : String} {room : ChatRoom} {member : ChatUserSummary} {message : ChatRoomMessage}

theorem enter (h : room.Valid r) (hmember : member.Valid) : (room.enter c member).Valid r where
  members c' member' hstored := by
    rw [ChatRoom.enter, BTreeMap.find_insert] at hstored
    split at hstored
    · rwa [← Option.some.inj hstored]
    · exact h.members c' member' hstored
  history := h.history.later

theorem leave (h : room.Valid r) : (room.leave c).Valid r where
  members c' member' hstored := by
    rw [ChatRoom.leave, BTreeMap.find_erase] at hstored
    split at hstored
    · cases hstored
    · exact h.members c' member' hstored
  history := h.history.later

theorem post (h : room.Valid r) (hmessage : message.Valid r)
    (hversion : message.version = room.version + 1) : (room.post message).Valid r where
  members := h.members
  history := by
    have hsub : (lastMessages (room.recentMessages ++ [message])).Sublist
        (room.recentMessages ++ [message]) := List.drop_sublist _ _
    refine ⟨?_, ?_, ?_⟩
    · show (lastMessages _).length ≤ 20
      rw [lastMessages, List.length_drop]
      show _ - (_ - 20) ≤ 20
      omega
    · refine List.Pairwise.sublist hsub ?_
      rw [List.pairwise_append]
      refine ⟨h.history.ordered, List.pairwise_singleton _ _, ?_⟩
      intro earlier hearlier later hlater
      obtain rfl := List.mem_singleton.mp hlater
      have hbefore := (h.history.each earlier hearlier).2
      omega
    · intro m hm
      show _ ∧ m.version ≤ room.version + 1
      rcases List.mem_append.mp (hsub.subset hm) with hold | hnew
      · exact h.history.later.each m hold
      · obtain rfl := List.mem_singleton.mp hnew
        exact ⟨hmessage, hversion.le⟩

theorem snapshot (h : room.Valid r) (hr : RoomId r) : (room.snapshot r).Valid where
  room := hr
  members member hmember := by
    have hvalue : member ∈ BTreeMap.values room.members :=
      (List.perm_insertionSort _ _).mem_iff.mp hmember
    obtain ⟨⟨c, member⟩, hentry, rfl⟩ := List.mem_map.mp hvalue
    exact h.members c member (Std.ExtTreeMap.mem_toList_iff_getElem?_eq_some.mp hentry)
  sorted := List.pairwise_insertionSort _ _
  history := h.history

end ChatRoom.Valid

/-! ## The hub -/

/-- What a reply tells of a room is well formed, and so is its error. -/
def HubReply.Valid : HubReply → Prop
  | joined (.ok result) =>
      ChatRoomSnapshot.Valid ⟨result.roomId, result.members, result.recentMessages, result.version⟩
  | left (.ok (notice, _, _)) => RoomId notice.roomId
  | sent (.ok result) => RoomId result.message.roomId ∧ result.message.Valid result.message.roomId
  | synced (.ok snapshot) => snapshot.Valid
  | joined (.error e) | left (.error e) | sent (.error e) | synced (.error e) => e.payload.Valid
  | disconnected _ => True

namespace ChatHub

variable {hub hub' : ChatHub} {call : HubCall} {reply : HubReply} {c r raw : String}
  {user : ChatSessionUser} {message : ChatCommand} {now : Int}

theorem Refuses.valid {e : ChatError} (h : hub.Refuses c raw e) : e.payload.Valid := by
  cases h with
  | invalid invalid => exact valid_of_roomId invalid
  | outsider name => exact .notInRoom (normalizedRoomId_idem name)

theorem valid_default : ChatHub.default.Valid where
  rooms _ _ h := by cases h
  users _ _ h := by cases h

namespace Valid

theorem room (h : hub.Valid) (r : String) : (hub.room r).Valid r := by
  cases hfound : hub.rooms r with
  | none =>
      rw [ChatHub.room, hfound]
      exact ChatRoom.new_valid r
  | some room =>
      rw [room_of_found hfound]
      exact (h.rooms r room hfound).2

theorem setRoom (h : hub.Valid) {after : Option ChatRoom} (hr : RoomId r)
    (hafter : ∀ room, after = some room → room.Valid r) : (hub.setRoom r after).Valid where
  rooms r' room hfound := by
    by_cases heq : r' = r
    · subst heq
      rw [rooms_setRoom_self] at hfound
      exact ⟨hr, hafter room hfound⟩
    · rw [rooms_setRoom_of_ne heq] at hfound
      exact h.rooms r' room hfound
  users := h.users

theorem setConnection (h : hub.Valid) {after : Option ChatConnection}
    (hafter : ∀ connection, after = some connection → connection.user.summary.Valid) :
    (hub.setConnection c after).Valid where
  rooms := h.rooms
  users c' connection hknown := by
    by_cases heq : c' = c
    · subst heq
      rw [connections_setConnection_self] at hknown
      exact hafter connection hknown
    · rw [connections_setConnection_of_ne heq] at hknown
      exact h.users c' connection hknown

theorem kept {room : ChatRoom} (h : room.Valid r) (room' : ChatRoom)
    (hkept : (room.leave c).kept = some room') : room'.Valid r := by
  rw [(kept_eq_some hkept).1]
  exact h.leave

theorem drop (h : hub.Valid) (c : String) : (hub.drop c).Valid where
  rooms r room hfound := by
    simp only [ChatHub.drop] at hfound
    split at hfound
    · obtain ⟨before, hbefore, hkept⟩ := Option.bind_eq_some_iff.mp hfound
      obtain ⟨hr, hvalid⟩ := h.rooms r before hbefore
      exact ⟨hr, kept hvalid room hkept⟩
    · exact h.rooms r room hfound
  users c' connection hknown := by
    simp only [ChatHub.drop] at hknown
    by_cases heq : c' = c
    · subst heq
      rw [Function.update_self] at hknown
      cases hknown
    · rw [Function.update_of_ne heq] at hknown
      exact h.users c' connection hknown

/-- **A call keeps what is stored well formed**, and so is its reply. -/
theorem move (h : hub.Valid) (hmoves : hub.Moves call reply hub')
    (hcall : ∀ user raw, call = .joinRoom user raw → user.summary.Valid) :
    hub'.Valid ∧ reply.Valid := by
  cases hmoves with
  | joinFailed invalid => exact ⟨h, valid_of_roomId invalid⟩
  | leaveFailed refused => exact ⟨h, refused.valid⟩
  | sendFailed refused =>
      rcases refused with refused | ⟨-, rejected⟩
      · exact ⟨h, refused.valid⟩
      · exact ⟨h, valid_of_content rejected⟩
  | syncFailed refused =>
      rcases refused with invalid | ⟨r, name, -, rfl⟩
      · exact ⟨h, valid_of_roomId invalid⟩
      · exact ⟨h, .notInRoom (normalizedRoomId_idem name)⟩
  | stranger => exact ⟨h, trivial⟩
  | @rejoined user raw r room name found =>
      obtain ⟨hr, hroom⟩ := h.rooms r room found
      refine ⟨h.setConnection ?_, hroom.snapshot hr⟩
      intro connection hconnection
      rw [← Option.some.inj hconnection]
      exact hcall user raw rfl
  | @joined user raw r room name _ entered =>
      have hr : RoomId r := normalizedRoomId_idem name
      have huser := hcall user raw rfl
      have hroom : room.Valid r := by
        rw [entered]
        exact (h.room r).enter huser
      refine ⟨(h.setRoom hr ?_).setConnection ?_, hroom.snapshot hr⟩
      · intro room' hroom'
        rwa [← Option.some.inj hroom']
      · intro connection hconnection
        rwa [← Option.some.inj hconnection]
  | @left c raw r connection room member name known found =>
      obtain ⟨hr, hroom⟩ := h.rooms r room found
      refine ⟨(h.setRoom hr (kept hroom)).setConnection ?_, hr⟩
      intro connection' hconnection
      rw [(connection_leave_eq_some hconnection).1]
      exact h.users c connection known
  | @sent c raw content now r text connection room message name accepted known found _ written =>
      obtain ⟨hr, hroom⟩ := h.rooms r room found
      have hmessage : message.Valid r := by
        rw [written]
        exact ⟨rfl, h.users c connection known, normalizedContent_idem accepted⟩
      have hafter : (hub.setRoom r (some (room.post message))).Valid := by
        refine h.setRoom hr ?_
        intro room' hroom'
        rw [← Option.some.inj hroom']
        exact hroom.post hmessage (by rw [written])
      refine ⟨⟨hafter.rooms, hafter.users⟩, ?_⟩
      show RoomId message.roomId ∧ message.Valid message.roomId
      rw [hmessage.room]
      exact ⟨hr, hmessage⟩
  | @synced c raw r room name found =>
      obtain ⟨hr, hroom⟩ := h.rooms r room found
      exact ⟨h, hroom.snapshot hr⟩
  | @disconnected c connection known => exact ⟨h.drop c, trivial⟩

end Valid

/-- What a valid user is answered is well formed. -/
theorem Valid.answer (h : hub.Valid) (huser : user.summary.Valid) :
    ∀ event ∈ hub.answer user message, event.Valid := by
  cases message with
  | joinRoom raw =>
      have hreply := (h.move (hub.joinRoom_moves user raw) (by rintro _ _ ⟨⟩; exact huser)).2
      simp only [ChatHub.answer]
      cases hresult : (hub.joinRoom user raw).2 with
      | error e => exact fun _ hevent => (List.not_mem_nil hevent).elim
      | ok joined =>
          rw [hresult] at hreply
          exact List.forall_mem_singleton.mpr hreply
  | leaveRoom raw =>
      have hreply := (h.move (hub.leaveRoom_moves user.connectionId raw) (by rintro _ _ ⟨⟩)).2
      simp only [ChatHub.answer]
      cases hresult : (hub.leaveRoom user.connectionId raw).2 with
      | error e => exact fun _ hevent => (List.not_mem_nil hevent).elim
      | ok result =>
          rw [hresult] at hreply
          exact List.forall_mem_singleton.mpr hreply
  | sendRoomMessage raw content => exact fun _ hevent => (List.not_mem_nil hevent).elim
  | syncRoomState raw =>
      have hreply := (h.move (hub.syncRoomState_moves user.connectionId raw) (by rintro _ _ ⟨⟩)).2
      simp only [ChatHub.answer]
      cases hresult : hub.syncRoomState user.connectionId raw with
      | error e => exact fun _ hevent => (List.not_mem_nil hevent).elim
      | ok snapshot =>
          rw [hresult] at hreply
          exact List.forall_mem_singleton.mpr hreply
  | ping => exact List.forall_mem_singleton.mpr trivial

/-- What others are owed is well formed. -/
theorem Valid.owed (h : hub.Valid) (huser : user.summary.Valid) :
    ∀ event ∈ hub.owed user message now c, event.Valid := by
  cases message with
  | joinRoom raw =>
      have hreply := (h.move (hub.joinRoom_moves user raw) (by rintro _ _ ⟨⟩; exact huser)).2
      simp only [ChatHub.owed]
      cases hresult : (hub.joinRoom user raw).2 with
      | error e => exact fun _ hevent => (List.not_mem_nil hevent).elim
      | ok joined =>
          rw [hresult] at hreply
          have hsnapshot : ChatRoomSnapshot.Valid ⟨joined.roomId, joined.members,
            joined.recentMessages, joined.version⟩ := hreply
          have hroom : RoomId joined.roomId := hsnapshot.room
          dsimp only
          split
          · exact List.forall_mem_singleton.mpr (.joining hroom huser)
          · exact fun _ hevent => (List.not_mem_nil hevent).elim
  | leaveRoom raw =>
      have hreply := (h.move (hub.leaveRoom_moves user.connectionId raw) (by rintro _ _ ⟨⟩)).2
      simp only [ChatHub.owed]
      cases hresult : (hub.leaveRoom user.connectionId raw).2 with
      | error e => exact fun _ hevent => (List.not_mem_nil hevent).elim
      | ok result =>
          rw [hresult] at hreply
          dsimp only
          split
          · exact List.forall_mem_singleton.mpr (.leaving hreply huser)
          · exact fun _ hevent => (List.not_mem_nil hevent).elim
  | sendRoomMessage raw content =>
      have hreply := (h.move (hub.sendRoomMessage_moves user.connectionId raw content now)
        (by rintro _ _ ⟨⟩)).2
      simp only [ChatHub.owed]
      cases hresult : (hub.sendRoomMessage user.connectionId raw content now).2 with
      | error e => exact fun _ hevent => (List.not_mem_nil hevent).elim
      | ok sent =>
          rw [hresult] at hreply
          dsimp only
          split
          · exact List.forall_mem_singleton.mpr hreply
          · exact fun _ hevent => (List.not_mem_nil hevent).elim
  | syncRoomState | ping => exact fun _ hevent => (List.not_mem_nil hevent).elim

theorem Valid.owedOnClose (h : hub.Valid) (huser : user.summary.Valid) :
    ∀ event ∈ hub.owedOnClose user c, event.Valid := by
  intro event hevent
  obtain ⟨r, hr, rfl⟩ := List.mem_map.mp hevent
  obtain ⟨-, hshared⟩ := List.mem_filter.mp hr
  obtain ⟨-, room, hfound, -⟩ := of_decide_eq_true hshared
  exact .leaving (h.rooms r room hfound).1 huser

end ChatHub

/-! ## The service -/

/-- An error of a command is one a client may be told of. -/
theorem ChatRuntime.processMessage_error {runtime : ChatRuntime} {user : ChatSessionUser}
    {message : ChatCommand} {now : Int} {e : ChatError} (hub : runtime.hub.Valid)
    (huser : user.summary.Valid)
    (h : (runtime.processMessage user message now).2 = .error e) : e.payload.Valid := by
  cases message with
  | joinRoom raw =>
      have hreply := (hub.move (runtime.hub.joinRoom_moves user raw)
        (by rintro _ _ ⟨⟩; exact huser)).2
      simp only [ChatRuntime.processMessage] at h
      cases hresult : (runtime.hub.joinRoom user raw).2 with
      | ok joined =>
          rw [hresult] at h
          cases h
      | error e' =>
          rw [hresult] at h hreply
          rwa [← Except.error.inj h]
  | leaveRoom raw =>
      have hreply := (hub.move (runtime.hub.leaveRoom_moves user.connectionId raw)
        (by rintro _ _ ⟨⟩)).2
      simp only [ChatRuntime.processMessage] at h
      cases hresult : (runtime.hub.leaveRoom user.connectionId raw).2 with
      | ok left =>
          rw [hresult] at h
          cases h
      | error e' =>
          rw [hresult] at h hreply
          rwa [← Except.error.inj h]
  | sendRoomMessage raw content =>
      have hreply := (hub.move (runtime.hub.sendRoomMessage_moves user.connectionId raw content now)
        (by rintro _ _ ⟨⟩)).2
      simp only [ChatRuntime.processMessage] at h
      cases hresult : (runtime.hub.sendRoomMessage user.connectionId raw content now).2 with
      | ok sent =>
          rw [hresult] at h
          cases h
      | error e' =>
          rw [hresult] at h hreply
          rwa [← Except.error.inj h]
  | syncRoomState raw =>
      have hreply := (hub.move (runtime.hub.syncRoomState_moves user.connectionId raw)
        (by rintro _ _ ⟨⟩)).2
      simp only [ChatRuntime.processMessage] at h
      cases hresult : runtime.hub.syncRoomState user.connectionId raw with
      | ok snapshot =>
          rw [hresult] at h
          cases h
      | error e' =>
          rw [hresult] at h hreply
          rwa [← Except.error.inj h]
  | ping => cases h

namespace ChatWorld

variable {world world' : ChatWorld} {action : Action} {d i : Nat} {user : ChatSessionUser}

/-- Sessions, the hub and all that was dispatched are well formed. -/
structure Valid (world : ChatWorld) : Prop where
  users : ∀ (i : Nat) session, world.sessions[i]? = some session → session.user.summary.Valid
  failing : ∀ (i : Nat) user payload, world.sessions[i]? = some ⟨user, .failed payload⟩ →
    payload.Valid
  hub : world.runtime.hub.Valid
  log : ∀ dispatch ∈ world.log, dispatch.event.Valid

theorem Valid.answered (h : world.Valid) : ∀ event ∈ world.answered action d, event.Valid := by
  cases action with
  | connected i =>
      simp only [ChatWorld.answered]
      split
      · next session found =>
          split
          · exact List.forall_mem_singleton.mpr (h.users i session found)
          · exact fun _ hevent => (List.not_mem_nil hevent).elim
      · exact fun _ hevent => (List.not_mem_nil hevent).elim
  | command i message now =>
      simp only [ChatWorld.answered]
      split
      · next session found =>
          split
          · exact h.hub.answer (h.users i session found)
          · exact fun _ hevent => (List.not_mem_nil hevent).elim
      · exact fun _ hevent => (List.not_mem_nil hevent).elim
  | reply i =>
      simp only [ChatWorld.answered]
      split
      · next user payload found =>
          split
          · exact List.forall_mem_singleton.mpr (h.failing i user payload found)
          · exact fun _ hevent => (List.not_mem_nil hevent).elim
      · exact fun _ hevent => (List.not_mem_nil hevent).elim
  | register | invalid | send | close => exact fun _ hevent => (List.not_mem_nil hevent).elim

theorem Valid.owed (h : world.Valid) {c : String} :
    ∀ event ∈ world.owed action c, event.Valid := by
  cases action with
  | command i message now =>
      simp only [ChatWorld.owed]
      split
      · next session found => exact h.hub.owed (h.users i session found)
      · exact fun _ hevent => (List.not_mem_nil hevent).elim
  | close i =>
      simp only [ChatWorld.owed]
      split
      · next session found => exact h.hub.owedOnClose (h.users i session found)
      · exact fun _ hevent => (List.not_mem_nil hevent).elim
  | register | connected | invalid | reply | send =>
      exact fun _ hevent => (List.not_mem_nil hevent).elim

/-- What a step dispatches is well formed. -/
theorem Valid.log_step (h : world.Valid) (hregistered : world.Registered)
    (hstep : chat.step world action = some world') :
    ∀ dispatch ∈ world'.log, dispatch.event.Valid := by
  intro dispatch hdispatch
  obtain ⟨new, hlog, hnew⟩ := hregistered.received hstep dispatch.sender
  rw [hlog] at hdispatch
  rcases List.mem_append.mp hdispatch with hold | hnewest
  · exact h.log dispatch hold
  · have hevent : dispatch.event ∈ received dispatch.sender new :=
      List.mem_filterMap.mpr ⟨dispatch, hnewest, if_pos rfl⟩
    rw [hnew] at hevent
    rcases List.mem_append.mp hevent with hanswered | howed
    · exact h.answered _ hanswered
    · exact h.owed _ howed

/-- A session goes on as the user it was, with a task that is failing for a good reason. -/
theorem Valid.set (h : world.Valid) {task : Task} (task' : Task)
    (hfound : world.sessions[i]? = some ⟨user, task⟩)
    (htask : ∀ payload, task' = .failed payload → payload.Valid) :
    (∀ (j : Nat) session, (world.sessions.set i ⟨user, task'⟩)[j]? = some session →
      session.user.summary.Valid) ∧
    ∀ (j : Nat) user' payload, (world.sessions.set i ⟨user, task'⟩)[j]? =
      some ⟨user', .failed payload⟩ → payload.Valid := by
  constructor
  · intro j session hj
    rw [getElem?_set_of_some hfound] at hj
    split at hj
    · rw [← Option.some.inj hj]
      exact h.users i ⟨user, task⟩ hfound
    · exact h.users j session hj
  · intro j user' payload hj
    rw [getElem?_set_of_some hfound] at hj
    split at hj
    · have htask' := congrArg Session.task (Option.some.inj hj)
      exact htask payload htask'
    · exact h.failing j user' payload hj

/-- **A step keeps everything well formed**, when it registers no bad names. -/
theorem Valid.step (h : world.Valid) (hregistered : world.Registered)
    (hnames : ∀ userId userName, action = .register userId userName →
      ChatUserSummary.Valid ⟨userId, userName⟩)
    (hstep : chat.step world action = some world') : world'.Valid := by
  have hlog := h.log_step hregistered hstep
  cases step_cases hstep with
  | @register userId userName =>
      refine ⟨?_, ?_, h.hub, hlog⟩
      · intro j session hj
        rw [List.getElem?_append] at hj
        split at hj
        · exact h.users j session hj
        · rw [List.getElem?_singleton] at hj
          split at hj
          · rw [← Option.some.inj hj]
            exact hnames userId userName rfl
          · cases hj
      · intro j user payload hj
        rw [List.getElem?_append] at hj
        split at hj
        · exact h.failing j user payload hj
        · rw [List.getElem?_singleton] at hj
          split at hj
          · cases hj
          · cases hj
  | connected found =>
      obtain ⟨husers, hfailing⟩ := h.set (.running _) found fun _ => by rintro ⟨⟩
      exact ⟨husers, hfailing, h.hub, hlog⟩
  | @command i user message now runtime dispatches found processed =>
      obtain ⟨husers, hfailing⟩ := h.set (.running _) found fun _ => by rintro ⟨⟩
      refine ⟨husers, hfailing, ?_, hlog⟩
      obtain ⟨hub, hfst, hsame | ⟨call, reply, hmoves, hjoins⟩⟩ :=
        ChatRuntime.processMessage_fst world.runtime user message now
      · rw [processed] at hfst
        obtain rfl : runtime = _ := hfst
        rw [locked, hsame]
        exact h.hub
      · rw [processed] at hfst
        obtain rfl : runtime = _ := hfst
        refine (h.hub.move hmoves ?_).1
        intro other raw hjoin
        rw [hjoins other raw hjoin]
        exact h.users i _ found
  | @refused i user message now e found processed =>
      have herror : (world.runtime.processMessage user message now).2 = .error e := by
        rw [processed]
      have hpayload := ChatRuntime.processMessage_error h.hub (h.users i _ found) herror
      obtain ⟨husers, hfailing⟩ := h.set (.failed _) found fun _ => by
        rintro ⟨⟩
        exact hpayload
      exact ⟨husers, hfailing, h.hub, hlog⟩
  | invalid found =>
      obtain ⟨husers, hfailing⟩ := h.set (.failed _) found fun _ => by
        rintro ⟨⟩
        exact .invalidMessage
      exact ⟨husers, hfailing, h.hub, hlog⟩
  | reply found =>
      obtain ⟨husers, hfailing⟩ := h.set (.running _) found fun _ => by rintro ⟨⟩
      exact ⟨husers, hfailing, h.hub, hlog⟩
  | @sent i user task dispatch rest open_or_closed found =>
      obtain ⟨husers, hfailing⟩ := h.set (task rest) found fun _ hfailed => by
        rcases open_or_closed with rfl | rfl
        · cases hfailed
        · cases hfailed
      exact ⟨husers, hfailing, h.hub, hlog⟩
  | @close i user found =>
      obtain ⟨husers, hfailing⟩ := h.set (.closed _) found fun _ => by rintro ⟨⟩
      refine ⟨husers, hfailing, ?_, hlog⟩
      exact (h.hub.move (world.runtime.hub.disconnect_moves user.connectionId)
        (by rintro _ _ ⟨⟩)).1

/-- What is on a channel was dispatched. -/
theorem Valid.queue (h : world.Valid) (hposted : world.Posted) :
    ∀ event ∈ world.queue d, event.Valid := by
  intro event hevent
  have hreceived : event ∈ received d world.log :=
    (hposted d).values.mem_iff.mp (List.mem_append_left _ hevent)
  obtain ⟨dispatch, hdispatch, haddressed⟩ := List.mem_filterMap.mp hreceived
  unfold addressed at haddressed
  split at haddressed
  · rw [← Option.some.inj haddressed]
    exact h.log dispatch hdispatch
  · cases haddressed

end ChatWorld

/-! ## Over sockets -/

/-- A query that passes gives a name that is trimmed and not empty, and so is the id. -/
theorem ChatConnectQuery.validate_ok {query : ChatConnectQuery} {userId userName : String}
    (h : query.validate = .ok (userId, userName)) : ChatUserSummary.Valid ⟨userId, userName⟩ := by
  simp only [validate] at h
  split at h
  · cases h
  · next hid =>
      split at h
      · cases h
      · next hname =>
          obtain ⟨rfl, rfl⟩ := Prod.mk.inj (Except.ok.inj h)
          exact ⟨⟨hid, Text.trim_trim _⟩, ⟨hname, Text.trim_trim _⟩⟩

/-- Only a valid query registers anyone. -/
theorem SocketAction.registers {finite : Json.Number → Bool} {action : SocketAction}
    {userId userName : String}
    (h : action.served finite = some (.register userId userName)) :
    ChatUserSummary.Valid ⟨userId, userName⟩ := by
  cases action with
  | connect query =>
      simp only [served] at h
      split at h
      · next valid =>
          cases h
          exact query.validate_ok valid
      · cases h
  | frame i received now =>
      cases received with
      | text s =>
          simp only [served, Frame.action] at h
          split at h
          · cases h
          · cases h
      | other | close | failed => cases h
  | greet | reply | send | write | abort => cases h

namespace SocketWorld

variable {finite : Json.Number → Bool} {world : SocketWorld}
  {ts : List (Transition SocketWorld SocketAction)}

theorem valid : (socket finite).Inductive fun world =>
    world.chat.Registered ∧ world.chat.Posted ∧ world.chat.Valid where
  init world hinit := by
    obtain rfl : world = .start := hinit
    refine ⟨ChatWorld.registered_start, ChatWorld.posted.init _ rfl, ?_, ?_, ?_, ?_⟩
    · intro i session hsession
      cases hsession
    · intro i user payload hsession
      cases hsession
    · exact ChatHub.valid_default
    · intro dispatch hdispatch
      cases hdispatch
  step world action world' h hstep := by
    obtain ⟨hregistered, hposted, hvalid⟩ := h
    cases step_does hstep with
    | serves served asks stepped _ =>
        refine ⟨hregistered.step stepped, hposted.step stepped,
          hvalid.step hregistered ?_ stepped⟩
        intro userId userName hserved
        exact SocketAction.registers (hserved ▸ asks)
    | writes _ _ _ _ _ chat _ | rests _ chat _ =>
        rw [chat]
        exact ⟨hregistered, hposted, hvalid⟩

/-- **Every text a client gets is a well-formed event**, whatever the frames and the names
that clients send. -/
theorem texts_wellFormed (hrun : (socket finite).Run .start ts world) (i : Nat) :
    ∀ text ∈ (world.writers i).written, ∃ event, readEvent finite text = some event ∧
      event ∈ world.chat.queue i ∧ event.Valid := by
  intro text htext
  obtain ⟨-, hposted, hvalid⟩ := valid.run rfl hrun
  have htold : world.Told := told.run rfl hrun
  obtain ⟨event, hevent, rfl⟩ := List.mem_map.mp ((htold i).subset htext)
  exact ⟨event, readEvent_writeEvent finite event, hevent, hvalid.queue hposted event hevent⟩

/-- What the two users in the lobby get: snapshots, members who come and go, a message with its
history, and an error. -/
theorem texts_wellFormed_lobby : ∃ ts world, (socket fun _ => true).Run .start ts world ∧
    (world.chat.queue 0).map (·.eventType) =
      ["connected", "joined_room", "presence_changed", "room_message", "presence_changed",
        "error"] ∧
    (world.chat.queue 1).map (·.eventType) =
      ["connected", "joined_room", "room_message", "room_state", "left_room"] ∧
    (world.writers 0).written.length = 6 ∧ (world.writers 1).written.length = 5 ∧
    ∀ i, ∀ text ∈ (world.writers i).written, ∃ event,
      readEvent (fun _ => true) text = some event ∧ event ∈ world.chat.queue i ∧
        event.Valid := by
  have hruns : ((socket fun _ => true).exec [] .start lobby).any (fun r =>
      (r.2.chat.queue 0).map (·.eventType) = ["connected", "joined_room", "presence_changed",
        "room_message", "presence_changed", "error"] ∧
      (r.2.chat.queue 1).map (·.eventType) = ["connected", "joined_room", "room_message",
        "room_state", "left_room"] ∧
      (r.2.writers 0).written.length = 6 ∧ (r.2.writers 1).written.length = 5) = true := by
    decide +kernel
  obtain ⟨ts, world, hrun, hcheck⟩ := TSys.exists_run hruns
  obtain ⟨hfirst, hsecond, hsix, hfive⟩ := of_decide_eq_true hcheck
  exact ⟨ts, world, hrun, hfirst, hsecond, hsix, hfive, texts_wellFormed hrun⟩

end SocketWorld

end Axes.Chat
