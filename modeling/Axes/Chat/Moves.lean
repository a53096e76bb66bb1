import Axes.Chat.Hub

/-!
# What each call of the hub does

`ChatHub.Moves` says once what each call can do to the hub and what it replies; every
later proof splits on it instead of on the operations.
-/

namespace Axes.Chat

open Axes.Lib

/-! ## Moves of a room and of a connection -/

def ChatRoom.new : ChatRoom where
  version := 0
  members := ∅
  recentMessages := []

namespace ChatRoom

def enter (connectionId : String) (member : ChatUserSummary) (room : ChatRoom) : ChatRoom :=
  { room with
    version := room.version + 1
    members := room.members.insert connectionId member }

def leave (connectionId : String) (room : ChatRoom) : ChatRoom :=
  { room with
    version := room.version + 1
    members := room.members.erase connectionId }

def post (message : ChatRoomMessage) (room : ChatRoom) : ChatRoom :=
  { room with
    version := room.version + 1
    recentMessages := lastMessages (room.recentMessages ++ [message]) }

/-- An emptied room is dropped. -/
def kept (room : ChatRoom) : Option ChatRoom :=
  if room.members.isEmpty then none else some room

/-- The reply to a join, read off the room it left behind. -/
def joinResult (roomId connectionId : String) (joinedNewly : Bool) (room : ChatRoom) :
    ChatJoinRoomResult where
  roomId := roomId
  members := sortedMembers room
  recentMessages := room.recentMessages
  version := room.version
  joinedNewly := joinedNewly
  peerConnectionIds := room.members.keys.filter (fun id => id ≠ connectionId)

def snapshot (roomId : String) (room : ChatRoom) : ChatRoomSnapshot where
  roomId := roomId
  members := sortedMembers room
  recentMessages := room.recentMessages
  version := room.version

end ChatRoom

/-- A connection without the room; dropped with its last one. -/
def ChatConnection.leave (roomId : String) (connection : ChatConnection) :
    Option ChatConnection :=
  let joinedRooms := connection.joinedRooms.erase roomId
  if joinedRooms.isEmpty then none else some { connection with joinedRooms := joinedRooms }

namespace ChatPresenceChange

def joining (roomId : String) (member : ChatUserSummary) (version : Nat) :
    ChatPresenceChange where
  roomId := roomId
  joinedMembers := [member]
  leftMembers := []
  version := version

def leaving (roomId : String) (member : ChatUserSummary) (version : Nat) :
    ChatPresenceChange where
  roomId := roomId
  joinedMembers := []
  leftMembers := [member]
  version := version

end ChatPresenceChange

namespace ChatHub

/-- The room a join finds or makes. -/
def room (hub : ChatHub) (roomId : String) : ChatRoom := (hub.rooms roomId).getD .new

def joinedRooms (hub : ChatHub) (connectionId : String) : BTreeSet String :=
  ((hub.connections connectionId).map (·.joinedRooms)).getD ∅

/-- The rooms' side of membership. -/
def Member (hub : ChatHub) (connectionId roomId : String) : Prop :=
  ∃ room, hub.rooms roomId = some room ∧ connectionId ∈ room.members

/-- The connections' side of membership. -/
def Joined (hub : ChatHub) (connectionId roomId : String) : Prop :=
  ∃ connection, hub.connections connectionId = some connection ∧
    roomId ∈ connection.joinedRooms

theorem member_iff {hub : ChatHub} {c r : String} : hub.Member c r ↔ c ∈ (hub.room r).members := by
  unfold Member room
  cases hub.rooms r with
  | none => simp [ChatRoom.new]
  | some room => simp

theorem joined_iff {hub : ChatHub} {c r : String} : hub.Joined c r ↔ r ∈ hub.joinedRooms c := by
  unfold Joined joinedRooms
  cases hub.connections c with
  | none => simp
  | some connection => simp

instance {hub : ChatHub} {c r : String} : Decidable (hub.Member c r) :=
  decidable_of_iff _ member_iff.symm

theorem room_of_found {hub : ChatHub} {r : String} {room : ChatRoom}
    (hfound : hub.rooms r = some room) : hub.room r = room := by
  rw [ChatHub.room, hfound, Option.getD_some]

theorem member_of_found {hub : ChatHub} {c r : String} {room : ChatRoom}
    (hfound : hub.rooms r = some room) : hub.Member c r ↔ c ∈ room.members := by
  rw [member_iff, room_of_found hfound]

/-- Why an operation refuses: a bad room id, or no membership. -/
inductive Refuses (hub : ChatHub) (c raw : String) : ChatError → Prop
  | invalid {e} (invalid : normalizedRoomId raw = .error e) : Refuses hub c raw e
  | outsider {r} (name : normalizedRoomId raw = .ok r)
      (outside : hub.connections c = none ∨ ¬hub.Member c r) :
      Refuses hub c raw (.notInRoom r)

/-- The hub a disconnection leaves behind. -/
def drop (hub : ChatHub) (c : String) : ChatHub where
  rooms r :=
    if r ∈ hub.joinedRooms c then (hub.rooms r).bind fun room => (room.leave c).kept
    else hub.rooms r
  connections := Function.update hub.connections c none
  nextMessageId := hub.nextMessageId

/-- **What a call can do.** -/
inductive Moves (hub : ChatHub) : HubCall → HubReply → ChatHub → Prop
  | joinFailed {user raw e} (invalid : normalizedRoomId raw = .error e) :
      Moves hub (.joinRoom user raw) (.joined (.error e)) hub
  | rejoined {user raw r room} (name : normalizedRoomId raw = .ok r)
      (found : hub.rooms r = some room) (member : user.connectionId ∈ room.members) :
      Moves hub (.joinRoom user raw)
        (.joined (.ok (room.joinResult r user.connectionId false)))
        (hub.setConnection user.connectionId
          (some ⟨user, hub.joinedRooms user.connectionId⟩))
  | joined {user raw r room} (name : normalizedRoomId raw = .ok r)
      (fresh : user.connectionId ∉ (hub.room r).members)
      (entered : room = (hub.room r).enter user.connectionId user.summary) :
      Moves hub (.joinRoom user raw)
        (.joined (.ok (room.joinResult r user.connectionId true)))
        ((hub.setRoom r (some room)).setConnection user.connectionId
          (some ⟨user, (hub.joinedRooms user.connectionId).insert r⟩))
  | leaveFailed {c raw e} (refused : hub.Refuses c raw e) :
      Moves hub (.leaveRoom c raw) (.left (.error e)) hub
  | left {c raw r connection room member} (name : normalizedRoomId raw = .ok r)
      (known : hub.connections c = some connection) (found : hub.rooms r = some room)
      (stored : room.members[c]? = some member) :
      Moves hub (.leaveRoom c raw)
        (.left (.ok ({ roomId := r, version := room.version + 1 },
          .leaving r member (room.version + 1), (room.leave c).members.keys)))
        ((hub.setRoom r (room.leave c).kept).setConnection c (connection.leave r))
  | sendFailed {c raw content now e}
      (refused : hub.Refuses c raw e ∨ (∃ r, normalizedRoomId raw = .ok r) ∧
        normalizedContent content = .error e) :
      Moves hub (.sendRoomMessage c raw content now) (.sent (.error e)) hub
  | sent {c raw content now r text connection room message}
      (name : normalizedRoomId raw = .ok r) (accepted : normalizedContent content = .ok text)
      (known : hub.connections c = some connection) (found : hub.rooms r = some room)
      (member : c ∈ room.members)
      (written : message = ⟨r, s!"msg-{hub.nextMessageId + 1}", connection.user.userId,
        connection.user.userName, text, now, room.version + 1⟩) :
      Moves hub (.sendRoomMessage c raw content now)
        (.sent (.ok ⟨r, message, room.members.keys⟩))
        { hub.setRoom r (some (room.post message)) with
          nextMessageId := hub.nextMessageId + 1 }
  | syncFailed {c raw e}
      (refused : normalizedRoomId raw = .error e ∨
        ∃ r, normalizedRoomId raw = .ok r ∧ ¬hub.Member c r ∧ e = .notInRoom r) :
      Moves hub (.syncRoomState c raw) (.synced (.error e)) hub
  | synced {c raw r room} (name : normalizedRoomId raw = .ok r)
      (found : hub.rooms r = some room) (member : c ∈ room.members) :
      Moves hub (.syncRoomState c raw) (.synced (.ok (room.snapshot r))) hub
  | stranger {c} (unknown : hub.connections c = none) :
      Moves hub (.disconnect c) (.disconnected []) hub
  | disconnected {c connection} (known : hub.connections c = some connection) :
      Moves hub (.disconnect c)
        (.disconnected (connection.joinedRooms.toList.filterMap fun r =>
          (hub.rooms r).map fun room => .leaving r connection.user.summary (room.version + 1)))
        (hub.drop c)

variable {hub hub' : ChatHub} {call : HubCall} {reply : HubReply} {c c' r r' raw : String}

/-- The loop of `disconnect` visits each room once. -/
theorem foldl_disconnectFrom {member : ChatUserSummary} {rooms : List String}
    (hrooms : rooms.Nodup) {changes : List ChatPresenceChange} :
    rooms.foldl (disconnectFrom c member) (hub, changes) =
      ({ hub with rooms := fun r =>
          if r ∈ rooms then (hub.rooms r).bind fun room => (room.leave c).kept
          else hub.rooms r },
        changes ++ rooms.filterMap fun r =>
          (hub.rooms r).map fun room => .leaving r member (room.version + 1)) := by
  induction rooms generalizing hub changes with
  | nil => simp
  | cons r rooms ih =>
      obtain ⟨hr, hrooms⟩ := List.nodup_cons.mp hrooms
      rw [List.foldl_cons]
      cases hfound : hub.rooms r with
      | none =>
          have hskip : disconnectFrom c member (hub, changes) r = (hub, changes) := by
            simp [disconnectFrom, hfound]
          rw [hskip, ih hrooms, List.filterMap_cons]
          simp only [hfound, Option.map_none, Prod.mk.injEq, and_true, mk.injEq]
          funext r'
          by_cases hr' : r' = r
          · subst hr'
            simp [hfound]
          · simp [hr']
      | some room =>
          have hvisit : disconnectFrom c member (hub, changes) r =
              (hub.setRoom r (room.leave c).kept,
                changes ++ [.leaving r member (room.version + 1)]) := by
            simp [disconnectFrom, hfound, ChatRoom.leave, ChatRoom.kept,
              ChatPresenceChange.leaving]
          -- The rooms still to be visited are as they were, since none is visited twice.
          have hothers : ∀ r' ∈ rooms, (hub.setRoom r (room.leave c).kept).rooms r' =
              hub.rooms r' := by
            intro r' hr'
            exact Function.update_of_ne (ne_of_mem_of_not_mem hr' hr) _ _
          rw [hvisit, ih hrooms, List.filterMap_cons]
          simp only [hfound, Option.map_some, List.append_assoc, List.singleton_append,
            Prod.mk.injEq, mk.injEq]
          refine ⟨⟨?_, rfl, rfl⟩, ?_⟩
          · funext r'
            by_cases hr' : r' = r
            · subst hr'
              simp [hr, hfound, setRoom]
            · by_cases hlater : r' ∈ rooms
              · simp [hr', hlater, hothers r' hlater]
              · simp [hr', hlater, setRoom]
          · congr 2
            exact List.filterMap_congr fun r' hr' => by rw [hothers r' hr']

theorem not_member_of_none (h : hub.rooms r = none) : ¬hub.Member c r := by
  simp [Member, h]

theorem joinRoom_moves (hub : ChatHub) (user : ChatSessionUser) (raw : String) :
    hub.Moves (.joinRoom user raw) (.joined (hub.joinRoom user raw).2)
      (hub.joinRoom user raw).1 := by
  unfold joinRoom
  cases hname : normalizedRoomId raw with
  | error e => exact .joinFailed hname
  | ok r =>
      by_cases hmember : user.connectionId ∈ (hub.room r).members
      · obtain ⟨room, hfound, hin⟩ := member_iff.mpr hmember
        have hcontains : room.members.contains user.connectionId = true := hin
        -- `entry(..).or_insert_with` finds the room, and puts back the same one.
        have hrooms : Function.update hub.rooms r (some room) = hub.rooms := by
          rw [← hfound, Function.update_eq_self]
        simp only [hfound, Option.getD_some, hcontains, if_true, setRoom, hrooms]
        exact .rejoined hname hfound hin
      · have hcontains := BTreeMap.contains_eq_false.mpr hmember
        simp only [room, ChatRoom.new] at hcontains
        simp only [hcontains, Bool.false_eq_true, if_false]
        exact .joined hname hmember rfl

theorem leaveRoom_moves (hub : ChatHub) (c raw : String) :
    hub.Moves (.leaveRoom c raw) (.left (hub.leaveRoom c raw).2) (hub.leaveRoom c raw).1 := by
  unfold leaveRoom
  cases hname : normalizedRoomId raw with
  | error e => exact .leaveFailed (.invalid hname)
  | ok r =>
      cases hknown : hub.connections c with
      | none => exact .leaveFailed (.outsider hname (.inl hknown))
      | some connection =>
          cases hfound : hub.rooms r with
          | none =>
              simp only [hfound]
              exact .leaveFailed (.outsider hname (.inr (not_member_of_none hfound)))
          | some room =>
              simp only [hfound]
              cases hstored : room.members[c]? with
              | none =>
                  have houtside : ¬hub.Member c r := by
                    rw [member_of_found hfound, BTreeMap.mem_iff, hstored]
                    simp
                  exact .leaveFailed (.outsider hname (.inr houtside))
              | some member => exact .left hname hknown hfound hstored

theorem sendRoomMessage_moves (hub : ChatHub) (c raw content : String) (now : Int) :
    hub.Moves (.sendRoomMessage c raw content now) (.sent (hub.sendRoomMessage c raw content now).2)
      (hub.sendRoomMessage c raw content now).1 := by
  unfold sendRoomMessage
  cases hname : normalizedRoomId raw with
  | error e => exact .sendFailed (.inl (.invalid hname))
  | ok r =>
      cases haccepted : normalizedContent content with
      | error e => exact .sendFailed (.inr ⟨⟨r, hname⟩, haccepted⟩)
      | ok text =>
          cases hknown : hub.connections c with
          | none => exact .sendFailed (.inl (.outsider hname (.inl hknown)))
          | some connection =>
              cases hfound : hub.rooms r with
              | none =>
                  simp only [hfound]
                  exact .sendFailed (.inl (.outsider hname (.inr (not_member_of_none hfound))))
              | some room =>
                  simp only [hfound]
                  by_cases hmember : c ∈ room.members
                  · have hcontains : room.members.contains c = true := hmember
                    simp only [hcontains, if_true]
                    exact .sent hname haccepted hknown hfound hmember rfl
                  · have hcontains := BTreeMap.contains_eq_false.mpr hmember
                    have houtside := (member_of_found hfound).not.mpr hmember
                    simp only [hcontains, Bool.false_eq_true, if_false]
                    exact .sendFailed (.inl (.outsider hname (.inr houtside)))

theorem syncRoomState_moves (hub : ChatHub) (c raw : String) :
    hub.Moves (.syncRoomState c raw) (.synced (hub.syncRoomState c raw)) hub := by
  unfold syncRoomState
  cases hname : normalizedRoomId raw with
  | error e => exact .syncFailed (.inl hname)
  | ok r =>
      cases hfound : hub.rooms r with
      | none =>
          simp only [hfound]
          exact .syncFailed (.inr ⟨r, hname, not_member_of_none hfound, rfl⟩)
      | some room =>
          simp only [hfound]
          by_cases hmember : c ∈ room.members
          · have hcontains : room.members.contains c = true := hmember
            simp only [hcontains, if_true]
            exact .synced hname hfound hmember
          · have hcontains := BTreeMap.contains_eq_false.mpr hmember
            have houtside := (member_of_found hfound).not.mpr hmember
            simp only [hcontains, Bool.false_eq_true, if_false]
            exact .syncFailed (.inr ⟨r, hname, houtside, rfl⟩)

theorem disconnect_moves (hub : ChatHub) (c : String) :
    hub.Moves (.disconnect c) (.disconnected (hub.disconnect c).2) (hub.disconnect c).1 := by
  unfold disconnect
  cases hknown : hub.connections c with
  | none => exact .stranger hknown
  | some connection =>
      simp only [foldl_disconnectFrom (BTreeSet.nodup_toList _)]
      have hmoves := Moves.disconnected hknown
      simpa [drop, joinedRooms, hknown, setConnection] using hmoves

theorem call_moves (hub : ChatHub) (call : HubCall) :
    hub.Moves call (hub.call call).2 (hub.call call).1 := by
  cases call with
  | joinRoom user raw =>
      rw [call]
      exact joinRoom_moves hub user raw
  | leaveRoom c raw =>
      rw [call]
      exact leaveRoom_moves hub c raw
  | sendRoomMessage c raw content now =>
      rw [call]
      exact sendRoomMessage_moves hub c raw content now
  | syncRoomState c raw => exact syncRoomState_moves hub c raw
  | disconnect c =>
      rw [call]
      exact disconnect_moves hub c

/-! ## A refused call -/

theorem joinRoom_error {user : ChatSessionUser} {e : ChatError}
    (h : (hub.joinRoom user raw).2 = .error e) : (hub.joinRoom user raw).1 = hub := by
  have hmoves := hub.joinRoom_moves user raw
  generalize hub.joinRoom user raw = outcome at h hmoves ⊢
  obtain ⟨hub', result⟩ := outcome
  obtain rfl : result = .error e := h
  cases hmoves with
  | joinFailed => rfl

theorem leaveRoom_error {e : ChatError} (h : (hub.leaveRoom c raw).2 = .error e) :
    (hub.leaveRoom c raw).1 = hub := by
  have hmoves := hub.leaveRoom_moves c raw
  generalize hub.leaveRoom c raw = outcome at h hmoves ⊢
  obtain ⟨hub', result⟩ := outcome
  obtain rfl : result = .error e := h
  cases hmoves with
  | leaveFailed => rfl

theorem sendRoomMessage_error {content : String} {now : Int} {e : ChatError}
    (h : (hub.sendRoomMessage c raw content now).2 = .error e) :
    (hub.sendRoomMessage c raw content now).1 = hub := by
  have hmoves := hub.sendRoomMessage_moves c raw content now
  generalize hub.sendRoomMessage c raw content now = outcome at h hmoves ⊢
  obtain ⟨hub', result⟩ := outcome
  obtain rfl : result = .error e := h
  cases hmoves with
  | sendFailed => rfl

/-! ## One room and one connection -/

/-- **What a call can do to one room.** -/
inductive RoomMoves (hub : ChatHub) (call : HubCall) (r : String) : Option ChatRoom → Prop
  | same : RoomMoves hub call r (hub.rooms r)
  | entered {user raw} (joins : call = .joinRoom user raw)
      (name : normalizedRoomId raw = .ok r) :
      RoomMoves hub call r (some ((hub.room r).enter user.connectionId user.summary))
  | left {c room} (found : hub.rooms r = some room) :
      RoomMoves hub call r (room.leave c).kept
  | posted {room message} (found : hub.rooms r = some room) :
      RoomMoves hub call r (some (room.post message))

theorem Moves.room (h : hub.Moves call reply hub') (r : String) :
    hub.RoomMoves call r (hub'.rooms r) := by
  cases h with
  | joinFailed | rejoined | leaveFailed | sendFailed | syncFailed | synced | stranger =>
      exact .same
  | @joined user raw r₀ room name _ entered =>
      rw [rooms_setConnection]
      by_cases hr : r = r₀
      · subst hr
        rw [rooms_setRoom_self, entered]
        exact .entered rfl name
      · rw [rooms_setRoom_of_ne hr]
        exact .same
  | @left c₀ raw r₀ connection room member _ _ found _ =>
      rw [rooms_setConnection]
      by_cases hr : r = r₀
      · subst hr
        rw [rooms_setRoom_self]
        exact .left found
      · rw [rooms_setRoom_of_ne hr]
        exact .same
  | @sent c₀ raw content now r₀ text connection room message _ _ _ found =>
      by_cases hr : r = r₀
      · subst hr
        rw [show ChatHub.rooms _ r = _ from rooms_setRoom_self]
        exact .posted found
      · rw [show ChatHub.rooms _ r = _ from rooms_setRoom_of_ne hr]
        exact .same
  | @disconnected c₀ connection known =>
      simp only [drop]
      split
      · cases hfound : hub.rooms r with
        | none =>
            rw [Option.bind_none, ← hfound]
            exact .same
        | some room => exact .left hfound
      · exact .same

/-- **What a call can do to one connection.** -/
inductive ConnectionMoves (hub : ChatHub) (call : HubCall) (c : String) :
    Option ChatConnection → Prop
  | same : ConnectionMoves hub call c (hub.connections c)
  | rejoined {user raw r} (joins : call = .joinRoom user raw) (self : c = user.connectionId)
      (member : hub.Member c r) : ConnectionMoves hub call c (some ⟨user, hub.joinedRooms c⟩)
  | joined {user raw r} (joins : call = .joinRoom user raw) (self : c = user.connectionId) :
      ConnectionMoves hub call c (some ⟨user, (hub.joinedRooms c).insert r⟩)
  | left {connection r} (known : hub.connections c = some connection) :
      ConnectionMoves hub call c (connection.leave r)
  | dropped : ConnectionMoves hub call c none

theorem Moves.connection (h : hub.Moves call reply hub') (c : String) :
    hub.ConnectionMoves call c (hub'.connections c) := by
  cases h with
  | joinFailed | leaveFailed | sendFailed | sent | syncFailed | synced | stranger => exact .same
  | @rejoined user raw r room _ found member =>
      by_cases hc : c = user.connectionId
      · subst hc
        rw [connections_setConnection_self]
        exact .rejoined rfl rfl ⟨room, found, member⟩
      · rw [connections_setConnection_of_ne hc]
        exact .same
  | @joined user raw r room _ _ _ =>
      by_cases hc : c = user.connectionId
      · subst hc
        rw [connections_setConnection_self]
        exact .joined rfl rfl
      · rw [connections_setConnection_of_ne hc]
        exact .same
  | @left c₀ raw r connection room member _ known _ _ =>
      by_cases hc : c = c₀
      · subst hc
        rw [connections_setConnection_self]
        exact .left known
      · rw [connections_setConnection_of_ne hc]
        exact .same
  | @disconnected c₀ connection known =>
      simp only [drop]
      by_cases hc : c = c₀
      · subst hc
        rw [Function.update_self]
        exact .dropped
      · rw [Function.update_of_ne hc]
        exact .same

end ChatHub

end Axes.Chat
