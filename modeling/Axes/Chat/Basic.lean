import Axes.Lib.Text

/-!
# Chat: commands, events and errors (`handlers/chat/mod.rs`)

The types of the chat service and the two text checks. A `u64` counter is a `Nat`; a
timestamp an `Int`.
-/

namespace Axes.Chat

open Axes.Lib

def maxRoomIdLen : Nat := 64
def maxMessageLen : Nat := 500
def maxRecentMessages : Nat := 20

structure ChatUserSummary where
  userId : String
  userName : String
  deriving DecidableEq

structure ChatSessionUser where
  connectionId : String
  userId : String
  userName : String
  deriving DecidableEq

def ChatSessionUser.summary (user : ChatSessionUser) : ChatUserSummary where
  userId := user.userId
  userName := user.userName

structure ChatRoomMessage where
  roomId : String
  messageId : String
  senderId : String
  senderName : String
  content : String
  sentAt : Int
  version : Nat
  deriving DecidableEq

structure ChatRoomSnapshot where
  roomId : String
  members : List ChatUserSummary
  recentMessages : List ChatRoomMessage
  version : Nat
  deriving DecidableEq

structure ChatPresenceChange where
  roomId : String
  joinedMembers : List ChatUserSummary
  leftMembers : List ChatUserSummary
  version : Nat
  deriving DecidableEq

structure ChatLeftRoomNotice where
  roomId : String
  version : Nat
  deriving DecidableEq

structure ChatErrorPayload where
  code : String
  message : String
  deriving DecidableEq

inductive ChatCommand
  | joinRoom (roomId : String)
  | leaveRoom (roomId : String)
  | sendRoomMessage (roomId content : String)
  | syncRoomState (roomId : String)
  | ping

inductive ChatEvent
  | connected (userId userName : String)
  | joinedRoom (snapshot : ChatRoomSnapshot)
  | leftRoom (notice : ChatLeftRoomNotice)
  | roomMessage (message : ChatRoomMessage)
  | roomState (snapshot : ChatRoomSnapshot)
  | presenceChanged (presence : ChatPresenceChange)
  | pong
  | error (payload : ChatErrorPayload)
  deriving DecidableEq

/-- The room an event speaks of. -/
def ChatEvent.roomId? : ChatEvent → Option String
  | joinedRoom snapshot => some snapshot.roomId
  | leftRoom notice => some notice.roomId
  | roomMessage message => some message.roomId
  | roomState snapshot => some snapshot.roomId
  | presenceChanged presence => some presence.roomId
  | connected _ _ | pong | error _ => none

inductive ChatError
  | invalidRoomId
  | emptyContent
  | contentTooLong (maxLen : Nat)
  | notInRoom (roomId : String)
  deriving DecidableEq

namespace ChatError

def code : ChatError → String
  | invalidRoomId => "invalid_room_id"
  | emptyContent => "empty_content"
  | contentTooLong _ => "content_too_long"
  | notInRoom _ => "not_in_room"

/-- The `Display` text. -/
def message : ChatError → String
  | invalidRoomId => "room id is required"
  | emptyContent => "room message content is required"
  | contentTooLong _ => "room message content is too long"
  | notInRoom roomId => s!"connection is not in room {roomId}"

def payload (e : ChatError) : ChatErrorPayload where
  code := e.code
  message := e.message

end ChatError

def normalizedRoomId (roomId : String) : Except ChatError String :=
  let roomId := Text.trim roomId
  if roomId = "" ∨ maxRoomIdLen < roomId.utf8ByteSize then .error .invalidRoomId
  else .ok roomId

/-- A normalized room id is left as it is. -/
theorem normalizedRoomId_idem {raw roomId : String} (h : normalizedRoomId raw = .ok roomId) :
    normalizedRoomId roomId = .ok roomId := by
  simp only [normalizedRoomId] at h ⊢
  split at h
  · cases h
  · next hvalid =>
      obtain rfl := Except.ok.inj h
      rw [Text.trim_trim, if_neg hvalid]

def normalizedContent (content : String) : Except ChatError String :=
  let content := Text.trim content
  if content = "" then .error .emptyContent
  else if maxMessageLen < content.length then .error (.contentTooLong maxMessageLen)
  else .ok content

/-! ## What the checks accept -/

/-- A room id that `normalized_room_id` accepts. -/
def RoomIdOk (raw : String) : Prop :=
  Text.trim raw ≠ "" ∧ (Text.trim raw).utf8ByteSize ≤ 64

/-- A content that `normalized_content` accepts. -/
def ContentOk (content : String) : Prop :=
  Text.trim content ≠ "" ∧ (Text.trim content).length ≤ 500

instance {raw : String} : Decidable (RoomIdOk raw) :=
  inferInstanceAs (Decidable (_ ∧ _))

instance {content : String} : Decidable (ContentOk content) :=
  inferInstanceAs (Decidable (_ ∧ _))

theorem normalizedRoomId_of_ok {raw : String} (h : RoomIdOk raw) :
    normalizedRoomId raw = .ok (Text.trim raw) := by
  obtain ⟨hnonempty, hlength⟩ := h
  have hvalid : ¬(Text.trim raw = "" ∨ maxRoomIdLen < (Text.trim raw).utf8ByteSize) := by
    rw [not_or]
    refine ⟨hnonempty, ?_⟩
    show ¬64 < _
    omega
  rw [normalizedRoomId, if_neg hvalid]

theorem normalizedRoomId_of_not_ok {raw : String} (h : ¬RoomIdOk raw) :
    normalizedRoomId raw = .error .invalidRoomId := by
  have hinvalid : Text.trim raw = "" ∨ maxRoomIdLen < (Text.trim raw).utf8ByteSize := by
    by_contra hvalid
    rw [not_or] at hvalid
    refine h ⟨hvalid.1, ?_⟩
    have hlength : ¬64 < (Text.trim raw).utf8ByteSize := hvalid.2
    omega
  rw [normalizedRoomId, if_pos hinvalid]

theorem roomIdOk_of_normalized {raw r : String} (h : normalizedRoomId raw = .ok r) :
    RoomIdOk raw ∧ r = Text.trim raw := by
  by_cases hok : RoomIdOk raw
  · rw [normalizedRoomId_of_ok hok] at h
    exact ⟨hok, (Except.ok.inj h).symm⟩
  · rw [normalizedRoomId_of_not_ok hok] at h
    cases h

theorem not_roomIdOk_of_normalized {raw : String} {e : ChatError}
    (h : normalizedRoomId raw = .error e) : ¬RoomIdOk raw := by
  intro hok
  rw [normalizedRoomId_of_ok hok] at h
  cases h

/-- The first content check that fails decides. -/
theorem normalizedContent_eq (content : String) : normalizedContent content =
    if Text.trim content = "" then .error .emptyContent
    else if 500 < (Text.trim content).length then .error (.contentTooLong 500)
    else .ok (Text.trim content) := rfl

theorem normalizedContent_of_ok {content : String} (h : ContentOk content) :
    normalizedContent content = .ok (Text.trim content) := by
  obtain ⟨hnonempty, hlength⟩ := h
  have hshort : ¬500 < (Text.trim content).length := by omega
  rw [normalizedContent_eq, if_neg hnonempty, if_neg hshort]

end Axes.Chat
