import Axes.Lib.Serde
import Axes.Chat.Basic

/-!
# Chat frames (`handlers/chat/mod.rs`)

Commands and events as JSON texts, with `type` and `payload` beside each other. The server
reads commands and writes events; a client writes commands and reads events. `finite` tells
the numbers in the range of a double, which matter in a payload that comes before its type.
-/

namespace Axes.Chat

open Axes.Lib Axes.Lib.Serde

/-! ## Payloads -/

def ChatUserSummary.fields : Fields ChatUserSummary where
  names := ["user_id", "user_name"]
  distinct := by decide
  write member :=
    [("user_id", string.write member.userId), ("user_name", string.write member.userName)]
  read get := do
    let userId ← field string (get "user_id")
    let userName ← field string (get "user_name")
    pure ⟨userId, userName⟩
  names_write _ := rfl
  read_write member get h := by
    simp only [List.forall_mem_cons, List.not_mem_nil, false_implies, implies_true, and_true] at h
    obtain ⟨huser, hname⟩ := h
    simp [field, huser, hname]

def ChatRoomMessage.fields : Fields ChatRoomMessage where
  names := ["room_id", "message_id", "sender_id", "sender_name", "content", "sent_at", "version"]
  distinct := by decide
  write message :=
    [("room_id", string.write message.roomId),
      ("message_id", string.write message.messageId),
      ("sender_id", string.write message.senderId),
      ("sender_name", string.write message.senderName),
      ("content", string.write message.content),
      ("sent_at", int.write message.sentAt),
      ("version", nat.write message.version)]
  read get := do
    let roomId ← field string (get "room_id")
    let messageId ← field string (get "message_id")
    let senderId ← field string (get "sender_id")
    let senderName ← field string (get "sender_name")
    let content ← field string (get "content")
    let sentAt ← field int (get "sent_at")
    let version ← field nat (get "version")
    pure ⟨roomId, messageId, senderId, senderName, content, sentAt, version⟩
  names_write _ := rfl
  read_write message get h := by
    simp only [List.forall_mem_cons, List.not_mem_nil, false_implies, implies_true, and_true] at h
    obtain ⟨hroom, hmessage, hsender, hname, hcontent, hsent, hversion⟩ := h
    simp [field, hroom, hmessage, hsender, hname, hcontent, hsent, hversion]

def ChatRoomSnapshot.fields : Fields ChatRoomSnapshot where
  names := ["room_id", "members", "recent_messages", "version"]
  distinct := by decide
  write snapshot :=
    [("room_id", string.write snapshot.roomId),
      ("members", (list ChatUserSummary.fields.codec).write snapshot.members),
      ("recent_messages", (list ChatRoomMessage.fields.codec).write snapshot.recentMessages),
      ("version", nat.write snapshot.version)]
  read get := do
    let roomId ← field string (get "room_id")
    let members ← field (list ChatUserSummary.fields.codec) (get "members")
    let recentMessages ← field (list ChatRoomMessage.fields.codec) (get "recent_messages")
    let version ← field nat (get "version")
    pure ⟨roomId, members, recentMessages, version⟩
  names_write _ := rfl
  read_write snapshot get h := by
    simp only [List.forall_mem_cons, List.not_mem_nil, false_implies, implies_true, and_true] at h
    obtain ⟨hroom, hmembers, hmessages, hversion⟩ := h
    simp [field, hroom, hmembers, hmessages, hversion]

def ChatPresenceChange.fields : Fields ChatPresenceChange where
  names := ["room_id", "joined_members", "left_members", "version"]
  distinct := by decide
  write presence :=
    [("room_id", string.write presence.roomId),
      ("joined_members", (list ChatUserSummary.fields.codec).write presence.joinedMembers),
      ("left_members", (list ChatUserSummary.fields.codec).write presence.leftMembers),
      ("version", nat.write presence.version)]
  read get := do
    let roomId ← field string (get "room_id")
    let joinedMembers ← field (list ChatUserSummary.fields.codec) (get "joined_members")
    let leftMembers ← field (list ChatUserSummary.fields.codec) (get "left_members")
    let version ← field nat (get "version")
    pure ⟨roomId, joinedMembers, leftMembers, version⟩
  names_write _ := rfl
  read_write presence get h := by
    simp only [List.forall_mem_cons, List.not_mem_nil, false_implies, implies_true, and_true] at h
    obtain ⟨hroom, hjoined, hleft, hversion⟩ := h
    simp [field, hroom, hjoined, hleft, hversion]

def ChatLeftRoomNotice.fields : Fields ChatLeftRoomNotice where
  names := ["room_id", "version"]
  distinct := by decide
  write notice :=
    [("room_id", string.write notice.roomId), ("version", nat.write notice.version)]
  read get := do
    let roomId ← field string (get "room_id")
    let version ← field nat (get "version")
    pure ⟨roomId, version⟩
  names_write _ := rfl
  read_write notice get h := by
    simp only [List.forall_mem_cons, List.not_mem_nil, false_implies, implies_true, and_true] at h
    obtain ⟨hroom, hversion⟩ := h
    simp [field, hroom, hversion]

def ChatErrorPayload.fields : Fields ChatErrorPayload where
  names := ["code", "message"]
  distinct := by decide
  write payload :=
    [("code", string.write payload.code), ("message", string.write payload.message)]
  read get := do
    let code ← field string (get "code")
    let message ← field string (get "message")
    pure ⟨code, message⟩
  names_write _ := rfl
  read_write payload get h := by
    simp only [List.forall_mem_cons, List.not_mem_nil, false_implies, implies_true, and_true] at h
    obtain ⟨hcode, hmessage⟩ := h
    simp [field, hcode, hmessage]

/-- The struct without fields. -/
def chatEmptyPayload : Fields Unit where
  names := []
  distinct := .nil
  write _ := []
  read _ := some ()
  names_write _ := rfl
  read_write _ _ _ := rfl

/-- The payload of the commands that name a room. -/
def roomPayload : Fields String where
  names := ["room_id"]
  distinct := by decide
  write roomId := [("room_id", string.write roomId)]
  read get := field string (get "room_id")
  names_write _ := rfl
  read_write roomId get h := by
    simp [field, h ("room_id", string.write roomId) List.mem_cons_self]

/-- Room and content. -/
def contentPayload : Fields (String × String) where
  names := ["room_id", "content"]
  distinct := by decide
  write message := [("room_id", string.write message.1), ("content", string.write message.2)]
  read get := do
    let roomId ← field string (get "room_id")
    let content ← field string (get "content")
    pure (roomId, content)
  names_write _ := rfl
  read_write message get h := by
    simp only [List.forall_mem_cons, List.not_mem_nil, false_implies, implies_true, and_true] at h
    obtain ⟨hroom, hcontent⟩ := h
    simp [field, hroom, hcontent]

/-! ## Commands -/

/-- The tag of a command. -/
def ChatCommand.eventType : ChatCommand → String
  | joinRoom _ => "join_room"
  | leaveRoom _ => "leave_room"
  | sendRoomMessage _ _ => "send_room_message"
  | syncRoomState _ => "sync_room_state"
  | ping => "ping"

/-- The members of the payload of a command. -/
def ChatCommand.members : ChatCommand → List (String × Json)
  | joinRoom roomId | leaveRoom roomId | syncRoomState roomId => roomPayload.write roomId
  | sendRoomMessage roomId content => contentPayload.write (roomId, content)
  | ping => chatEmptyPayload.write ()

/-- A command whose tag and payload are known. -/
def ChatCommand.ofPayload (eventType : String) (payload : Json) : Option ChatCommand :=
  match eventType with
  | "join_room" => (roomPayload.ofVariant payload).map joinRoom
  | "leave_room" => (roomPayload.ofVariant payload).map leaveRoom
  | "send_room_message" =>
      (contentPayload.ofVariant payload).map fun message => sendRoomMessage message.1 message.2
  | "sync_room_state" => (roomPayload.ofVariant payload).map syncRoomState
  | "ping" => (chatEmptyPayload.ofJson payload).map fun _ => ping
  | _ => none

def ChatCommand.ofJson (finite : Json.Number → Bool) (j : Json) : Option ChatCommand :=
  (tagged finite "type" "payload" j).bind fun t => ofPayload t.1 t.2

/-! ## Events -/

def ChatEvent.eventType : ChatEvent → String
  | connected _ _ => "connected"
  | joinedRoom _ => "joined_room"
  | leftRoom _ => "left_room"
  | roomMessage _ => "room_message"
  | roomState _ => "room_state"
  | presenceChanged _ => "presence_changed"
  | pong => "pong"
  | error _ => "error"

def ChatEvent.payload : ChatEvent → Json
  | connected userId userName => ChatUserSummary.fields.toJson ⟨userId, userName⟩
  | joinedRoom snapshot | roomState snapshot => ChatRoomSnapshot.fields.toJson snapshot
  | leftRoom notice => ChatLeftRoomNotice.fields.toJson notice
  | roomMessage message => ChatRoomMessage.fields.toJson message
  | presenceChanged presence => ChatPresenceChange.fields.toJson presence
  | pong => chatEmptyPayload.toJson ()
  | error payload => ChatErrorPayload.fields.toJson payload

def ChatEvent.toJson (event : ChatEvent) : Json :=
  writeTagged "type" "payload" event.eventType event.payload

def ChatEvent.ofPayload (eventType : String) (payload : Json) : Option ChatEvent :=
  match eventType with
  | "connected" =>
      (ChatUserSummary.fields.ofVariant payload).map fun user =>
        connected user.userId user.userName
  | "joined_room" => (ChatRoomSnapshot.fields.ofJson payload).map joinedRoom
  | "left_room" => (ChatLeftRoomNotice.fields.ofJson payload).map leftRoom
  | "room_message" => (ChatRoomMessage.fields.ofJson payload).map roomMessage
  | "room_state" => (ChatRoomSnapshot.fields.ofJson payload).map roomState
  | "presence_changed" => (ChatPresenceChange.fields.ofJson payload).map presenceChanged
  | "pong" => (chatEmptyPayload.ofJson payload).map fun _ => pong
  | "error" => (ChatErrorPayload.fields.ofJson payload).map error
  | _ => none

def ChatEvent.ofJson (finite : Json.Number → Bool) (j : Json) : Option ChatEvent :=
  (tagged finite "type" "payload" j).bind fun t => ofPayload t.1 t.2

/-! ## Texts -/

def readCommand (finite : Json.Number → Bool) (text : List Char) : Option ChatCommand :=
  (Json.parse text).bind (ChatCommand.ofJson finite)

def writeEvent (event : ChatEvent) : List Char := Json.print event.toJson

def readEvent (finite : Json.Number → Bool) (text : List Char) : Option ChatEvent :=
  (Json.parse text).bind (ChatEvent.ofJson finite)

/-- A text of an object with the type and the payload of a command, in any order and beside
unknown members, and in the payload the members of the command likewise. -/
inductive ChatCommand.Spells (finite : Json.Number → Bool) (command : ChatCommand)
    (text : List Char) : Prop
  | object (ms unknown ps others : List (String × Json)) (name : Json)
      (document : Json.DocumentText (.obj (ms.map fun m => (some m.1, m.2))) text)
      (type : readTag name = some command.eventType)
      (members : ms.Perm ([("type", name),
        ("payload", .obj (ps.map fun m => (some m.1, m.2)))] ++ unknown))
      (beside : ∀ m ∈ unknown, m.1 ≠ "type" ∧ m.1 ≠ "payload")
      (payload : ps.Perm (command.members ++ others))
      (inside : ∀ m ∈ others, m.1 ∉ command.members.map (·.1))
      (buffered : ["payload", "type"].Sublist (ms.map (·.1)) →
        storable finite contentDepth (.obj (ps.map fun m => (some m.1, m.2))) = true)

theorem ChatCommand.ofPayload_of_perm {command : ChatCommand} {ps others : List (String × Json)}
    (hpayload : ps.Perm (command.members ++ others))
    (hothers : ∀ m ∈ others, m.1 ∉ command.members.map (·.1)) :
    ofPayload command.eventType (.obj (ps.map fun m => (some m.1, m.2))) = some command := by
  cases command with
  | joinRoom roomId =>
      have hread := roomPayload.ofJson_of_perm hpayload hothers
      simp only [eventType, ofPayload, Fields.ofVariant_obj, hread, Option.map_some]
  | leaveRoom roomId =>
      have hread := roomPayload.ofJson_of_perm hpayload hothers
      simp only [eventType, ofPayload, Fields.ofVariant_obj, hread, Option.map_some]
  | sendRoomMessage roomId content =>
      have hread := contentPayload.ofJson_of_perm hpayload hothers
      simp only [eventType, ofPayload, Fields.ofVariant_obj, hread, Option.map_some]
  | syncRoomState roomId =>
      have hread := roomPayload.ofJson_of_perm hpayload hothers
      simp only [eventType, ofPayload, Fields.ofVariant_obj, hread, Option.map_some]
  | ping =>
      have hread := chatEmptyPayload.ofJson_of_perm hpayload hothers
      simp only [eventType, ofPayload, hread, Option.map_some]

theorem ChatCommand.Spells.read {finite : Json.Number → Bool} {text : List Char}
    {command : ChatCommand} (h : command.Spells finite text) :
    readCommand finite text = some command := by
  obtain ⟨ms, unknown, ps, others, name, document, type, members, beside, payload, inside,
    buffered⟩ := h
  have htagged := tagged_of_perm (by decide) type buffered members beside
  rw [readCommand, Json.parse_document document, Option.bind_some, ChatCommand.ofJson, htagged,
    Option.bind_some, ChatCommand.ofPayload_of_perm payload inside]

/-- **A command is read from every text that spells it**, and no text spells two. -/
theorem readCommand_spelled {finite : Json.Number → Bool} {text : List Char}
    {command : ChatCommand} (h : command.Spells finite text) :
    readCommand finite text = some command ∧
      ∀ other : ChatCommand, other.Spells finite text → other = command := by
  refine ⟨h.read, ?_⟩
  intro other hother
  have hread := hother.read
  rw [h.read] at hread
  exact (Option.some.inj hread).symm

/-- A room is joined with white space and an escape, the payload in front of the type, and the
type as an object. -/
theorem readCommand_spelled_escaped :
    readCommand (fun _ => true) (" \x7b\"payload\":\x7b\"room_id\" : \"\\u006Cobby\"\x7d,\n" ++
      "\"type\":\x7b\"join_room\":null\x7d\x7d").toList = some (.joinRoom "lobby") := by
  have hblank : Json.Blank [' '] := by simp [Json.Blank]
  have hnewline : Json.Blank ['\n'] := by simp [Json.Blank]
  have hescape : Json.CharText (.unit 0x6C) ['\\', 'u', '0', '0', '6', 'C'] :=
    @Json.CharText.unit '0' '0' '6' 'C' 0 0 6 12 ⟨by decide, .inl rfl⟩ ⟨by decide, .inl rfl⟩
      ⟨by decide, .inl rfl⟩ ⟨by decide, .inr rfl⟩
  have hroom : Json.StringText (some "lobby") _ :=
    .text (.char hescape (Json.charsText_print "obby".toList))
      (.unit (.inl (by decide)) (Json.standFor_print "obby".toList))
  have hpayload : Json.ValueText (.obj [(some "room_id", .str (some "lobby"))]) _ :=
    .obj (.last .nil (Json.stringText_print (some "room_id")) hblank
      (.padded hblank (.str hroom) .nil))
  have hname := Json.valueText_print (.obj [(some "join_room", .null)])
  have hmembers := Json.MembersText.more .nil (Json.stringText_print (some "payload")) .nil
    hpayload.document (.last hnewline (Json.stringText_print (some "type")) .nil hname.document)
  exact (readCommand_spelled (.object
    [("payload", .obj [(some "room_id", .str (some "lobby"))]),
      ("type", .obj [(some "join_room", .null)])] []
    [("room_id", .str (some "lobby"))] [] _ (.padded hblank (.obj hmembers) .nil) rfl
    (.swap _ _ _) (by decide) (.refl _) (by decide) fun _ => by decide)).1

/-- An event is read back from its text. -/
theorem readEvent_writeEvent (finite : Json.Number → Bool) (event : ChatEvent) :
    readEvent finite (writeEvent event) = some event := by
  rw [readEvent, writeEvent, Json.parse_print, Option.bind_some, ChatEvent.ofJson,
    ChatEvent.toJson, tagged_writeTagged, Option.bind_some]
  cases event with
  | connected | joinedRoom | leftRoom | roomMessage | roomState | presenceChanged | pong
  | error => simp [ChatEvent.ofPayload, ChatEvent.eventType, ChatEvent.payload]

end Axes.Chat
