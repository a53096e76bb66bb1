import Mathlib.Data.List.Sort
import Mathlib.Logic.Function.Basic
import Axes.Lib.BTree
import Axes.Chat.Basic

/-!
# The chat hub (`ChatHub` in `handlers/chat/mod.rs`)

Rooms and connections are hash maps that are only looked up, so they are functions;
the members of a room and the rooms of a connection are ordered, because they are
iterated. An operation returns the hub it leaves behind along with its result.
-/

namespace Axes.Chat

open Axes.Lib

structure ChatConnection where
  user : ChatSessionUser
  joinedRooms : BTreeSet String

structure ChatRoom where
  version : Nat
  members : BTreeMap String ChatUserSummary
  recentMessages : List ChatRoomMessage

structure ChatHub where
  rooms : String → Option ChatRoom
  connections : String → Option ChatConnection
  nextMessageId : Nat

structure ChatJoinRoomResult where
  roomId : String
  members : List ChatUserSummary
  recentMessages : List ChatRoomMessage
  version : Nat
  joinedNewly : Bool
  peerConnectionIds : List String
  deriving DecidableEq

structure ChatSendRoomMessageResult where
  roomId : String
  message : ChatRoomMessage
  recipientConnectionIds : List String
  deriving DecidableEq

/-- The order of `sorted_members`: by user id, then by user name. -/
def ChatUserSummary.cmp (left right : ChatUserSummary) : Ordering :=
  (compare left.userId right.userId).then (compare left.userName right.userName)

def sortMembers (members : List ChatUserSummary) : List ChatUserSummary :=
  members.insertionSort fun left right => (left.cmp right).isLE = true

def sortedMembers (room : ChatRoom) : List ChatUserSummary :=
  sortMembers (BTreeMap.values room.members)

/-- The last `maxRecentMessages` of a history: what the `drain` leaves. -/
def lastMessages (messages : List ChatRoomMessage) : List ChatRoomMessage :=
  messages.drop (messages.length - maxRecentMessages)

namespace ChatHub

def default : ChatHub where
  rooms _ := none
  connections _ := none
  nextMessageId := 0

def setRoom (hub : ChatHub) (roomId : String) (room : Option ChatRoom) : ChatHub :=
  { hub with rooms := Function.update hub.rooms roomId room }

def setConnection (hub : ChatHub) (connectionId : String)
    (connection : Option ChatConnection) : ChatHub :=
  { hub with connections := Function.update hub.connections connectionId connection }

@[simp] theorem rooms_setConnection {hub : ChatHub} {c : String}
    {connection : Option ChatConnection} : (hub.setConnection c connection).rooms = hub.rooms := rfl

@[simp] theorem rooms_setRoom_self {hub : ChatHub} {r : String} {room : Option ChatRoom} :
    (hub.setRoom r room).rooms r = room := Function.update_self ..

theorem rooms_setRoom_of_ne {hub : ChatHub} {r r' : String} {room : Option ChatRoom}
    (h : r' ≠ r) : (hub.setRoom r room).rooms r' = hub.rooms r' := Function.update_of_ne h ..

@[simp] theorem connections_setConnection_self {hub : ChatHub} {c : String}
    {connection : Option ChatConnection} :
    (hub.setConnection c connection).connections c = connection := Function.update_self ..

theorem connections_setConnection_of_ne {hub : ChatHub} {c c' : String}
    {connection : Option ChatConnection} (h : c' ≠ c) :
    (hub.setConnection c connection).connections c' = hub.connections c' :=
  Function.update_of_ne h ..

def joinRoom (user : ChatSessionUser) (roomId : String) (hub : ChatHub) :
    ChatHub × Except ChatError ChatJoinRoomResult :=
  match normalizedRoomId roomId with
  | .error e => (hub, .error e)
  | .ok roomId =>
      let room := (hub.rooms roomId).getD { version := 0, members := ∅, recentMessages := [] }
      let connection : ChatConnection := {
        user := user
        joinedRooms := ((hub.connections user.connectionId).map (·.joinedRooms)).getD ∅ }
      let (joinedNewly, room, connection) : Bool × ChatRoom × ChatConnection :=
        if room.members.contains user.connectionId then (false, room, connection)
        else (true,
          { room with
            version := room.version + 1
            members := room.members.insert user.connectionId user.summary },
          { connection with joinedRooms := connection.joinedRooms.insert roomId })
      ((hub.setRoom roomId (some room)).setConnection user.connectionId (some connection), .ok {
        roomId := roomId
        members := sortedMembers room
        recentMessages := room.recentMessages
        version := room.version
        joinedNewly := joinedNewly
        peerConnectionIds := room.members.keys.filter (fun id => id ≠ user.connectionId) })

def leaveRoom (connectionId roomId : String) (hub : ChatHub) :
    ChatHub × Except ChatError (ChatLeftRoomNotice × ChatPresenceChange × List String) :=
  match normalizedRoomId roomId with
  | .error e => (hub, .error e)
  | .ok roomId =>
      match hub.connections connectionId, hub.rooms roomId with
      | some connection, some room =>
          match room.members[connectionId]? with
          | none => (hub, .error (.notInRoom roomId))
          | some leftMember =>
              let connection := { connection with
                joinedRooms := connection.joinedRooms.erase roomId }
              let room := { room with
                version := room.version + 1
                members := room.members.erase connectionId }
              let presence : ChatPresenceChange := {
                roomId := roomId
                joinedMembers := []
                leftMembers := [leftMember]
                version := room.version }
              ((hub.setRoom roomId (if room.members.isEmpty then none else some room)).setConnection
                  connectionId (if connection.joinedRooms.isEmpty then none else some connection),
                .ok ({ roomId := roomId, version := room.version }, presence, room.members.keys))
      | _, _ => (hub, .error (.notInRoom roomId))

def sendRoomMessage (connectionId roomId content : String) (now : Int) (hub : ChatHub) :
    ChatHub × Except ChatError ChatSendRoomMessageResult :=
  match normalizedRoomId roomId with
  | .error e => (hub, .error e)
  | .ok roomId =>
      match normalizedContent content with
      | .error e => (hub, .error e)
      | .ok content =>
          match hub.connections connectionId, hub.rooms roomId with
          | some connection, some room =>
              if room.members.contains connectionId then
                let message : ChatRoomMessage := {
                  roomId := roomId
                  messageId := s!"msg-{hub.nextMessageId + 1}"
                  senderId := connection.user.userId
                  senderName := connection.user.userName
                  content := content
                  sentAt := now
                  version := room.version + 1 }
                let room := { room with
                  version := message.version
                  recentMessages := lastMessages (room.recentMessages ++ [message]) }
                ({ hub.setRoom roomId (some room) with nextMessageId := hub.nextMessageId + 1 },
                  .ok { roomId := roomId, message := message,
                        recipientConnectionIds := room.members.keys })
              else (hub, .error (.notInRoom roomId))
          | _, _ => (hub, .error (.notInRoom roomId))

def syncRoomState (connectionId roomId : String) (hub : ChatHub) :
    Except ChatError ChatRoomSnapshot :=
  match normalizedRoomId roomId with
  | .error e => .error e
  | .ok roomId =>
      match hub.rooms roomId with
      | none => .error (.notInRoom roomId)
      | some room =>
          if room.members.contains connectionId then .ok {
            roomId := roomId
            members := sortedMembers room
            recentMessages := room.recentMessages
            version := room.version }
          else .error (.notInRoom roomId)

/-- One round of the loop of `disconnect`: remove the connection from a room. -/
def disconnectFrom (connectionId : String) (leftMember : ChatUserSummary)
    (acc : ChatHub × List ChatPresenceChange) (roomId : String) :
    ChatHub × List ChatPresenceChange :=
  match acc.1.rooms roomId with
  | none => acc
  | some room =>
      let room := { room with
        members := room.members.erase connectionId
        version := room.version + 1 }
      let change : ChatPresenceChange := {
        roomId := roomId
        joinedMembers := []
        leftMembers := [leftMember]
        version := room.version }
      (acc.1.setRoom roomId (if room.members.isEmpty then none else some room),
        acc.2 ++ [change])

def disconnect (connectionId : String) (hub : ChatHub) : ChatHub × List ChatPresenceChange :=
  match hub.connections connectionId with
  | none => (hub, [])
  | some connection =>
      connection.joinedRooms.toList.foldl (disconnectFrom connectionId connection.user.summary)
        (hub.setConnection connectionId none, [])

def chatMemberConnectionIds (roomId : String) (hub : ChatHub) : List String :=
  ((hub.rooms roomId).map fun room => room.members.keys).getD []

end ChatHub

/-! ## Calls and replies -/

/-- A call of one of the five operations; `now` is what the clock reads. -/
inductive HubCall
  | joinRoom (user : ChatSessionUser) (roomId : String)
  | leaveRoom (connectionId roomId : String)
  | sendRoomMessage (connectionId roomId content : String) (now : Int)
  | syncRoomState (connectionId roomId : String)
  | disconnect (connectionId : String)

inductive HubReply
  | joined (result : Except ChatError ChatJoinRoomResult)
  | left (result : Except ChatError (ChatLeftRoomNotice × ChatPresenceChange × List String))
  | sent (result : Except ChatError ChatSendRoomMessageResult)
  | synced (result : Except ChatError ChatRoomSnapshot)
  | disconnected (changes : List ChatPresenceChange)

def ChatHub.call (hub : ChatHub) : HubCall → ChatHub × HubReply
  | .joinRoom user roomId =>
      let (hub, result) := hub.joinRoom user roomId
      (hub, .joined result)
  | .leaveRoom connectionId roomId =>
      let (hub, result) := hub.leaveRoom connectionId roomId
      (hub, .left result)
  | .sendRoomMessage connectionId roomId content now =>
      let (hub, result) := hub.sendRoomMessage connectionId roomId content now
      (hub, .sent result)
  | .syncRoomState connectionId roomId => (hub, .synced (hub.syncRoomState connectionId roomId))
  | .disconnect connectionId =>
      let (hub, changes) := hub.disconnect connectionId
      (hub, .disconnected changes)

end Axes.Chat
