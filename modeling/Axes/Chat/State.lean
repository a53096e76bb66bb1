import Axes.Lib.Run
import Axes.Chat.Hub

/-!
# `ChatState` and the tasks that drive it

`process_message` and `unregister_connection` update the runtime and collect their
dispatches under the lock, and send them after it is released. Each is a locked step
here, followed by one step for each send; the tasks of `run_socket` interleave freely.
A channel is known by the number of its session, and holds everything sent on it.
-/

namespace Axes.Chat

open Axes.Lib

structure ChatRuntime where
  hub : ChatHub
  connections : String → Option Nat
  nextConnectionId : Nat

structure ChatDispatch where
  sender : Nat
  event : ChatEvent
  deriving DecidableEq

def dispatchToConnection (sender : Option Nat) (event : ChatEvent) : Option ChatDispatch :=
  sender.map fun sender => { sender := sender, event := event }

/-- An event to each of some connections that has a sender. -/
def dispatchToEach (connections : String → Option Nat) (connectionIds : List String)
    (event : ChatEvent) : List ChatDispatch :=
  connectionIds.filterMap fun connectionId => dispatchToConnection (connections connectionId) event

namespace ChatRuntime

def default : ChatRuntime where
  hub := .default
  connections _ := none
  nextConnectionId := 0

def registerConnection (userId userName : String) (sender : Nat) (runtime : ChatRuntime) :
    ChatRuntime × ChatSessionUser :=
  let connectionId := s!"chat-{runtime.nextConnectionId + 1}"
  ({ runtime with
      nextConnectionId := runtime.nextConnectionId + 1
      connections := Function.update runtime.connections connectionId (some sender) },
    { connectionId := connectionId, userId := userId, userName := userName })

def sendToConnection (connectionId : String) (event : ChatEvent) (runtime : ChatRuntime) :
    List ChatDispatch :=
  (dispatchToConnection (runtime.connections connectionId) event).toList

/-- The part of `process_message` under the lock. -/
def processMessage (sessionUser : ChatSessionUser) (message : ChatCommand) (now : Int)
    (runtime : ChatRuntime) : ChatRuntime × Except ChatError (List ChatDispatch) :=
  let sender := runtime.connections sessionUser.connectionId
  match message with
  | .joinRoom roomId =>
      let (hub, result) := runtime.hub.joinRoom sessionUser roomId
      ({ runtime with hub := hub }, result.map fun joined =>
        let dispatches := (dispatchToConnection sender (.joinedRoom {
          roomId := joined.roomId
          members := joined.members
          recentMessages := joined.recentMessages
          version := joined.version })).toList
        if joined.joinedNewly then
          dispatches ++ dispatchToEach runtime.connections joined.peerConnectionIds
            (.presenceChanged {
              roomId := joined.roomId
              joinedMembers := [sessionUser.summary]
              leftMembers := []
              version := joined.version })
        else dispatches)
  | .leaveRoom roomId =>
      let (hub, result) := runtime.hub.leaveRoom sessionUser.connectionId roomId
      ({ runtime with hub := hub }, result.map fun (leftNotice, presence, peerConnectionIds) =>
        (dispatchToConnection sender (.leftRoom leftNotice)).toList ++
          dispatchToEach runtime.connections peerConnectionIds (.presenceChanged presence))
  | .sendRoomMessage roomId content =>
      let (hub, result) :=
        runtime.hub.sendRoomMessage sessionUser.connectionId roomId content now
      ({ runtime with hub := hub }, result.map fun sent =>
        dispatchToEach runtime.connections sent.recipientConnectionIds (.roomMessage sent.message))
  | .syncRoomState roomId =>
      (runtime, (runtime.hub.syncRoomState sessionUser.connectionId roomId).map fun snapshot =>
        (dispatchToConnection sender (.roomState snapshot)).toList)
  | .ping => (runtime, .ok (dispatchToConnection sender .pong).toList)

/-- The part of `unregister_connection` under the lock. -/
def unregisterConnection (connectionId : String) (runtime : ChatRuntime) :
    ChatRuntime × List ChatDispatch :=
  let connections := Function.update runtime.connections connectionId none
  let (hub, changes) := runtime.hub.disconnect connectionId
  ({ runtime with hub := hub, connections := connections },
    changes.flatMap fun presence =>
      dispatchToEach connections (hub.chatMemberConnectionIds presence.roomId)
        (.presenceChanged presence))

end ChatRuntime

/-! ## The tasks -/

/-- A dispatch that is still to be sent, and its place in the order of dispatching. -/
abbrev Pending := List (ChatDispatch × Nat)

/-- Where the task of a session is in `run_socket`. -/
inductive Task
  /-- Registered; `Connected` is not dispatched. -/
  | connecting
  /-- Sending what was dispatched; with nothing pending, waiting for the socket. -/
  | running (pending : Pending)
  /-- About to answer with an error event. -/
  | failed (payload : ChatErrorPayload)
  /-- Unregistered; its last dispatches are being sent. -/
  | closed (pending : Pending)

def Task.pending : Task → Pending
  | running pending | closed pending => pending
  | connecting | failed _ => []

structure Session where
  user : ChatSessionUser
  task : Task

structure ChatWorld where
  runtime : ChatRuntime
  sessions : List Session
  /-- What was sent on each channel, each event with its place in `log`. -/
  queues : Nat → List (ChatEvent × Nat)
  /-- Ghost: everything dispatched, in the order of the lock. -/
  log : List ChatDispatch

inductive Action
  | register (userId userName : String)
  /-- `send_to_connection` of `Connected`. -/
  | connected (session : Nat)
  | command (session : Nat) (message : ChatCommand) (now : Int)
  /-- A text that is no command. -/
  | invalid (session : Nat)
  /-- `send_to_connection` of an error event. -/
  | reply (session : Nat)
  | send (session : Nat)
  | close (session : Nat)

def invalidMessage : ChatErrorPayload where
  code := "invalid_message"
  message := "invalid websocket message"

namespace ChatWorld

def start : ChatWorld where
  runtime := .default
  sessions := []
  queues _ := []
  log := []

/-- A locked step of a session: the runtime moves, and dispatches are collected. -/
def locked (world : ChatWorld) (i : Nat) (runtime : ChatRuntime) (user : ChatSessionUser)
    (task : Pending → Task) (dispatches : List ChatDispatch) : ChatWorld :=
  { world with
    runtime := runtime
    sessions := world.sessions.set i ⟨user, task (dispatches.zipIdx world.log.length)⟩
    log := world.log ++ dispatches }

/-- A session sends its first pending dispatch. -/
def sent (world : ChatWorld) (i : Nat) (user : ChatSessionUser) (task : Pending → Task)
    (dispatch : ChatDispatch × Nat) (rest : Pending) : ChatWorld :=
  { world with
    sessions := world.sessions.set i ⟨user, task rest⟩
    queues := Function.update world.queues dispatch.1.sender
      (world.queues dispatch.1.sender ++ [(dispatch.1.event, dispatch.2)]) }

/-- A session is about to answer with an error event. -/
def failing (world : ChatWorld) (i : Nat) (user : ChatSessionUser)
    (payload : ChatErrorPayload) : ChatWorld :=
  { world with sessions := world.sessions.set i ⟨user, .failed payload⟩ }

def step (world : ChatWorld) : Action → Option ChatWorld
  | .register userId userName =>
      let (runtime, user) :=
        world.runtime.registerConnection userId userName world.sessions.length
      some { world with runtime := runtime, sessions := world.sessions ++ [⟨user, .connecting⟩] }
  | .connected i =>
      match world.sessions[i]? with
      | some ⟨user, .connecting⟩ =>
          some (world.locked i world.runtime user .running
            (world.runtime.sendToConnection user.connectionId
              (.connected user.userId user.userName)))
      | _ => none
  | .command i message now =>
      match world.sessions[i]? with
      | some ⟨user, .running []⟩ =>
          match world.runtime.processMessage user message now with
          | (runtime, .ok dispatches) => some (world.locked i runtime user .running dispatches)
          | (runtime, .error e) => some ({ world with runtime := runtime }.failing i user e.payload)
      | _ => none
  | .invalid i =>
      match world.sessions[i]? with
      | some ⟨user, .running []⟩ => some (world.failing i user invalidMessage)
      | _ => none
  | .reply i =>
      match world.sessions[i]? with
      | some ⟨user, .failed payload⟩ =>
          some (world.locked i world.runtime user .running
            (world.runtime.sendToConnection user.connectionId (.error payload)))
      | _ => none
  | .send i =>
      match world.sessions[i]? with
      | some ⟨user, .running (dispatch :: rest)⟩ =>
          some (world.sent i user .running dispatch rest)
      | some ⟨user, .closed (dispatch :: rest)⟩ => some (world.sent i user .closed dispatch rest)
      | _ => none
  | .close i =>
      match world.sessions[i]? with
      | some ⟨user, .running []⟩ =>
          let (runtime, dispatches) := world.runtime.unregisterConnection user.connectionId
          some (world.locked i runtime user .closed dispatches)
      | _ => none

end ChatWorld

/-- Every run of the chat service. -/
def chat : TSys ChatWorld Action where
  init world := world = .start
  step := ChatWorld.step

/-- Ann and Bob connect. -/
def twoSessions : List Action :=
  [.register "u1" "ann", .connected 0, .send 0, .register "u2" "bob", .connected 1, .send 1]

/-- Both join a room, Ann posts and Bob leaves; every event is sent at once. -/
def inTurn : List Action :=
  twoSessions ++ [.command 0 (.joinRoom "lobby") 0, .send 0, .command 1 (.joinRoom "lobby") 0,
    .send 1, .send 1, .command 0 (.sendRoomMessage "lobby" "hi") 5, .send 0, .send 0,
    .command 1 (.leaveRoom "lobby") 0, .send 1, .send 1]

end Axes.Chat
