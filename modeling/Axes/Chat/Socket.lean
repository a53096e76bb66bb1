import Axes.Chat.Wire
import Axes.Chat.Lifecycle
import Axes.Orders.Basic

/-!
# Sockets (`connect` and `run_socket` in `handlers/chat/mod.rs`)

What a client sends and receives: frames come in and are read as commands, and the writer
task of a session takes the events off its channel and sends their texts, until a send fails
or the session ends and aborts it.
-/

namespace Axes.Chat

open Axes.Lib Axes.Orders

structure ChatConnectQuery where
  userId : String
  userName : Option String

/-- The checks of `connect`: the user id and the name of the session. -/
def ChatConnectQuery.validate (query : ChatConnectQuery) : Except AppError (String × String) :=
  let userId := Text.trim query.userId
  if userId = "" then .error (.new "user_id is required" 400)
  else
    let userName := Text.trim (query.userName.getD userId)
    if userName = "" then .error (.new "user_name is invalid" 400) else .ok (userId, userName)

/-- What a socket receives. -/
inductive Frame
  | text (text : List Char)
  /-- A binary, ping or pong frame. -/
  | other
  | close
  /-- A receive error, or the end of the stream. -/
  | failed

/-- What a session does with a frame, if anything. -/
def Frame.action (finite : Json.Number → Bool) (i : Nat) (now : Int) : Frame → Option Action
  | text s =>
      match readCommand finite s with
      | some message => some (.command i message now)
      | none => some (.invalid i)
  | other => none
  | close | failed => some (.close i)

/-- The writer task of a session: the texts it has sent, and whether it has stopped. -/
structure Writer where
  written : List (List Char)
  stopped : Bool

structure SocketWorld where
  chat : ChatWorld
  writers : Nat → Writer

inductive SocketAction
  | connect (query : ChatConnectQuery)
  | frame (session : Nat) (frame : Frame) (now : Int)
  /-- A session goes on with what it is doing. -/
  | greet (session : Nat)
  | reply (session : Nat)
  | send (session : Nat)
  /-- The writer sends the next event of the channel. -/
  | write (session : Nat) (taken : Bool)
  | abort (session : Nat)

/-- What a socket action asks of the service, if anything. -/
def SocketAction.served (finite : Json.Number → Bool) : SocketAction → Option Action
  | .connect query =>
      match query.validate with
      | .ok (userId, userName) => some (.register userId userName)
      | .error _ => none
  | .frame i received now => received.action finite i now
  | .greet i => some (.connected i)
  | .reply i => some (.reply i)
  | .send i => some (.send i)
  | .write _ _ | .abort _ => none

namespace SocketWorld

def start : SocketWorld where
  chat := .start
  writers _ := ⟨[], false⟩

/-- A step of the chat service. -/
def act (world : SocketWorld) (action : Action) : Option SocketWorld :=
  (Chat.chat.step world.chat action).map fun chat => { world with chat := chat }

def setWriter (world : SocketWorld) (i : Nat) (writer : Writer) : SocketWorld :=
  { world with writers := Function.update world.writers i writer }

def step (finite : Json.Number → Bool) (world : SocketWorld) : SocketAction → Option SocketWorld
  | .connect query =>
      match query.validate with
      | .ok (userId, userName) => world.act (.register userId userName)
      | .error _ => some world
  | .frame i frame now =>
      match world.chat.sessions[i]? with
      | some ⟨_, .running []⟩ =>
          match frame.action finite i now with
          | some action => world.act action
          | none => some world
      | _ => none
  | .greet i => world.act (.connected i)
  | .reply i => world.act (.reply i)
  | .send i => world.act (.send i)
  | .write i taken =>
      let writer := world.writers i
      match writer.stopped, (world.chat.queues i)[writer.written.length]? with
      | false, some (event, _) =>
          if taken then
            some (world.setWriter i { writer with written := writer.written ++ [writeEvent event] })
          else some (world.setWriter i { writer with stopped := true })
      | _, _ => none
  | .abort i =>
      match world.chat.sessions[i]? with
      | some ⟨_, .closed []⟩ =>
          some (world.setWriter i { world.writers i with stopped := true })
      | _ => none

end SocketWorld

/-- Every run of the chat service over sockets. -/
def socket (finite : Json.Number → Bool) : TSys SocketWorld SocketAction where
  init world := world = .start
  step := SocketWorld.step finite

/-! ## A run -/

/-- A command about a room, with its payload in front. -/
def roomText (type room : String) (more : List (Option String × Json)) : List Char :=
  ' ' :: Json.print (.obj [(some "payload", .obj ((some "room_id", .str (some room)) :: more)),
    (some "type", .str (some type))])

/-- Two users enter a room, where one posts and the other asks for its state and leaves; what
comes last is no command. -/
def lobby : List SocketAction :=
  [.connect ⟨" u1 ", none⟩, .greet 0, .send 0,
    .connect ⟨"u2", some "Bo"⟩, .greet 1, .send 1,
    .frame 0 (.text (roomText "join_room" " lobby" [])) 1, .send 0,
    .frame 1 (.text (roomText "join_room" "lobby" [])) 2, .send 1, .send 1,
    .frame 0 (.text (roomText "send_room_message" "lobby"
      [(some "content", .str (some "hi "))])) 3, .send 0, .send 0,
    .frame 1 (.text (roomText "sync_room_state" "lobby" [])) 4, .send 1,
    .frame 1 (.text (roomText "leave_room" "lobby" [])) 5, .send 1, .send 1,
    .frame 0 (.text ['[', ']']) 6, .reply 0, .send 0] ++
  List.replicate 6 (.write 0 true) ++ List.replicate 5 (.write 1 true)

namespace SocketWorld

variable {finite : Json.Number → Bool} {world world' : SocketWorld} {action : SocketAction}

/-- **What a step can do**: a step of the service, a text for a client, or nothing to see. -/
inductive Does (finite : Json.Number → Bool) (world : SocketWorld) (action : SocketAction)
    (world' : SocketWorld) : Prop
  | serves (served : Action) (asks : action.served finite = some served)
      (stepped : Chat.chat.step world.chat served = some world'.chat)
      (writers : world'.writers = world.writers)
  | writes (i : Nat) (event : ChatEvent) (place : Nat) (asks : action.served finite = none)
      (next : (world.chat.queues i)[(world.writers i).written.length]? = some (event, place))
      (chat : world'.chat = world.chat)
      (writers : world'.writers = Function.update world.writers i
        ⟨(world.writers i).written ++ [writeEvent event], (world.writers i).stopped⟩)
  | rests (asks : action.served finite = none) (chat : world'.chat = world.chat)
      (written : ∀ i, (world'.writers i).written = (world.writers i).written)

theorem does_act {served : Action} (asks : action.served finite = some served)
    (h : world.act served = some world') : Does finite world action world' := by
  obtain ⟨chat, hchat, rfl⟩ := Option.map_eq_some_iff.mp h
  exact .serves served asks hchat rfl

theorem written_setWriter {i : Nat} {stopped : Bool} (j : Nat) :
    ((world.setWriter i { world.writers i with stopped := stopped }).writers j).written =
      (world.writers j).written := by
  show (Function.update world.writers i _ j).written = _
  by_cases h : j = i
  · rw [h, Function.update_self]
  · rw [Function.update_of_ne h]

theorem step_does (h : (socket finite).step world action = some world') :
    Does finite world action world' := by
  cases action with
  | connect query =>
      simp only [socket, step] at h
      split at h
      · next userId userName valid =>
          have hasks : (SocketAction.connect query).served finite =
              some (.register userId userName) := by
            rw [SocketAction.served, valid]
          exact does_act hasks h
      · next invalid =>
          obtain rfl := Option.some.inj h
          refine .rests ?_ rfl fun _ => rfl
          rw [SocketAction.served, invalid]
  | frame i frame now =>
      simp only [socket, step] at h
      split at h
      · split at h
        · next reads => exact does_act reads h
        · next ignored =>
            obtain rfl := Option.some.inj h
            exact .rests ignored rfl fun _ => rfl
      · cases h
  | greet i => exact does_act rfl h
  | reply i => exact does_act rfl h
  | send i => exact does_act rfl h
  | write i taken =>
      simp only [socket, step] at h
      split at h
      · next event place _ next =>
          split at h
          · obtain rfl := Option.some.inj h
            exact .writes i event place rfl next rfl rfl
          · obtain rfl := Option.some.inj h
            exact .rests rfl rfl written_setWriter
      · cases h
  | abort i =>
      simp only [socket, step] at h
      split at h
      · obtain rfl := Option.some.inj h
        exact .rests rfl rfl written_setWriter
      · cases h

/-- The texts of a client are those of the first events of its channel. -/
def Told (world : SocketWorld) : Prop :=
  ∀ i, (world.writers i).written <+: (world.chat.queue i).map writeEvent

theorem prefix_snoc {α : Type} {xs ys : List α} {x : α} (h : xs <+: ys)
    (hnext : ys[xs.length]? = some x) : xs ++ [x] <+: ys := by
  obtain ⟨rest, rfl⟩ := h
  rw [List.getElem?_append_right (Nat.le_refl _), Nat.sub_self] at hnext
  cases rest with
  | nil => cases hnext
  | cons y rest =>
      obtain rfl := Option.some.inj hnext
      exact ⟨rest, by simp⟩

/-- A channel only grows. -/
theorem queue_grows {chat chat' : ChatWorld} {served : Action}
    (h : Chat.chat.step chat served = some chat') (i : Nat) : chat.queue i <+: chat'.queue i := by
  cases ChatWorld.step_posts h with
  | dispatched _ _ _ hqueues _ => rw [ChatWorld.queue, ChatWorld.queue, hqueues]
  | sent entry _ _ hqueues _ =>
      rw [ChatWorld.queue, ChatWorld.queue, hqueues, ChatWorld.queues_sent, List.map_append]
      exact List.prefix_append _ _

theorem Told.step (h : world.Told) (hstep : (socket finite).step world action = some world') :
    world'.Told := by
  intro i
  cases step_does hstep with
  | serves served _ stepped writers =>
      rw [writers]
      exact (h i).trans ((queue_grows stepped i).map _)
  | rests _ hchat written =>
      rw [hchat, written]
      exact h i
  | writes j event place _ next hchat writers =>
      rw [hchat, writers]
      by_cases hj : i = j
      · subst hj
        rw [Function.update_self]
        refine prefix_snoc (h i) ?_
        rw [ChatWorld.queue, List.getElem?_map, List.getElem?_map, next]
        rfl
      · rw [Function.update_of_ne hj]
        exact h i

/-- What was written stays written. -/
theorem written_grows (hstep : (socket finite).step world action = some world') (i : Nat) :
    (world.writers i).written <+: (world'.writers i).written := by
  cases step_does hstep with
  | serves _ _ _ writers => rw [writers]
  | rests _ _ written => rw [written]
  | writes j _ _ _ _ _ writers =>
      rw [writers]
      by_cases hj : i = j
      · subst hj
        rw [Function.update_self]
        exact List.prefix_append _ _
      · rw [Function.update_of_ne hj]

theorem told : (socket finite).Inductive Told where
  init world hinit := by
    obtain rfl : world = .start := hinit
    exact fun _ => List.nil_prefix
  step _ _ _ h hstep := h.step hstep

/-- A run over sockets is a run of the chat service, in which it is asked what the frames
ask. -/
theorem serves {ts : List (Transition SocketWorld SocketAction)}
    (hrun : (socket finite).Run .start ts world) :
    Chat.chat.Run .start (ts.filterMap (TSys.seen SocketWorld.chat (·.served finite)))
      world.chat := by
  refine TSys.Run.seen SocketWorld.chat (·.served finite) ?_ ?_ hrun
  · intro s a t hstep hnone
    cases step_does hstep with
    | serves served asks _ _ =>
        rw [hnone] at asks
        cases asks
    | writes _ _ _ _ _ chat _ => exact chat
    | rests _ chat _ => exact chat
  · intro s a t served hstep hserved
    cases step_does hstep with
    | serves served' asks stepped _ =>
        rw [hserved] at asks
        obtain rfl := Option.some.inj asks
        exact stepped
    | writes _ _ _ asks _ _ _ | rests asks _ _ =>
        rw [hserved] at asks
        cases asks

variable {ts : List (Transition SocketWorld SocketAction)}

/-- What was written at any point of a run is written at its end. -/
theorem written_run (hrun : (socket finite).Run .start ts world) :
    ∀ tr ∈ ts, ∀ i, (tr.pre.writers i).written <+: (world.writers i).written := by
  induction hrun with
  | refl =>
      intro tr htr
      cases htr
  | @step ts world action world' _ hstep ih =>
      intro tr htr i
      rcases List.mem_append.mp htr with h | h
      · exact (ih tr h i).trans (written_grows hstep i)
      · obtain rfl := List.mem_singleton.mp h
        exact written_grows hstep i

/-- **What a client reads is what was sent to it**: over raw frames the service does what it
does over commands, where a text that spells a command asks for it; and the texts of a client,
which are never taken back, read as the first events of its channel, beginning with its own
`Connected`. -/
theorem clients_read_events (hrun : (socket finite).Run .start ts world) :
    Chat.chat.Run .start (ts.filterMap (TSys.seen SocketWorld.chat (·.served finite)))
      world.chat ∧
    (∀ tr ∈ ts, ∀ i text now command, tr.action = .frame i (.text text) now →
      ChatCommand.Spells finite command text →
      ⟨tr.pre.chat, .command i command now, tr.post.chat⟩ ∈
        ts.filterMap (TSys.seen SocketWorld.chat (·.served finite))) ∧
    (∀ i, (world.writers i).written.map (readEvent finite) <+:
      (world.chat.queue i).map some) ∧
    (∀ tr ∈ ts, ∀ i, (tr.pre.writers i).written <+: (world.writers i).written) ∧
    (∀ i session text texts, world.chat.sessions[i]? = some session →
      (world.writers i).written = text :: texts →
      readEvent finite text = some (.connected session.user.userId session.user.userName)) := by
  have hserves := serves hrun
  have htold : world.Told := told.run rfl hrun
  refine ⟨hserves, ?_, ?_, ?_, ?_⟩
  · intro tr htr i text now command haction hspells
    refine List.mem_filterMap.mpr ⟨tr, htr, ?_⟩
    simp only [TSys.seen, haction, SocketAction.served, Frame.action, hspells.read,
      Option.map_some]
  · intro i
    have hread := (htold i).map (readEvent finite)
    rw [List.map_map] at hread
    have hsome : readEvent finite ∘ writeEvent = some :=
      funext (readEvent_writeEvent finite)
    rwa [hsome] at hread
  · exact written_run hrun
  · intro i session text texts hsession hwritten
    obtain ⟨user, task⟩ := session
    obtain ⟨-, hgreeted⟩ := ChatWorld.greeted.run rfl hserves
    have hgreeting : world.chat.Greeting i user task := hgreeted.sessions i _ hsession
    obtain ⟨rest, hqueue⟩ := htold i
    rw [hwritten, ChatWorld.queue, List.map_map] at hqueue
    -- A channel that is not empty has been greeted.
    cases hgreeting with
    | waiting untouched | dispatched untouched =>
        rw [untouched.empty] at hqueue
        cases hqueue
    | sent queue =>
        rw [queue] at hqueue
        rw [(List.cons.inj hqueue).1]
        exact readEvent_writeEvent finite _

/-- In the lobby the first user asks to join, and reads six events. -/
theorem clients_read_events_lobby : ∃ ts world, (socket fun _ => true).Run .start ts world ∧
    (∃ tr ∈ ts.filterMap (TSys.seen SocketWorld.chat (·.served fun _ => true)),
      tr.action = .command 0 (.joinRoom " lobby") 1) ∧
    (world.writers 0).written.length = 6 ∧
    (world.writers 0).written.map (readEvent fun _ => true) <+:
      (world.chat.queue 0).map some := by
  have hruns : ((socket fun _ => true).exec [] .start lobby).any
      (fun r => (r.2.writers 0).written.length = 6) = true := by decide +kernel
  obtain ⟨ts, world, hrun, hlength, tr, htr, haction⟩ := TSys.exists_run_through
    (show .frame 0 (.text (roomText "join_room" " lobby" [])) 1 ∈ lobby by simp [lobby]) hruns
  have hblank : Json.Blank [' '] := by simp [Json.Blank]
  have hdocument := Json.DocumentText.padded hblank (Json.valueText_print (.obj
    [(some "payload", .obj [(some "room_id", .str (some " lobby"))]),
      (some "type", .str (some "join_room"))])) .nil
  rw [List.append_nil] at hdocument
  have hspells : ChatCommand.Spells (fun _ => true) (.joinRoom " lobby")
      (roomText "join_room" " lobby" []) :=
    .object [("payload", .obj [(some "room_id", .str (some " lobby"))]),
      ("type", .str (some "join_room"))] [] [("room_id", .str (some " lobby"))] [] _ hdocument rfl
      (.swap _ _ _) (by decide) (.refl _) (by decide) fun _ => by decide
  obtain ⟨-, hserved, hread, -, -⟩ := clients_read_events hrun
  exact ⟨ts, world, hrun, ⟨_, hserved tr htr 0 _ 1 _ haction hspells, rfl⟩,
    of_decide_eq_true hlength, hread 0⟩

end SocketWorld

end Axes.Chat
