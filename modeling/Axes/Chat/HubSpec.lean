import Mathlib.Algebra.Group.Nat.Defs
import Mathlib.Data.Finset.Basic
import Axes.Chat.Membership

/-!
# The hub refines a set of pairs and a log per room

`HubSpec` says what the hub is for: which connection is in which room, what happened in
a room since it last came into existence, and which message ids were handed out. The hub
stores this three times over and truncated; `Refines` is the relation, kept by every call.
-/

namespace Axes.Chat

open Axes.Lib

/-! ## The specification -/

/-- What happens in a room, each kind counted once in its version. -/
inductive RoomEntry
  | joined (connectionId : String)
  | left (connectionId : String)
  | removed (connectionId : String)
  | sent (message : ChatRoomMessage)

def RoomEntry.message? : RoomEntry → Option ChatRoomMessage
  | sent message => some message
  | joined _ | left _ | removed _ => none

/-- The messages accepted, in acceptance order. -/
def accepted (log : List RoomEntry) : List ChatRoomMessage := log.filterMap RoomEntry.message?

structure HubSpec where
  /-- Pairs of a connection and a room. -/
  members : Finset (String × String)
  log : String → List RoomEntry
  issued : List String

namespace HubSpec

def empty : HubSpec where
  members := ∅
  log _ := []
  issued := []

/-- A room that no one is left in takes its log with it. -/
def logAfter (members : Finset (String × String)) (roomId : String) (log : List RoomEntry) :
    List RoomEntry :=
  if ∃ pair ∈ members, pair.2 = roomId then log else []

def join (connectionId roomId : String) (spec : HubSpec) : HubSpec :=
  if (connectionId, roomId) ∈ spec.members then spec
  else { spec with
    members := insert (connectionId, roomId) spec.members
    log := Function.update spec.log roomId (spec.log roomId ++ [.joined connectionId]) }

def leave (connectionId roomId : String) (spec : HubSpec) : HubSpec :=
  let members := spec.members.erase (connectionId, roomId)
  { spec with
    members := members
    log := Function.update spec.log roomId
      (logAfter members roomId (spec.log roomId ++ [.left connectionId])) }

def send (message : ChatRoomMessage) (roomId : String) (spec : HubSpec) : HubSpec :=
  { spec with
    log := Function.update spec.log roomId (spec.log roomId ++ [.sent message])
    issued := spec.issued ++ [message.messageId] }

def disconnect (connectionId : String) (spec : HubSpec) : HubSpec :=
  let members := spec.members.filter fun pair => pair.1 ≠ connectionId
  { spec with
    members := members
    log := fun roomId =>
      if (connectionId, roomId) ∈ spec.members then
        logAfter members roomId (spec.log roomId ++ [.removed connectionId])
      else spec.log roomId }

/-- Act on the room a raw id names. -/
def inRoom (raw : String) (act : String → HubSpec → HubSpec) (spec : HubSpec) : HubSpec :=
  match normalizedRoomId raw with
  | .ok roomId => act roomId spec
  | .error _ => spec

/-- The specification sees a call and whether it succeeded. -/
def observe (spec : HubSpec) : HubCall → HubReply → HubSpec
  | .joinRoom user raw, .joined (.ok _) => spec.inRoom raw (join user.connectionId)
  | .leaveRoom connectionId raw, .left (.ok _) => spec.inRoom raw (leave connectionId)
  | .sendRoomMessage _ raw _ _, .sent (.ok result) => spec.inRoom raw (send result.message)
  | .disconnect connectionId, .disconnected _ => spec.disconnect connectionId
  | _, _ => spec

theorem inRoom_ok {raw r : String} (h : normalizedRoomId raw = .ok r)
    {act : String → HubSpec → HubSpec} {spec : HubSpec} : spec.inRoom raw act = act r spec := by
  simp [inRoom, h]

end HubSpec

/-! ## The relation -/

/-- `hub` stores what `spec` says. -/
structure HubSpec.Refines (spec : HubSpec) (hub : ChatHub) : Prop where
  members : ∀ c r, (∃ room, hub.rooms r = some room ∧ c ∈ room.members) ↔ (c, r) ∈ spec.members
  joined : ∀ c r, (∃ connection, hub.connections c = some connection ∧
    r ∈ connection.joinedRooms) ↔ (c, r) ∈ spec.members
  rooms : ∀ r, (∃ room, hub.rooms r = some room) ↔ ∃ c, (c, r) ∈ spec.members
  connections : ∀ c, (∃ connection, hub.connections c = some connection) ↔
    ∃ r, (c, r) ∈ spec.members
  version : ∀ r room, hub.rooms r = some room → room.version = (spec.log r).length
  recent : ∀ r room, hub.rooms r = some room →
    let n := (accepted (spec.log r)).length
    room.recentMessages = (accepted (spec.log r)).drop (n - min 20 n)
  vacated : ∀ r, hub.rooms r = none → spec.log r = []
  issued : spec.issued = (List.range hub.nextMessageId).map fun n => s!"msg-{n + 1}"

/-- What a room's log says of the room. -/
def Recorded (log : List RoomEntry) : Option ChatRoom → Prop
  | none => log = []
  | some room => room.version = log.length ∧ room.recentMessages = lastMessages (accepted log)

theorem lastMessages_eq (messages : List ChatRoomMessage) :
    lastMessages messages = messages.drop (messages.length - min 20 messages.length) := by
  unfold lastMessages maxRecentMessages
  congr 1
  omega

/-- Truncating as messages come in is truncating the whole history. -/
theorem lastMessages_append (messages : List ChatRoomMessage) (message : ChatRoomMessage) :
    lastMessages (lastMessages messages ++ [message]) = lastMessages (messages ++ [message]) := by
  have hdrop : lastMessages messages ++ [message] =
      (messages ++ [message]).drop (messages.length - maxRecentMessages) := by
    rw [List.drop_append_of_le_length (Nat.sub_le _ _), lastMessages]
  rw [hdrop, lastMessages, lastMessages, List.drop_drop]
  congr 1
  simp only [List.length_drop, List.length_append, List.length_singleton]
  omega

variable {spec : HubSpec} {hub hub' : ChatHub} {call : HubCall} {reply : HubReply}
  {c c' r r' : String} {log : List RoomEntry} {room : ChatRoom}

theorem accepted_sent {message : ChatRoomMessage} :
    accepted (log ++ [.sent message]) = accepted log ++ [message] := by
  simp [accepted, RoomEntry.message?]

theorem accepted_other {entry : RoomEntry} (h : entry.message? = none) :
    accepted (log ++ [entry]) = accepted log := by
  simp [accepted, h]

theorem Recorded.post {message : ChatRoomMessage} (h : Recorded log (some room)) :
    Recorded (log ++ [.sent message]) (some (room.post message)) := by
  obtain ⟨hversion, hrecent⟩ := h
  refine ⟨by simp [ChatRoom.post, hversion], ?_⟩
  rw [accepted_sent, ChatRoom.post, hrecent, lastMessages_append]

theorem Recorded.enter {member : ChatUserSummary} (h : Recorded (spec.log r) (hub.rooms r)) :
    Recorded (spec.log r ++ [.joined c]) (some ((hub.room r).enter c member)) := by
  unfold ChatHub.room
  cases hfound : hub.rooms r with
  | none =>
      rw [hfound] at h
      simp only [Recorded] at h
      simp [Recorded, h, ChatRoom.enter, ChatRoom.new, accepted, List.filterMap_cons,
        RoomEntry.message?, lastMessages]
  | some room =>
      rw [hfound] at h
      obtain ⟨hversion, hrecent⟩ := h
      refine ⟨by simp [ChatRoom.enter, hversion], ?_⟩
      rw [accepted_other rfl]
      exact hrecent

/-- A departure, whether it empties the room or not. -/
theorem Recorded.leave {members : Finset (String × String)} {entry : RoomEntry}
    (h : Recorded log (some room)) (hentry : entry.message? = none)
    (hmembers : ∀ c', c' ∈ (room.leave c).members ↔ (c', r) ∈ members) :
    Recorded (HubSpec.logAfter members r (log ++ [entry])) (room.leave c).kept := by
  obtain ⟨hversion, hrecent⟩ := h
  unfold HubSpec.logAfter ChatRoom.kept
  by_cases hempty : (room.leave c).members.isEmpty = true
  · have hnone : ¬∃ pair ∈ members, pair.2 = r := by
      rintro ⟨⟨c', _⟩, hmember, rfl⟩
      exact BTreeMap.isEmpty_iff_forall.mp hempty c' ((hmembers c').mpr hmember)
    rw [if_pos hempty, if_neg hnone]
    rfl
  · obtain ⟨c', hin⟩ : ∃ c', c' ∈ (room.leave c).members := by
      rw [BTreeMap.isEmpty_iff_forall] at hempty
      push Not at hempty
      exact hempty
    have hsome : ∃ pair ∈ members, pair.2 = r := ⟨(c', r), (hmembers c').mp hin, rfl⟩
    rw [if_neg hempty, if_pos hsome]
    refine ⟨by simp [ChatRoom.leave, hversion], ?_⟩
    rw [accepted_other hentry]
    exact hrecent

/-! ## Every call keeps the relation -/

theorem HubSpec.mem_join : (c', r') ∈ (spec.join c r).members ↔
    (c' = c ∧ r' = r) ∨ (c', r') ∈ spec.members := by
  unfold HubSpec.join
  split
  · next hin =>
      constructor
      · exact .inr
      · rintro (⟨rfl, rfl⟩ | h)
        · exact hin
        · exact h
  · simp

theorem HubSpec.mem_leave : (c', r') ∈ (spec.leave c r).members ↔
    (c', r') ∈ spec.members ∧ ¬(c' = c ∧ r' = r) := by
  simp [HubSpec.leave, and_comm]

theorem HubSpec.mem_disconnect : (c', r') ∈ (spec.disconnect c).members ↔
    (c', r') ∈ spec.members ∧ c' ≠ c := by
  simp [HubSpec.disconnect]

/-- The specification moves its pairs as the hub does. -/
theorem HubSpec.mem_observe (h : hub.Moves call reply hub') :
    (c, r) ∈ (spec.observe call reply).members ↔
      call.pairs (fun c r => (c, r) ∈ spec.members) reply c r := by
  cases h with
  | joinFailed | leaveFailed | sendFailed | syncFailed | synced => exact Iff.rfl
  | rejoined hname | joined hname =>
      rw [HubSpec.observe, HubSpec.inRoom_ok hname]
      exact mem_join
  | left hname =>
      rw [HubSpec.observe, HubSpec.inRoom_ok hname]
      exact mem_leave
  | sent hname =>
      rw [HubSpec.observe, HubSpec.inRoom_ok hname]
      exact Iff.rfl
  | stranger | disconnected => exact mem_disconnect

/-- What is kept: one set of pairs, one log per room, one list of ids. -/
structure HubSpec.Tracks (spec : HubSpec) (hub : ChatHub) : Prop where
  coherent : hub.Coherent
  members : ∀ c r, hub.Member c r ↔ (c, r) ∈ spec.members
  recorded : ∀ r, Recorded (spec.log r) (hub.rooms r)
  issued : spec.issued = (List.range hub.nextMessageId).map fun n => s!"msg-{n + 1}"

theorem HubSpec.tracks_empty : HubSpec.empty.Tracks .default where
  coherent := ChatHub.coherent_default
  members c r := by simp [HubSpec.empty, ChatHub.default, ChatHub.Member]
  recorded _ := rfl
  issued := rfl

/-- The logs after a call. -/
theorem HubSpec.Tracks.recorded_move (ht : spec.Tracks hub) (h : hub.Moves call reply hub')
    (r : String) :
    Recorded ((spec.observe call reply).log r) (hub'.rooms r) := by
  -- The room goes when its last member does, and the specification clears its log then.
  have hmember : ∀ c, hub'.Member c r ↔ (c, r) ∈ (spec.observe call reply).members := by
    intro c
    rw [h.member ht.coherent, HubSpec.mem_observe h]
    exact HubCall.pairs_congr ht.members c r
  cases h with
  | joinFailed | leaveFailed | sendFailed | syncFailed | synced => exact ht.recorded r
  | @rejoined user raw r₀ room hname hfound hin =>
      have hpair : (user.connectionId, r₀) ∈ spec.members :=
        (ht.members _ _).mp ⟨room, hfound, hin⟩
      rw [HubSpec.observe, HubSpec.inRoom_ok hname, HubSpec.join, if_pos hpair]
      exact ht.recorded r
  | @joined user raw r₀ room hname hfresh hentered =>
      have hpair : (user.connectionId, r₀) ∉ spec.members := fun hpair =>
        hfresh (ChatHub.member_iff.mp ((ht.members _ _).mpr hpair))
      rw [HubSpec.observe, HubSpec.inRoom_ok hname, HubSpec.join, if_neg hpair]
      by_cases hr : r = r₀
      · subst hr
        simpa [ChatHub.setConnection, ChatHub.setRoom, hentered] using (ht.recorded r).enter
      · simpa [ChatHub.setConnection, ChatHub.setRoom, hr] using ht.recorded r
  | @left c₀ raw r₀ connection room member hname hknown hfound hstored =>
      rw [HubSpec.observe, HubSpec.inRoom_ok hname] at hmember ⊢
      by_cases hr : r = r₀
      · subst hr
        have hroom := ht.recorded r
        rw [hfound] at hroom
        simp only [ChatHub.setConnection, ChatHub.setRoom, HubSpec.leave, Function.update_self]
        refine hroom.leave rfl ?_
        intro c
        rw [← ChatHub.mem_kept]
        simpa [ChatHub.Member, ChatHub.setConnection, ChatHub.setRoom, HubSpec.leave] using
          hmember c
      · simpa [ChatHub.setConnection, ChatHub.setRoom, HubSpec.leave, hr] using ht.recorded r
  | @sent c₀ raw content now r₀ text connection room message hname _ _ hfound _ _ =>
      rw [HubSpec.observe, HubSpec.inRoom_ok hname]
      by_cases hr : r = r₀
      · subst hr
        have hroom := ht.recorded r
        rw [hfound] at hroom
        simpa [ChatHub.setRoom, HubSpec.send] using hroom.post
      · simpa [ChatHub.setRoom, HubSpec.send, hr] using ht.recorded r
  | @stranger c₀ hunknown =>
      have hpair : (c₀, r) ∉ spec.members := by
        rw [← ht.members, ht.coherent.index]
        simp [ChatHub.Joined, hunknown]
      simpa [HubSpec.observe, HubSpec.disconnect, hpair] using ht.recorded r
  | @disconnected c₀ connection hknown =>
      -- The hub walks the rooms of the connection, the specification its pairs.
      have hpair : (c₀, r) ∈ spec.members ↔ r ∈ hub.joinedRooms c₀ := by
        rw [← ht.members, ht.coherent.index, ChatHub.joined_iff]
      simp only [HubSpec.observe, HubSpec.disconnect, ChatHub.drop, hpair] at hmember ⊢
      by_cases hr : r ∈ hub.joinedRooms c₀
      · obtain ⟨room, hfound, hin⟩ := (ht.members c₀ r).mpr (hpair.mpr hr)
        have hroom := ht.recorded r
        rw [hfound] at hroom
        simp only [hr, if_true, hfound, Option.bind_some]
        refine hroom.leave rfl ?_
        intro c
        rw [← ChatHub.mem_kept]
        simpa [ChatHub.Member, hr, hfound] using hmember c
      · simpa [hr] using ht.recorded r

theorem HubSpec.Tracks.move (ht : spec.Tracks hub) (h : hub.Moves call reply hub') :
    (spec.observe call reply).Tracks hub' where
  coherent := ht.coherent.move h
  members c r := by
    rw [h.member ht.coherent, HubSpec.mem_observe h]
    exact HubCall.pairs_congr ht.members c r
  recorded := ht.recorded_move h
  issued := by
    cases h with
    | joinFailed | leaveFailed | sendFailed | syncFailed | synced | stranger | disconnected =>
        exact ht.issued
    | rejoined hname | joined hname =>
        rw [HubSpec.observe, HubSpec.inRoom_ok hname, HubSpec.join]
        split <;> exact ht.issued
    | left hname =>
        rw [HubSpec.observe, HubSpec.inRoom_ok hname]
        exact ht.issued
    | sent hname _ _ _ _ hwritten =>
        rw [HubSpec.observe, HubSpec.inRoom_ok hname]
        simp [HubSpec.send, ht.issued, hwritten, List.range_succ]

theorem HubSpec.Tracks.refines (ht : spec.Tracks hub) : spec.Refines hub where
  members := ht.members
  joined c r := by
    rw [← ht.members, ht.coherent.index]
    exact Iff.rfl
  rooms r := by
    simp only [← ht.members]
    constructor
    · rintro ⟨room, hfound⟩
      exact ht.coherent.member_room hfound
    · rintro ⟨c, room, hfound, _⟩
      exact ⟨room, hfound⟩
  connections c := by
    simp only [← ht.members, ht.coherent.index]
    constructor
    · rintro ⟨connection, hknown⟩
      obtain ⟨r, hr⟩ := ht.coherent.joined c connection hknown
      exact ⟨r, connection, hknown, hr⟩
    · rintro ⟨r, connection, hknown, _⟩
      exact ⟨connection, hknown⟩
  version r room hfound := by
    have hroom := ht.recorded r
    rw [hfound] at hroom
    exact hroom.1
  recent r room hfound := by
    have hroom := ht.recorded r
    rw [hfound] at hroom
    rw [hroom.2, lastMessages_eq]
  vacated r hnone := by
    have hroom := ht.recorded r
    rw [hnone] at hroom
    exact hroom
  issued := ht.issued

/-! ## Whole runs -/

/-- One call on the hub, and what the specification makes of it. -/
def observed (state : ChatHub × HubSpec) (call : HubCall) : ChatHub × HubSpec :=
  let (hub, reply) := state.1.call call
  (hub, state.2.observe call reply)

/-- The hub and its specification after some calls on `ChatHub::default`. -/
def after (calls : List HubCall) : ChatHub × HubSpec :=
  calls.foldl observed (.default, .empty)

theorem after_append (calls : List HubCall) (call : HubCall) :
    after (calls ++ [call]) = observed (after calls) call := by
  simp [after]

theorem tracks_after (calls : List HubCall) : (after calls).2.Tracks (after calls).1 := by
  induction calls using List.reverseRecOn with
  | nil => exact HubSpec.tracks_empty
  | append_singleton calls call ih =>
      rw [after_append]
      exact ih.move (ChatHub.call_moves _ call)

theorem length_logAfter (members : Finset (String × String)) (entry : RoomEntry) :
    (HubSpec.logAfter members r (log ++ [entry])).length ≤ log.length + 1 := by
  unfold HubSpec.logAfter
  split <;> simp

theorem length_update (log : String → List RoomEntry) {entries : List RoomEntry}
    (h : entries.length ≤ (log r).length + 1) :
    (Function.update log r entries r').length ≤ (log r').length + 1 := by
  by_cases hr : r' = r
  · subst hr
    rwa [Function.update_self]
  · rw [Function.update_of_ne hr]
    exact Nat.le_succ _

/-- A call adds at most one entry to a room's log. -/
theorem HubSpec.length_log_observe (h : hub.Moves call reply hub') :
    ((spec.observe call reply).log r).length ≤ (spec.log r).length + 1 := by
  cases h with
  | joinFailed | leaveFailed | sendFailed | syncFailed | synced => exact Nat.le_succ _
  | rejoined hname | joined hname =>
      rw [HubSpec.observe, HubSpec.inRoom_ok hname, HubSpec.join]
      split
      · exact Nat.le_succ _
      · exact length_update _ (by simp)
  | left hname =>
      rw [HubSpec.observe, HubSpec.inRoom_ok hname]
      exact length_update _ (length_logAfter _ _)
  | sent hname =>
      rw [HubSpec.observe, HubSpec.inRoom_ok hname]
      exact length_update _ (by simp)
  | stranger | disconnected =>
      simp only [HubSpec.observe, HubSpec.disconnect]
      split
      · exact length_logAfter _ _
      · exact Nat.le_succ _

theorem length_log_after (calls : List HubCall) (r : String) :
    ((after calls).2.log r).length ≤ calls.length := by
  induction calls using List.reverseRecOn with
  | nil => simp [after, HubSpec.empty]
  | append_singleton calls call ih =>
      rw [after_append, List.length_append, List.length_singleton]
      exact (HubSpec.length_log_observe (ChatHub.call_moves _ call)).trans
        (Nat.add_le_add_right ih 1)

theorem nextMessageId_move (h : hub.Moves call reply hub') :
    hub'.nextMessageId ≤ hub.nextMessageId + 1 := by
  cases h with
  | sent => exact Nat.le_refl _
  | joinFailed | rejoined | joined | leaveFailed | left | sendFailed | syncFailed | synced |
    stranger | disconnected => exact Nat.le_succ _

theorem nextMessageId_after (calls : List HubCall) :
    (after calls).1.nextMessageId ≤ calls.length := by
  induction calls using List.reverseRecOn with
  | nil => simp [after, ChatHub.default]
  | append_singleton calls call ih =>
      rw [after_append, List.length_append, List.length_singleton]
      exact (nextMessageId_move (ChatHub.call_moves _ call)).trans (Nat.add_le_add_right ih 1)

/-- Message ids are never handed out twice. -/
theorem HubSpec.Tracks.nodup_issued (ht : spec.Tracks hub) : spec.issued.Nodup := by
  rw [ht.issued]
  refine List.nodup_range.map ?_
  intro m n h
  exact Nat.succ.inj (Text.append_natRepr_inj h)

/-- **The hub refines its specification** after every prefix of every sequence of fewer
than 2⁶⁴ calls, so long its counters do not overflow, and message ids are distinct over
the whole run. -/
theorem hub_refines (calls : List HubCall) (hcalls : calls.length < 2 ^ 64) :
    (∀ past, past <+: calls →
      (after past).2.Refines (after past).1 ∧ (after past).1.nextMessageId < 2 ^ 64 ∧
      ∀ r room, (after past).1.rooms r = some room → room.version < 2 ^ 64) ∧
    (after calls).2.issued.Nodup := by
  refine ⟨?_, (tracks_after calls).nodup_issued⟩
  intro past hpast
  have hlength : past.length < 2 ^ 64 := lt_of_le_of_lt hpast.length_le hcalls
  have hrefines := (tracks_after past).refines
  refine ⟨hrefines, lt_of_le_of_lt (nextMessageId_after past) hlength, ?_⟩
  intro r room hfound
  rw [hrefines.version r room hfound]
  exact lt_of_le_of_lt (length_log_after past r) hlength

/-- A room is emptied and made again, and messages are sent before and after. -/
theorem hub_refines_reopened :
    let calls : List HubCall := [.joinRoom ⟨"chat-1", "u1", "ann"⟩ "lobby",
      .sendRoomMessage "chat-1" "lobby" "hi" 5, .disconnect "chat-1",
      .joinRoom ⟨"chat-1", "u1", "ann"⟩ " lobby ", .sendRoomMessage "chat-1" "lobby" "again" 6]
    (after calls).2.Refines (after calls).1 ∧ (after calls).2.issued = ["msg-1", "msg-2"] ∧
      (after calls).2.issued.Nodup := by
  intro calls
  have hrefines := hub_refines calls (by decide)
  exact ⟨(hrefines.1 calls List.prefix_rfl).1, by decide, hrefines.2⟩

end Axes.Chat
