import Axes.Chat.Identity

/-!
# Two ways out of the rooms

`leave_room` takes a connection out of one room and forgets it with its last; `disconnect`
forgets it first and then walks its rooms. They come to the same hub and report the same
changes: a disconnection after one leave is what is left of the disconnection before it.
-/

namespace Axes.Chat

open Axes.Lib

/-- What a successful `leave_room` returns. -/
abbrev LeftRoom := ChatLeftRoomNotice × ChatPresenceChange × List String

namespace ChatHub

/-- Leave some rooms, one after another. -/
def leaveEach (c : String) : List String → ChatHub →
    ChatHub × List (Except ChatError LeftRoom)
  | [], hub => (hub, [])
  | r :: rooms, hub =>
      let (hub, reply) := hub.leaveRoom c r
      let (hub, replies) := leaveEach c rooms hub
      (hub, reply :: replies)

/-- What leaving a room reports. -/
def departure (hub : ChatHub) (c r : String) : Option ChatPresenceChange :=
  (hub.rooms r).bind fun room =>
    (hub.identity c).map fun member => .leaving r member (room.version + 1)

variable {hub hub' : ChatHub} {reply : HubReply} {c r r' : String} {rooms : List String}

theorem drop_of_unknown (h : hub.connections c = none) : hub.drop c = hub := by
  have hjoined : hub.joinedRooms c = ∅ := by rw [joinedRooms, h, Option.map_none, Option.getD_none]
  have hconnections : Function.update hub.connections c none = hub.connections := by
    rw [← h, Function.update_eq_self]
  rw [drop, hconnections]
  simp [hjoined]

theorem disconnect_eq (hub : ChatHub) (c : String) :
    hub.disconnect c = (hub.drop c, (hub.joinedRooms c).toList.filterMap (hub.departure c)) := by
  cases hknown : hub.connections c with
  | none => simp [disconnect, hknown, drop_of_unknown hknown, joinedRooms]
  | some connection =>
      have hjoined : hub.joinedRooms c = connection.joinedRooms := by
        rw [joinedRooms, hknown, Option.map_some, Option.getD_some]
      simp only [disconnect, hknown, foldl_disconnectFrom (BTreeSet.nodup_toList _),
        List.nil_append, rooms_setConnection, drop, hjoined, Std.ExtTreeSet.mem_toList,
        Prod.mk.injEq]
      refine ⟨rfl, List.filterMap_congr ?_⟩
      intro r _
      rw [departure, identity_of_known hknown]
      cases hub.rooms r with
      | none => rfl
      | some room => rfl

/-- The rooms a connection is in, in ascending order. -/
structure RoomsOf (hub : ChatHub) (c : String) (rooms : List String) : Prop where
  ascending : rooms.Pairwise (· < ·)
  mem : ∀ r, r ∈ rooms ↔ hub.Member c r

theorem Coherent.roomsOf (hcoh : hub.Coherent) (c : String) :
    hub.RoomsOf c (hub.joinedRooms c).toList where
  ascending := Std.ExtTreeSet.ordered_toList.imp BTreeSet.compare_eq_lt.mp
  mem r := by rw [Std.ExtTreeSet.mem_toList, hcoh.index, joined_iff]

theorem Coherent.connections_of_outsider (hcoh : hub.Coherent) (h : ∀ r, ¬hub.Member c r) :
    hub.connections c = none := by
  cases hknown : hub.connections c with
  | none => rfl
  | some connection =>
      obtain ⟨r, hr⟩ := hcoh.joined c connection hknown
      exact absurd ((hcoh.index c r).mpr ⟨connection, hknown, hr⟩) (h r)

/-! ## One room less -/

variable {connection : ChatConnection} {room : ChatRoom}

/-- The hub after leaving a room. -/
def departed (hub : ChatHub) (c r : String) (connection : ChatConnection) (room : ChatRoom) :
    ChatHub :=
  (hub.setRoom r (room.leave c).kept).setConnection c (connection.leave r)

theorem rooms_departed : (hub.departed c r connection room).rooms r = (room.leave c).kept := by
  rw [departed, rooms_setConnection, rooms_setRoom_self]

theorem rooms_departed_of_ne (h : r' ≠ r) :
    (hub.departed c r connection room).rooms r' = hub.rooms r' := by
  rw [departed, rooms_setConnection, rooms_setRoom_of_ne h]

theorem joined_departed (hknown : hub.connections c = some connection) :
    (hub.departed c r connection room).Joined c r' ↔ r' ≠ r ∧ hub.Joined c r' := by
  rw [departed, joined_setConnection, if_pos rfl, mem_connection_leave]
  simp [Joined, hknown]

/-- Disconnecting after a leave ends where disconnecting at once does. -/
theorem drop_departed (hknown : hub.connections c = some connection)
    (hfound : hub.rooms r = some room) (hjoined : hub.Joined c r) :
    (hub.departed c r connection room).drop c = hub.drop c := by
  have hrooms : ((hub.departed c r connection room).drop c).rooms = (hub.drop c).rooms := by
    funext r'
    have hmem : r' ∈ (hub.departed c r connection room).joinedRooms c ↔
        r' ≠ r ∧ r' ∈ hub.joinedRooms c := by
      rw [← joined_iff, ← joined_iff, joined_departed hknown]
    simp only [drop, hmem]
    by_cases hr : r' = r
    · subst hr
      simp [rooms_departed, joined_iff.mp hjoined, hfound]
    · simp [rooms_departed_of_ne hr, hr]
  have hconnections :
      ((hub.departed c r connection room).drop c).connections = (hub.drop c).connections := by
    show Function.update (Function.update hub.connections c _) c none = _
    rw [Function.update_idem]
    rfl
  show (⟨_, _, _⟩ : ChatHub) = ⟨_, _, _⟩
  rw [mk.injEq]
  exact ⟨hrooms, hconnections, rfl⟩

/-- What is reported of the rooms that are left does not change. -/
theorem departure_departed (hcoh : (hub.departed c r connection room).Coherent)
    (hknown : hub.connections c = some connection) (hr : r' ≠ r)
    (hmember : (hub.departed c r connection room).Member c r') :
    (hub.departed c r connection room).departure c r' = hub.departure c r' := by
  obtain ⟨kept, hkept, _⟩ := (hcoh.index c r').mp hmember
  have hidentity := identity_of_known hkept
  rw [departed, connections_setConnection_self] at hkept
  rw [(connection_leave_eq_some hkept).1, ← identity_of_known hknown] at hidentity
  rw [departure, departure, rooms_departed_of_ne hr, hidentity]

/-! ## All rooms -/

/-- What the two ways out need of a hub. -/
structure Sane (users : String → Option ChatSessionUser) (hub : ChatHub) : Prop where
  coherent : hub.Coherent
  named : hub.Named users
  normalized : hub.Normalized

variable {users : String → Option ChatSessionUser}

/-- Leaving a room one is in succeeds, and reports what disconnecting would. -/
theorem Sane.leaveRoom (h : hub.Sane users) (hmember : hub.Member c r) :
    ∃ connection room notice presence peers,
      hub.connections c = some connection ∧ hub.rooms r = some room ∧
      hub.leaveRoom c r = (hub.departed c r connection room, .ok (notice, presence, peers)) ∧
      hub.departure c r = some presence ∧ presence.roomId = r ∧ presence.joinedMembers = [] ∧
      (hub.departed c r connection room).Sane users := by
  obtain ⟨room, hfound, hin⟩ := hmember
  obtain ⟨connection, hknown, _⟩ := (h.coherent.index c r).mp ⟨room, hfound, hin⟩
  obtain ⟨member, hstored⟩ := BTreeMap.mem_iff.mp hin
  have hname := h.normalized r room hfound
  have hmoves : hub.Moves (.leaveRoom c r) _ (hub.departed c r connection room) :=
    .left hname hknown hfound hstored
  have hleft : hub.leaveRoom c r = (hub.departed c r connection room,
      .ok ({ roomId := r, version := room.version + 1 },
        .leaving r member (room.version + 1), (room.leave c).members.keys)) := by
    simp only [ChatHub.leaveRoom, hname, hknown, hfound, hstored]
    rfl
  -- The room's copy of the name is the connection's.
  have hidentity : hub.identity c = some member := by
    rw [identity_of_known hknown, h.named.stored (h.named.connection c connection hknown)
      hfound hstored]
  refine ⟨connection, room, _, _, _, hknown, hfound, hleft, ?_, rfl, rfl, ?_⟩
  · rw [departure, hfound, hidentity]
    rfl
  · refine ⟨h.coherent.move hmoves, h.named.move hmoves ?_, h.normalized.move hmoves⟩
    rintro user raw ⟨⟩

/-- **Leaving every room is disconnecting.** -/
theorem Sane.leaveEach : ∀ {rooms : List String} {hub : ChatHub}, hub.Sane users →
    hub.RoomsOf c rooms →
    ∃ lefts : List LeftRoom, hub.leaveEach c rooms = (hub.drop c, lefts.map .ok) ∧
      rooms.filterMap (hub.departure c) = lefts.map (·.2.1) ∧
      lefts.map (·.2.1.roomId) = rooms ∧ ∀ left ∈ lefts, left.2.1.joinedMembers = [] := by
  intro rooms
  induction rooms with
  | nil =>
      intro hub h hrooms
      have hout : ∀ r, ¬hub.Member c r := by
        intro r hr
        exact List.not_mem_nil ((hrooms.mem r).mpr hr)
      refine ⟨[], ?_, rfl, rfl, by simp⟩
      rw [drop_of_unknown (h.coherent.connections_of_outsider hout)]
      rfl
  | cons r rooms ih =>
      intro hub h hrooms
      have hmember := (hrooms.mem r).mp List.mem_cons_self
      obtain ⟨connection, room, notice, presence, peers, hknown, hfound, hleft, hreport, hroomId,
        hjoined, hsane⟩ := h.leaveRoom hmember
      obtain ⟨hfirst, hascending⟩ := List.pairwise_cons.mp hrooms.ascending
      have hother : ∀ r' ∈ rooms, r' ≠ r := by
        rintro r' hr' rfl
        exact String.lt_irrefl r' (hfirst r' hr')
      have hrest : (hub.departed c r connection room).RoomsOf c rooms := by
        refine ⟨hascending, ?_⟩
        intro r'
        rw [hsane.coherent.index, joined_departed hknown, ← h.coherent.index, ← hrooms.mem,
          List.mem_cons]
        constructor
        · intro hr'
          exact ⟨hother r' hr', .inr hr'⟩
        · rintro ⟨hr', rfl | hr''⟩
          · exact absurd rfl hr'
          · exact hr''
      obtain ⟨lefts, hlefts, hreports, hids, hnone⟩ := ih hsane hrest
      refine ⟨(notice, presence, peers) :: lefts, ?_, ?_, ?_, ?_⟩
      · rw [ChatHub.leaveEach, hleft]
        simp only [hlefts, List.map_cons, Prod.mk.injEq, and_true]
        exact drop_departed hknown hfound ((h.coherent.index c r).mp hmember)
      · rw [List.filterMap_cons_some hreport, List.map_cons, ← hreports]
        congr 1
        refine List.filterMap_congr ?_
        intro r' hr'
        have hmember' := (hrest.mem r').mp hr'
        exact (departure_departed hsane.coherent hknown (hother r' hr') hmember').symm
      · rw [List.map_cons, hids, hroomId]
      · intro left hmem
        rcases List.mem_cons.mp hmem with rfl | hmem
        · exact hjoined
        · exact hnone left hmem

end ChatHub

theorem sane_after {calls : List HubCall} (hone : OneUserEach calls) :
    (after calls).1.Sane (knownAs calls) where
  coherent := (tracks_after calls).coherent
  named := named_after fun _ _ hjoin => hone.knownAs hjoin
  normalized := normalized_after calls

/-- **Disconnecting equals leaving every room.** -/
theorem disconnect_leaves (calls : List HubCall) (hone : OneUserEach calls) (c : String) :
    let hub := (after calls).1
    (∃ (rooms : List String) (lefts : List LeftRoom),
      rooms.Pairwise (· < ·) ∧ (∀ r, r ∈ rooms ↔ hub.Member c r) ∧
      hub.leaveEach c rooms = ((hub.disconnect c).1, lefts.map .ok) ∧
      (hub.disconnect c).2 = lefts.map (·.2.1) ∧
      (hub.disconnect c).2.map (·.roomId) = rooms ∧
      ∀ change ∈ (hub.disconnect c).2, change.joinedMembers = []) ∧
    ((∀ r, ¬hub.Member c r) → hub.disconnect c = (hub, [])) := by
  intro hub
  have hsane : hub.Sane (knownAs calls) := sane_after hone
  have hrooms := hsane.coherent.roomsOf c
  obtain ⟨lefts, hlefts, hreports, hids, hnone⟩ := hsane.leaveEach hrooms
  constructor
  · rw [ChatHub.disconnect_eq]
    refine ⟨_, lefts, hrooms.ascending, hrooms.mem, hlefts, hreports, ?_, ?_⟩
    · rw [hreports, List.map_map]
      exact hids
    · intro change hchange
      rw [hreports] at hchange
      obtain ⟨left, hleft, rfl⟩ := List.mem_map.mp hchange
      exact hnone left hleft
  · intro hout
    have hunknown := hsane.coherent.connections_of_outsider hout
    rw [ChatHub.disconnect_eq, ChatHub.drop_of_unknown hunknown]
    simp [ChatHub.joinedRooms, hunknown]

/-- Ann is in two rooms, one of them with Bob. -/
theorem disconnect_leaves_two :
    let calls : List HubCall := [.joinRoom ⟨"chat-1", "u1", "ann"⟩ "lobby",
      .joinRoom ⟨"chat-2", "u2", "bob"⟩ "lobby", .joinRoom ⟨"chat-1", "u1", "ann"⟩ "den"]
    let hub := (after calls).1
    (hub.disconnect "chat-1").2.map (·.roomId) = ["den", "lobby"] ∧
    ∃ (rooms : List String) (lefts : List LeftRoom),
      rooms.Pairwise (· < ·) ∧ (∀ r, r ∈ rooms ↔ hub.Member "chat-1" r) ∧
      hub.leaveEach "chat-1" rooms = ((hub.disconnect "chat-1").1, lefts.map .ok) := by
  intro calls hub
  have hone : OneUserEach calls := by
    intro user raw user' raw' h h'
    simp only [calls, List.mem_cons, HubCall.joinRoom.injEq, List.not_mem_nil, or_false] at h h'
    rcases h with ⟨rfl, -⟩ | ⟨rfl, -⟩ | ⟨rfl, -⟩ <;>
      rcases h' with ⟨rfl, -⟩ | ⟨rfl, -⟩ | ⟨rfl, -⟩ <;> decide
  obtain ⟨⟨rooms, lefts, hascending, hmem, hleft, -⟩, -⟩ := disconnect_leaves calls hone "chat-1"
  exact ⟨by decide, rooms, lefts, hascending, hmem, hleft⟩

end Axes.Chat
