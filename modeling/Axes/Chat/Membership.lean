import Axes.Chat.Moves

/-!
# Membership, and the two places that store it

A room lists its members, and a connection the rooms it joined. `Coherent` says that
the two agree and that nothing empty is kept; every call preserves it.
-/

namespace Axes.Chat

open Axes.Lib

/-- The membership pairs after a call, from those before: a successful join inserts, a
successful leave removes, a disconnection removes all of the connection's pairs. -/
def HubCall.pairs (members : String → String → Prop) :
    HubCall → HubReply → String → String → Prop
  | .joinRoom user _, .joined (.ok result) => fun c r =>
      (c = user.connectionId ∧ r = result.roomId) ∨ members c r
  | .leaveRoom c' _, .left (.ok (notice, _, _)) => fun c r =>
      members c r ∧ ¬(c = c' ∧ r = notice.roomId)
  | .disconnect c', _ => fun c r => members c r ∧ c ≠ c'
  | _, _ => members

theorem HubCall.pairs_congr {members members' : String → String → Prop} {call : HubCall}
    {reply : HubReply} (h : ∀ c r, members c r ↔ members' c r) (c r : String) :
    call.pairs members reply c r ↔ call.pairs members' reply c r := by
  have heq : members = members' := by
    funext c r
    exact propext (h c r)
  rw [heq]

namespace ChatHub

variable {hub hub' : ChatHub} {call : HubCall} {reply : HubReply} {c c' r r' : String}

/-! ## Membership after a move -/

@[simp] theorem member_setConnection {connection : Option ChatConnection} :
    (hub.setConnection c' connection).Member c r ↔ hub.Member c r := Iff.rfl

@[simp] theorem joined_setRoom {room : Option ChatRoom} :
    (hub.setRoom r' room).Joined c r ↔ hub.Joined c r := Iff.rfl

theorem member_setRoom {room : Option ChatRoom} : (hub.setRoom r' room).Member c r ↔
    if r = r' then ∃ found, room = some found ∧ c ∈ found.members else hub.Member c r := by
  unfold Member setRoom
  by_cases hr : r = r'
  · subst hr
    simp
  · simp [hr]

theorem joined_setConnection {connection : Option ChatConnection} :
    (hub.setConnection c' connection).Joined c r ↔
      if c = c' then ∃ found, connection = some found ∧ r ∈ found.joinedRooms
      else hub.Joined c r := by
  unfold Joined setConnection
  by_cases hc : c = c'
  · subst hc
    simp
  · simp [hc]

theorem mem_enter {room : ChatRoom} {member : ChatUserSummary} :
    c ∈ (room.enter c' member).members ↔ c = c' ∨ c ∈ room.members :=
  BTreeMap.mem_insert_iff

theorem kept_eq_some {room found : ChatRoom} (h : room.kept = some found) :
    found = room ∧ ∃ c, c ∈ room.members := by
  unfold ChatRoom.kept at h
  split at h
  · cases h
  · next hinhabited =>
      rw [BTreeMap.isEmpty_iff_forall] at hinhabited
      push Not at hinhabited
      exact ⟨(Option.some.inj h).symm, hinhabited⟩

theorem connection_leave_eq_some {connection found : ChatConnection}
    (h : connection.leave r = some found) :
    found.user = connection.user ∧ ∃ r, r ∈ found.joinedRooms := by
  simp only [ChatConnection.leave] at h
  split at h
  · cases h
  · next hinhabited =>
      rw [BTreeSet.isEmpty_iff_forall] at hinhabited
      push Not at hinhabited
      obtain rfl := Option.some.inj h
      exact ⟨rfl, hinhabited⟩

/-- Dropping an empty room drops no member. -/
theorem mem_kept {room : ChatRoom} :
    (∃ found, room.kept = some found ∧ c ∈ found.members) ↔ c ∈ room.members := by
  unfold ChatRoom.kept
  split
  · next hempty => simp [BTreeMap.isEmpty_iff_forall.mp hempty c]
  · simp

theorem mem_leave {room : ChatRoom} :
    (∃ found, (room.leave c').kept = some found ∧ c ∈ found.members) ↔
      c ≠ c' ∧ c ∈ room.members := by
  rw [mem_kept, ChatRoom.leave, BTreeMap.mem_erase_iff]

theorem mem_connection_leave {connection : ChatConnection} :
    (∃ found, connection.leave r' = some found ∧ r ∈ found.joinedRooms) ↔
      r ≠ r' ∧ r ∈ connection.joinedRooms := by
  rw [← BTreeSet.mem_erase_iff]
  simp only [ChatConnection.leave]
  split
  · next hempty => simp [BTreeSet.isEmpty_iff_forall.mp hempty r]
  · simp

theorem member_drop : (hub.drop c').Member c r ↔
    hub.Member c r ∧ ¬(c = c' ∧ hub.Joined c' r) := by
  unfold Member drop
  rw [joined_iff]
  by_cases hr : r ∈ hub.joinedRooms c'
  · simp only [hr, if_true, Option.bind_eq_some_iff, and_true]
    constructor
    · rintro ⟨kept, ⟨room, hfound, hkept⟩, hmember⟩
      have hleft := mem_leave.mp ⟨kept, hkept, hmember⟩
      exact ⟨⟨room, hfound, hleft.2⟩, hleft.1⟩
    · rintro ⟨⟨room, hfound, hmember⟩, hc⟩
      obtain ⟨kept, hkept, hin⟩ := mem_leave.mpr ⟨hc, hmember⟩
      exact ⟨kept, ⟨room, hfound, hkept⟩, hin⟩
  · simp [hr]

theorem joined_drop : (hub.drop c').Joined c r ↔ c ≠ c' ∧ hub.Joined c r := by
  unfold Joined drop
  by_cases hc : c = c'
  · subst hc
    simp
  · simp [hc]

/-! ## Coherence -/

/-- Both sides of membership agree, and no room and no connection is empty. -/
structure Coherent (hub : ChatHub) : Prop where
  index : ∀ c r, hub.Member c r ↔ hub.Joined c r
  peopled : ∀ r room, hub.rooms r = some room → ∃ c, c ∈ room.members
  joined : ∀ c connection, hub.connections c = some connection →
    ∃ r, r ∈ connection.joinedRooms

theorem Coherent.member_room (h : hub.Coherent) {room : ChatRoom}
    (hfound : hub.rooms r = some room) : ∃ c, hub.Member c r := by
  obtain ⟨c, hc⟩ := h.peopled r room hfound
  exact ⟨c, room, hfound, hc⟩

/-- Someone the hub has no connection of is in no room. -/
theorem Coherent.outsider (hcoh : hub.Coherent)
    (h : hub.connections c = none ∨ ¬hub.Member c r) : ¬hub.Member c r := by
  rcases h with hunknown | hout
  · intro hmember
    obtain ⟨connection, hknown, _⟩ := (hcoh.index c r).mp hmember
    rw [hunknown] at hknown
    cases hknown
  · exact hout

theorem coherent_default : default.Coherent := by
  constructor <;> simp [default, Member, Joined]

theorem Coherent.member_drop (h : hub.Coherent) :
    (hub.drop c').Member c r ↔ hub.Member c r ∧ c ≠ c' := by
  rw [ChatHub.member_drop]
  constructor
  · rintro ⟨hmember, hother⟩
    exact ⟨hmember, fun hc => hother ⟨hc, hc ▸ (h.index _ _).mp hmember⟩⟩
  · rintro ⟨hmember, hc⟩
    exact ⟨hmember, fun hother => hc hother.1⟩

/-- The rooms' side after a call. -/
theorem Moves.member (h : hub.Moves call reply hub') (hcoh : hub.Coherent) :
    hub'.Member c r ↔ call.pairs hub.Member reply c r := by
  cases h with
  | joinFailed | leaveFailed | sendFailed | syncFailed | synced => exact Iff.rfl
  | @rejoined user raw r₀ room _ hfound hmember =>
      simp only [member_setConnection, HubCall.pairs, ChatRoom.joinResult]
      constructor
      · exact .inr
      · rintro (⟨rfl, rfl⟩ | h)
        · exact ⟨room, hfound, hmember⟩
        · exact h
  | @joined user raw r₀ room _ _ hentered =>
      simp only [member_setConnection, member_setRoom, HubCall.pairs, ChatRoom.joinResult]
      by_cases hr : r = r₀
      · subst hr
        simp only [hentered, if_true, Option.some.injEq, exists_eq_left', mem_enter, and_true,
          member_iff]
      · simp [hr]
  | @left c₀ raw r₀ connection room member _ hknown hfound hstored =>
      simp only [member_setConnection, member_setRoom, HubCall.pairs]
      by_cases hr : r = r₀
      · subst hr
        rw [if_pos rfl, mem_leave]
        simp [Member, hfound, and_comm]
      · simp [hr]
  | @sent c₀ raw content now r₀ text connection room message _ _ _ hfound _ _ =>
      show (hub.setRoom r₀ (some (room.post message))).Member c r ↔ hub.Member c r
      rw [member_setRoom]
      by_cases hr : r = r₀
      · subst hr
        simp [Member, hfound, ChatRoom.post]
      · simp [hr]
  | stranger hunknown =>
      simp only [HubCall.pairs]
      constructor
      · intro h
        refine ⟨h, ?_⟩
        rintro rfl
        -- Someone the hub does not know is in no room.
        obtain ⟨connection, hconnection, _⟩ := (hcoh.index _ _).mp h
        rw [hunknown] at hconnection
        cases hconnection
      · exact And.left
  | disconnected hknown => exact hcoh.member_drop

/-- The connections' side after a call. -/
theorem Moves.joined_iff (h : hub.Moves call reply hub') (hcoh : hub.Coherent) :
    hub'.Joined c r ↔ call.pairs hub.Joined reply c r := by
  cases h with
  | joinFailed | leaveFailed | sendFailed | syncFailed | synced | sent => exact Iff.rfl
  | @rejoined user raw r₀ room _ hfound hmember =>
      have hjoined := (hcoh.index _ _).mp ⟨room, hfound, hmember⟩
      simp only [joined_setConnection, HubCall.pairs, ChatRoom.joinResult]
      by_cases hc : c = user.connectionId
      · subst hc
        simp only [if_true, Option.some.injEq, exists_eq_left', true_and, ← ChatHub.joined_iff]
        constructor
        · exact .inr
        · rintro (rfl | h)
          · exact hjoined
          · exact h
      · simp [hc]
  | @joined user raw r₀ room _ _ hentered =>
      simp only [joined_setConnection, joined_setRoom, HubCall.pairs, ChatRoom.joinResult]
      by_cases hc : c = user.connectionId
      · subst hc
        simp only [if_true, Option.some.injEq, exists_eq_left', BTreeSet.mem_insert_iff,
          true_and, ChatHub.joined_iff]
      · simp [hc]
  | @left c₀ raw r₀ connection room member _ hknown hfound hstored =>
      simp only [joined_setConnection, joined_setRoom, HubCall.pairs]
      by_cases hc : c = c₀
      · subst hc
        rw [if_pos rfl, mem_connection_leave]
        simp [Joined, hknown, and_comm]
      · simp [hc]
  | stranger hunknown =>
      simp only [HubCall.pairs]
      constructor
      · intro h
        refine ⟨h, ?_⟩
        rintro rfl
        obtain ⟨connection, hconnection, _⟩ := h
        rw [hunknown] at hconnection
        cases hconnection
      · exact And.left
  | disconnected hknown =>
      rw [joined_drop]
      exact and_comm

/-- A room that is kept has someone in it. -/
theorem Coherent.peopled_move (hcoh : hub.Coherent) (h : hub.Moves call reply hub') (r : String)
    (room : ChatRoom) (hfound : hub'.rooms r = some room) : ∃ c, c ∈ room.members := by
  have hroom := h.room r
  generalize hub'.rooms r = after at hroom hfound
  cases hroom with
  | same => exact hcoh.peopled r room hfound
  | @entered user raw _ _ =>
      obtain rfl := Option.some.inj hfound
      exact ⟨user.connectionId, mem_enter.mpr (.inl rfl)⟩
  | left _ =>
      obtain ⟨rfl, hin⟩ := kept_eq_some hfound
      exact hin
  | @posted before message hbefore =>
      obtain rfl := Option.some.inj hfound
      exact hcoh.peopled r before hbefore

/-- A connection that is kept is in some room. -/
theorem Coherent.joined_move (hcoh : hub.Coherent) (h : hub.Moves call reply hub') (c : String)
    (connection : ChatConnection) (hknown : hub'.connections c = some connection) :
    ∃ r, r ∈ connection.joinedRooms := by
  have hconnection := h.connection c
  generalize hub'.connections c = after at hconnection hknown
  cases hconnection with
  | same => exact hcoh.joined c connection hknown
  | @rejoined user raw r _ _ hmember =>
      obtain rfl := Option.some.inj hknown
      exact ⟨r, ChatHub.joined_iff.mp ((hcoh.index _ _).mp hmember)⟩
  | @joined user raw r _ _ =>
      obtain rfl := Option.some.inj hknown
      exact ⟨r, BTreeSet.mem_insert_iff.mpr (.inl rfl)⟩
  | left _ => exact (connection_leave_eq_some hknown).2
  | dropped => cases hknown

/-- **Every call keeps both indexes in step.** -/
theorem Coherent.move (hcoh : hub.Coherent) (h : hub.Moves call reply hub') :
    hub'.Coherent where
  index c r := by
    rw [h.member hcoh, h.joined_iff hcoh]
    exact HubCall.pairs_congr hcoh.index c r
  peopled := hcoh.peopled_move h
  joined := hcoh.joined_move h

/-- Rooms are known by normalized ids. -/
def Normalized (hub : ChatHub) : Prop :=
  ∀ r room, hub.rooms r = some room → normalizedRoomId r = .ok r

theorem Normalized.move (h : hub.Normalized) (hmoves : hub.Moves call reply hub') :
    hub'.Normalized := by
  intro r room hfound
  have hroom := hmoves.room r
  generalize hub'.rooms r = after at hroom hfound
  cases hroom with
  | same => exact h r room hfound
  | entered _ hname => exact normalizedRoomId_idem hname
  | left hbefore => exact h r _ hbefore
  | posted hbefore => exact h r _ hbefore

/-! ## Identity -/

/-- Every copy of an identity is that of the user its connection is known by. -/
structure Named (users : String → Option ChatSessionUser) (hub : ChatHub) : Prop where
  connection : ∀ c connection, hub.connections c = some connection →
    users c = some connection.user
  member : ∀ r room c summary, hub.rooms r = some room → room.members[c]? = some summary →
    ∃ user, users c = some user ∧ user.summary = summary

variable {users users' : String → Option ChatSessionUser}

theorem named_default : default.Named users := by
  constructor <;> simp [default]

theorem Named.mono (h : hub.Named users)
    (hsame : ∀ c user, users c = some user → users' c = some user) : hub.Named users' where
  connection c connection hknown := hsame _ _ (h.connection c connection hknown)
  member r room c summary hfound hstored := by
    obtain ⟨user, huser, hsummary⟩ := h.member r room c summary hfound hstored
    exact ⟨user, hsame _ _ huser, hsummary⟩

/-- A connection the hub no longer knows may be forgotten. -/
theorem Named.forget (h : hub.Named users) (hconnection : hub.connections c = none)
    (hmember : ∀ r, ¬hub.Member c r) : hub.Named (Function.update users c none) where
  connection c' connection hknown := by
    have hc : c' ≠ c := by
      rintro rfl
      rw [hconnection] at hknown
      cases hknown
    rw [Function.update_of_ne hc]
    exact h.connection c' connection hknown
  member r room c' summary hfound hstored := by
    have hc : c' ≠ c := by
      rintro rfl
      exact hmember r ⟨room, hfound, BTreeMap.mem_iff.mpr ⟨summary, hstored⟩⟩
    rw [Function.update_of_ne hc]
    exact h.member r room c' summary hfound hstored

/-- The summary a room stores of a connection that is known. -/
theorem Named.stored (h : hub.Named users) {user : ChatSessionUser} (huser : users c = some user)
    {room : ChatRoom} {summary : ChatUserSummary} (hfound : hub.rooms r = some room)
    (hstored : room.members[c]? = some summary) : summary = user.summary := by
  obtain ⟨user', huser', rfl⟩ := h.member r room c summary hfound hstored
  rw [huser] at huser'
  rw [Option.some.inj huser']

/-- Calls keep identities while a connection joins as the user it is known by. -/
theorem Named.move (h : hub.Named users) (hmoves : hub.Moves call reply hub')
    (hcall : ∀ user raw, call = .joinRoom user raw → users user.connectionId = some user) :
    hub'.Named users := by
  constructor
  · intro c found hknown
    have hconnection := hmoves.connection c
    generalize hub'.connections c = after at hconnection hknown
    cases hconnection with
    | same => exact h.connection c found hknown
    | @rejoined user raw _ hjoins hself _ =>
        obtain rfl := Option.some.inj hknown
        rw [hself]
        exact hcall user raw hjoins
    | @joined user raw _ hjoins hself =>
        obtain rfl := Option.some.inj hknown
        rw [hself]
        exact hcall user raw hjoins
    | @left connection _ hbefore =>
        rw [(connection_leave_eq_some hknown).1]
        exact h.connection c connection hbefore
    | dropped => cases hknown
  · intro r found c summary hfound hstored
    have hroom := hmoves.room r
    generalize hub'.rooms r = after at hroom hfound
    cases hroom with
    | same => exact h.member r found c summary hfound hstored
    | @entered user raw hjoins _ =>
        obtain rfl := Option.some.inj hfound
        rw [ChatRoom.enter, BTreeMap.find_insert] at hstored
        split at hstored
        · next hc =>
            subst hc
            exact ⟨user, hcall user raw hjoins, Option.some.inj hstored⟩
        · -- someone who was in the room before
          cases hbefore : hub.rooms r with
          | none => simp [ChatHub.room, hbefore, ChatRoom.new] at hstored
          | some before =>
              rw [room_of_found hbefore] at hstored
              exact h.member r before c summary hbefore hstored
    | @left c' before hbefore =>
        obtain ⟨rfl, -⟩ := kept_eq_some hfound
        rw [ChatRoom.leave, BTreeMap.find_erase] at hstored
        split at hstored
        · cases hstored
        · exact h.member r before c summary hbefore hstored
    | @posted before message hbefore =>
        obtain rfl := Option.some.inj hfound
        exact h.member r before c summary hbefore hstored

end ChatHub

end Axes.Chat
