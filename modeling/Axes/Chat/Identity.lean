import Axes.Chat.HubSpec

/-!
# One identity per connection

`join_room` records the user on the connection at every call, and in the room only when
the connection enters it. The two agree as long as a connection that is in some room
joins under the name it has; `OneUserEach` is the discipline of `ChatState`, which joins
with the user it registered.
-/

namespace Axes.Chat

open Axes.Lib

namespace ChatHub

/-- How the connections name `c`. -/
def identity (hub : ChatHub) (c : String) : Option ChatUserSummary :=
  (hub.connections c).map (·.user.summary)

/-- How a room names `c`. -/
def stored (hub : ChatHub) (r c : String) : Option ChatUserSummary :=
  (hub.rooms r).bind fun room => room.members[c]?

/-- The members of a room as the connections name them, sorted. -/
def listedMembers (hub : ChatHub) (room : ChatRoom) : List ChatUserSummary :=
  sortMembers (room.members.keys.filterMap hub.identity)

/-- **Everything the hub reports of a connection names it as `connections` does.** -/
structure OneIdentity (hub : ChatHub) : Prop where
  stored : ∀ r c member, hub.stored r c = some member → hub.identity c = some member
  synced : ∀ c raw snapshot, hub.syncRoomState c raw = .ok snapshot →
    ∃ room, hub.rooms snapshot.roomId = some room ∧ snapshot.members = hub.listedMembers room
  left : ∀ c raw notice presence peers,
    (hub.leaveRoom c raw).2 = .ok (notice, presence, peers) →
    ∃ member, hub.identity c = some member ∧ presence.leftMembers = [member]
  disconnected : ∀ c, ∀ change ∈ (hub.disconnect c).2,
    ∃ member, hub.identity c = some member ∧ change.leftMembers = [member]
  sent : ∀ c raw content now sent, (hub.sendRoomMessage c raw content now).2 = .ok sent →
    hub.identity c = some ⟨sent.message.senderId, sent.message.senderName⟩

variable {hub hub' : ChatHub} {call : HubCall} {reply : HubReply} {c r raw : String}
  {user : ChatSessionUser} {member : ChatUserSummary}

theorem stored_of_found {room : ChatRoom} (hfound : hub.rooms r = some room) :
    hub.stored r c = room.members[c]? := by
  rw [stored, hfound, Option.bind_some]

theorem identity_of_known {connection : ChatConnection}
    (hknown : hub.connections c = some connection) :
    hub.identity c = some connection.user.summary := by
  rw [identity, hknown, Option.map_some]

theorem member_of_stored (h : hub.stored r c = some member) : hub.Member c r := by
  obtain ⟨room, hfound, hstored⟩ := Option.bind_eq_some_iff.mp h
  exact ⟨room, hfound, BTreeMap.mem_iff.mpr ⟨member, hstored⟩⟩

theorem stored_of_member (h : hub.Member c r) : ∃ member, hub.stored r c = some member := by
  obtain ⟨room, hfound, hin⟩ := h
  rw [stored_of_found hfound]
  exact BTreeMap.mem_iff.mp hin

theorem Coherent.identity_of_member (hcoh : hub.Coherent) (h : hub.Member c r) :
    ∃ member, hub.identity c = some member := by
  obtain ⟨connection, hknown, _⟩ := (hcoh.index c r).mp h
  exact ⟨_, identity_of_known hknown⟩

/-! ## What one call does to the copies -/

/-- A call is a valid join of `c` as `member`. -/
def JoinsAs (call : HubCall) (c : String) (member : ChatUserSummary) : Prop :=
  ∃ user raw, call = .joinRoom user raw ∧ RoomIdOk raw ∧ c = user.connectionId ∧
    member = user.summary

/-- A room's copy was there before, or is that of a join. -/
theorem Moves.stored (h : hub.Moves call reply hub') (hafter : hub'.stored r c = some member) :
    hub.stored r c = some member ∨ JoinsAs call c member := by
  obtain ⟨found, hfound, hstored⟩ := Option.bind_eq_some_iff.mp hafter
  have hroom := h.room r
  generalize hub'.rooms r = after at hroom hfound
  cases hroom with
  | same =>
      rw [stored_of_found hfound]
      exact .inl hstored
  | @entered user raw hjoins hname =>
      obtain rfl := Option.some.inj hfound
      rw [ChatRoom.enter, BTreeMap.find_insert] at hstored
      split at hstored
      · next hc =>
          exact .inr ⟨user, raw, hjoins, (roomIdOk_of_normalized hname).1, hc,
            (Option.some.inj hstored).symm⟩
      · cases hbefore : hub.rooms r with
        | none => simp [ChatHub.room, hbefore, ChatRoom.new] at hstored
        | some before =>
            rw [room_of_found hbefore] at hstored
            rw [stored_of_found hbefore]
            exact .inl hstored
  | @left c' before hbefore =>
      obtain ⟨rfl, -⟩ := kept_eq_some hfound
      rw [ChatRoom.leave, BTreeMap.find_erase] at hstored
      split at hstored
      · cases hstored
      · rw [stored_of_found hbefore]
        exact .inl hstored
  | @posted before message hbefore =>
      obtain rfl := Option.some.inj hfound
      rw [stored_of_found hbefore]
      exact .inl hstored

/-- The connection's copy was there before, or is that of a join. -/
theorem Moves.identity (h : hub.Moves call reply hub')
    (hafter : hub'.identity c = some member) :
    hub.identity c = some member ∨ JoinsAs call c member := by
  cases h with
  | joinFailed | leaveFailed | sendFailed | sent | syncFailed | synced | stranger =>
      exact .inl hafter
  | @rejoined user raw r room hname _ _ =>
      by_cases hc : c = user.connectionId
      · subst hc
        rw [ChatHub.identity, connections_setConnection_self, Option.map_some] at hafter
        exact .inr ⟨user, raw, rfl, (roomIdOk_of_normalized hname).1, rfl,
          (Option.some.inj hafter).symm⟩
      · rw [ChatHub.identity, connections_setConnection_of_ne hc] at hafter
        exact .inl hafter
  | @joined user raw r room hname _ _ =>
      by_cases hc : c = user.connectionId
      · subst hc
        rw [ChatHub.identity, connections_setConnection_self, Option.map_some] at hafter
        exact .inr ⟨user, raw, rfl, (roomIdOk_of_normalized hname).1, rfl,
          (Option.some.inj hafter).symm⟩
      · rw [ChatHub.identity, connections_setConnection_of_ne hc] at hafter
        exact .inl hafter
  | @left c₀ raw r connection room _ _ hknown _ _ =>
      by_cases hc : c = c₀
      · subst hc
        rw [ChatHub.identity, connections_setConnection_self, Option.map_eq_some_iff] at hafter
        obtain ⟨kept, hkept, rfl⟩ := hafter
        rw [identity_of_known hknown, (connection_leave_eq_some hkept).1]
        exact .inl rfl
      · rw [ChatHub.identity, connections_setConnection_of_ne hc] at hafter
        exact .inl hafter
  | @disconnected c₀ connection _ =>
      by_cases hc : c = c₀
      · subst hc
        simp [ChatHub.identity, drop] at hafter
      · left
        simpa [ChatHub.identity, drop, hc] using hafter

/-- What a successful join records on the connection. -/
theorem identity_of_join (h : hub.Moves (.joinRoom user raw) reply hub') (hok : RoomIdOk raw) :
    hub'.identity user.connectionId = some user.summary := by
  cases h with
  | joinFailed hinvalid => exact absurd hok (not_roomIdOk_of_normalized hinvalid)
  | rejoined | joined => rw [ChatHub.identity, connections_setConnection_self, Option.map_some]

/-- A join leaves the copies of the rooms its connection is in. -/
theorem stored_of_join (h : hub.Moves (.joinRoom user raw) reply hub')
    (hbefore : hub.stored r user.connectionId = some member) :
    hub'.stored r user.connectionId = some member := by
  cases h with
  | joinFailed | rejoined => exact hbefore
  | @joined _ _ r₀ room _ hfresh _ =>
      have hr : r ≠ r₀ := by
        rintro rfl
        exact hfresh (member_iff.mp (member_of_stored hbefore))
      rwa [ChatHub.stored, rooms_setConnection, rooms_setRoom_of_ne hr]

/-! ## While the copies agree -/

/-- Both copies agree. -/
def Agrees (hub : ChatHub) : Prop :=
  ∀ r c member, hub.stored r c = some member → hub.identity c = some member

/-- A valid join of a connection that is in some room brings the name it has. -/
def KeepsName (hub : ChatHub) (call : HubCall) : Prop :=
  ∀ user raw member, call = .joinRoom user raw → RoomIdOk raw →
    hub.identity user.connectionId = some member → user.summary = member

theorem Agrees.move (h : hub.Agrees) (hcoh : hub.Coherent) (hmoves : hub.Moves call reply hub')
    (hkeeps : hub.KeepsName call) : hub'.Agrees := by
  intro r c member hafter
  -- A member is known, since no move takes one of the two indexes ahead.
  obtain ⟨named, hnamed⟩ := (hcoh.move hmoves).identity_of_member (member_of_stored hafter)
  rw [hnamed, Option.some.injEq]
  rcases hmoves.identity hnamed with hknown | ⟨user, raw, rfl, hok, rfl, rfl⟩
  · rcases hmoves.stored hafter with hbefore | ⟨user, raw, rfl, hok, rfl, rfl⟩
    · have hsame := h r c member hbefore
      rw [hknown] at hsame
      exact Option.some.inj hsame
    · exact (hkeeps user raw named rfl hok hknown).symm
  · rcases hmoves.stored hafter with hbefore | ⟨user', raw', hcall, _, _, rfl⟩
    · exact hkeeps user raw member rfl hok (h r _ member hbefore)
    · cases hcall
      rfl

theorem Agrees.of_join (h : hub'.Agrees) (hbefore : hub.Agrees) (hcoh : hub.Coherent)
    (hmoves : hub.Moves call reply hub') : hub.KeepsName call := by
  rintro user raw member rfl hok hknown
  obtain ⟨connection, hconnection, hmember⟩ := Option.map_eq_some_iff.mp hknown
  obtain ⟨r, hr⟩ := hcoh.joined _ connection hconnection
  obtain ⟨copy, hcopy⟩ := stored_of_member ((hcoh.index _ r).mpr ⟨connection, hconnection, hr⟩)
  -- The room's copy outlives the join, and so must still be the connection's.
  have hlater := h r _ copy (stored_of_join hmoves hcopy)
  have hearlier := hbefore r _ copy hcopy
  rw [identity_of_join hmoves hok] at hlater
  rw [hknown] at hearlier
  rw [Option.some.inj hlater, Option.some.inj hearlier]

theorem Agrees.values (h : hub.Agrees) {room : ChatRoom} (hfound : hub.rooms r = some room) :
    sortedMembers room = hub.listedMembers room := by
  unfold sortedMembers listedMembers BTreeMap.values
  rw [← Std.ExtTreeMap.map_fst_toList_eq_keys, List.filterMap_map, ← List.filterMap_eq_map]
  congr 1
  refine List.filterMap_congr ?_
  intro entry hentry
  have hstored : hub.stored r entry.1 = some entry.2 := by
    rw [stored_of_found hfound]
    exact Std.ExtTreeMap.mem_toList_iff_getElem?_eq_some.mp hentry
  exact (h r _ _ hstored).symm

theorem Agrees.oneIdentity (h : hub.Agrees) : hub.OneIdentity where
  stored := h
  synced c raw snapshot hsynced := by
    have hmoves := hub.syncRoomState_moves c raw
    rw [hsynced] at hmoves
    cases hmoves with
    | synced _ hfound _ => exact ⟨_, hfound, h.values hfound⟩
  left c raw notice presence peers hleft := by
    have hmoves := hub.leaveRoom_moves c raw
    rw [hleft] at hmoves
    generalize (hub.leaveRoom c raw).1 = hub' at hmoves
    cases hmoves with
    | left _ _ hfound hstored =>
        rw [← stored_of_found hfound] at hstored
        exact ⟨_, h _ _ _ hstored, rfl⟩
  disconnected c change hchange := by
    have hmoves := hub.disconnect_moves c
    generalize hub.disconnect c = outcome at hmoves hchange
    obtain ⟨hub', changes⟩ := outcome
    cases hmoves with
    | stranger => cases hchange
    | disconnected hknown =>
        obtain ⟨r, _, hr⟩ := List.mem_filterMap.mp hchange
        obtain ⟨room, _, rfl⟩ := Option.map_eq_some_iff.mp hr
        exact ⟨_, identity_of_known hknown, rfl⟩
  sent c raw content now sent hsent := by
    have hmoves := hub.sendRoomMessage_moves c raw content now
    rw [hsent] at hmoves
    generalize (hub.sendRoomMessage c raw content now).1 = hub' at hmoves
    cases hmoves with
    | sent _ _ hknown _ _ hwritten =>
        rw [identity_of_known hknown, hwritten]
        rfl

end ChatHub

/-! ## Over a run -/

/-- Every state that is reached names each connection one way, and so does the list a
join answers with. -/
structure OneNameEach (calls : List HubCall) : Prop where
  reached : ∀ past, past <+: calls → (after past).1.OneIdentity
  joined : ∀ past user raw result, past ++ [.joinRoom user raw] <+: calls →
    ((after past).1.joinRoom user raw).2 = .ok result →
    let hub := (after (past ++ [.joinRoom user raw])).1
    ∃ room, hub.rooms result.roomId = some room ∧ result.members = hub.listedMembers room

/-- A connection joins under the name it is in its rooms by. -/
def KeepsNames (calls : List HubCall) : Prop :=
  ∀ past user raw member, past ++ [.joinRoom user raw] <+: calls → RoomIdOk raw →
    (after past).1.identity user.connectionId = some member → user.summary = member

theorem after_call (past : List HubCall) (call : HubCall) :
    (after (past ++ [call])).1 = ((after past).1.call call).1 := by
  rw [after_append, observed]

theorem after_moves (past : List HubCall) (call : HubCall) :
    (after past).1.Moves call ((after past).1.call call).2 (after (past ++ [call])).1 := by
  rw [after_call]
  exact ChatHub.call_moves _ call

theorem after_join (past : List HubCall) (user : ChatSessionUser) (raw : String) :
    (after (past ++ [.joinRoom user raw])).1 = ((after past).1.joinRoom user raw).1 := by
  rw [after_call, ChatHub.call]

theorem KeepsNames.agrees {calls : List HubCall} (h : KeepsNames calls) :
    ∀ past, past <+: calls → (after past).1.Agrees := by
  intro past
  induction past using List.reverseRecOn with
  | nil =>
      intro _ r c member hstored
      simp [after, ChatHub.default, ChatHub.stored] at hstored
  | append_singleton past call ih =>
      intro hpast
      have hbefore := ih ((List.prefix_append past [call]).trans hpast)
      refine hbefore.move (tracks_after past).coherent (after_moves past call) ?_
      rintro user raw member rfl hok hknown
      exact h past user raw member hpast hok hknown

theorem found_of_join {hub : ChatHub} {user : ChatSessionUser} {raw : String}
    {result : ChatJoinRoomResult} (h : (hub.joinRoom user raw).2 = .ok result) :
    ∃ room, (hub.joinRoom user raw).1.rooms result.roomId = some room ∧
      result.members = sortedMembers room := by
  have hmoves := hub.joinRoom_moves user raw
  rw [h] at hmoves
  generalize (hub.joinRoom user raw).1 = hub' at hmoves
  cases hmoves with
  | rejoined _ hfound _ => exact ⟨_, hfound, rfl⟩
  | joined _ _ _ => exact ⟨_, ChatHub.rooms_setRoom_self, rfl⟩

/-- **One name each, exactly when names are kept.** -/
theorem oneNameEach_iff (calls : List HubCall) : OneNameEach calls ↔ KeepsNames calls := by
  constructor
  · intro h past user raw member hpast hok hknown
    have hbefore := (h.reached past ((List.prefix_append past _).trans hpast)).stored
    have hafter := (h.reached _ hpast).stored
    exact ChatHub.Agrees.of_join hafter hbefore (tracks_after past).coherent (after_moves past _)
      user raw member rfl hok hknown
  · intro h
    have hagrees := h.agrees
    constructor
    · intro past hpast
      exact (hagrees past hpast).oneIdentity
    · intro past user raw result hpast hjoined
      have hafter := hagrees _ hpast
      rw [after_join] at hafter ⊢
      obtain ⟨room, hfound, hmembers⟩ := found_of_join hjoined
      refine ⟨room, hfound, ?_⟩
      rw [hmembers]
      exact hafter.values hfound

/-- Ann rejoins as Bob: the room still lists Ann, and leaving reports Ann, but
disconnecting reports Bob. -/
theorem ann_and_bob :
    let calls : List HubCall := [.joinRoom ⟨"chat-1", "u1", "ann"⟩ "lobby",
      .joinRoom ⟨"chat-1", "u2", "bob"⟩ "lobby"]
    let hub := (after calls).1
    ¬OneNameEach calls ∧
    ((hub.leaveRoom "chat-1" "lobby").2.toOption.map fun left => left.2.1.leftMembers) =
      some [⟨"u1", "ann"⟩] ∧
    (hub.disconnect "chat-1").2.map (·.leftMembers) = [[⟨"u2", "bob"⟩]] := by
  intro calls hub
  refine ⟨?_, by decide, by decide⟩
  intro h
  have hstored : hub.stored "lobby" "chat-1" = some ⟨"u1", "ann"⟩ := by decide
  have hidentity : hub.identity "chat-1" = some ⟨"u2", "bob"⟩ := by decide
  have hone := (h.reached calls List.prefix_rfl).stored _ _ _ hstored
  rw [hidentity] at hone
  exact absurd hone (by decide)

/-! ## One user each -/

/-- Each connection id joins as one user. -/
def OneUserEach (calls : List HubCall) : Prop :=
  ∀ user raw user' raw', HubCall.joinRoom user raw ∈ calls → .joinRoom user' raw' ∈ calls →
    user.connectionId = user'.connectionId → user = user'

/-- The user of a join of `c`. -/
def HubCall.joins? (c : String) : HubCall → Option ChatSessionUser
  | joinRoom user _ => if user.connectionId = c then some user else none
  | leaveRoom _ _ | sendRoomMessage _ _ _ _ | syncRoomState _ _ | disconnect _ => none

/-- Whom `c` joins as. -/
def knownAs (calls : List HubCall) (c : String) : Option ChatSessionUser :=
  calls.findSome? (HubCall.joins? c)

theorem joins?_eq_some {c : String} {call : HubCall} {user : ChatSessionUser}
    (h : call.joins? c = some user) :
    ∃ raw, call = .joinRoom user raw ∧ user.connectionId = c := by
  cases call with
  | joinRoom user' raw =>
      rw [HubCall.joins?] at h
      split at h
      · next hc =>
          obtain rfl := Option.some.inj h
          exact ⟨raw, rfl, hc⟩
      · cases h
  | leaveRoom | sendRoomMessage | syncRoomState | disconnect => cases h

theorem OneUserEach.knownAs {calls : List HubCall} (h : OneUserEach calls)
    {user : ChatSessionUser} {raw : String} (hjoin : .joinRoom user raw ∈ calls) :
    knownAs calls user.connectionId = some user := by
  cases hfound : Chat.knownAs calls user.connectionId with
  | none =>
      have hnone := List.findSome?_eq_none_iff.mp hfound _ hjoin
      simp [HubCall.joins?] at hnone
  | some found =>
      obtain ⟨call, hcall, hjoins⟩ := List.exists_of_findSome?_eq_some hfound
      obtain ⟨raw', rfl, hc⟩ := joins?_eq_some hjoins
      rw [h found raw' user raw hcall hjoin hc]

/-- Every copy of an identity is that of the one user. -/
theorem named_after {users : String → Option ChatSessionUser} :
    ∀ {calls : List HubCall},
      (∀ user raw, .joinRoom user raw ∈ calls → users user.connectionId = some user) →
      (after calls).1.Named users := by
  intro calls
  induction calls using List.reverseRecOn with
  | nil =>
      intro _
      exact ChatHub.named_default
  | append_singleton past call ih =>
      intro husers
      have hbefore := ih fun user raw hjoin => husers user raw (List.mem_append_left _ hjoin)
      refine hbefore.move (after_moves past call) ?_
      rintro user raw rfl
      exact husers user raw (List.mem_append_right _ List.mem_cons_self)

theorem normalized_after (calls : List HubCall) : (after calls).1.Normalized := by
  induction calls using List.reverseRecOn with
  | nil =>
      intro r room hfound
      cases hfound
  | append_singleton past call ih => exact ih.move (after_moves past call)

end Axes.Chat
