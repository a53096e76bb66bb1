import Axes.Chat.FanOut

/-!
# A client's replica of a room

A client keeps a replica of each room it is in: it starts from the snapshot of a
`JoinedRoom` and folds presence changes and messages into it. `hear` also checks what
each event may be: nothing of a room is heard outside it, and every change takes the
version one further. What the hub answers and owes keeps the replica a mirror of the room.
-/

namespace Axes.Chat

open Axes.Lib

structure Replica where
  /-- A multiset: a list up to order. -/
  members : List ChatUserSummary
  history : List ChatRoomMessage
  version : Nat

namespace Replica

def ofSnapshot (snapshot : ChatRoomSnapshot) : Replica where
  members := snapshot.members
  history := snapshot.recentMessages
  version := snapshot.version

/-- Fold an event of the room, when it takes the version one further. -/
def apply (replica : Replica) : ChatEvent → Option Replica
  | .roomMessage message =>
      if message.version = replica.version + 1 then some { replica with
        history := lastMessages (replica.history ++ [message])
        version := message.version }
      else none
  | .presenceChanged presence =>
      if presence.version = replica.version + 1 then some { replica with
        members := (replica.members ++ presence.joinedMembers).diff presence.leftMembers
        version := presence.version }
      else none
  | .roomState _ => some replica
  | _ => none

/-- What a client that is in the room, or not, makes of an event of the room. -/
def hear : Option Replica → ChatEvent → Option (Option Replica)
  | none, .joinedRoom snapshot => some (some (ofSnapshot snapshot))
  | none, _ => none
  | some replica, .joinedRoom snapshot =>
      if snapshot.version = replica.version then some (some (ofSnapshot snapshot)) else none
  | some _, .leftRoom _ => some none
  | some replica, event => (replica.apply event).map some

def hearAll (view : Option Replica) (events : List ChatEvent) : Option (Option Replica) :=
  events.foldlM hear view

theorem hearAll_append (view : Option Replica) (events later : List ChatEvent) :
    hearAll view (events ++ later) = (hearAll view events).bind fun view => hearAll view later :=
  List.foldlM_append ..

end Replica

/-- The events of a room. -/
def about (roomId : String) (events : List ChatEvent) : List ChatEvent :=
  events.filter fun event => event.roomId? = some roomId

theorem about_append (r : String) (events later : List ChatEvent) :
    about r (events ++ later) = about r events ++ about r later :=
  List.filter_append ..

theorem about_eq_nil {r : String} {events : List ChatEvent}
    (h : ∀ event ∈ events, event.roomId? ≠ some r) : about r events = [] :=
  List.filter_eq_nil_iff.mpr fun event hevent => by simpa using h event hevent

namespace ChatHub

/-- The view connection `c` has of room `r` is what the hub stores. -/
def Mirrors (hub : ChatHub) (c r : String) : Option Replica → Prop
  | none => ¬hub.Member c r
  | some replica => ∃ room, hub.rooms r = some room ∧ c ∈ room.members ∧
      replica.members.Perm (BTreeMap.values room.members) ∧
      replica.history = room.recentMessages ∧ replica.version = room.version

/-- What `c` hears of a command of `user`. -/
def heard (user : ChatSessionUser) (message : ChatCommand) (now : Int) (c : String)
    (hub : ChatHub) : List ChatEvent :=
  (if c = user.connectionId then hub.answer user message else []) ++
    hub.owed user message now c

variable {hub hub' : ChatHub} {c r : String} {view : Option Replica} {replica : Replica}
  {room : ChatRoom} {user : ChatSessionUser} {message : ChatCommand} {now : Int}

theorem Mirrors.congr (h : hub.Mirrors c r view) (hrooms : hub'.rooms r = hub.rooms r) :
    hub'.Mirrors c r view := by
  cases view with
  | none => simpa [Mirrors, Member, hrooms] using h
  | some replica => simpa [Mirrors, hrooms] using h

theorem Mirrors.outside (h : hub.Mirrors c r view) (hmember : ¬hub.Member c r) :
    view = none := by
  cases view with
  | none => rfl
  | some replica =>
      obtain ⟨room, hfound, hin, -⟩ := h
      exact absurd ⟨room, hfound, hin⟩ hmember

theorem Mirrors.inside (h : hub.Mirrors c r view) (hfound : hub.rooms r = some room)
    (hin : c ∈ room.members) :
    ∃ replica, view = some replica ∧ replica.members.Perm (BTreeMap.values room.members) ∧
      replica.history = room.recentMessages ∧ replica.version = room.version := by
  cases view with
  | none => exact absurd ⟨room, hfound, hin⟩ h
  | some replica =>
      obtain ⟨found, hfound', -, hreplica⟩ := h
      rw [hfound] at hfound'
      obtain rfl := Option.some.inj hfound'
      exact ⟨replica, rfl, hreplica⟩

/-- A snapshot is a mirror. -/
theorem mirrors_snapshot (hfound : hub.rooms r = some room) (hin : c ∈ room.members) :
    hub.Mirrors c r (some (.ofSnapshot (room.snapshot r))) :=
  ⟨room, hfound, hin, List.perm_insertionSort _ _, rfl, rfl⟩

/-- A view goes on as a view: what is heard is in order, and keeps the mirror. -/
def Follows (hub hub' : ChatHub) (c r : String) (events : List ChatEvent) : Prop :=
  ∀ view, hub.Mirrors c r view →
    ∃ view', Replica.hearAll view (about r events) = some view' ∧ hub'.Mirrors c r view'

theorem Follows.silent {events : List ChatEvent}
    (hevents : ∀ event ∈ events, event.roomId? ≠ some r) (hrooms : hub'.rooms r = hub.rooms r) :
    hub.Follows hub' c r events := by
  intro view h
  rw [about_eq_nil hevents]
  exact ⟨view, rfl, h.congr hrooms⟩

/-- Someone who is and stays outside hears nothing. -/
theorem Follows.outside (hmember : ¬hub.Member c r) (hmember' : ¬hub'.Member c r) :
    hub.Follows hub' c r [] := by
  intro view h
  obtain rfl := h.outside hmember
  exact ⟨none, rfl, hmember'⟩

/-- One event about the room, heard by someone in it. -/
theorem Follows.event {event : ChatEvent} (habout : event.roomId? = some r)
    (hfound : hub.rooms r = some room) (hin : c ∈ room.members)
    (h : ∀ replica : Replica, replica.members.Perm (BTreeMap.values room.members) →
      replica.history = room.recentMessages → replica.version = room.version →
      ∃ view', Replica.hear (some replica) event = some view' ∧ hub'.Mirrors c r view') :
    hub.Follows hub' c r [event] := by
  intro view hview
  obtain ⟨replica, rfl, hmembers, hhistory, hversion⟩ := hview.inside hfound hin
  obtain ⟨view', hhear, hview'⟩ := h replica hmembers hhistory hversion
  refine ⟨view', ?_, hview'⟩
  simp [about, habout, Replica.hearAll, hhear]

/-! ## One event each -/

theorem Follows.joining {summary : ChatUserSummary} {c' : String} (hfound : hub.rooms r = some room)
    (hin : c ∈ room.members) (hfresh : c' ∉ room.members)
    (hrooms : hub'.rooms r = some (room.enter c' summary)) :
    hub.Follows hub' c r [.presenceChanged (.joining r summary (room.version + 1))] := by
  refine .event rfl hfound hin ?_
  intro replica hmembers hhistory hversion
  refine ⟨_, by simp [Replica.hear, Replica.apply, ChatPresenceChange.joining, hversion]; rfl, ?_⟩
  refine ⟨_, hrooms, mem_enter.mpr (.inr hin), ?_, hhistory, rfl⟩
  refine List.Perm.trans ?_ (BTreeMap.values_insert hfresh).symm
  exact List.perm_append_comm.trans (List.Perm.cons summary hmembers)

theorem Follows.leaving {summary : ChatUserSummary} {c' : String} (hfound : hub.rooms r = some room)
    (hin : c ∈ room.members) (hother : c ≠ c') (hstored : room.members[c']? = some summary)
    (hrooms : hub'.rooms r = (room.leave c').kept) :
    hub.Follows hub' c r [.presenceChanged (.leaving r summary (room.version + 1))] := by
  refine .event rfl hfound hin ?_
  intro replica hmembers hhistory hversion
  obtain ⟨kept, hkept, hstays⟩ := mem_leave.mpr ⟨hother, hin⟩
  refine ⟨_, by simp [Replica.hear, Replica.apply, ChatPresenceChange.leaving, hversion]; rfl, ?_⟩
  refine ⟨kept, hrooms.trans hkept, hstays, ?_, ?_, ?_⟩
  all_goals obtain ⟨rfl, -⟩ := kept_eq_some hkept
  · have hvalues := hmembers.trans (BTreeMap.values_erase hstored).symm
    simpa [ChatRoom.leave] using hvalues.erase summary
  · exact hhistory
  · rfl

theorem Follows.posting {posted : ChatRoomMessage} (hfound : hub.rooms r = some room)
    (hin : c ∈ room.members) (hroom : posted.roomId = r)
    (hversion' : posted.version = room.version + 1)
    (hrooms : hub'.rooms r = some (room.post posted)) :
    hub.Follows hub' c r [.roomMessage posted] := by
  refine .event (by simp [ChatEvent.roomId?, hroom]) hfound hin fun replica hmembers hhistory
    hversion => ?_
  refine ⟨_, by simp [Replica.hear, Replica.apply, hversion, hversion']; rfl, ?_⟩
  exact ⟨_, hrooms, hin, hmembers, by simp [ChatRoom.post, hhistory], by simp [ChatRoom.post]⟩

/-! ## Commands -/

theorem follows_joinRoom (hub : ChatHub) (user : ChatSessionUser) (raw : String) (now : Int)
    (c r : String) :
    hub.Follows (hub.joinRoom user raw).1 c r (hub.heard user (.joinRoom raw) now c) := by
  have hmoves := hub.joinRoom_moves user raw
  simp only [heard, answer, owed]
  generalize hub.joinRoom user raw = outcome at hmoves ⊢
  obtain ⟨hub', result⟩ := outcome
  simp only at hmoves ⊢
  cases hmoves with
  | joinFailed => exact .silent (by simp) rfl
  | @rejoined _ _ r₀ room _ hfound hin =>
      by_cases hr : r = r₀
      · subst hr
        by_cases hc : c = user.connectionId
        · subst hc
          -- Joining again answers with the snapshot, and nobody else hears of it.
          simp only [if_true, ChatRoom.joinResult, Bool.false_eq_true, false_and, if_false,
            List.append_nil]
          refine .event rfl hfound hin ?_
          intro replica _ _ hversion
          refine ⟨_, by simp [Replica.hear, hversion]; rfl, ?_⟩
          exact mirrors_snapshot hfound hin
        · simp only [hc, if_false, ChatRoom.joinResult, Bool.false_eq_true, false_and,
            List.append_nil]
          exact .silent (by simp) rfl
      · refine .silent ?_ rfl
        simp [ChatRoom.joinResult, ChatEvent.roomId?, Ne.symm hr]
  | @joined _ _ r₀ room _ hfresh hentered =>
      by_cases hr : r = r₀
      · subst hr
        have hrooms : ((hub.setRoom r (some room)).setConnection user.connectionId
            (some ⟨user, (hub.joinedRooms user.connectionId).insert r⟩)).rooms r = some room := by
          simp
        by_cases hc : c = user.connectionId
        · subst hc
          simp only [if_true, ChatRoom.joinResult, ne_eq, not_true_eq_false, false_and, and_false,
            if_false, List.append_nil]
          intro view hview
          -- A newcomer had no view, and starts from the snapshot.
          obtain rfl := hview.outside fun hmember => hfresh (member_iff.mp hmember)
          refine ⟨_, by simp [about, ChatEvent.roomId?, Replica.hearAll, Replica.hear]; rfl, ?_⟩
          exact mirrors_snapshot hrooms (hentered ▸ mem_enter.mpr (.inl rfl))
        · by_cases hmember : hub.Member c r
          · simp only [hc, if_false, ChatRoom.joinResult, ne_eq, not_false_eq_true,
              hmember, and_self, if_true, List.nil_append]
            obtain ⟨before, hfound, hin⟩ := hmember
            rw [room_of_found hfound] at hfresh hentered ⊢
            exact .joining hfound hin hfresh (hentered ▸ hrooms)
          -- Outside before, and outside still.
          · simp only [hc, if_false, ChatRoom.joinResult, hmember, and_false, List.append_nil]
            refine .outside hmember fun hmember' => hmember ?_
            rw [member_setConnection, member_setRoom, if_pos rfl] at hmember'
            obtain ⟨_, heq, hin⟩ := hmember'
            obtain rfl := Option.some.inj heq
            rw [hentered, mem_enter] at hin
            exact member_iff.mpr (hin.resolve_left hc)
      · refine .silent ?_ (rooms_setRoom_of_ne hr)
        intro event hevent
        simp only [ChatRoom.joinResult, List.mem_append, List.mem_ite_nil_right,
          List.mem_singleton] at hevent
        rcases hevent with ⟨-, rfl⟩ | ⟨-, rfl⟩
        · simp [ChatEvent.roomId?, Ne.symm hr]
        · simp [ChatEvent.roomId?, ChatPresenceChange.joining, Ne.symm hr]

theorem follows_leaveRoom {users : String → Option ChatSessionUser} (hnamed : hub.Named users)
    (huser : users user.connectionId = some user) (raw : String) (now : Int) (c r : String) :
    hub.Follows (hub.leaveRoom user.connectionId raw).1 c r
      (hub.heard user (.leaveRoom raw) now c) := by
  have hmoves := hub.leaveRoom_moves user.connectionId raw
  simp only [heard, answer, owed]
  generalize hub.leaveRoom user.connectionId raw = outcome at hmoves ⊢
  obtain ⟨hub', result⟩ := outcome
  simp only at hmoves ⊢
  cases hmoves with
  | leaveFailed => exact .silent (by simp) rfl
  | @left _ _ r₀ connection room summary _ _ hfound hstored =>
      obtain rfl := hnamed.stored huser hfound hstored
      have hroom := room_of_found hfound
      by_cases hr : r = r₀
      · subst hr
        have hrooms : ((hub.setRoom r (room.leave user.connectionId).kept).setConnection
            user.connectionId (connection.leave r)).rooms r =
              (room.leave user.connectionId).kept := by
          simp
        have hself : user.connectionId ∈ room.members := BTreeMap.mem_iff.mpr ⟨_, hstored⟩
        by_cases hc : c = user.connectionId
        · subst hc
          simp only [if_true, ne_eq, not_true_eq_false, false_and, if_false, List.append_nil]
          refine .event rfl hfound hself fun replica _ _ _ => ⟨none, rfl, ?_⟩
          rintro ⟨found, hkept, hin⟩
          exact (mem_leave.mp ⟨found, hrooms.symm.trans hkept, hin⟩).1 rfl
        · by_cases hmember : hub.Member c r
          · simp only [hc, if_false, ne_eq, not_false_eq_true, hmember, and_self, if_true,
              List.nil_append, hroom]
            exact .leaving hfound ((member_of_found hfound).mp hmember) hc hstored hrooms
          · simp only [hc, if_false, hmember, and_false, List.append_nil]
            refine .outside hmember ?_
            rintro ⟨found, hkept, hin⟩
            exact hmember
              ⟨room, hfound, (mem_leave.mp ⟨found, hrooms.symm.trans hkept, hin⟩).2⟩
      · refine .silent ?_ (rooms_setRoom_of_ne hr)
        intro event hevent
        simp only [List.mem_append, List.mem_ite_nil_right, List.mem_singleton] at hevent
        rcases hevent with ⟨-, rfl⟩ | ⟨-, rfl⟩
        · simp [ChatEvent.roomId?, Ne.symm hr]
        · simp [ChatEvent.roomId?, ChatPresenceChange.leaving, Ne.symm hr]

theorem follows_sendRoomMessage (hub : ChatHub) (user : ChatSessionUser) (raw content : String)
    (now : Int) (c r : String) :
    hub.Follows (hub.sendRoomMessage user.connectionId raw content now).1 c r
      (hub.heard user (.sendRoomMessage raw content) now c) := by
  have hmoves := hub.sendRoomMessage_moves user.connectionId raw content now
  simp only [heard, answer, owed, ite_self, List.nil_append]
  generalize hub.sendRoomMessage user.connectionId raw content now = outcome at hmoves ⊢
  obtain ⟨hub', result⟩ := outcome
  simp only at hmoves ⊢
  cases hmoves with
  | sendFailed => exact .silent (by simp) rfl
  | @sent _ _ _ _ r₀ text connection room posted _ _ _ hfound _ hwritten =>
      have hroom : posted.roomId = r₀ := by rw [hwritten]
      by_cases hr : r = r₀
      · subst hr
        have hrooms : (hub.setRoom r (some (room.post posted))).rooms r =
            some (room.post posted) := rooms_setRoom_self
        by_cases hmember : hub.Member c r
        · simp only [hmember, if_true]
          exact .posting hfound ((member_of_found hfound).mp hmember) hroom (by rw [hwritten])
            hrooms
        · simp only [hmember, if_false]
          refine .outside hmember ?_
          rintro ⟨found, heq, hin⟩
          obtain rfl := Option.some.inj (hrooms.symm.trans heq)
          exact hmember ⟨room, hfound, hin⟩
      · refine .silent ?_ (rooms_setRoom_of_ne hr)
        intro event hevent
        simp only [List.mem_ite_nil_right, List.mem_singleton] at hevent
        obtain ⟨-, rfl⟩ := hevent
        simp [ChatEvent.roomId?, hroom, Ne.symm hr]

theorem follows_syncRoomState (hub : ChatHub) (user : ChatSessionUser) (raw : String) (now : Int)
    (c r : String) : hub.Follows hub c r (hub.heard user (.syncRoomState raw) now c) := by
  have hmoves := hub.syncRoomState_moves user.connectionId raw
  simp only [heard, answer, owed, List.append_nil]
  generalize hub.syncRoomState user.connectionId raw = result at hmoves ⊢
  cases hmoves with
  | syncFailed => exact .silent (by simp) rfl
  | @synced _ _ r₀ room _ hfound hin =>
      by_cases hself : c = user.connectionId ∧ r = r₀
      · obtain ⟨rfl, rfl⟩ := hself
        simp only [if_true]
        refine .event rfl hfound hin ?_
        intro replica hmembers hhistory hversion
        exact ⟨some replica, rfl, room, hfound, hin, hmembers, hhistory, hversion⟩
      · refine .silent ?_ rfl
        intro event hevent
        rw [List.mem_ite_nil_right, List.mem_singleton] at hevent
        obtain ⟨hc, rfl⟩ := hevent
        have hr : r₀ ≠ r := fun hr => hself ⟨hc, hr.symm⟩
        simp [ChatEvent.roomId?, ChatRoom.snapshot, hr]

/-! ## Unregistering -/

/-- The one event about a room that an unregistering owes. -/
theorem about_owedOnClose : about r (hub.owedOnClose user c) =
    if r ∈ hub.joinedRooms user.connectionId ∧ c ≠ user.connectionId ∧ hub.Member c r then
      [.presenceChanged (.leaving r user.summary ((hub.room r).version + 1))]
    else [] := by
  have hshared : ((hub.joinedRooms user.connectionId).toList.filter fun r' =>
      decide (c ≠ user.connectionId ∧ hub.Member c r')).filter (fun r' => decide (r' = r)) =
      if r ∈ hub.joinedRooms user.connectionId ∧ c ≠ user.connectionId ∧ hub.Member c r then [r]
      else [] := by
    have hnodup := (BTreeSet.nodup_toList (hub.joinedRooms user.connectionId)).filter
      fun r' => decide (c ≠ user.connectionId ∧ hub.Member c r')
    rw [List.filter_eq, hnodup.count]
    simp only [List.mem_filter, Std.ExtTreeSet.mem_toList, decide_eq_true_eq]
    split <;> rfl
  unfold about owedOnClose
  rw [List.filter_map]
  have hroom : ((fun event : ChatEvent => decide (event.roomId? = some r)) ∘ fun r' =>
      ChatEvent.presenceChanged (.leaving r' user.summary ((hub.room r').version + 1))) =
      fun r' => decide (r' = r) := by
    funext r'
    simp [ChatEvent.roomId?, ChatPresenceChange.leaving]
  rw [hroom, hshared]
  split <;> rfl

/-- What the others hear of an unregistering. -/
theorem follows_disconnect {users : String → Option ChatSessionUser} (hcoh : hub.Coherent)
    (hnamed : hub.Named users) (huser : users user.connectionId = some user)
    (hc : c ≠ user.connectionId) (r : String) :
    hub.Follows (hub.disconnect user.connectionId).1 c r (hub.owedOnClose user c) := by
  have hmoves := hub.disconnect_moves user.connectionId
  generalize hub.disconnect user.connectionId = outcome at hmoves ⊢
  obtain ⟨hub', changes⟩ := outcome
  simp only at hmoves ⊢
  intro view hview
  rw [about_owedOnClose]
  cases hmoves with
  | stranger hunknown =>
      have hrooms : hub.joinedRooms user.connectionId = ∅ := by simp [joinedRooms, hunknown]
      simp only [hrooms, Std.ExtTreeSet.not_mem_empty, false_and, if_false]
      exact ⟨view, rfl, hview⟩
  | @disconnected _ connection hknown =>
      by_cases hr : r ∈ hub.joinedRooms user.connectionId
      · obtain ⟨room, hfound, hself⟩ := (hcoh.index _ _).mpr (joined_iff.mpr hr)
        obtain ⟨summary, hstored⟩ := BTreeMap.mem_iff.mp hself
        obtain rfl := hnamed.stored huser hfound hstored
        have hrooms : (hub.drop user.connectionId).rooms r =
            (room.leave user.connectionId).kept := by
          simp [drop, hr, hfound]
        by_cases hmember : hub.Member c r
        · rw [if_pos ⟨hr, hc, hmember⟩, room_of_found hfound]
          have hin := (member_of_found hfound).mp hmember
          have hfollows := Follows.leaving hfound hin hc hstored hrooms view hview
          simpa [about, ChatEvent.roomId?, ChatPresenceChange.leaving] using hfollows
        · rw [if_neg fun h => hmember h.2.2]
          obtain rfl := hview.outside hmember
          exact ⟨none, rfl, fun h => hmember (member_drop.mp h).1⟩
      · rw [if_neg fun h => hr h.1]
        exact ⟨view, rfl, hview.congr (by simp [drop, hr])⟩

end ChatHub

end Axes.Chat
