import Axes.Chat.FanOut
import Axes.Chat.HubSpec

/-!
# What the checks of the hub agree on

`leave_room` and `send_room_message` look a connection up and then the room, and
`sync_room_state` only the room. While both indexes agree these are one test: the room
id is valid and the connection is a member.
-/

namespace Axes.Chat

open Axes.Lib

/-- What an operation answers to a connection that is not in the room it names. -/
def refusal (raw : String) : ChatError :=
  if RoomIdOk raw then .notInRoom (Text.trim raw) else .invalidRoomId

/-! ## One test -/

/-- `result` is a success exactly under a condition, and else one error. -/
structure Tests {α : Type} (passes : Prop) (e : ChatError) (result : Except ChatError α) :
    Prop where
  passed : passes → ∃ value, result = .ok value
  failed : ¬passes → result = .error e

theorem Tests.ok_iff {α : Type} {passes : Prop} {e : ChatError} {result : Except ChatError α}
    (h : Tests passes e result) : (∃ value, result = .ok value) ↔ passes := by
  refine ⟨?_, h.passed⟩
  rintro ⟨value, hvalue⟩
  by_contra hfails
  rw [h.failed hfails] at hvalue
  cases hvalue

namespace ChatHub

variable {hub : ChatHub} {c raw : String}

/-- The room id is valid, and the connection a member of the room. -/
def Admits (hub : ChatHub) (c raw : String) : Prop :=
  RoomIdOk raw ∧ hub.Member c (Text.trim raw)

theorem admits_of_found {r : String} {room : ChatRoom} (hname : normalizedRoomId raw = .ok r)
    (hfound : hub.rooms r = some room) (hmember : c ∈ room.members) : hub.Admits c raw := by
  obtain ⟨hok, rfl⟩ := roomIdOk_of_normalized hname
  exact ⟨hok, room, hfound, hmember⟩

theorem refusal_invalid {e : ChatError} (h : normalizedRoomId raw = .error e) :
    e = refusal raw ∧ ¬hub.Admits c raw := by
  have hbad := not_roomIdOk_of_normalized h
  rw [normalizedRoomId_of_not_ok hbad] at h
  obtain rfl := Except.error.inj h
  refine ⟨?_, fun hadmits => hbad hadmits.1⟩
  rw [refusal, if_neg hbad]

theorem refusal_outsider {r : String} (hname : normalizedRoomId raw = .ok r)
    (houtside : ¬hub.Member c r) : ChatError.notInRoom r = refusal raw ∧ ¬hub.Admits c raw := by
  obtain ⟨hok, rfl⟩ := roomIdOk_of_normalized hname
  refine ⟨?_, fun hadmits => houtside hadmits.2⟩
  rw [refusal, if_pos hok]

/-- A refusal names its reason, and admits no one. -/
theorem Coherent.refused {e : ChatError} (hcoh : hub.Coherent) (h : hub.Refuses c raw e) :
    e = refusal raw ∧ ¬hub.Admits c raw := by
  cases h with
  | invalid hinvalid => exact refusal_invalid hinvalid
  | outsider hname houtside => exact refusal_outsider hname (hcoh.outsider houtside)

theorem tests_sync : Tests (hub.Admits c raw) (refusal raw) (hub.syncRoomState c raw) := by
  have hmoves := hub.syncRoomState_moves c raw
  generalize hub.syncRoomState c raw = result at hmoves
  cases hmoves with
  | @syncFailed _ _ e hrefused =>
      have hrefusal : e = refusal raw ∧ ¬hub.Admits c raw := by
        rcases hrefused with hinvalid | ⟨r, hname, houtside, rfl⟩
        · exact refusal_invalid hinvalid
        · exact refusal_outsider hname houtside
      obtain ⟨rfl, hout⟩ := hrefusal
      exact ⟨fun hadmits => absurd hadmits hout, fun _ => rfl⟩
  | synced hname hfound hmember =>
      have hadmits := admits_of_found hname hfound hmember
      exact ⟨fun _ => ⟨_, rfl⟩, fun hout => absurd hadmits hout⟩

theorem Coherent.tests_leave (hcoh : hub.Coherent) :
    Tests (hub.Admits c raw) (refusal raw) (hub.leaveRoom c raw).2 := by
  have hmoves := hub.leaveRoom_moves c raw
  generalize hub.leaveRoom c raw = outcome at hmoves
  obtain ⟨hub', result⟩ := outcome
  cases hmoves with
  | leaveFailed hrefused =>
      obtain ⟨rfl, hout⟩ := hcoh.refused hrefused
      exact ⟨fun hadmits => absurd hadmits hout, fun _ => rfl⟩
  | left hname _ hfound hstored =>
      have hadmits := admits_of_found hname hfound (BTreeMap.mem_iff.mpr ⟨_, hstored⟩)
      exact ⟨fun _ => ⟨_, rfl⟩, fun hout => absurd hadmits hout⟩

/-- Sending is the same test once the content is accepted. -/
theorem Coherent.tests_send (hcoh : hub.Coherent) {content : String} (hcontent : ContentOk content)
    (now : Int) :
    Tests (hub.Admits c raw) (refusal raw) (hub.sendRoomMessage c raw content now).2 := by
  have hmoves := hub.sendRoomMessage_moves c raw content now
  generalize hub.sendRoomMessage c raw content now = outcome at hmoves
  obtain ⟨hub', result⟩ := outcome
  cases hmoves with
  | sendFailed hrefused =>
      rcases hrefused with hrefused | ⟨_, hrejected⟩
      · obtain ⟨rfl, hout⟩ := hcoh.refused hrefused
        exact ⟨fun hadmits => absurd hadmits hout, fun _ => rfl⟩
      · rw [normalizedContent_of_ok hcontent] at hrejected
        cases hrejected
  | sent hname _ _ hfound hmember =>
      have hadmits := admits_of_found hname hfound hmember
      exact ⟨fun _ => ⟨_, rfl⟩, fun hout => absurd hadmits hout⟩

/-- The three operations that ask for membership agree on it. -/
structure ChecksAgree (hub : ChatHub) (c raw : String) : Prop where
  sync : (∃ snapshot, hub.syncRoomState c raw = .ok snapshot) ↔ hub.Admits c raw
  leave : (∃ left, (hub.leaveRoom c raw).2 = .ok left) ↔ hub.Admits c raw
  send : ∀ content now, ContentOk content →
    ((∃ sent, (hub.sendRoomMessage c raw content now).2 = .ok sent) ↔ hub.Admits c raw)
  refused : ¬hub.Admits c raw →
    hub.syncRoomState c raw = .error (refusal raw) ∧
    (hub.leaveRoom c raw).2 = .error (refusal raw) ∧
    ∀ content now, ContentOk content →
      (hub.sendRoomMessage c raw content now).2 = .error (refusal raw)

/-- The order in which `send_room_message` reports what is wrong. -/
structure ReportsInOrder (hub : ChatHub) (c raw content : String) (now : Int) : Prop where
  room : ¬RoomIdOk raw → (hub.sendRoomMessage c raw content now).2 = .error .invalidRoomId
  empty : RoomIdOk raw → Text.trim content = "" →
    (hub.sendRoomMessage c raw content now).2 = .error .emptyContent
  long : RoomIdOk raw → Text.trim content ≠ "" → 500 < (Text.trim content).length →
    (hub.sendRoomMessage c raw content now).2 = .error (.contentTooLong 500)
  outsider : RoomIdOk raw → ContentOk content → ¬hub.Member c (Text.trim raw) →
    (hub.sendRoomMessage c raw content now).2 = .error (.notInRoom (Text.trim raw))

theorem Coherent.checksAgree (hcoh : hub.Coherent) : hub.ChecksAgree c raw where
  sync := tests_sync.ok_iff
  leave := hcoh.tests_leave.ok_iff
  send _ now hcontent := (hcoh.tests_send hcontent now).ok_iff
  refused hout := ⟨tests_sync.failed hout, hcoh.tests_leave.failed hout,
    fun _ now hcontent => (hcoh.tests_send hcontent now).failed hout⟩

theorem sendRoomMessage_rejected {content : String} {now : Int} {e : ChatError}
    (hok : RoomIdOk raw) (h : normalizedContent content = .error e) :
    (hub.sendRoomMessage c raw content now).2 = .error e := by
  simp only [sendRoomMessage, normalizedRoomId_of_ok hok, h]

theorem Coherent.reportsInOrder (hcoh : hub.Coherent) {content : String} {now : Int} :
    hub.ReportsInOrder c raw content now where
  room hbad := by
    simp only [sendRoomMessage, normalizedRoomId_of_not_ok hbad]
  empty hok hempty := by
    refine sendRoomMessage_rejected hok ?_
    rw [normalizedContent_eq, if_pos hempty]
  long hok hnonempty hlong := by
    refine sendRoomMessage_rejected hok ?_
    rw [normalizedContent_eq, if_neg hnonempty, if_pos hlong]
  outsider hok hcontent houtside := by
    have hout : ¬hub.Admits c raw := fun hadmits => houtside hadmits.2
    have hfailed := (hcoh.tests_send hcontent now).failed hout
    rwa [refusal, if_pos hok] at hfailed

end ChatHub

/-! ## A refused command -/

/-- A command that is refused dispatches nothing and leaves its session nothing to send. -/
theorem ChatWorld.step_refused {world world' : ChatWorld} {i : Nat} {user : ChatSessionUser}
    {message : ChatCommand} {now : Int} {e : ChatError}
    (hsession : world.sessions[i]? = some ⟨user, .running []⟩)
    (hrefused : (world.runtime.processMessage user message now).2 = .error e)
    (hstep : world.step (.command i message now) = some world') :
    world' = world.failing i user e.payload := by
  have hruntime := (ChatRuntime.processMessage_refused hrefused).1
  simp only [step, hsession] at hstep
  generalize world.runtime.processMessage user message now = outcome at hrefused hruntime hstep
  obtain ⟨runtime, result⟩ := outcome
  obtain rfl : result = .error e := hrefused
  obtain rfl : runtime = world.runtime := hruntime
  exact (Option.some.inj hstep).symm

theorem pending_failing {world : ChatWorld} {i : Nat} {user : ChatSessionUser}
    (hsession : world.sessions[i]? = some ⟨user, .running []⟩) (payload : ChatErrorPayload)
    (j : Nat) :
    (world.failing i user payload).sessions[j]?.map (·.task.pending) =
      world.sessions[j]?.map (·.task.pending) := by
  show (world.sessions.set i _)[j]?.map _ = _
  by_cases hj : i = j
  · subst hj
    obtain ⟨hlength, -⟩ := List.getElem?_eq_some_iff.mp hsession
    rw [List.getElem?_set_self hlength, hsession]
    rfl
  · rw [List.getElem?_set_ne hj]

/-- **Membership checks agree, and failures change nothing**, in every state some calls
lead to. -/
theorem checks_agree (calls : List HubCall) (c raw : String) :
    let hub := (after calls).1
    hub.ChecksAgree c raw ∧
    (∀ content now, hub.ReportsInOrder c raw content now) ∧
    (∀ user e, (hub.joinRoom user raw).2 = .error e → (hub.joinRoom user raw).1 = hub) ∧
    (∀ e, (hub.leaveRoom c raw).2 = .error e → (hub.leaveRoom c raw).1 = hub) ∧
    (∀ content now e, (hub.sendRoomMessage c raw content now).2 = .error e →
      (hub.sendRoomMessage c raw content now).1 = hub) ∧
    ∀ (world world' : ChatWorld) i user message now e,
      world.sessions[i]? = some ⟨user, .running []⟩ →
      (world.runtime.processMessage user message now).2 = .error e →
      world.step (.command i message now) = some world' →
      world'.runtime = world.runtime ∧ world'.queues = world.queues ∧ world'.log = world.log ∧
      ∀ j : Nat, world'.sessions[j]?.map (·.task.pending) =
        world.sessions[j]?.map (·.task.pending) := by
  intro hub
  have hcoh : hub.Coherent := (tracks_after calls).coherent
  refine ⟨hcoh.checksAgree, ?_, ?_, ?_, ?_, ?_⟩
  · intro content now
    exact hcoh.reportsInOrder
  · intro user e h
    exact ChatHub.joinRoom_error h
  · intro e h
    exact ChatHub.leaveRoom_error h
  · intro content now e h
    exact ChatHub.sendRoomMessage_error h
  · intro world world' i user message now e hsession hrefused hstep
    obtain rfl := ChatWorld.step_refused hsession hrefused hstep
    exact ⟨rfl, rfl, rfl, pending_failing hsession _⟩

end Axes.Chat
