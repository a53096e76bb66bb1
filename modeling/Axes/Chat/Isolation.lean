import Axes.Chat.Identity

/-!
# Rooms on their own

The rooms share the table of connections, but no call looks further into it than to who
a connection is. `ChatRoom.respond` is one room on its own: what a call does to it and
answers about it, up to message ids and times. Every hub is such rooms side by side, so
what is called on other rooms cannot be told from one of them.
-/

namespace Axes.Chat

open Axes.Lib

/-! ## Up to message ids and times -/

def ChatRoomMessage.blur (message : ChatRoomMessage) : ChatRoomMessage :=
  { message with messageId := "", sentAt := 0 }

def ChatRoom.blur (room : ChatRoom) : ChatRoom :=
  { room with recentMessages := room.recentMessages.map ChatRoomMessage.blur }

/-- What a reply says of room `r`. -/
def HubReply.about (r : String) : HubReply → HubReply
  | joined result => joined (result.map fun join =>
      { join with recentMessages := join.recentMessages.map ChatRoomMessage.blur })
  | left result => left result
  | sent result => sent (result.map fun sent => { sent with message := sent.message.blur })
  | synced result => synced (result.map fun snapshot =>
      { snapshot with recentMessages := snapshot.recentMessages.map ChatRoomMessage.blur })
  | disconnected changes => disconnected (changes.filter fun change => change.roomId = r)

/-- The call is addressed to room `r`, or is a disconnection. -/
def HubCall.concerns (r : String) : HubCall → Bool
  | joinRoom _ raw | leaveRoom _ raw | sendRoomMessage _ raw _ _ | syncRoomState _ raw =>
      (normalizedRoomId raw).toOption = some r
  | disconnect _ => true

/-- The call at no particular time. -/
def HubCall.untimed : HubCall → HubCall
  | sendRoomMessage connectionId raw content _ => sendRoomMessage connectionId raw content 0
  | joinRoom user raw => joinRoom user raw
  | leaveRoom connectionId raw => leaveRoom connectionId raw
  | syncRoomState connectionId raw => syncRoomState connectionId raw
  | disconnect connectionId => disconnect connectionId

/-! ## One room -/

namespace ChatRoom

def nameOf (users : String → Option ChatSessionUser) (c : String) : ChatUserSummary :=
  ((users c).map (·.summary)).getD ⟨"", ""⟩

/-- What a call that concerns room `r` does to it and answers about it. -/
def respond (users : String → Option ChatSessionUser) (r : String) (room : Option ChatRoom) :
    HubCall → Option ChatRoom × HubReply
  | .joinRoom user _ =>
      let before := room.getD .new
      if user.connectionId ∈ before.members then
        (room, .joined (.ok (before.joinResult r user.connectionId false)))
      else
        let after := before.enter user.connectionId user.summary
        (some after, .joined (.ok (after.joinResult r user.connectionId true)))
  | .leaveRoom c _ =>
      match room.bind fun room => room.members[c]?.map fun member => (room, member) with
      | some (room, member) => ((room.leave c).kept,
          .left (.ok ({ roomId := r, version := room.version + 1 },
            .leaving r member (room.version + 1), (room.leave c).members.keys)))
      | none => (room, .left (.error (.notInRoom r)))
  | .sendRoomMessage c _ content _ =>
      match normalizedContent content with
      | .error e => (room, .sent (.error e))
      | .ok text =>
          match room.filter fun room => c ∈ room.members with
          | some room =>
              let message : ChatRoomMessage := ⟨r, "", (nameOf users c).userId,
                (nameOf users c).userName, text, 0, room.version + 1⟩
              (some (room.post message), .sent (.ok ⟨r, message, room.members.keys⟩))
          | none => (room, .sent (.error (.notInRoom r)))
  | .syncRoomState c _ =>
      match room.filter fun room => c ∈ room.members with
      | some found => (room, .synced (.ok (found.snapshot r)))
      | none => (room, .synced (.error (.notInRoom r)))
  | .disconnect c =>
      match room.filter fun room => c ∈ room.members with
      | some room => ((room.leave c).kept,
          .disconnected [.leaving r (nameOf users c) (room.version + 1)])
      | none => (room, .disconnected [])

/-- A room on its own over some calls that concern it. -/
def respondEach (users : String → Option ChatSessionUser) (r : String) :
    List HubCall → Option ChatRoom → Option ChatRoom × List HubReply
  | [], room => (room, [])
  | call :: calls, room =>
      let (room, reply) := respond users r room call
      let (room, replies) := respondEach users r calls room
      (room, reply :: replies)

variable {users : String → Option ChatSessionUser} {r : String} {room : ChatRoom}

theorem respond_untimed (call : HubCall) (room : Option ChatRoom) :
    respond users r room call.untimed = respond users r room call := by
  cases call with
  | joinRoom | leaveRoom | sendRoomMessage | syncRoomState | disconnect => rfl

/-- The clock is not seen. -/
theorem respondEach_untimed (calls : List HubCall) :
    ∀ room, respondEach users r (calls.map HubCall.untimed) room =
      respondEach users r calls room := by
  induction calls with
  | nil =>
      intro room
      rfl
  | cons call calls ih =>
      intro room
      rw [List.map_cons, respondEach, respondEach, respond_untimed]
      simp only [ih]

theorem blur_post {message : ChatRoomMessage} :
    (room.post message).blur = room.blur.post message.blur := by
  simp [post, blur, lastMessages, List.map_drop]

theorem blur_kept : room.kept.map blur = room.blur.kept := by
  unfold kept
  show Option.map blur (if room.members.isEmpty then none else some room) = _
  by_cases hempty : room.members.isEmpty = true
  · have hblur : room.blur.members.isEmpty = true := hempty
    rw [if_pos hempty, if_pos hblur]
    rfl
  · have hblur : ¬room.blur.members.isEmpty = true := hempty
    rw [if_neg hempty, if_neg hblur]
    rfl

theorem filter_of_mem {c : String} (h : c ∈ room.members) :
    ((some room).filter fun room => c ∈ room.members) = some room := by
  rw [Option.filter_some, if_pos (decide_eq_true h)]

end ChatRoom

/-! ## The hub is its rooms -/

namespace ChatHub

variable {hub hub' : ChatHub} {call : HubCall} {reply : HubReply} {c r raw : String}
  {users : String → Option ChatSessionUser} {room : ChatRoom}

/-- A room of the hub, up to message ids and times. -/
def blurred (hub : ChatHub) (r : String) : Option ChatRoom := (hub.rooms r).map ChatRoom.blur

theorem blurred_of_found (h : hub.rooms r = some room) : hub.blurred r = some room.blur := by
  rw [blurred, h, Option.map_some]

/-- The room on its own has no such member either. -/
theorem filter_blurred (h : ¬hub.Member c r) :
    ((hub.blurred r).filter fun room => c ∈ room.members) = none := by
  cases hfound : hub.rooms r with
  | none => rw [blurred, hfound, Option.map_none, Option.filter_none]
  | some room =>
      have hout : ¬c ∈ room.blur.members := (member_of_found hfound).not.mp h
      rw [blurred_of_found hfound, Option.filter_some, if_neg (by simpa using hout)]

/-- The room id a call is addressed to. -/
def rawRoomId? : HubCall → Option String
  | .joinRoom _ raw | .leaveRoom _ raw | .sendRoomMessage _ raw _ _ | .syncRoomState _ raw =>
      some raw
  | .disconnect _ => none

/-- A call that concerns the room is addressed to no other. -/
theorem name_of_concerns (h : call.concerns r = true) :
    ∀ raw ∈ rawRoomId? call, normalizedRoomId raw = .ok r := by
  have hname : ∀ {raw}, (normalizedRoomId raw).toOption = some r →
      normalizedRoomId raw = .ok r := by
    intro raw hroom
    cases hname : normalizedRoomId raw with
    | error e =>
        rw [hname] at hroom
        cases hroom
    | ok r' =>
        rw [hname] at hroom
        rw [Option.some.inj hroom]
  intro raw hraw
  cases call with
  | joinRoom | leaveRoom | sendRoomMessage | syncRoomState =>
      obtain rfl := Option.mem_some.mp hraw
      rw [HubCall.concerns] at h
      exact hname (of_decide_eq_true h)
  | disconnect => cases hraw

theorem Coherent.refuses (hcoh : hub.Coherent) {e : ChatError} (h : hub.Refuses c raw e)
    (hname : normalizedRoomId raw = .ok r) : e = .notInRoom r ∧ ¬hub.Member c r := by
  cases h with
  | invalid hinvalid =>
      rw [hname] at hinvalid
      cases hinvalid
  | outsider hname' houtside =>
      rw [hname] at hname'
      obtain rfl := Except.ok.inj hname'
      exact ⟨rfl, hcoh.outsider houtside⟩

theorem Named.nameOf (h : hub.Named users) {connection : ChatConnection}
    (hknown : hub.connections c = some connection) :
    ChatRoom.nameOf users c = connection.user.summary := by
  rw [ChatRoom.nameOf, h.connection c connection hknown, Option.map_some, Option.getD_some]

/-- The one change of a disconnection that is about room `r`. -/
theorem filter_changes (hub : ChatHub) (r : String) {rooms : List String} (hrooms : rooms.Nodup)
    (member : ChatUserSummary) :
    ((rooms.filterMap fun r' => (hub.rooms r').map fun room =>
        ChatPresenceChange.leaving r' member (room.version + 1)).filter
      fun change => change.roomId = r) =
    if r ∈ rooms then
      ((hub.rooms r).map fun room => .leaving r member (room.version + 1)).toList
    else [] := by
  induction rooms with
  | nil => rfl
  | cons r' rooms ih =>
      obtain ⟨hr', hrooms⟩ := List.nodup_cons.mp hrooms
      have hrest := ih hrooms
      by_cases hr : r' = r
      · subst hr
        rw [if_neg hr'] at hrest
        rw [if_pos List.mem_cons_self]
        cases hfound : hub.rooms r' with
        | none =>
            rw [List.filterMap_cons_none (by rw [hfound, Option.map_none]), hrest]
            rfl
        | some room =>
            rw [List.filterMap_cons_some (by rw [hfound, Option.map_some]),
              List.filter_cons_of_pos (by simp [ChatPresenceChange.leaving]), hrest]
            rfl
      · have hmem : r ∈ r' :: rooms ↔ r ∈ rooms := by
          simp [Ne.symm hr]
        simp only [hmem, ← hrest]
        cases hfound : hub.rooms r' with
        | none => rw [List.filterMap_cons_none (by rw [hfound, Option.map_none])]
        | some room =>
            rw [List.filterMap_cons_some (by rw [hfound, Option.map_some]),
              List.filter_cons_of_neg (by simp [ChatPresenceChange.leaving, hr])]

theorem blurred_getD (hub : ChatHub) (r : String) :
    (hub.blurred r).getD .new = (hub.room r).blur := by
  rw [blurred, room]
  cases hub.rooms r with
  | none => rfl
  | some room => rfl

/-! Each operation does to its room what the room on its own does. -/

theorem Moves.respond_join {user : ChatSessionUser}
    (h : hub.Moves (.joinRoom user raw) reply hub') (hname : normalizedRoomId raw = .ok r) :
    (hub'.blurred r, reply.about r) =
      ChatRoom.respond users r (hub.blurred r) (.joinRoom user raw) := by
  cases h with
  | joinFailed hinvalid =>
      rw [hname] at hinvalid
      cases hinvalid
  | @rejoined _ _ r₀ room hname₀ hfound hmember =>
      rw [hname] at hname₀
      obtain rfl := Except.ok.inj hname₀
      have hin : user.connectionId ∈ room.blur.members := hmember
      show (hub.blurred r, _) = _
      rw [ChatRoom.respond]
      simp only [blurred_of_found hfound, Option.getD_some, if_pos hin]
      rfl
  | @joined _ _ r₀ room hname₀ hfresh hentered =>
      rw [hname] at hname₀
      obtain rfl := Except.ok.inj hname₀
      have hout : user.connectionId ∉ ((hub.blurred r).getD .new).members := by
        rw [blurred_getD]
        exact hfresh
      rw [blurred, rooms_setConnection, rooms_setRoom_self, ChatRoom.respond]
      simp only [if_neg hout]
      rw [blurred_getD, hentered]
      rfl

theorem Moves.respond_leave (h : hub.Moves (.leaveRoom c raw) reply hub') (hcoh : hub.Coherent)
    (hname : normalizedRoomId raw = .ok r) :
    (hub'.blurred r, reply.about r) =
      ChatRoom.respond users r (hub.blurred r) (.leaveRoom c raw) := by
  cases h with
  | @leaveFailed _ _ e hrefused =>
      obtain ⟨rfl, hout⟩ := hcoh.refuses hrefused hname
      rw [ChatRoom.respond]
      cases hfound : hub.rooms r with
      | none =>
          rw [blurred, hfound]
          rfl
      | some room =>
          have hnone : room.blur.members[c]? = none :=
            Std.ExtTreeMap.getElem?_eq_none ((member_of_found hfound).not.mp hout)
          rw [blurred_of_found hfound, Option.bind_some, hnone]
          rfl
  | @left _ _ r₀ connection room member hname₀ hknown hfound hstored =>
      rw [hname] at hname₀
      obtain rfl := Except.ok.inj hname₀
      have hin : room.blur.members[c]? = some member := hstored
      rw [blurred, rooms_setConnection, rooms_setRoom_self, ChatRoom.respond,
        blurred_of_found hfound, Option.bind_some, hin, ChatRoom.blur_kept]
      rfl

theorem Moves.respond_send {content : String} {now : Int}
    (h : hub.Moves (.sendRoomMessage c raw content now) reply hub')
    (hreply : (hub.call (.sendRoomMessage c raw content now)).2 = reply) (hcoh : hub.Coherent)
    (hnamed : hub.Named users) (hname : normalizedRoomId raw = .ok r) :
    (hub'.blurred r, reply.about r) =
      ChatRoom.respond users r (hub.blurred r) (.sendRoomMessage c raw content now) := by
  cases h with
  | @sendFailed _ _ _ _ e hrefused =>
      have hsent : (hub.sendRoomMessage c raw content now).2 = .error e := by
        simpa only [ChatHub.call, HubReply.sent.injEq] using hreply
      rw [ChatRoom.respond]
      -- The content is looked at before the membership.
      cases hcontent : normalizedContent content with
      | error e' =>
          rw [sendRoomMessage, hname] at hsent
          simp only [hcontent] at hsent
          rw [Except.error.inj hsent]
          rfl
      | ok text =>
          rcases hrefused with hrefused | ⟨_, hrejected⟩
          · obtain ⟨rfl, hout⟩ := hcoh.refuses hrefused hname
            simp only [filter_blurred hout]
            rfl
          · rw [hcontent] at hrejected
            cases hrejected
  | @sent _ _ _ _ r₀ text connection room message hname₀ haccepted hknown hfound hmember
      hwritten =>
      rw [hname] at hname₀
      obtain rfl := Except.ok.inj hname₀
      have hin : c ∈ room.blur.members := hmember
      show (((hub.setRoom r (some (room.post message))).rooms r).map ChatRoom.blur, _) = _
      rw [rooms_setRoom_self, ChatRoom.respond, haccepted, blurred_of_found hfound]
      simp only [ChatRoom.filter_of_mem hin, hnamed.nameOf hknown, Option.map_some,
        ChatRoom.blur_post, hwritten]
      rfl

theorem Moves.respond_sync (h : hub.Moves (.syncRoomState c raw) reply hub')
    (hname : normalizedRoomId raw = .ok r) :
    (hub'.blurred r, reply.about r) =
      ChatRoom.respond users r (hub.blurred r) (.syncRoomState c raw) := by
  cases h with
  | @syncFailed _ _ e hrefused =>
      rcases hrefused with hinvalid | ⟨r₀, hname₀, hout, rfl⟩
      · rw [hname] at hinvalid
        cases hinvalid
      · rw [hname] at hname₀
        obtain rfl := Except.ok.inj hname₀
        rw [ChatRoom.respond]
        simp only [filter_blurred hout]
        rfl
  | @synced _ _ r₀ room hname₀ hfound hmember =>
      rw [hname] at hname₀
      obtain rfl := Except.ok.inj hname₀
      have hin : c ∈ room.blur.members := hmember
      rw [ChatRoom.respond, blurred_of_found hfound]
      simp only [ChatRoom.filter_of_mem hin]
      rfl

theorem Moves.respond_disconnect (h : hub.Moves (.disconnect c) reply hub') (hcoh : hub.Coherent)
    (hnamed : hub.Named users) :
    (hub'.blurred r, reply.about r) =
      ChatRoom.respond users r (hub.blurred r) (.disconnect c) := by
  cases h with
  | stranger hunknown =>
      rw [ChatRoom.respond]
      simp only [filter_blurred (hcoh.outsider (.inl hunknown))]
      rfl
  | @disconnected _ connection hknown =>
      have hchanges := filter_changes hub r (BTreeSet.nodup_toList connection.joinedRooms)
        connection.user.summary
      have hjoined : hub.joinedRooms c = connection.joinedRooms := by
        rw [joinedRooms, hknown, Option.map_some, Option.getD_some]
      rw [HubReply.about, hchanges, ChatRoom.respond, blurred, drop]
      simp only [hjoined, Std.ExtTreeSet.mem_toList]
      by_cases hr : r ∈ connection.joinedRooms
      · obtain ⟨room, hfound, hin⟩ := (hcoh.index c r).mpr ⟨connection, hknown, hr⟩
        have hin : c ∈ room.blur.members := hin
        rw [if_pos hr, if_pos hr, hfound, blurred_of_found hfound]
        simp only [Option.bind_some, ChatRoom.filter_of_mem hin, hnamed.nameOf hknown]
        rw [ChatRoom.blur_kept]
        rfl
      · have hout : ¬hub.Member c r := by
          rw [hcoh.index, ChatHub.joined_iff, hjoined]
          exact hr
        rw [if_neg hr, if_neg hr]
        simp only [filter_blurred hout]
        rfl

/-- **A call that concerns a room** does to it what the room on its own does. -/
theorem Moves.respond (h : hub.Moves call reply hub') (hreply : (hub.call call).2 = reply)
    (hcoh : hub.Coherent) (hnamed : hub.Named users) (hconcerns : call.concerns r = true) :
    (hub'.blurred r, reply.about r) = ChatRoom.respond users r (hub.blurred r) call := by
  have hname := name_of_concerns hconcerns
  cases call with
  | joinRoom user raw => exact h.respond_join (hname raw rfl)
  | leaveRoom c raw => exact h.respond_leave hcoh (hname raw rfl)
  | sendRoomMessage c raw content now =>
      exact h.respond_send hreply hcoh hnamed (hname raw rfl)
  | syncRoomState c raw => exact h.respond_sync (hname raw rfl)
  | disconnect c => exact h.respond_disconnect hcoh hnamed

/-- A call on another room leaves this one as it is. -/
theorem Moves.unconcerned (h : hub.Moves call reply hub') (hcall : call.concerns r = false) :
    hub'.rooms r = hub.rooms r := by
  have hother : ∀ {raw r'}, normalizedRoomId raw = .ok r' →
      decide ((normalizedRoomId raw).toOption = some r) = false → r ≠ r' := by
    rintro raw r' hname hcall rfl
    rw [hname] at hcall
    exact of_decide_eq_false hcall rfl
  cases h with
  | joinFailed | rejoined | leaveFailed | sendFailed | syncFailed | synced | stranger => rfl
  | joined hname | left hname =>
      rw [rooms_setConnection, rooms_setRoom_of_ne (hother hname hcall)]
  | sent hname => exact rooms_setRoom_of_ne (hother hname hcall)
  | disconnected => cases hcall

end ChatHub

/-! ## Two runs -/

/-- Make some calls, keeping what each was answered. -/
def replay : List HubCall → ChatHub → ChatHub × List (HubCall × HubReply)
  | [], hub => (hub, [])
  | call :: calls, hub =>
      let (hub, reply) := hub.call call
      let (hub, replies) := replay calls hub
      (hub, (call, reply) :: replies)

/-- **A hub is its rooms**: one room of a run is the room on its own over the calls that
concern it. -/
theorem replay_respond {users : String → Option ChatSessionUser} {r : String} :
    ∀ {calls : List HubCall} {hub : ChatHub}, hub.Coherent → hub.Named users →
    (∀ user raw, .joinRoom user raw ∈ calls → users user.connectionId = some user) →
    ((replay calls hub).1.blurred r,
      ((replay calls hub).2.filter fun answered => answered.1.concerns r).map
        fun answered => answered.2.about r) =
    ChatRoom.respondEach users r (calls.filter (·.concerns r)) (hub.blurred r) := by
  intro calls
  induction calls with
  | nil =>
      intro hub _ _ _
      rfl
  | cons call calls ih =>
      intro hub hcoh hnamed husers
      have hmoves := hub.call_moves call
      have hcoh' := hcoh.move hmoves
      have hnamed' : (hub.call call).1.Named users := by
        refine hnamed.move hmoves ?_
        rintro user raw rfl
        exact husers user raw List.mem_cons_self
      have hrest := ih hcoh' hnamed' fun user raw hjoin =>
        husers user raw (List.mem_cons_of_mem _ hjoin)
      by_cases hconcerns : call.concerns r = true
      · have hcall := hmoves.respond rfl hcoh hnamed hconcerns
        simp only [replay, List.filter_cons, hconcerns, if_true, List.map_cons,
          ChatRoom.respondEach, ← hcall, ← hrest]
      · have hsame : (hub.call call).1.blurred r = hub.blurred r := by
          rw [ChatHub.blurred, hmoves.unconcerned (Bool.eq_false_of_not_eq_true hconcerns)]
          rfl
        simp only [replay, List.filter_cons, hconcerns, if_false, ← hsame, hrest,
          Bool.false_eq_true]

theorem calls_replay (calls : List HubCall) :
    ∀ hub, (replay calls hub).2.map (·.1) = calls := by
  induction calls with
  | nil =>
      intro hub
      rfl
  | cons call calls ih =>
      intro hub
      simp only [replay, List.map_cons, ih]

theorem concerns_untimed (r : String) (call : HubCall) :
    call.untimed.concerns r = call.concerns r := by
  cases call with
  | joinRoom | leaveRoom | sendRoomMessage | syncRoomState | disconnect => rfl

theorem untimed_eq_joinRoom {call : HubCall} {user : ChatSessionUser} {raw : String}
    (h : call.untimed = .joinRoom user raw) : call = .joinRoom user raw := by
  cases call with
  | joinRoom | leaveRoom | syncRoomState | disconnect => exact h
  | sendRoomMessage => cases h

/-- A call of the second run is one of the first, but for its time. -/
theorem exists_untimed {r : String} {calls calls' : List HubCall}
    (hcalls : calls'.map HubCall.untimed = (calls.filter (·.concerns r)).map HubCall.untimed)
    {call' : HubCall} (hcall' : call' ∈ calls') :
    ∃ call ∈ calls, call.untimed = call'.untimed ∧ call.concerns r = true := by
  have hmem : call'.untimed ∈ calls'.map HubCall.untimed := List.mem_map_of_mem hcall'
  rw [hcalls] at hmem
  obtain ⟨call, hcall, hsame⟩ := List.mem_map.mp hmem
  obtain ⟨hcall, hconcerns⟩ := List.mem_filter.mp hcall
  exact ⟨call, hcall, hsame, hconcerns⟩

/-- **Rooms are isolated**: without the calls on other rooms a room ends the same and
answers the same, whatever the clocks of the two runs read. -/
theorem rooms_isolated (r : String) (calls calls' : List HubCall) (hone : OneUserEach calls)
    (hcalls : calls'.map HubCall.untimed =
      (calls.filter (·.concerns r)).map HubCall.untimed) :
    ((replay calls .default).1.rooms r).map ChatRoom.blur =
      ((replay calls' .default).1.rooms r).map ChatRoom.blur ∧
    ((replay calls .default).2.filter fun answered => answered.1.concerns r).map
        (fun answered => answered.2.about r) =
      (replay calls' .default).2.map fun answered => answered.2.about r := by
  have husers : ∀ user raw, .joinRoom user raw ∈ calls →
      knownAs calls user.connectionId = some user := fun _ _ hjoin => hone.knownAs hjoin
  have husers' : ∀ user raw, .joinRoom user raw ∈ calls' →
      knownAs calls user.connectionId = some user := by
    intro user raw hjoin
    obtain ⟨call, hcall, hsame, _⟩ := exists_untimed hcalls hjoin
    obtain rfl := untimed_eq_joinRoom hsame
    exact hone.knownAs hcall
  -- Everything in the second run concerns the room.
  have hconcerns : ∀ call' ∈ calls', call'.concerns r = true := by
    intro call' hcall'
    obtain ⟨call, _, hsame, hconcerns⟩ := exists_untimed hcalls hcall'
    rw [← concerns_untimed, ← hsame, concerns_untimed, hconcerns]
  have hanswered : ((replay calls' .default).2.filter fun answered => answered.1.concerns r) =
      (replay calls' .default).2 := by
    refine List.filter_eq_self.mpr ?_
    intro answered hmem
    refine hconcerns answered.1 ?_
    rw [← calls_replay calls' .default]
    exact List.mem_map_of_mem hmem
  have hfirst := replay_respond (r := r) ChatHub.coherent_default ChatHub.named_default husers
  have hsecond := replay_respond (r := r) ChatHub.coherent_default ChatHub.named_default husers'
  rw [List.filter_eq_self.mpr hconcerns, hanswered, ← ChatRoom.respondEach_untimed, hcalls,
    ChatRoom.respondEach_untimed, ← hfirst, Prod.mk.injEq] at hsecond
  exact ⟨hsecond.1.symm, hsecond.2.symm⟩

/-- Ann and Bob share a room; Ann's visit to another one is left out. -/
theorem rooms_isolated_lobby :
    let calls : List HubCall := [.joinRoom ⟨"chat-1", "u1", "ann"⟩ "lobby",
      .joinRoom ⟨"chat-1", "u1", "ann"⟩ "den", .joinRoom ⟨"chat-2", "u2", "bob"⟩ " lobby",
      .sendRoomMessage "chat-1" "den" "psst" 4, .sendRoomMessage "chat-1" "lobby" "hi" 5,
      .leaveRoom "chat-1" "den", .disconnect "chat-1"]
    let calls' : List HubCall := [.joinRoom ⟨"chat-1", "u1", "ann"⟩ "lobby",
      .joinRoom ⟨"chat-2", "u2", "bob"⟩ " lobby", .sendRoomMessage "chat-1" "lobby" "hi" 9,
      .disconnect "chat-1"]
    ((replay calls .default).1.rooms "lobby").map ChatRoom.blur =
      ((replay calls' .default).1.rooms "lobby").map ChatRoom.blur := by
  intro calls calls'
  have hone : OneUserEach calls := by
    intro user raw user' raw' h h'
    simp only [calls, List.mem_cons, HubCall.joinRoom.injEq, List.not_mem_nil, or_false,
      reduceCtorEq] at h h'
    rcases h with ⟨rfl, -⟩ | ⟨rfl, -⟩ | ⟨rfl, -⟩ <;>
      rcases h' with ⟨rfl, -⟩ | ⟨rfl, -⟩ | ⟨rfl, -⟩ <;> decide
  have hkept : calls.filter (·.concerns "lobby") = [.joinRoom ⟨"chat-1", "u1", "ann"⟩ "lobby",
      .joinRoom ⟨"chat-2", "u2", "bob"⟩ " lobby", .sendRoomMessage "chat-1" "lobby" "hi" 5,
      .disconnect "chat-1"] := by rfl
  refine (rooms_isolated "lobby" calls calls' hone ?_).1
  rw [hkept]
  rfl

end Axes.Chat
