import Axes.Lib.Run
import Axes.Stat.HotScores

/-!
# The hot leaderboard over time (`incr_hot_score`)

A request is a `ZINCRBY` and then an `EXPIRE`. The commands of requests that are handled at the
same time mix, a request may break off in between, and time passes. There is one key for all
items, so each `EXPIRE` sets the time for all of them: the board keeps every score if and only
if that time never runs out before the next `EXPIRE` (`hot_kept_iff`). Deltas are added up in
the order of their commands, by whatever addition there is, as that of doubles.
-/

namespace Axes.Stat

open Axes.Lib Axes.Orders

structure HotWorld (α : Type) [LinearOrder α] where
  keys : SortedSet.Keys String α
  /-- What the requests between their two commands are going to reply. -/
  pending : List (IncrHotResponse α)
  replies : List (Except AppError (IncrHotResponse α))

inductive HotAction (α : Type)
  | zincrby (itemId : Int64) (payload : IncrHotRequest α)
  | expire (i : Nat)
  /-- The `EXPIRE` does not get through. -/
  | broken (i : Nat)
  | wait (seconds : Nat)

namespace HotWorld

variable {α : Type} [LinearOrder α]

section System

variable (refuses : Nat → Bool)

/-- `EXPIRE`; a server may also refuse a time to live whose end is beyond its clock. -/
def expire (ttlSeconds : Nat) (keys : SortedSet.Keys String α) :
    Except Redis.Error Bool × SortedSet.Keys String α :=
  if refuses ttlSeconds then (.error .notInteger, keys)
  else SortedSet.expire redisHotKey ttlSeconds keys

def step [Add α] (w : HotWorld α) : HotAction α → Option (HotWorld α)
  | .zincrby itemId payload =>
      let (score, keys) := SortedSet.zincrby redisHotKey payload.delta (toString itemId) w.keys
      some { w with
        keys := keys
        pending := w.pending ++ [⟨itemId, payload.delta, score, payload.ttlSeconds⟩] }
  | .expire i => do
      let response ← w.pending[i]?
      let (reply, keys) := expire refuses response.ttlSeconds w.keys
      let reply := match reply with
        | .ok _ => .ok response
        | .error _ => .error redisCommandError
      some ⟨keys, w.pending.eraseIdx i, w.replies ++ [reply]⟩
  | .broken i => do
      let _ ← w.pending[i]?
      some ⟨w.keys, w.pending.eraseIdx i, w.replies ++ [.error redisCommandError]⟩
  | .wait seconds => some { w with keys := SortedSet.elapse seconds w.keys }

def system [Add α] : TSys (HotWorld α) (HotAction α) where
  init w := w.keys redisHotKey = none ∧ w.pending = []
  step := step refuses

/-! ## What a run has asked for -/

/-- What a step adds, and to which item. -/
def incrementOf : HotAction α → Option (Int64 × α)
  | .zincrby itemId payload => some (itemId, payload.delta)
  | _ => none

def increments (ts : List (Transition (HotWorld α) (HotAction α))) : List (Int64 × α) :=
  ts.filterMap fun tr => incrementOf tr.action

/-- A time to live that `EXPIRE` takes. -/
def accepts (ttlSeconds : Nat) : Bool := decide (ttlSeconds < 2 ^ 63) && !refuses ttlSeconds

/-- The time to live that a step sets. -/
def timeSet (tr : Transition (HotWorld α) (HotAction α)) : Option Nat :=
  match tr.action with
  | .expire i => (tr.pre.pending[i]?.map (·.ttlSeconds)).filter (accepts refuses)
  | _ => none

def waited : HotAction α → Nat
  | .wait seconds => seconds
  | _ => 0

/-- The time that is left of what the last `EXPIRE` has set. -/
def timeLeft (ts : List (Transition (HotWorld α) (HotAction α))) : Option Int :=
  ts.foldl (fun left tr => ((timeSet refuses tr).map Nat.cast).or
    (left.map (· - (waited tr.action : Int)))) none

theorem increments_concat (ts : List (Transition (HotWorld α) (HotAction α)))
    (tr : Transition (HotWorld α) (HotAction α)) :
    increments (ts ++ [tr]) = increments ts ++ (incrementOf tr.action).toList := by
  rw [increments, List.filterMap_append]
  cases h : incrementOf tr.action <;> simp [h, increments]

theorem timeLeft_concat (ts : List (Transition (HotWorld α) (HotAction α)))
    (tr : Transition (HotWorld α) (HotAction α)) :
    timeLeft refuses (ts ++ [tr]) = ((timeSet refuses tr).map Nat.cast).or
      ((timeLeft refuses ts).map (· - (waited tr.action : Int))) := by
  rw [timeLeft, List.foldl_append]
  rfl

end System

/-- A request that is handled without another in between is `incrHotScore`. -/
theorem step_incrHotScore [Add α] {w w₁ w₂ : HotWorld α} {itemId : Int64}
    {payload : IncrHotRequest α} (hpending : w.pending = [])
    (hzincrby : w.step (fun _ => false) (.zincrby itemId payload) = some w₁)
    (hexpire : w₁.step (fun _ => false) (.expire 0) = some w₂) :
    w₂.keys = (incrHotScore .success itemId payload w.keys).2 ∧
      w₂.replies = w.replies ++ [(incrHotScore .success itemId payload w.keys).1] := by
  simp only [step, hpending, List.nil_append, Option.some.injEq] at hzincrby
  subst hzincrby
  simp only [step, List.getElem?_cons_zero, Option.bind_eq_bind, Option.bind_some, expire,
    Bool.false_eq_true, if_false, Option.some.injEq] at hexpire
  subst hexpire
  simp only [incrHotScore, HotOutcome.success, Bool.true_eq_false, if_false]
  cases SortedSet.expire redisHotKey (payload.ttlSeconds : Int)
      (SortedSet.zincrby redisHotKey payload.delta (toString itemId) w.keys).2 with
  | mk reply keys => cases reply <;> exact ⟨rfl, rfl⟩

section Kept

variable [Add α]

/-- The deltas of an item, added up one after the other. -/
def askedFor (itemId : Int64) (increments : List (Int64 × α)) : Option α :=
  match (increments.filter (·.1 = itemId)).map (·.2) with
  | [] => none
  | delta :: deltas => some (deltas.foldl (· + ·) delta)

/-- The board has every score. -/
def Complete (ts : List (Transition (HotWorld α) (HotAction α))) (w : HotWorld α) : Prop :=
  ∀ itemId, scoreOf itemId w.keys = askedFor itemId (increments ts)

/-- The time that is left has not run out. -/
def Live (refuses : Nat → Bool) (ts : List (Transition (HotWorld α) (HotAction α))) : Prop :=
  ∀ left ∈ timeLeft refuses ts, 0 < left

variable {refuses : Nat → Bool} {ts : List (Transition (HotWorld α) (HotAction α))}
  {w w' : HotWorld α} {a : HotAction α}

omit [LinearOrder α] in
theorem askedFor_concat (incs : List (Int64 × α)) (itemId other : Int64) (delta : α) :
    askedFor other (incs ++ [(itemId, delta)]) =
      if other = itemId then some ((askedFor itemId incs).elim delta (· + delta))
      else askedFor other incs := by
  unfold askedFor
  rw [List.filter_append, List.map_append]
  by_cases hother : other = itemId
  · subst hother
    rw [if_pos rfl]
    cases (incs.filter (·.1 = other)).map (·.2) with
    | nil => simp
    | cons first deltas => simp
  · have hne : ¬itemId = other := fun h => hother h.symm
    simp [hother, hne]

omit [LinearOrder α] in
theorem askedFor_ne_none {incs : List (Int64 × α)} {itemId : Int64} {delta : α}
    (h : (itemId, delta) ∈ incs) : askedFor itemId incs ≠ none := by
  have hmem : delta ∈ (incs.filter (·.1 = itemId)).map (·.2) :=
    List.mem_map.mpr ⟨_, List.mem_filter.mpr ⟨h, decide_eq_true rfl⟩, rfl⟩
  obtain ⟨first, deltas, hdeltas⟩ := List.exists_cons_of_ne_nil (List.ne_nil_of_mem hmem)
  rw [askedFor, hdeltas]
  exact Option.some_ne_none _

omit [Add α] in
theorem scoreOf_put {keys keys' : SortedSet.Keys String α} {itemId : Int64} {score : α}
    {ttl : Option Int}
    (h : keys' redisHotKey =
      some ⟨(SortedSet.atKey keys redisHotKey).put (toString itemId) score, ttl⟩)
    (other : Int64) :
    scoreOf other keys' = if other = itemId then some score else scoreOf other keys := by
  rw [scoreOf, SortedSet.atKey, h]
  refine SortedSet.score?_put.trans ?_
  by_cases hother : other = itemId
  · rw [if_pos hother, if_pos (by rw [hother])]
  · rw [if_neg hother, if_neg fun hsame => hother (toString_inj hsame)]
    rfl

omit [Add α] in
/-- The same set, with another time. -/
theorem scoreOf_ttl {keys keys' : SortedSet.Keys String α} {ttl : Option Int}
    (h : keys' redisHotKey = (keys redisHotKey).map fun held => { held with ttl := ttl })
    (itemId : Int64) : scoreOf itemId keys' = scoreOf itemId keys := by
  rw [scoreOf, SortedSet.atKey, h, scoreOf, SortedSet.atKey, Option.map_map]
  rfl

/-- A board that has every score, and the time its key has left. -/
structure Kept (refuses : Nat → Bool) (ts : List (Transition (HotWorld α) (HotAction α)))
    (w : HotWorld α) : Prop where
  complete : Complete ts w
  absent : w.keys redisHotKey = none ↔ increments ts = []
  left : (w.keys redisHotKey).bind SortedSet.Held.ttl = timeLeft refuses ts
  live : Live refuses ts
  pending : w.pending ≠ [] → increments ts ≠ []

theorem Kept.zincrby (h : Kept refuses ts w) {itemId : Int64} {payload : IncrHotRequest α}
    (hstep : w.step refuses (.zincrby itemId payload) = some w') :
    Kept refuses (ts ++ [⟨w, .zincrby itemId payload, w'⟩]) w' := by
  have hincrements : increments (ts ++ [⟨w, .zincrby itemId payload, w'⟩]) =
      increments ts ++ [(itemId, payload.delta)] := increments_concat _ _
  have hleft : timeLeft refuses (ts ++ [⟨w, .zincrby itemId payload, w'⟩]) =
      timeLeft refuses ts := by
    rw [timeLeft_concat]
    show (timeLeft refuses ts).map (· - 0) = _
    simp
  have hkey : w'.keys redisHotKey = some ⟨(SortedSet.atKey w.keys redisHotKey).put
      (toString itemId) (incremented itemId payload.delta w.keys),
      (w.keys redisHotKey).bind SortedSet.Held.ttl⟩ := by
    cases hstep
    exact Function.update_self redisHotKey _ w.keys
  refine ⟨?_, ?_, ?_, ?_, ?_⟩
  · intro other
    have hadded : incremented itemId payload.delta w.keys =
        (askedFor itemId (increments ts)).elim payload.delta (· + payload.delta) := by
      rw [incremented, h.complete itemId]
      cases askedFor itemId (increments ts) <;> rfl
    rw [scoreOf_put hkey, hincrements, askedFor_concat, hadded, h.complete other]
  · rw [hkey, hincrements]
    simp
  · rw [hkey, hleft]
    exact h.left
  · rw [Live, hleft]
    exact h.live
  · intro _
    rw [hincrements]
    simp

/-- A step that adds nothing and keeps the set, with the time that is left. -/
theorem Kept.retimed (h : Kept refuses ts w) (hnone : incrementOf a = none)
    (hkey : w'.keys redisHotKey = (w.keys redisHotKey).map fun held =>
      { held with ttl := timeLeft refuses (ts ++ [⟨w, a, w'⟩]) })
    (habsent : w.keys redisHotKey = none → timeLeft refuses (ts ++ [⟨w, a, w'⟩]) = none)
    (hlive : Live refuses (ts ++ [⟨w, a, w'⟩]))
    (hpending : w'.pending ≠ [] → w.pending ≠ []) :
    Kept refuses (ts ++ [⟨w, a, w'⟩]) w' := by
  have hincrements : increments (ts ++ [⟨w, a, w'⟩]) = increments ts := by
    rw [increments_concat, hnone]
    exact List.append_nil _
  refine ⟨?_, ?_, ?_, hlive, ?_⟩
  · intro itemId
    rw [scoreOf_ttl hkey, hincrements]
    exact h.complete itemId
  · rw [hkey, hincrements, Option.map_eq_none_iff]
    exact h.absent
  · rw [hkey]
    cases hheld : w.keys redisHotKey with
    | none => exact (habsent hheld).symm
    | some held => rfl
  · intro hsome
    rw [hincrements]
    exact h.pending (hpending hsome)

/-- A step that does nothing to the key. -/
theorem Kept.idle (h : Kept refuses ts w) (hnone : incrementOf a = none)
    (hset : timeSet refuses ⟨w, a, w'⟩ = none) (hwaited : waited a = 0)
    (hkey : w'.keys redisHotKey = w.keys redisHotKey)
    (hpending : w'.pending ≠ [] → w.pending ≠ []) :
    Kept refuses (ts ++ [⟨w, a, w'⟩]) w' := by
  have hleft : timeLeft refuses (ts ++ [⟨w, a, w'⟩]) = timeLeft refuses ts := by
    rw [timeLeft_concat, hset, hwaited]
    simp
  refine h.retimed hnone ?_ ?_ ?_ hpending
  · rw [hkey, hleft, ← h.left]
    cases w.keys redisHotKey <;> rfl
  · intro habsent
    rw [hleft, ← h.left, habsent]
    rfl
  · rw [Live, hleft]
    exact h.live

/-- What a step that lets the time run out leaves. -/
def Lapsed (ts : List (Transition (HotWorld α) (HotAction α))) (w : HotWorld α) : Prop :=
  w.keys redisHotKey = none ∧ increments ts ≠ []

theorem Lapsed.not_complete (h : Lapsed ts w) : ¬Complete ts w := by
  intro hcomplete
  obtain ⟨hgone, hasked⟩ := h
  obtain ⟨⟨itemId, delta⟩, hmem⟩ := List.exists_mem_of_ne_nil _ hasked
  have hscore := hcomplete itemId
  rw [scoreOf, SortedSet.atKey, hgone] at hscore
  exact askedFor_ne_none hmem hscore.symm

theorem Kept.wait (h : Kept refuses ts w) {seconds : Nat}
    (hstep : w.step refuses (.wait seconds) = some w') :
    Kept refuses (ts ++ [⟨w, .wait seconds, w'⟩]) w' ∨
      ¬Live refuses (ts ++ [⟨w, .wait seconds, w'⟩]) ∧
        Lapsed (ts ++ [⟨w, .wait seconds, w'⟩]) w' := by
  have hleft : timeLeft refuses (ts ++ [⟨w, .wait seconds, w'⟩]) =
      ((w.keys redisHotKey).bind SortedSet.Held.ttl).map (· - (seconds : Int)) := by
    rw [h.left]
    exact timeLeft_concat ..
  have hpending : w'.pending = w.pending := by
    cases hstep
    rfl
  have hkey : w'.keys redisHotKey = SortedSet.elapse seconds w.keys redisHotKey := by
    cases hstep
    rfl
  by_cases hlive : Live refuses (ts ++ [⟨w, .wait seconds, w'⟩])
  · refine .inl (h.retimed rfl ?_ ?_ hlive (hpending ▸ id))
    · rw [hkey, hleft]
      refine SortedSet.elapse_of_lt fun left hmem => ?_
      have hpositive := hlive (left - (seconds : Int)) (hleft ▸ Option.mem_map_of_mem _ hmem)
      omega
    · intro hgone
      rw [hleft, hgone]
      rfl
  · -- the time has run out, so there was a key with a time to live
    obtain ⟨left, hmem, hover⟩ : ∃ left ∈ (w.keys redisHotKey).bind SortedSet.Held.ttl,
        left ≤ (seconds : Int) := by
      by_contra hall
      refine hlive fun rest hrest => ?_
      obtain ⟨left, hmem, rfl⟩ := Option.mem_map.mp (hleft ▸ hrest)
      by_contra hnot
      exact hall ⟨left, hmem, by omega⟩
    refine .inr ⟨hlive, hkey.trans (SortedSet.elapse_of_le hmem hover), ?_⟩
    rw [increments_concat]
    intro hnil
    rw [h.absent.mpr (List.append_eq_nil_iff.mp hnil).1] at hmem
    cases hmem

omit [Add α] in
/-- What an `EXPIRE` that is accepted makes of the key. -/
theorem expire_accepted {keys : SortedSet.Keys String α} {held : SortedSet.Held String α}
    {ttlSeconds : Nat} (haccepted : accepts refuses ttlSeconds = true)
    (hheld : keys redisHotKey = some held) :
    (HotWorld.expire refuses ttlSeconds keys).2 redisHotKey =
      if ttlSeconds = 0 then none else some { held with ttl := some (ttlSeconds : Int) } := by
  obtain ⟨hsmall, hnot⟩ : ttlSeconds < 2 ^ 63 ∧ refuses ttlSeconds = false := by
    simpa only [accepts, Bool.and_eq_true, decide_eq_true_eq, Bool.not_eq_true'] using haccepted
  have hrange : ¬((ttlSeconds : Int) < -2 ^ 63 ∨ 2 ^ 63 ≤ (ttlSeconds : Int)) := by omega
  have hzero : (ttlSeconds : Int) ≤ 0 ↔ ttlSeconds = 0 := by omega
  rw [HotWorld.expire, hnot, if_neg Bool.false_ne_true, SortedSet.expire, if_neg hrange, hheld]
  dsimp only
  rw [Function.update_self]
  exact if_congr hzero rfl rfl

omit [Add α] in
theorem expire_refused {keys : SortedSet.Keys String α} {ttlSeconds : Nat}
    (hrefused : accepts refuses ttlSeconds ≠ true) :
    (HotWorld.expire refuses ttlSeconds keys).2 = keys := by
  unfold HotWorld.expire
  cases hnot : refuses ttlSeconds with
  | true => rfl
  | false =>
      have hlarge : 2 ^ 63 ≤ (ttlSeconds : Int) := by
        by_contra hsmall
        have hfits : ttlSeconds < 2 ^ 63 := by omega
        exact hrefused (by rw [accepts, hnot, decide_eq_true hfits]; rfl)
      rw [if_neg Bool.false_ne_true, SortedSet.expire_of_large _ _ hlarge]

theorem step_expire {i : Nat} (hstep : w.step refuses (.expire i) = some w') :
    ∃ response, w.pending[i]? = some response ∧
      w'.keys = (HotWorld.expire refuses response.ttlSeconds w.keys).2 := by
  cases hresponse : w.pending[i]? with
  | none => simp [step, hresponse] at hstep
  | some response =>
      simp only [step, hresponse, Option.bind_eq_bind, Option.bind_some,
        Option.some.injEq] at hstep
      subst hstep
      exact ⟨response, rfl, rfl⟩

theorem Kept.expire (h : Kept refuses ts w) {i : Nat}
    (hstep : w.step refuses (.expire i) = some w') :
    Kept refuses (ts ++ [⟨w, .expire i, w'⟩]) w' ∨
      ¬Live refuses (ts ++ [⟨w, .expire i, w'⟩]) ∧ Lapsed (ts ++ [⟨w, .expire i, w'⟩]) w' := by
  obtain ⟨response, hresponse, hkeys⟩ := step_expire hstep
  have hsome : w.pending ≠ [] := by
    intro hnil
    rw [hnil] at hresponse
    cases hresponse
  have htimeSet : timeSet refuses ⟨w, .expire i, w'⟩ =
      if accepts refuses response.ttlSeconds then some response.ttlSeconds else none := by
    show (w.pending[i]?.map (·.ttlSeconds)).filter _ = _
    rw [hresponse]
    exact Option.filter_some
  by_cases haccepted : accepts refuses response.ttlSeconds = true
  · have hleft : timeLeft refuses (ts ++ [⟨w, .expire i, w'⟩]) =
        some (response.ttlSeconds : Int) := by
      rw [timeLeft_concat, htimeSet, if_pos haccepted]
      rfl
    obtain ⟨held, hheld⟩ : ∃ held, w.keys redisHotKey = some held :=
      Option.ne_none_iff_exists'.mp fun hgone => h.pending hsome (h.absent.mp hgone)
    have hkey := expire_accepted haccepted hheld
    rw [← hkeys] at hkey
    by_cases hzero : response.ttlSeconds = 0
    · refine .inr ⟨?_, hkey.trans (if_pos hzero), ?_⟩
      · intro hlive
        have hpositive := hlive _ hleft
        omega
      · rw [increments_concat]
        exact fun hnil => h.pending hsome (List.append_eq_nil_iff.mp hnil).1
    · refine .inl (h.retimed rfl ?_ ?_ ?_ fun _ => hsome)
      · rw [hkey, if_neg hzero, hheld, hleft]
        rfl
      · intro hnone
        rw [hheld] at hnone
        cases hnone
      · intro left hmem
        obtain rfl : (response.ttlSeconds : Int) = left := Option.some.inj (hleft ▸ hmem)
        omega
  · refine .inl (h.idle rfl ?_ rfl ?_ fun _ => hsome)
    · rw [htimeSet, if_neg haccepted]
    · rw [hkeys, expire_refused haccepted]

/-- **What a step leaves of a board that has every score.** -/
theorem Kept.step (h : Kept refuses ts w) (hstep : w.step refuses a = some w') :
    Kept refuses (ts ++ [⟨w, a, w'⟩]) w' ∨
      ¬Live refuses (ts ++ [⟨w, a, w'⟩]) ∧ Lapsed (ts ++ [⟨w, a, w'⟩]) w' := by
  cases a with
  | zincrby itemId payload => exact .inl (h.zincrby hstep)
  | expire i => exact h.expire hstep
  | wait seconds => exact h.wait hstep
  | broken i =>
      cases hresponse : w.pending[i]? with
      | none => simp [HotWorld.step, hresponse] at hstep
      | some response =>
          simp only [HotWorld.step, hresponse, Option.bind_eq_bind, Option.bind_some,
            Option.some.injEq] at hstep
          subst hstep
          refine .inl (h.idle rfl rfl rfl rfl ?_)
          intro hsome hnil
          exact hsome (by rw [hnil]; rfl)

theorem kept_init {w₀ : HotWorld α} (hinit : (system refuses).init w₀) :
    Kept refuses [] w₀ := by
  obtain ⟨habsent, hpending⟩ := hinit
  refine ⟨?_, ?_, ?_, ?_, ?_⟩
  · intro itemId
    rw [scoreOf, SortedSet.atKey, habsent]
    rfl
  · exact ⟨fun _ => rfl, fun _ => habsent⟩
  · rw [habsent]
    rfl
  · intro left hmem
    cases hmem
  · exact fun hsome => absurd hpending hsome

/-- A board that never loses a score, or whose time never runs out, has them all. -/
theorem kept_run {w₀ : HotWorld α} (hinit : (system refuses).init w₀)
    (hrun : (system refuses).Run w₀ ts w)
    (hall : ∀ before w', before <+: ts → (system refuses).Run w₀ before w' →
      Complete before w' ∨ Live refuses before) :
    Kept refuses ts w := by
  induction hrun with
  | refl => exact kept_init hinit
  | @step ts w a w' hrun hstep ih =>
      have hbefore := ih fun before w' hfront =>
        hall before w' (hfront.trans (List.prefix_append ts _))
      rcases hbefore.step hstep with hkept | ⟨hdead, hlapsed⟩
      · exact hkept
      · rcases hall _ w' (List.prefix_refl _) (hrun.step hstep) with hcomplete | hlive
        · exact absurd hcomplete hlapsed.not_complete
        · exact absurd hlive hdead

/-- **The board keeps every score** if and only if the time that an `EXPIRE` has set never
runs out before the next one. -/
theorem hot_kept_iff {w₀ : HotWorld α} (hinit : (system refuses).init w₀)
    (hrun : (system refuses).Run w₀ ts w) :
    (∀ before w', before <+: ts → (system refuses).Run w₀ before w' → Complete before w') ↔
      ∀ before, before <+: ts → Live refuses before := by
  constructor
  · intro hcomplete before hfront
    obtain ⟨w', hrun'⟩ := hrun.front hfront
    have hkept := kept_run hinit hrun' fun earlier w'' hearlier hrun'' =>
      .inl (hcomplete earlier w'' (hearlier.trans hfront) hrun'')
    exact hkept.live
  · intro hlive before w' hfront hrun'
    have hkept := kept_run hinit hrun' fun earlier _ hearlier _ =>
      .inr (hlive earlier (hearlier.trans hfront))
    exact hkept.complete

end Kept

/-- Two requests whose commands mix; the second `EXPIRE` comes in time. -/
def twoRequests : List (HotAction Int) :=
  [.zincrby 7 ⟨5, 60⟩, .zincrby 8 ⟨1, 10⟩, .expire 0, .wait 30, .expire 0, .wait 9]

theorem hot_kept_twoRequests : ∃ ts w,
    (system fun _ => false).Run (⟨fun _ => none, [], []⟩ : HotWorld Int) ts w ∧
      scoreOf 7 w.keys = askedFor 7 (increments ts) ∧ increments ts = [(7, 5), (8, 1)] := by
  have hchecked : ((system fun _ => false).exec [] (⟨fun _ => none, [], []⟩ : HotWorld Int)
      twoRequests).any (fun r => increments r.1 = [(7, 5), (8, 1)] ∧
        ∀ before ∈ r.1.inits, ∀ left ∈ timeLeft (fun _ => false) before, 0 < left) = true := by
    decide
  obtain ⟨ts, w, hrun, hchecked⟩ := TSys.exists_run hchecked
  obtain ⟨hincrements, hlive⟩ := of_decide_eq_true hchecked
  have hkept := (hot_kept_iff ⟨rfl, rfl⟩ hrun).mpr fun before hfront =>
    hlive before ((List.mem_inits before ts).mpr hfront)
  exact ⟨ts, w, hrun, hkept ts w (List.prefix_refl ts) hrun 7, hincrements⟩

end HotWorld

end Axes.Stat
