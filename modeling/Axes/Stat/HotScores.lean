import Mathlib.Algebra.BigOperators.Group.List.Basic
import Axes.Stat.Leaderboard

/-!
# Scores of the hot leaderboard over runs of requests

A request is two commands on one key. Both go right: the item has its delta added and the
others keep their scores, unless the time to live was zero, which drops them all. The
second goes wrong: the delta stays added.
-/

namespace Axes.Stat

open Axes.Lib Axes.Orders

variable {α : Type*}

/-- A request with what becomes of its commands. -/
structure HotCall (α : Type*) where
  itemId : Int64
  payload : IncrHotRequest α
  outcome : HotOutcome

variable [LinearOrder α]

/-- The keys after requests that are handled one after another. -/
def runHot [Add α] (calls : List (HotCall α)) (keys : SortedSet.Keys String α) :
    SortedSet.Keys String α :=
  calls.foldl (fun keys call => (incrHotScore call.outcome call.itemId call.payload keys).2) keys

section Failures

variable [Add α] {outcome : HotOutcome} {itemId : Int64} {payload : IncrHotRequest α}
  {keys : SortedSet.Keys String α}

/-- An increment leaves the set as it was when it leaves the item its score. -/
theorem put_incremented_iff :
    (SortedSet.atKey keys redisHotKey).put (toString itemId)
        (incremented itemId payload.delta keys) = SortedSet.atKey keys redisHotKey ↔
      ∃ score, scoreOf itemId keys = some score ∧ score + payload.delta = score := by
  constructor
  · intro h
    have hscore : scoreOf itemId keys = some (incremented itemId payload.delta keys) := by
      unfold scoreOf
      conv_lhs => rw [← h]
      rw [SortedSet.score?_put, if_pos rfl]
    refine ⟨_, hscore, ?_⟩
    conv_rhs => rw [incremented, hscore]
  · rintro ⟨score, hscore, hsame⟩
    apply SortedSet.put_self
    rw [incremented, hscore]
    dsimp only
    rw [hsame]
    exact hscore

/-- **A request that fails changes nothing** if and only if it does not fail in between:
it does not get to the first command, or the second goes right too, or the delta leaves the
item the score it has. -/
theorem failed_increment_iff (outcome : HotOutcome) (itemId : Int64)
    (payload : IncrHotRequest α) (keys : SortedSet.Keys String α) :
    (∀ e, (incrHotScore outcome itemId payload keys).1 = .error e →
      SortedSet.atKey (incrHotScore outcome itemId payload keys).2 redisHotKey =
        SortedSet.atKey keys redisHotKey) ↔
      outcome.connected = false ∨ outcome.zincrby = false ∨
      (outcome.expire = true ∧ payload.ttlSeconds < 2 ^ 63) ∨
      ∃ score, scoreOf itemId keys = some score ∧ score + payload.delta = score := by
  have hcases := incrHotScore_increments outcome itemId payload keys
  generalize incrHotScore outcome itemId payload keys = result at hcases ⊢
  cases hcases with
  | refused hrefused =>
      constructor
      · intro _
        exact hrefused.imp_right .inl
      · intro _ _ _
        rfl
  | half hgiven hexpire hset =>
      constructor
      · intro h
        have hsame := h _ rfl
        dsimp only at hsame
        rw [hset] at hsame
        exact .inr (.inr (.inr (put_incremented_iff.mp hsame)))
      · rintro (hconnected | hzincrby | ⟨hanswered, hfits⟩ | hscore) _ _
        · rw [hgiven.1] at hconnected
          cases hconnected
        · rw [hgiven.2] at hzincrby
          cases hzincrby
        · rcases hexpire with hfailed | hlarge
          · rw [hanswered] at hfailed
            cases hfailed
          · omega
        · exact hset.trans (put_incremented_iff.mpr hscore)
  | done hgiven hexpire _ =>
      constructor
      · intro _
        exact .inr (.inr (.inl hexpire))
      · intro _ e he
        cases he

/-- `ZINCRBY` has counted, `EXPIRE` rejects the time to live: the client is told of a
failure and the item has a point. -/
theorem failed_increment_counts :
    (incrHotScore .success 7 (⟨1, 2 ^ 63⟩ : IncrHotRequest Int) fun _ => none).1 =
        .error redisCommandError ∧
      scoreOf 7 (incrHotScore .success 7 (⟨1, 2 ^ 63⟩ : IncrHotRequest Int) fun _ => none).2 =
        some 1 ∧
      scoreOf 7 (fun _ => none : SortedSet.Keys String Int) = none := by
  have hcases := incrHotScore_increments .success 7 (⟨1, 2 ^ 63⟩ : IncrHotRequest Int)
    fun _ => none
  generalize incrHotScore .success 7 (⟨1, 2 ^ 63⟩ : IncrHotRequest Int) (fun _ => none) = result
    at hcases ⊢
  cases hcases with
  | refused hrefused =>
      rcases hrefused with h | h <;> cases h
  | half _ _ hset =>
      refine ⟨rfl, ?_, rfl⟩
      rw [scoreOf, hset, SortedSet.score?_put, if_pos rfl]
      rfl
  | done _ hexpire _ =>
      exact absurd hexpire.2 (by decide)

end Failures

section Exact

variable [AddMonoid α] {itemId other : Int64} {keys : SortedSet.Keys String α}
  {call : HotCall α} {calls : List (HotCall α)}

/-- A request whose commands all go right, with a time to live that Redis accepts. -/
def HotCall.Accepted (call : HotCall α) : Prop :=
  call.outcome = .success ∧ call.payload.ttlSeconds < 2 ^ 63

/-- What was asked for an item. -/
def deltaSum (itemId : Int64) (calls : List (HotCall α)) : α :=
  ((calls.filter fun call => decide (call.itemId = itemId)).map (·.payload.delta)).sum

/-- A request that does what it says: its item has the delta more, the others what they
had. -/
structure OnlyItsItem (call : HotCall α) (keys keys' : SortedSet.Keys String α) : Prop where
  own : scoreOf call.itemId keys' =
    some ((scoreOf call.itemId keys).getD 0 + call.payload.delta)
  others : ∀ other, other ≠ call.itemId → scoreOf other keys' = scoreOf other keys

theorem incremented_eq (itemId : Int64) (delta : α) (keys : SortedSet.Keys String α) :
    incremented itemId delta keys = (scoreOf itemId keys).getD 0 + delta := by
  unfold incremented
  cases scoreOf itemId keys with
  | none => exact (zero_add delta).symm
  | some score => rfl

/-- What an accepted request leaves of the scores. -/
theorem HotCall.Accepted.scores (h : call.Accepted) (keys : SortedSet.Keys String α)
    (other : Int64) :
    scoreOf other (incrHotScore call.outcome call.itemId call.payload keys).2 =
      if call.payload.ttlSeconds = 0 then none
      else if other = call.itemId then
        some ((scoreOf call.itemId keys).getD 0 + call.payload.delta)
      else scoreOf other keys := by
  have hcases := incrHotScore_increments call.outcome call.itemId call.payload keys
  generalize incrHotScore call.outcome call.itemId call.payload keys = result at hcases ⊢
  obtain ⟨hsuccess, hfits⟩ := h
  rw [hsuccess] at hcases
  cases hcases with
  | refused hrefused => rcases hrefused with hfailed | hfailed <;> cases hfailed
  | half _ hexpire _ =>
      rcases hexpire with hfailed | hlarge
      · cases hfailed
      · omega
  | done _ _ hset =>
      dsimp only
      rw [scoreOf, hset]
      split
      · rfl
      · rw [SortedSet.score?_put, incremented_eq]
        by_cases hown : other = call.itemId
        · rw [if_pos hown, if_pos (by rw [hown])]
        · rw [if_neg hown, if_neg (fun hsame => hown (toString_inj hsame))]
          rfl

theorem HotCall.Accepted.onlyItsItem_iff (h : call.Accepted) :
    OnlyItsItem call keys (incrHotScore call.outcome call.itemId call.payload keys).2 ↔
      call.payload.ttlSeconds ≠ 0 := by
  constructor
  · intro honly hzero
    have hown := honly.own
    rw [h.scores, if_pos hzero] at hown
    cases hown
  · intro hlives
    constructor
    · rw [h.scores, if_neg hlives, if_pos rfl]
    · intro other hother
      rw [h.scores, if_neg hlives, if_neg hother]

/-- After requests that all do what they say, an item has the sum of what was asked for
it. -/
theorem scoreOf_runHot (hcalls : ∀ call ∈ calls, call.Accepted ∧ call.payload.ttlSeconds ≠ 0) :
    scoreOf itemId (runHot calls keys) =
      if itemId ∈ calls.map (·.itemId) then
        some ((scoreOf itemId keys).getD 0 + deltaSum itemId calls)
      else scoreOf itemId keys := by
  induction calls generalizing keys with
  | nil => rfl
  | cons call calls ih =>
      obtain ⟨haccepted, hlives⟩ := hcalls call List.mem_cons_self
      rw [runHot, List.foldl_cons, ← runHot,
        ih fun call hcall => hcalls call (List.mem_cons_of_mem _ hcall), haccepted.scores,
        if_neg hlives]
      unfold deltaSum
      by_cases hown : itemId = call.itemId
      · subst hown
        simp only [List.map_cons, List.mem_cons, true_or, if_true, Option.getD_some,
          List.filter_cons, decide_true, List.sum_cons, add_assoc]
        split
        · rfl
        · next hnone =>
            have hempty : calls.filter (fun c => decide (c.itemId = call.itemId)) = [] := by
              refine List.filter_eq_nil_iff.mpr ?_
              intro c hc hsame
              exact hnone (List.mem_map.mpr ⟨c, hc, of_decide_eq_true hsame⟩)
            rw [hempty]
            simp
      · have hne : ¬call.itemId = itemId := fun hsame => hown hsame.symm
        simp only [List.map_cons, List.mem_cons, hown, false_or, List.filter_cons,
          hne, decide_false, Bool.false_eq_true, if_false]

/-- Every request does what it says, and in the end every item has the sum of what was
asked for it. -/
structure Accumulates (calls : List (HotCall α)) (keys : SortedSet.Keys String α) : Prop where
  each : ∀ before call later, calls = before ++ call :: later →
    OnlyItsItem call (runHot before keys) (runHot (before ++ [call]) keys)
  total : ∀ itemId, scoreOf itemId (runHot calls keys) =
    if itemId ∈ calls.map (·.itemId) then
      some ((scoreOf itemId keys).getD 0 + deltaSum itemId calls)
    else scoreOf itemId keys

theorem runHot_concat (before : List (HotCall α)) (call : HotCall α)
    (keys : SortedSet.Keys String α) :
    runHot (before ++ [call]) keys =
      (incrHotScore call.outcome call.itemId call.payload (runHot before keys)).2 := by
  rw [runHot, List.foldl_append]
  rfl

/-- **Increments accumulate and touch only their item** if and only if no request has a
time to live of zero. -/
theorem accumulates_iff (calls : List (HotCall α)) (keys : SortedSet.Keys String α)
    (hcalls : ∀ call ∈ calls, call.Accepted) :
    Accumulates calls keys ↔ ∀ call ∈ calls, call.payload.ttlSeconds ≠ 0 := by
  constructor
  · intro h call hcall
    obtain ⟨before, later, hsplit⟩ := List.append_of_mem hcall
    have honly := h.each before call later hsplit
    rw [runHot_concat] at honly
    exact (hcalls call hcall).onlyItsItem_iff.mp honly
  · intro hlives
    constructor
    · rintro before call later rfl
      have hcall : call ∈ before ++ call :: later :=
        List.mem_append_right _ List.mem_cons_self
      rw [runHot_concat]
      exact (hcalls call hcall).onlyItsItem_iff.mpr (hlives call hcall)
    · intro itemId
      exact scoreOf_runHot fun call hcall => ⟨hcalls call hcall, hlives call hcall⟩

end Exact

/-- A request that goes right, with a whole number for its delta. -/
def hotCall (itemId : Int64) (delta : Int) (ttlSeconds : Nat) : HotCall Int :=
  ⟨itemId, ⟨delta, ttlSeconds⟩, .success⟩

theorem accumulates_twoItems :
    Accumulates [hotCall 7 5 60, hotCall 8 1 60, hotCall 7 2 60] fun _ => none := by
  refine (accumulates_iff _ _ ?_).mpr ?_
  · intro call hcall
    simp only [List.mem_cons, List.not_mem_nil, or_false] at hcall
    rcases hcall with rfl | rfl | rfl <;> exact ⟨rfl, by decide⟩
  · intro call hcall
    simp only [List.mem_cons, List.not_mem_nil, or_false] at hcall
    rcases hcall with rfl | rfl | rfl <;> decide

/-- A request for one item with a time to live of zero takes the points of another. -/
theorem not_accumulates :
    (∀ call ∈ [hotCall 7 5 60, hotCall 8 1 0], call.Accepted) ∧
      scoreOf 7 (runHot [hotCall 7 5 60] fun _ => none) = some 5 ∧
      scoreOf 7 (runHot [hotCall 7 5 60, hotCall 8 1 0] fun _ => none) = none ∧
      scoreOf 8 (runHot [hotCall 7 5 60, hotCall 8 1 0] fun _ => none) = none ∧
      ¬Accumulates [hotCall 7 5 60, hotCall 8 1 0] fun _ => none := by
  have hfirst : (hotCall 7 5 60).Accepted := ⟨rfl, by decide⟩
  have hsecond : (hotCall 8 1 0).Accepted := ⟨rfl, by decide⟩
  have hgone : ∀ itemId, scoreOf itemId (runHot [hotCall 7 5 60, hotCall 8 1 0] fun _ => none) =
      none := by
    intro itemId
    show scoreOf itemId (runHot ([hotCall 7 5 60] ++ [hotCall 8 1 0]) fun _ => none) = none
    rw [runHot_concat, hsecond.scores]
    rfl
  refine ⟨?_, ?_, hgone 7, hgone 8, ?_⟩
  · intro call hcall
    simp only [List.mem_cons, List.not_mem_nil, or_false] at hcall
    rcases hcall with rfl | rfl
    · exact hfirst
    · exact hsecond
  · show scoreOf 7 (runHot ([] ++ [hotCall 7 5 60]) fun _ => none) = some 5
    rw [runHot_concat, hfirst.scores]
    rfl
  · intro h
    have hown := (h.each [hotCall 7 5 60] (hotCall 8 1 0) [] rfl).own
    rw [show [hotCall 7 5 60] ++ [hotCall 8 1 0] = [hotCall 7 5 60, hotCall 8 1 0] from rfl,
      hgone] at hown
    cases hown

end Axes.Stat
