import Axes.Stat.HotScores

/-!
# The top of the hot leaderboard

Every member of the leaderboard is the decimal of an item id (`Decimal`), so what is read
back parses. Up to `2 ^ 63` entries can be asked for; a larger limit becomes a negative
rank, which leaves out the end of the leaderboard.
-/

namespace Axes.Stat

open Axes.Lib Axes.Orders

variable {α : Type*}

/-- The entry of an item. -/
def HotScoreItem.entry (item : HotScoreItem α) : String × α := (toString item.itemId, item.score)

theorem parseI64_toString (itemId : Int64) : parseI64 (toString itemId) = some itemId := by
  have hrange : -2 ^ 63 ≤ itemId.toInt ∧ itemId.toInt < 2 ^ 63 :=
    ⟨itemId.le_toInt, itemId.toInt_lt⟩
  show (Text.parseInt itemId.toInt.repr).bind _ = some itemId
  rw [Text.parseInt_repr, Option.bind_some, if_pos hrange, Int64.ofInt_toInt]

/-- What was written as items is read back as them. -/
theorem buildHotTopItems_entries (items : List (HotScoreItem α)) :
    buildHotTopItems (items.map HotScoreItem.entry) = .ok items := by
  unfold buildHotTopItems
  induction items with
  | nil => rfl
  | cons item items ih =>
      rw [List.map_cons, List.mapM_cons, ih]
      simp only [HotScoreItem.entry, parseI64_toString]
      rfl

/-- Entries of decimal members are those of items. -/
theorem exists_items {entries : List (String × α)}
    (h : ∀ entry ∈ entries, ∃ itemId : Int64, entry.1 = toString itemId) :
    ∃ items : List (HotScoreItem α), items.map HotScoreItem.entry = entries := by
  induction entries with
  | nil => exact ⟨[], rfl⟩
  | cons entry entries ih =>
      obtain ⟨items, rfl⟩ := ih fun other hother => h other (List.mem_cons_of_mem _ hother)
      obtain ⟨itemId, hmember⟩ := h entry List.mem_cons_self
      refine ⟨⟨itemId, entry.2⟩ :: items, ?_⟩
      rw [List.map_cons, HotScoreItem.entry, ← hmember]

variable [LinearOrder α] {keys : SortedSet.Keys String α}

/-- Every member is the decimal of an item id. -/
def Decimal (set : SortedSet String α) : Prop :=
  ∀ entry ∈ set.entries, ∃ itemId : Int64, entry.1 = toString itemId

theorem Decimal.put {set : SortedSet String α} (h : Decimal set) (itemId : Int64) (score : α) :
    Decimal (set.put (toString itemId) score) := by
  intro entry hentry
  rcases SortedSet.mem_put.mp hentry with rfl | ⟨hmem, -⟩
  · exact ⟨itemId, rfl⟩
  · exact h entry hmem

theorem decimal_incrHotScore [Add α] (h : Decimal (SortedSet.atKey keys redisHotKey))
    (call : HotCall α) :
    Decimal (SortedSet.atKey (incrHotScore call.outcome call.itemId call.payload keys).2
      redisHotKey) := by
  have hcases := incrHotScore_increments call.outcome call.itemId call.payload keys
  generalize incrHotScore call.outcome call.itemId call.payload keys = result at hcases ⊢
  cases hcases with
  | refused _ => exact h
  | half _ _ hset =>
      dsimp only
      rw [hset]
      exact h.put _ _
  | done _ _ hset =>
      dsimp only
      rw [hset]
      split
      · intro entry hentry
        cases hentry
      · exact h.put _ _

theorem decimal_runHot [Add α] (calls : List (HotCall α))
    (h : Decimal (SortedSet.atKey keys redisHotKey)) :
    Decimal (SortedSet.atKey (runHot calls keys) redisHotKey) := by
  induction calls generalizing keys with
  | nil => exact h
  | cons call calls ih => exact ih (decimal_incrHotScore h call)

/-- **The handler answers** with the items of the ranks it asks for. -/
theorem hotTop_eq (h : Decimal (SortedSet.atKey keys redisHotKey)) (limit : UInt64) :
    ∃ items : List (HotScoreItem α),
      hotTop true limit keys = .ok ⟨sanitizedTopLimit limit, items⟩ ∧
      items.map HotScoreItem.entry = SortedSet.zrevrange redisHotKey 0
        (saturatingSub (sanitizedTopLimit limit) 1).toInt64.toInt keys := by
  have hdecimal : ∀ entry ∈ SortedSet.zrevrange redisHotKey 0
      (saturatingSub (sanitizedTopLimit limit) 1).toInt64.toInt keys,
      ∃ itemId : Int64, entry.1 = toString itemId := by
    intro entry hentry
    exact h entry (List.mem_reverse.mp (List.mem_of_mem_take (List.mem_of_mem_drop hentry)))
  obtain ⟨items, hitems⟩ := exists_items hdecimal
  refine ⟨items, ?_, hitems⟩
  unfold hotTop
  simp only [← hitems, buildHotTopItems_entries]
  rfl

theorem sanitizedTopLimit_pos (limit : UInt64) : 0 < (sanitizedTopLimit limit).toNat := by
  unfold sanitizedTopLimit
  split
  · decide
  · next hne =>
      refine Nat.pos_of_ne_zero ?_
      intro hzero
      exact hne (UInt64.toNat_inj.mp hzero)

theorem sanitizedTopLimit_bounds (limit : UInt64) :
    limit.toNat ≤ (sanitizedTopLimit limit).toNat ∧
      (sanitizedTopLimit limit).toNat ≤ max 10 limit.toNat := by
  unfold sanitizedTopLimit
  split
  · next hzero =>
      subst hzero
      decide
  · exact ⟨le_refl _, le_max_right _ _⟩

/-- The last rank the handler asks for, as `ZREVRANGE` reads it. -/
theorem stop_toInt (limit : UInt64) :
    (saturatingSub (sanitizedTopLimit limit) 1).toInt64.toInt =
      if (sanitizedTopLimit limit).toNat ≤ 2 ^ 63 then
        ((sanitizedTopLimit limit).toNat : Int) - 1
      else ((sanitizedTopLimit limit).toNat : Int) - 1 - 2 ^ 64 := by
  have hpos := sanitizedTopLimit_pos limit
  have hlt := (sanitizedTopLimit limit).toNat_lt
  have hone : ¬sanitizedTopLimit limit < 1 := by
    rw [UInt64.lt_iff_toNat_lt]
    exact Nat.not_lt.mpr hpos
  have hsub : (sanitizedTopLimit limit - 1).toNat = (sanitizedTopLimit limit).toNat - 1 :=
    UInt64.toNat_sub_of_le _ _ (UInt64.le_iff_toNat_le.mpr hpos)
  have hcast : (sanitizedTopLimit limit - 1).toInt64.toInt =
      if 2 * (sanitizedTopLimit limit - 1).toNat < 2 ^ 64 then
        ((sanitizedTopLimit limit - 1).toNat : Int)
      else ((sanitizedTopLimit limit - 1).toNat : Int) - (2 ^ 64 : Nat) :=
    BitVec.toInt_eq_toNat_cond _
  rw [saturatingSub, if_neg hone, hcast, hsub]
  split <;> split <;> omega

/-- The leaderboard from the highest score down. -/
def board (keys : SortedSet.Keys String α) : List (String × α) :=
  (SortedSet.atKey keys redisHotKey).entries.reverse

/-- Up to `2 ^ 63` entries are read as asked for; of a larger limit, what it lacks to
`2 ^ 64` is left out at the end. -/
theorem zrevrange_top (keys : SortedSet.Keys String α) (limit : UInt64) :
    SortedSet.zrevrange redisHotKey 0
      (saturatingSub (sanitizedTopLimit limit) 1).toInt64.toInt keys =
      if (sanitizedTopLimit limit).toNat ≤ 2 ^ 63 then
        (board keys).take (sanitizedTopLimit limit).toNat
      else (board keys).take ((board keys).length + (sanitizedTopLimit limit).toNat - 2 ^ 64) := by
  have hpos := sanitizedTopLimit_pos limit
  have hlt := (sanitizedTopLimit limit).toNat_lt
  have hlength : (board keys).length = (SortedSet.atKey keys redisHotKey).entries.length :=
    List.length_reverse
  rw [SortedSet.zrevrange, stop_toInt, hlength]
  generalize (sanitizedTopLimit limit).toNat = n at *
  split
  · have hstop : ((n : Int) - 1 + 1).toNat = n := by omega
    rw [SortedSet.revRange_zero (by omega), hstop]
    rfl
  · have hstop : ∀ m : Nat, ((m : Int) + ((n : Int) - 1 - 2 ^ 64) + 1).toNat = m + n - 2 ^ 64 := by
      intro m
      omega
    rw [SortedSet.revRange_zero_neg (by omega), hstop]
    rfl

theorem nodup_itemIds {items : List (HotScoreItem α)} {n : Nat}
    (h : items.map HotScoreItem.entry = (board keys).take n) :
    (items.map (·.itemId)).Nodup := by
  have hnodup : ((board keys).map Prod.fst).Nodup := by
    rw [board, List.map_reverse]
    exact List.nodup_reverse.mpr (SortedSet.atKey keys redisHotKey).nodup
  have hmembers : ((items.map HotScoreItem.entry).map Prod.fst).Nodup := by
    rw [h]
    exact hnodup.sublist ((List.take_sublist _ _).map _)
  refine List.Nodup.of_map (f := toString) ?_
  rw [List.map_map] at hmembers ⊢
  exact hmembers

/-- What is read is the top of the leaderboard when the rank does not become negative. -/
theorem zrevrange_top_iff {limit : UInt64} (hsize : (board keys).length < 2 ^ 32) :
    SortedSet.zrevrange redisHotKey 0
        (saturatingSub (sanitizedTopLimit limit) 1).toInt64.toInt keys =
      (board keys).take (sanitizedTopLimit limit).toNat ↔
      limit.toNat ≤ 2 ^ 63 ∨ board keys = [] := by
  obtain ⟨hle, hge⟩ := sanitizedTopLimit_bounds limit
  have hlt := (sanitizedTopLimit limit).toNat_lt
  rw [zrevrange_top]
  by_cases hfits : (sanitizedTopLimit limit).toNat ≤ 2 ^ 63
  · rw [if_pos hfits]
    exact iff_of_true rfl (.inl (hle.trans hfits))
  · rw [if_neg hfits]
    constructor
    · intro htop
      have hlength := congrArg List.length htop
      rw [List.length_take, List.length_take] at hlength
      exact .inr (List.length_eq_zero_iff.mp (by omega))
    · rintro (hsmall | hnil)
      · omega
      · rw [hnil, List.take_nil, List.take_nil]

/-- An answer is the true top when its entries are. -/
theorem true_top_iff {limit shown : UInt64} {items : List (HotScoreItem α)}
    (hanswer : hotTop true limit keys = .ok ⟨shown, items⟩) :
    (∃ items, hotTop true limit keys = .ok ⟨shown, items⟩ ∧
        items.map HotScoreItem.entry =
          (board keys).take (min shown.toNat (board keys).length) ∧
        (items.map (·.itemId)).Nodup) ↔
      items.map HotScoreItem.entry = (board keys).take shown.toNat := by
  rw [← List.take_eq_take_min]
  constructor
  · rintro ⟨items', hanswer', hentries, -⟩
    rw [hanswer] at hanswer'
    cases hanswer'
    exact hentries
  · intro hentries
    exact ⟨items, hanswer, hentries, nodup_itemIds hentries⟩

/-- **`hot_top` answers, and with the true top of the leaderboard** if and only if the limit
is at most `2 ^ 63` or there is nothing to leave out. -/
theorem hotTop_true_iff [Add α] (calls : List (HotCall α)) (limit : UInt64)
    (hsize : (board (runHot calls fun _ => none)).length < 2 ^ 32) :
    (∃ response, hotTop true limit (runHot calls fun _ => none) = .ok response) ∧
    ((∃ items, hotTop true limit (runHot calls fun _ => none) =
          .ok ⟨if limit = 0 then 10 else limit, items⟩ ∧
        items.map HotScoreItem.entry = (board (runHot calls fun _ => none)).take
          (min (if limit = 0 then 10 else limit).toNat
            (board (runHot calls fun _ => none)).length) ∧
        (items.map (·.itemId)).Nodup) ↔
      limit.toNat ≤ 2 ^ 63 ∨ board (runHot calls fun _ => none) = []) := by
  have hdecimal : Decimal (SortedSet.atKey (runHot calls fun _ => none) redisHotKey) := by
    refine decimal_runHot calls ?_
    intro entry hentry
    cases hentry
  obtain ⟨items, hanswer, hitems⟩ := hotTop_eq hdecimal limit
  refine ⟨⟨_, hanswer⟩, ?_⟩
  rw [show (if limit = 0 then 10 else limit) = sanitizedTopLimit limit from rfl,
    true_top_iff hanswer, hitems, zrevrange_top_iff hsize]

theorem hotTop_true_one : ∃ items,
    hotTop true 1 (runHot [hotCall 7 5 60, hotCall 8 9 60] fun _ => none) = .ok ⟨1, items⟩ ∧
    items.map HotScoreItem.entry =
      (board (runHot [hotCall 7 5 60, hotCall 8 9 60] fun _ => none)).take 1 ∧
    (items.map (·.itemId)).Nodup := by
  have hsize : (board (runHot [hotCall 7 5 60, hotCall 8 9 60] fun _ => none)).length < 2 ^ 32 := by
    decide
  exact (hotTop_true_iff [hotCall 7 5 60, hotCall 8 9 60] 1 hsize).2.mpr (.inl (by decide))

/-- The largest limit asks for the ranks from the first to the last but one. -/
theorem not_hotTop_true :
    hotTop true 18446744073709551615 (runHot [hotCall 7 5 60] fun _ => none) =
      .ok ⟨18446744073709551615, []⟩ ∧
    (board (runHot [hotCall 7 5 60] fun _ => none)).take
      (min (18446744073709551615 : UInt64).toNat
        (board (runHot [hotCall 7 5 60] fun _ => none)).length) = [("7", 5)] :=
  ⟨rfl, by decide⟩

end Axes.Stat
