import Mathlib.Data.List.Sort
import Mathlib.Data.Prod.Lex
import Mathlib.Order.Lattice
import Axes.Lib.Redis
import Axes.Lib.Table

/-!
# Redis sorted sets

Members with scores, in the order of `ZRANGE`: by score, and by member where scores are
equal. A `SortedSet` carries that it is in order and has no member twice, so it is known by
its scores (`ext_score?`), a write by the score it leaves each member (`score?_put`) and a
range by where it stops (`revRange_zero`). Then the commands on keys that hold such sets.
-/

namespace Axes.Lib

variable {μ α : Type*} [LinearOrder μ] [LinearOrder α]

namespace SortedSet

/-- What an entry is ordered by. -/
def rank (entry : μ × α) : α ×ₗ μ := toLex (entry.2, entry.1)

def Before (entry other : μ × α) : Prop := rank entry ≤ rank other

instance : DecidableRel (Before (μ := μ) (α := α)) := fun entry other =>
  inferInstanceAs (Decidable (rank entry ≤ rank other))

instance : Std.Total (Before (μ := μ) (α := α)) where
  total entry other := le_total (rank entry) (rank other)

instance : IsTrans (μ × α) Before where
  trans _ _ _ h h' := le_trans h h'

instance : Std.Antisymm (Before (μ := μ) (α := α)) where
  antisymm entry other h h' := by
    have hrank : rank entry = rank other := le_antisymm h h'
    obtain ⟨hscore, hmember⟩ := Prod.mk.inj (toLex_inj.mp hrank)
    exact Prod.ext hmember hscore

end SortedSet

structure SortedSet (μ α : Type*) [LinearOrder μ] [LinearOrder α] where
  entries : List (μ × α)
  ascending : entries.Pairwise SortedSet.Before
  nodup : (entries.map Prod.fst).Nodup

namespace SortedSet

/-- `ZSCORE` -/
def score? (member : μ) (set : SortedSet μ α) : Option α :=
  (set.entries.find? fun entry => decide (entry.1 = member)).map Prod.snd

/-- Gives a member a score, whether it is there or not. -/
def put (member : μ) (score : α) (set : SortedSet μ α) : SortedSet μ α where
  entries := (set.entries.filter fun entry => decide (entry.1 ≠ member)).orderedInsert Before
    (member, score)
  ascending := (set.ascending.sublist List.filter_sublist).orderedInsert _ _
  nodup := by
    have hperm := (List.perm_orderedInsert Before (member, score)
      (set.entries.filter fun entry => decide (entry.1 ≠ member))).map Prod.fst
    rw [hperm.nodup_iff, List.map_cons, List.nodup_cons]
    refine ⟨?_, set.nodup.sublist (List.filter_sublist.map _)⟩
    intro hmem
    obtain ⟨entry, hentry, hsame⟩ := List.mem_map.mp hmem
    exact of_decide_eq_true (List.mem_filter.mp hentry).2 hsame

instance : EmptyCollection (SortedSet μ α) := ⟨⟨[], .nil, .nil⟩⟩

/-- The entries from rank `start` to rank `stop`, the highest score first; a negative rank
counts from the end. -/
def revRange (start stop : Int) (set : SortedSet μ α) : List (μ × α) :=
  let length : Int := set.entries.length
  let start := max 0 (if start < 0 then length + start else start)
  let stop := if stop < 0 then length + stop else stop
  (set.entries.reverse.take (stop + 1).toNat).drop start.toNat

variable {set : SortedSet μ α} {member other : μ} {score : α}

theorem mem_put {entry : μ × α} :
    entry ∈ (set.put member score).entries ↔
      entry = (member, score) ∨ entry ∈ set.entries ∧ entry.1 ≠ member := by
  unfold put
  rw [List.mem_orderedInsert, List.mem_filter, decide_eq_true_iff]

/-- The score of a member is that of its one entry. -/
theorem score?_eq_some : set.score? member = some score ↔ (member, score) ∈ set.entries := by
  constructor
  · intro h
    obtain ⟨entry, hfind, rfl⟩ := Option.map_eq_some_iff.mp h
    have hsame : entry.1 = member := by simpa using List.find?_some hfind
    rw [← hsame]
    exact List.mem_of_find?_eq_some hfind
  · intro hmem
    rw [score?, Table.find?_of_unique set.nodup hmem]
    rfl

/-- A sorted set is known by its scores. -/
theorem ext_score? {set' : SortedSet μ α} (h : ∀ member, set.score? member = set'.score? member) :
    set = set' := by
  have hnodup : ∀ s : SortedSet μ α, s.entries.Nodup := fun s => s.nodup.of_map
  have hmem : ∀ entry, entry ∈ set.entries ↔ entry ∈ set'.entries := by
    intro entry
    rw [← score?_eq_some, ← score?_eq_some, h]
  have hperm : set.entries.Perm set'.entries :=
    (List.perm_ext_iff_of_nodup (hnodup set) (hnodup set')).mpr hmem
  have hentries : set.entries = set'.entries :=
    hperm.eq_of_pairwise' set.ascending set'.ascending
  cases set
  cases set'
  cases hentries
  rfl

/-- Putting a member leaves the others their scores. -/
theorem score?_put : (set.put member score).score? other =
    if other = member then some score else set.score? other := by
  refine Option.ext ?_
  intro s
  rw [score?_eq_some, mem_put]
  split
  · next hsame =>
      subst hsame
      simp [eq_comm]
  · next hne =>
      rw [score?_eq_some]
      simp [hne]

/-- Putting the score that is there changes nothing. -/
theorem put_self (h : set.score? member = some score) : set.put member score = set := by
  refine ext_score? ?_
  intro other
  rw [score?_put]
  split
  · next hsame => rw [hsame, h]
  · rfl

/-- The entries from the highest score down to the one of rank `stop`. -/
theorem revRange_zero {stop : Int} (h : 0 ≤ stop) :
    set.revRange 0 stop = set.entries.reverse.take (stop + 1).toNat := by
  have hstop : ¬stop < 0 := by omega
  simp [revRange, hstop]

/-- A negative `stop` leaves out entries at the end. -/
theorem revRange_zero_neg {stop : Int} (h : stop < 0) :
    set.revRange 0 stop =
      set.entries.reverse.take (set.entries.length + stop + 1).toNat := by
  simp [revRange, h]

/-! ## Commands -/

/-- A set at a key, with the seconds the key has to live. -/
structure Held (μ α : Type*) [LinearOrder μ] [LinearOrder α] where
  set : SortedSet μ α
  ttl : Option Int

/-- An absent key is `none`. -/
abbrev Keys (μ α : Type*) [LinearOrder μ] [LinearOrder α] := String → Option (Held μ α)

/-- The set at a key; an absent key counts as an empty one. -/
def atKey (keys : Keys μ α) (key : String) : SortedSet μ α := ((keys key).map Held.set).getD ∅

/-- `ZINCRBY`, and the score it replies: an absent member gets `delta`. -/
def zincrby [Add α] (key : String) (delta : α) (member : μ) (keys : Keys μ α) : α × Keys μ α :=
  let score :=
    match (atKey keys key).score? member with
    | some score => score + delta
    | none => delta
  (score, Function.update keys key
    (some ⟨(atKey keys key).put member score, (keys key).bind Held.ttl⟩))

/-- `EXPIRE`: a time that is not positive deletes the key. -/
def expire (key : String) (seconds : Int) (keys : Keys μ α) :
    Except Redis.Error Bool × Keys μ α :=
  if seconds < -2 ^ 63 ∨ 2 ^ 63 ≤ seconds then (.error .notInteger, keys)
  else
    match keys key with
    | none => (.ok false, keys)
    | some held =>
        (.ok true, Function.update keys key
          (if seconds ≤ 0 then none else some { held with ttl := some seconds }))

/-- `ZREVRANGE … WITHSCORES` -/
def zrevrange (key : String) (start stop : Int) (keys : Keys μ α) : List (μ × α) :=
  (atKey keys key).revRange start stop

theorem atKey_zincrby [Add α] (keys : Keys μ α) (key : String) (delta : α) (member : μ) :
    atKey (zincrby key delta member keys).2 key =
      (atKey keys key).put member (zincrby key delta member keys).1 := by
  unfold zincrby
  dsimp only
  rw [atKey, Function.update_self]
  rfl

theorem expire_of_large (keys : Keys μ α) (key : String) {seconds : Int}
    (h : 2 ^ 63 ≤ seconds) :
    expire key seconds keys = (.error .notInteger, keys) :=
  if_pos (.inr h)

/-- What a time to live in range makes of the set. -/
theorem atKey_expire (keys : Keys μ α) (key : String) {seconds : Int}
    (hlow : -2 ^ 63 ≤ seconds) (hhigh : seconds < 2 ^ 63) :
    ∃ reply, (expire key seconds keys).1 = .ok reply ∧
      atKey (expire key seconds keys).2 key = if seconds ≤ 0 then ∅ else atKey keys key := by
  have hrange : ¬(seconds < -2 ^ 63 ∨ 2 ^ 63 ≤ seconds) := by omega
  unfold expire
  rw [if_neg hrange]
  cases hkey : keys key with
  | none =>
      refine ⟨false, rfl, ?_⟩
      dsimp only
      rw [atKey, hkey]
      split <;> rfl
  | some held =>
      refine ⟨true, rfl, ?_⟩
      dsimp only
      rw [atKey, atKey, Function.update_self, hkey]
      split <;> rfl

/-- What `seconds` of time leave of the keys. -/
def elapse (seconds : Nat) (keys : Keys μ α) : Keys μ α := fun key =>
  (keys key).bind fun held =>
    match held.ttl with
    | none => some held
    | some ttl => if ttl ≤ seconds then none else some { held with ttl := some (ttl - seconds) }

theorem elapse_of_lt {keys : Keys μ α} {key : String} {seconds : Nat}
    (h : ∀ left ∈ (keys key).bind Held.ttl, (seconds : Int) < left) :
    elapse seconds keys key = (keys key).map fun held =>
      { held with ttl := ((keys key).bind Held.ttl).map fun left => left - (seconds : Int) } := by
  unfold elapse
  cases hheld : keys key with
  | none => rfl
  | some held =>
      obtain ⟨set, ttl⟩ := held
      cases ttl with
      | none => rfl
      | some ttl =>
          have hlong : (seconds : Int) < ttl := by
            refine h ttl ?_
            rw [hheld]
            rfl
          show (if ttl ≤ (seconds : Int) then none else _) = _
          rw [if_neg (by omega)]
          rfl

theorem elapse_of_le {keys : Keys μ α} {key : String} {seconds : Nat} {left : Int}
    (hleft : left ∈ (keys key).bind Held.ttl) (h : left ≤ (seconds : Int)) :
    elapse seconds keys key = none := by
  unfold elapse
  cases hheld : keys key with
  | none => rfl
  | some held =>
      rw [hheld] at hleft
      have httl : held.ttl = some left := hleft
      rw [Option.bind_some, httl]
      exact if_pos h

end SortedSet

end Axes.Lib
