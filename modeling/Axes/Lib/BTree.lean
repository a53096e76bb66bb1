import Mathlib.Data.List.Nodup
import Std.Data.ExtTreeMap.Lemmas
import Std.Data.ExtTreeSet.Lemmas

/-!
# Ordered maps and sets

`BTreeMap` and `BTreeSet` are the extensional search trees of the standard library,
iterated in key order. The lemmas here speak of equal keys instead of `compare`, and
say how the values change with an insertion or a removal, up to order.
-/

namespace Axes.Lib

abbrev BTreeMap (κ α : Type) [Ord κ] := Std.ExtTreeMap κ α compare

abbrev BTreeSet (κ : Type) [Ord κ] := Std.ExtTreeSet κ compare

namespace BTreeMap

variable {κ α : Type} [Ord κ] [Std.TransOrd κ] [Std.LawfulEqOrd κ] {m : BTreeMap κ α}
  {k k' : κ} {v : α}

/-- The values, in key order. -/
def values (m : BTreeMap κ α) : List α := m.toList.map (·.2)

theorem find_insert [DecidableEq κ] :
    (m.insert k v)[k']? = if k' = k then some v else m[k']? := by
  simp only [Std.ExtTreeMap.getElem?_insert, Std.compare_eq_iff_eq, @eq_comm _ k]

theorem find_erase [DecidableEq κ] : (m.erase k)[k']? = if k' = k then none else m[k']? := by
  simp only [Std.ExtTreeMap.getElem?_erase, Std.compare_eq_iff_eq, @eq_comm _ k]

theorem mem_insert_iff : k' ∈ m.insert k v ↔ k' = k ∨ k' ∈ m := by
  simp only [Std.ExtTreeMap.mem_insert, Std.compare_eq_iff_eq, @eq_comm _ k]

theorem mem_erase_iff : k' ∈ m.erase k ↔ k' ≠ k ∧ k' ∈ m := by
  simp only [Std.ExtTreeMap.mem_erase, ne_eq, Std.compare_eq_iff_eq, @eq_comm _ k]

omit [Std.LawfulEqOrd κ] in
theorem mem_iff : k ∈ m ↔ ∃ v, m[k]? = some v := by
  rw [Std.ExtTreeMap.mem_iff_isSome_getElem?, Option.isSome_iff_exists]

/-- After a list of insertions a key has its last value, or the one it had. -/
theorem getElem?_foldl_insert [DecidableEq κ] (entries : List (κ × α)) (m : BTreeMap κ α)
    (key : κ) :
    (entries.foldl (fun m e => m.insert e.1 e.2) m)[key]? =
      ((entries.reverse.find? (·.1 == key)).map (·.2)).or m[key]? := by
  induction entries generalizing m with
  | nil => rfl
  | cons e entries ih =>
      rw [List.foldl_cons, ih, List.reverse_cons, List.find?_append, find_insert]
      cases entries.reverse.find? (·.1 == key) with
      | some e' => rfl
      | none =>
          by_cases hkey : key = e.1
          · simp [hkey]
          · have hne : (e.1 == key) = false := beq_eq_false_iff_ne.mpr (Ne.symm hkey)
            simp [hkey, hne]

omit [Std.TransOrd κ] [Std.LawfulEqOrd κ] in
theorem contains_eq_false [Std.TransOrd κ] : m.contains k = false ↔ k ∉ m := by
  rw [← Bool.not_eq_true, Std.ExtTreeMap.contains_iff_mem]

theorem isEmpty_iff_forall : m.isEmpty = true ↔ ∀ k, k ∉ m := by
  rw [Std.ExtTreeMap.isEmpty_iff]
  constructor
  · rintro rfl k
    simp
  · intro h
    rw [← Std.ExtTreeMap.keys_eq_nil_iff, List.eq_nil_iff_forall_not_mem]
    exact fun k hk => h k (Std.ExtTreeMap.mem_keys.mp hk)

omit [Std.LawfulEqOrd κ] in
theorem nodup_toList (m : BTreeMap κ α) : m.toList.Nodup := by
  refine List.Nodup.of_map (·.1) ?_
  rw [Std.ExtTreeMap.map_fst_toList_eq_keys]
  exact Std.ExtTreeMap.nodup_keys

theorem values_insert [DecidableEq κ] (h : k ∉ m) :
    (values (m.insert k v)).Perm (v :: values m) := by
  have hentries : (m.insert k v).toList.Perm ((k, v) :: m.toList) := by
    have hfresh : (k, v) ∉ m.toList := fun hmem =>
      h (mem_iff.mpr ⟨v, Std.ExtTreeMap.mem_toList_iff_getElem?_eq_some.mp hmem⟩)
    refine (List.perm_ext_iff_of_nodup (nodup_toList _)
      (List.nodup_cons.mpr ⟨hfresh, nodup_toList m⟩)).mpr ?_
    rintro ⟨k', v'⟩
    rw [Std.ExtTreeMap.mem_toList_iff_getElem?_eq_some, find_insert, List.mem_cons,
      Std.ExtTreeMap.mem_toList_iff_getElem?_eq_some, Prod.mk.injEq]
    by_cases hk : k' = k
    · subst hk
      have hnone : m[k']? = none := Std.ExtTreeMap.getElem?_eq_none h
      simp [hnone, eq_comm]
    · simp [hk]
  exact hentries.map (·.2)

theorem values_erase [DecidableEq κ] (h : m[k]? = some v) :
    (v :: values (m.erase k)).Perm (values m) := by
  have hentries : ((k, v) :: (m.erase k).toList).Perm m.toList := by
    have hfresh : (k, v) ∉ (m.erase k).toList := fun hmem => by
      rw [Std.ExtTreeMap.mem_toList_iff_getElem?_eq_some, find_erase, if_pos rfl] at hmem
      cases hmem
    refine (List.perm_ext_iff_of_nodup (List.nodup_cons.mpr ⟨hfresh, nodup_toList _⟩)
      (nodup_toList m)).mpr ?_
    rintro ⟨k', v'⟩
    rw [List.mem_cons, Std.ExtTreeMap.mem_toList_iff_getElem?_eq_some, find_erase,
      Std.ExtTreeMap.mem_toList_iff_getElem?_eq_some, Prod.mk.injEq]
    by_cases hk : k' = k
    · subst hk
      simp [h, eq_comm]
    · simp [hk]
  exact hentries.map (·.2)

end BTreeMap

namespace BTreeSet

variable {κ : Type} [Ord κ] [Std.TransOrd κ] [Std.LawfulEqOrd κ] {s : BTreeSet κ} {k k' : κ}

theorem mem_insert_iff : k' ∈ s.insert k ↔ k' = k ∨ k' ∈ s := by
  simp only [Std.ExtTreeSet.mem_insert, Std.compare_eq_iff_eq, @eq_comm _ k]

theorem mem_erase_iff : k' ∈ s.erase k ↔ k' ≠ k ∧ k' ∈ s := by
  simp only [Std.ExtTreeSet.mem_erase, ne_eq, Std.compare_eq_iff_eq, @eq_comm _ k]

theorem isEmpty_iff_forall : s.isEmpty = true ↔ ∀ k, k ∉ s := by
  rw [Std.ExtTreeSet.isEmpty_iff]
  constructor
  · rintro rfl k
    simp
  · intro h
    rw [← Std.ExtTreeSet.toList_eq_nil_iff, List.eq_nil_iff_forall_not_mem]
    exact fun k hk => h k (Std.ExtTreeSet.mem_toList.mp hk)

omit [Std.LawfulEqOrd κ] in
theorem nodup_toList (s : BTreeSet κ) : s.toList.Nodup := by
  have hdistinct := s.distinct_toList
  exact hdistinct.imp Std.ReflCmp.ne_of_cmp_ne_eq

theorem compare_eq_lt {a b : String} : compare a b = .lt ↔ a < b := compareOfLessAndEq_eq_lt

end BTreeSet

end Axes.Lib
