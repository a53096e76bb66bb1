import Mathlib.Data.List.Basic
import Mathlib.Data.List.Nodup

/-!
# SQL tables as lists of rows

`UPDATE … SET … WHERE` is a map that touches the rows a predicate selects, and
reports how many those were. What an update does not set, it does not change:
`map_updateWhere` is the frame rule for a column.
-/

namespace Axes.Lib.Table

variable {ρ κ : Type*}

/-- `UPDATE t SET f WHERE p`. -/
def updateWhere (p : ρ → Bool) (f : ρ → ρ) (t : List ρ) : List ρ :=
  t.map fun row => if p row then f row else row

/-- The row count an `UPDATE … WHERE p` reports. -/
def rowsAffected (p : ρ → Bool) (t : List ρ) : Nat := t.countP p

variable {p : ρ → Bool} {f : ρ → ρ} {t : List ρ}

theorem mem_updateWhere {row' : ρ} : row' ∈ updateWhere p f t ↔
    ∃ row ∈ t, row' = if p row then f row else row := by
  simp only [updateWhere, List.mem_map, eq_comm]

/-- Columns the update does not set. -/
theorem map_updateWhere {column : ρ → κ} (h : ∀ row, column (f row) = column row) :
    (updateWhere p f t).map column = t.map column := by
  simp only [updateWhere, List.map_map]
  refine List.map_congr_left ?_
  intro row _
  simp only [Function.comp_apply]
  split
  · exact h row
  · rfl

/-- An update that selects no row. -/
theorem updateWhere_of_none (h : ∀ row ∈ t, p row = false) : updateWhere p f t = t := by
  unfold updateWhere
  conv_rhs => rw [← List.map_id t]
  refine List.map_congr_left ?_
  intro row hrow
  simp [h row hrow]

theorem rowsAffected_eq_zero : rowsAffected p t = 0 ↔ ∀ row ∈ t, p row = false := by
  simp [rowsAffected, List.countP_eq_zero]

/-- An update that makes no row satisfy `q` leaves no more rows that do. -/
theorem countP_updateWhere_le {q : ρ → Bool} (hq : ∀ row, q (f row) = true → q row = true) :
    (updateWhere p f t).countP q ≤ t.countP q := by
  unfold updateWhere
  rw [List.countP_map]
  refine List.countP_mono_left ?_
  intro row _ hrow
  simp only [Function.comp_apply] at hrow
  split at hrow
  · exact hq row hrow
  · exact hrow

/-- And fewer when it stops one from doing so. -/
theorem countP_updateWhere_lt {q : ρ → Bool} (hq : ∀ row, q (f row) = true → q row = true)
    (h : ∃ row ∈ t, p row = true ∧ q row = true ∧ q (f row) = false) :
    (updateWhere p f t).countP q < t.countP q := by
  obtain ⟨row, hrow, hp, hbefore, hafter⟩ := h
  obtain ⟨first, later, rfl⟩ := List.append_of_mem hrow
  have hfirst := countP_updateWhere_le (p := p) (t := first) hq
  have hlater := countP_updateWhere_le (p := p) (t := later) hq
  unfold updateWhere at hfirst hlater ⊢
  rw [List.map_append, List.map_cons, if_pos hp, List.countP_append, List.countP_append,
    List.countP_cons_of_neg (by simp [hafter]), List.countP_cons_of_pos hbefore]
  omega

/-- On a unique column an update by key affects at most one row. -/
theorem rowsAffected_le_one {key : ρ → κ} (hunique : (t.map key).Nodup) {k : κ}
    (hp : ∀ row ∈ t, p row = true → key row = k) : rowsAffected p t ≤ 1 := by
  induction t with
  | nil => simp [rowsAffected]
  | cons row t ih =>
      rw [List.map_cons, List.nodup_cons] at hunique
      have hrest := ih hunique.2 fun other hother => hp other (List.mem_cons_of_mem _ hother)
      unfold rowsAffected at hrest ⊢
      rw [List.countP_cons]
      split
      · next hrow =>
          have hkey := hp row List.mem_cons_self hrow
          have hzero : t.countP p = 0 := by
            rw [List.countP_eq_zero]
            intro other hother hsel
            have hkey' := hp other (List.mem_cons_of_mem _ hother) hsel
            exact hunique.1 (List.mem_map.mpr ⟨other, hother, hkey'.trans hkey.symm⟩)
          omega
      · omega

/-- `SELECT … WHERE key = k` after an update that keeps the key. -/
theorem find?_updateWhere [DecidableEq κ] {key : ρ → κ} (hkey : ∀ row, key (f row) = key row)
    (k : κ) : (updateWhere p f t).find? (fun row => decide (key row = k)) =
      (t.find? fun row => decide (key row = k)).map fun row => if p row then f row else row := by
  have hselect : ((fun row => decide (key row = k)) ∘ fun row => if p row then f row else row) =
      fun row => decide (key row = k) := by
    funext row
    simp only [Function.comp_apply]
    split
    · rw [hkey]
    · rfl
  rw [updateWhere, List.find?_map, hselect]

/-- On a unique column the selection by key is the row that has it. -/
theorem find?_of_unique [DecidableEq κ] {key : ρ → κ} (hunique : (t.map key).Nodup) {row : ρ}
    (hrow : row ∈ t) : t.find? (fun other => decide (key other = key row)) = some row := by
  cases hfind : t.find? (fun other => decide (key other = key row)) with
  | none => simpa using List.find?_eq_none.mp hfind row hrow
  | some other =>
      have hselected := List.find?_some hfind
      have hkey : key other = key row := of_decide_eq_true hselected
      rw [List.inj_on_of_nodup_map hunique (List.mem_of_find?_eq_some hfind) hrow hkey]

theorem filter_of_unique [DecidableEq κ] {key : ρ → κ} (hunique : (t.map key).Nodup) {row : ρ}
    (hrow : row ∈ t) : t.filter (fun other => decide (key other = key row)) = [row] := by
  induction t with
  | nil => cases hrow
  | cons first t ih =>
      rw [List.map_cons, List.nodup_cons] at hunique
      rcases List.mem_cons.mp hrow with rfl | hrest
      · have hrest : t.filter (fun other => decide (key other = key row)) = [] := by
          refine List.filter_eq_nil_iff.mpr ?_
          intro other hother hkey
          exact hunique.1 (List.mem_map.mpr ⟨other, hother, of_decide_eq_true hkey⟩)
        rw [List.filter_cons_of_pos (by simp), hrest]
      · have hne : key first ≠ key row := fun hkey =>
          hunique.1 (List.mem_map.mpr ⟨row, hrest, hkey.symm⟩)
        rw [List.filter_cons_of_neg (by simpa using hne), ih hunique.2 hrest]

/-- A column of two tables with the same keys, where rows of one key agree on it. -/
theorem map_eq_of_keys {α : Type*} {key : ρ → κ} {column : ρ → α} :
    ∀ {t t' : List ρ}, t.map key = t'.map key →
      (∀ row ∈ t, ∀ row' ∈ t', key row = key row' → column row = column row') →
      t.map column = t'.map column := by
  intro t
  induction t with
  | nil =>
      intro t' hkeys _
      obtain rfl := List.map_eq_nil_iff.mp hkeys.symm
      rfl
  | cons row t ih =>
      intro t' hkeys hcolumn
      cases t' with
      | nil => cases hkeys
      | cons row' t' =>
          obtain ⟨hkey, hrest⟩ := List.cons.inj hkeys
          rw [List.map_cons, List.map_cons,
            hcolumn row List.mem_cons_self row' List.mem_cons_self hkey,
            ih hrest fun other hother other' hother' =>
              hcolumn other (List.mem_cons_of_mem _ hother) other'
                (List.mem_cons_of_mem _ hother')]

/-! ## Inserting a row -/

theorem forall_mem_insert {P : ρ → Prop} {row : ρ} :
    (∀ other ∈ t ++ [row], P other) ↔ (∀ other ∈ t, P other) ∧ P row := by
  rw [List.forall_mem_append, List.forall_mem_singleton]

/-- A unique column stays unique when the new row's value is new. -/
theorem nodup_map_insert {column : ρ → κ} {row : ρ} (hunique : (t.map column).Nodup)
    (hfresh : column row ∉ t.map column) : ((t ++ [row]).map column).Nodup := by
  rw [List.map_append, List.map_singleton]
  exact hunique.append (List.nodup_singleton _) (List.disjoint_singleton.mpr hfresh)

end Axes.Lib.Table
