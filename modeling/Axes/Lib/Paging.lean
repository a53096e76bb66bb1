import Mathlib.Data.List.Basic
import Mathlib.Order.Lattice

/-!
# Paging through rows by key

A request asks for the rows behind a cursor, at most `size` of them in key order; the key
of the last row of a full page is the cursor of the next. A page and what is behind its
cursor are together what was behind the cursor before (`beyond_eq_page_append`), and the
rows may change between two requests.
-/

namespace Axes.Lib.Paging

variable {ρ κ : Type*} [LinearOrder κ] (key : ρ → κ)

/-- The rows are listed by their keys, and no key is there twice. -/
def Ascending (rows : List ρ) : Prop := rows.Pairwise fun row other => key row < key other

instance (rows : List ρ) : Decidable (Ascending key rows) :=
  inferInstanceAs (Decidable (rows.Pairwise fun row other => key row < key other))

/-- The rows behind a cursor; all of them without one. -/
def beyond (cursor : Option κ) (rows : List ρ) : List ρ :=
  rows.filter fun row => cursor.all fun c => decide (c < key row)

def page (cursor : Option κ) (size : Nat) (rows : List ρ) : List ρ :=
  (beyond key cursor rows).take size

/-- The cursor of the next request, unless the page is the last. -/
def next (cursor : Option κ) (size : Nat) (rows : List ρ) : Option κ :=
  if size < (beyond key cursor rows).length then
    (page key cursor size rows).getLast?.map key
  else none

variable {key} {cursor : Option κ} {c : κ} {size : Nat} {rows : List ρ} {row : ρ}

@[simp] theorem beyond_none : beyond key none rows = rows := by
  simp [beyond]

theorem mem_beyond : row ∈ beyond key cursor rows ↔ row ∈ rows ∧ ∀ c ∈ cursor, c < key row := by
  cases cursor <;> simp [beyond]

theorem mem_beyond_of_mem_page (h : row ∈ page key cursor size rows) :
    row ∈ beyond key cursor rows :=
  List.mem_of_mem_take h

theorem Ascending.page (h : Ascending key rows) : Ascending key (page key cursor size rows) :=
  h.sublist ((List.take_sublist _ _).trans List.filter_sublist)

/-- Behind the last row of a page is what the page left. -/
theorem beyond_getLast (h : Ascending key rows) {last : ρ}
    (hlast : (Paging.page key cursor size rows).getLast? = some last) :
    beyond key (some (key last)) rows = (beyond key cursor rows).drop size := by
  have hascending : Ascending key (beyond key cursor rows) := h.sublist List.filter_sublist
  rw [← List.take_append_drop size (beyond key cursor rows)] at hascending
  obtain ⟨htaken, -, hacross⟩ := List.pairwise_append.mp hascending
  have hmem : last ∈ (beyond key cursor rows).take size := List.mem_of_getLast? hlast
  -- the rows behind the last row were behind the cursor
  have hsame : beyond key (some (key last)) rows =
      (beyond key cursor rows).filter fun row => decide (key last < key row) := by
    unfold beyond
    rw [List.filter_filter]
    refine List.filter_congr ?_
    intro row _
    have hbehind := (mem_beyond.mp (List.mem_of_mem_take hmem)).2
    cases cursor with
    | none => simp
    | some c =>
        have hc : c < key last := hbehind c rfl
        by_cases hrow : key last < key row
        · simp [hrow, hc.trans hrow]
        · simp [hrow]
  have htake : ((beyond key cursor rows).take size).filter
      (fun row => decide (key last < key row)) = [] := by
    refine List.filter_eq_nil_iff.mpr ?_
    intro row hrow hlt
    have hlt := of_decide_eq_true hlt
    obtain ⟨front, hfront⟩ := List.getLast?_eq_some_iff.mp hlast
    have hfront : (beyond key cursor rows).take size = front ++ [last] := hfront
    rw [hfront] at hrow htaken
    rcases List.mem_append.mp hrow with hearlier | hself
    · have hle := (List.pairwise_append.mp htaken).2.2 row hearlier last List.mem_cons_self
      exact absurd hlt hle.not_gt
    · obtain rfl := List.mem_singleton.mp hself
      exact absurd hlt (lt_irrefl _)
  have hdrop : ((beyond key cursor rows).drop size).filter
      (fun row => decide (key last < key row)) = (beyond key cursor rows).drop size := by
    refine List.filter_eq_self.mpr ?_
    intro row hrow
    exact decide_eq_true (hacross last hmem row hrow)
  rw [hsame]
  conv_lhs => rw [← List.take_append_drop size (beyond key cursor rows)]
  rw [List.filter_append, htake, hdrop, List.nil_append]

/-- There is a next cursor when more rows than a page are behind the cursor. -/
theorem next_isSome (hsize : 0 < size) (hmore : size < (beyond key cursor rows).length) :
    (next key cursor size rows).isSome = true := by
  have hlength : (page key cursor size rows).length = size :=
    List.length_take_of_le (Nat.le_of_lt hmore)
  rw [next, if_pos hmore, Option.isSome_map, List.getLast?_isSome]
  intro hnil
  rw [hnil, List.length_nil] at hlength
  omega

/-- The last page is all there is behind the cursor. -/
theorem page_of_next_none (hsize : 0 < size) (hnext : next key cursor size rows = none) :
    page key cursor size rows = beyond key cursor rows := by
  refine List.take_of_length_le (Nat.le_of_not_lt ?_)
  intro hmore
  have hsome := next_isSome hsize hmore
  rw [hnext] at hsome
  cases hsome

/-- Another page is full, ends at the next cursor, and leaves rows behind it. -/
theorem page_of_next_some (h : Ascending key rows) (hnext : next key cursor size rows = some c) :
    (page key cursor size rows).length = size ∧
      (∃ last, (page key cursor size rows).getLast? = some last ∧ key last = c) ∧
      beyond key cursor rows = page key cursor size rows ++ beyond key (some c) rows ∧
      beyond key (some c) rows ≠ [] := by
  unfold next at hnext
  split at hnext
  · next hlt =>
      obtain ⟨last, hlast, rfl⟩ := Option.map_eq_some_iff.mp hnext
      have hbeyond := beyond_getLast h hlast
      refine ⟨List.length_take_of_le (Nat.le_of_lt hlt), ⟨last, hlast, rfl⟩, ?_, ?_⟩
      · rw [hbeyond, page, List.take_append_drop]
      · rw [hbeyond]
        intro hnil
        have hle := List.drop_eq_nil_iff.mp hnil
        omega
  · cases hnext

/-- There is a next cursor when the page has rows and there are rows behind its last. -/
theorem next_isSome_iff (h : Ascending key rows) (hsize : 0 < size) :
    (next key cursor size rows).isSome = true ↔
      ∃ last, (page key cursor size rows).getLast? = some last ∧
        ∃ row ∈ rows, key last < key row := by
  constructor
  · intro hsome
    obtain ⟨c, hnext⟩ := Option.isSome_iff_exists.mp hsome
    obtain ⟨-, ⟨last, hlast, rfl⟩, -, hbehind⟩ := page_of_next_some h hnext
    obtain ⟨row, hrow⟩ := List.exists_mem_of_ne_nil _ hbehind
    obtain ⟨hrow, hlt⟩ := mem_beyond.mp hrow
    exact ⟨last, hlast, row, hrow, hlt _ rfl⟩
  · rintro ⟨last, hlast, row, hrow, hlt⟩
    cases hnext : next key cursor size rows with
    | some c => rfl
    | none =>
        have hall := page_of_next_none hsize hnext
        have hbeyond := beyond_getLast h hlast
        have hdrop : (beyond key cursor rows).drop size = [] := by
          refine List.drop_eq_nil_iff.mpr ?_
          rw [← hall]
          exact List.length_take_le _ _
        have hmem : row ∈ beyond key (some (key last)) rows := by
          refine mem_beyond.mpr ⟨hrow, ?_⟩
          intro c hc
          obtain rfl := Option.mem_some.mp hc
          exact hlt
        rw [hbeyond, hdrop] at hmem
        cases hmem

end Axes.Lib.Paging
