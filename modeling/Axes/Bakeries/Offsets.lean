import Axes.Bakeries.Listing
import Axes.Bakeries.Walk

/-!
# Pages by number and pages by cursor

Over a table that does not change, the page that a walk by cursor gets from its call number
`k` is what is left of the table behind `k - 1` full pages (`offset_run`), which is what the
other handler asks for by its offset.
-/

namespace Axes.Bakeries

open Axes.Lib Axes.Orders

/-- `list` over a table. -/
def Table.list (checks : Bool) (params : Params) (path : String) (table : Table) :
    Checked AppError ListPage :=
  Bakeries.list checks params path table.rows.length
    fun limit offset => (table.rows.drop offset).take limit

theorem sanitizedCursorPageSize_of_pos {size : Nat} (h : 1 ≤ size) :
    sanitizedCursorPageSize (some size) = size := by
  unfold sanitizedCursorPageSize
  split
  · next hzero =>
      obtain rfl := Option.some.inj hzero
      omega
  · next hnone => cases hnone
  · next hsome => exact (Option.some.inj hsome).symm

/-- Both handlers count pages alike. -/
theorem pageCount_eq_max (total : Nat) {size : Nat} (h : 1 ≤ size) :
    pageCount total size = max 1 ((total + size - 1) / size) := by
  unfold pageCount
  split
  · next hzero =>
      rw [hzero, Nat.zero_add, Nat.div_eq_of_lt (by omega)]
      rfl
  · next hne =>
      have hpos : 0 < (total + size - 1) / size := (Checked.lt_ceil_iff h).mpr (by omega)
      omega

namespace Walk

variable {usizeMax : Nat} {size : Option Nat} {walk : Walk} {table : Table}
  {ts : List (Transition Walk WalkAction)}

/-- What is behind the cursor of a walk is what its full pages have left. -/
theorem Fixed.beyond_eq {size : Nat} (h : walk.Fixed size table) {after : Option Int}
    (hafter : walk.after? = some after) :
    Paging.beyond Bakery.id after table.rows = table.rows.drop (walk.pages.length * size) := by
  obtain ⟨hsplit, hlength, -⟩ := h.split after hafter
  rw [← hlength]
  conv_rhs => rw [← hsplit]
  exact List.drop_left.symm

/-- The page of a table with `k` full pages in front. -/
def offsetPage (size k : Nat) (table : Table) : List Bakery × Bool :=
  ((table.rows.drop (k * size)).take size, decide ((k + 1) * size < table.rows.length))

theorem Fixed.pageOf_eq (h : walk.Fixed (sanitizedCursorPageSize size) table)
    {after : Option Int} (hafter : walk.after? = some after) :
    ((pageOf size after table).data, (pageOf size after table).hasMore) =
      offsetPage (sanitizedCursorPageSize size) walk.pages.length table := by
  have hbeyond := h.beyond_eq hafter
  have hpos := sanitizedCursorPageSize_pos size
  unfold pageOf offsetPage
  refine Prod.ext ?_ ?_
  · show Paging.page Bakery.id after _ table.rows = _
    rw [Paging.page, hbeyond]
  · have hmore : sanitizedCursorPageSize size <
        (Paging.beyond Bakery.id after table.rows).length ↔
        (walk.pages.length + 1) * sanitizedCursorPageSize size < table.rows.length := by
      rw [hbeyond, List.length_drop, Nat.add_mul]
      omega
    show (Paging.next Bakery.id after _ table.rows).isSome = _
    by_cases hlt : sanitizedCursorPageSize size <
        (Paging.beyond Bakery.id after table.rows).length
    · rw [Paging.next_isSome hpos hlt]
      exact (decide_eq_true (hmore.mp hlt)).symm
    · rw [Paging.next, if_neg hlt]
      exact (decide_eq_false (mt hmore.mpr hlt)).symm

/-- **Every page of a walk is a page by offset.** -/
theorem offset_run (hrun : (system usizeMax size).Run ⟨table, []⟩ ts walk)
    (hcalls : ∀ tr ∈ ts, tr.action.isCall = true) :
    ∀ k page, walk.pages[k]? = some page →
      (page.data, page.hasMore) = offsetPage (sanitizedCursorPageSize size) k table := by
  induction hrun with
  | refl =>
      intro k page hpage
      cases hpage
  | @step ts walk action walk' hrun hstep ih =>
      have hearlier : ∀ tr ∈ ts, tr.action.isCall = true :=
        fun tr htr => hcalls tr (List.mem_append_left _ htr)
      have hfixed := (fixed_run hrun hearlier).1
      rcases step_cases hstep with ⟨hother, -⟩ | ⟨-, after, hafter, rfl⟩
      · have hcall := hcalls _ (List.mem_append_right _ List.mem_cons_self)
        rw [hother] at hcall
        cases hcall
      · intro k page hpage
        rw [List.getElem?_append] at hpage
        split at hpage
        · exact ih hearlier k page hpage
        · next hlt =>
            obtain ⟨hk, rfl⟩ := List.getElem?_eq_some_iff.mp hpage
            obtain rfl : k = walk.pages.length := by
              rw [List.length_singleton] at hk
              omega
            rw [List.getElem_singleton, hfixed.same]
            exact hfixed.pageOf_eq hafter

/-- **Offset and cursor pagination agree.** Over a fixed table, page `k` of the one has the
data of the `k`-th page of a walk of the other, is followed by another page when that page
says so, and reports as many pages as the walk makes calls. -/
theorem list_eq_walk (usizeMax : Nat) (checks : Bool) (path : String) (table : Table)
    {size k : Nat} (hsize : 1 ≤ size) (hk : 1 ≤ k) (hfits : k * size ≤ i64Max)
    (hrun : (system usizeMax (some size)).Run ⟨table, []⟩ ts walk)
    (hcalls : ∀ tr ∈ ts, tr.action.isCall = true) (hended : walk.after? = none)
    (hpages : k ≤ ts.length) :
    ∃ response page,
      table.list checks ⟨some k, some size⟩ path = pure response ∧
      walk.pages[k - 1]? = some page ∧
      response.data = page.data ∧
      response.nextPage.isSome = page.hasMore ∧
      response.pages = ts.length := by
  obtain ⟨hfixed, hlength⟩ := fixed_run hrun hcalls
  have hsame := sanitizedCursorPageSize_of_pos hsize
  have htotal := table.length_le
  have hrows : table.rows.length = 0 ∨ size ≠ 0 := .inr (by omega)
  have hle : (k - 1) * size + size = k * size := by
    rw [← Nat.succ_mul]
    congr 1
    omega
  have hexact : Exact k size table.rows.length :=
    ⟨hk, by unfold i64Max at hfits; omega, by unfold i64Max at hfits; omega, hrows⟩
  have hcount : pageCount table.rows.length size = ts.length := by
    rw [hlength, (hfixed.ended hended).2, hsame, pageCount_eq_max _ hsize]
  obtain ⟨page, hpage⟩ : ∃ page, walk.pages[k - 1]? = some page :=
    ⟨_, List.getElem?_eq_getElem (by omega)⟩
  obtain ⟨hdata, hmore⟩ := Prod.mk.inj (offset_run hrun hcalls (k - 1) page hpage)
  rw [hsame] at hdata hmore
  refine ⟨_, page, list_eq hexact (by omega), hpage, hdata.symm, ?_, hcount⟩
  rw [hmore]
  show (if k < pageCount table.rows.length size then _ else none).isSome = _
  rw [Nat.sub_add_cancel hk]
  by_cases hnext : k * size < table.rows.length
  · rw [if_pos ((lt_pageCount_iff hrows hk).mpr hnext), decide_eq_true hnext]
    rfl
  · rw [if_neg (mt (lt_pageCount_iff hrows hk).mp hnext), decide_eq_false hnext]
    rfl

theorem list_eq_walk_threeRows : ∃ ts walk response page,
    (system (2 ^ 64 - 1) (some 2)).Run ⟨threeRows, []⟩ ts walk ∧
    threeRows.list true ⟨some 2, some 2⟩ "/api/bakery" = pure response ∧
    walk.pages[1]? = some page ∧ response.data = page.data := by
  have hchecked : ((system (2 ^ 64 - 1) (some 2)).exec [] ⟨threeRows, []⟩
      [.listByCursor, .listByCursor]).any (fun r => r.2.after? = none ∧ 2 ≤ r.1.length ∧
        ∀ tr ∈ r.1, tr.action.isCall = true) = true := by
    decide
  obtain ⟨ts, walk, hrun, hchecked⟩ := TSys.exists_run hchecked
  obtain ⟨hended, hpages, hcalls⟩ := of_decide_eq_true hchecked
  obtain ⟨response, page, hlist, hpage, hdata, -⟩ :=
    list_eq_walk (2 ^ 64 - 1) true "/api/bakery" threeRows (by decide) (by decide) (by decide) hrun
      hcalls hended hpages
  exact ⟨ts, walk, response, page, hrun, hlist, hpage, hdata⟩

end Walk

end Axes.Bakeries
