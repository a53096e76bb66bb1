import Axes.Bakeries.Basic
import Axes.Lib.Checked
import Axes.Orders.Basic

/-!
# Listing bakeries by page number (`list` in `handlers/bakery/mod.rs`)

The handler computes with the numbers of the query as they come. `list_faults_iff` says
when that computation is exact, in a build with overflow checks or without, and
`list_safe_iff` when the links it returns are to pages that there are, too.
-/

namespace Axes.Bakeries

open Axes.Lib Axes.Orders

structure Params where
  page : Option Nat
  size : Option Nat

structure ListPage where
  data : List Bakery
  currentPage : Nat
  pages : Nat
  size : Nat
  previousPage : Option String
  nextPage : Option String
  firstPage : String
  lastPage : String

def ListPage.links (response : ListPage) : List String :=
  response.previousPage.toList ++ response.nextPage.toList ++
    [response.firstPage, response.lastPage]

/-- `format!("{}?page={}&size={}", path, page, size)` -/
def pageLink (path : String) (page size : Nat) : String :=
  path ++ "?page=" ++ page.repr ++ "&size=" ++ size.repr

/-- The answer of the second query, or the failure the handler makes of it: Postgres takes
no negative `LIMIT` or `OFFSET`. -/
def fetchPage (rows : Nat → Nat → List Bakery) (limit offset : Int) :
    Checked AppError (List Bakery) :=
  if limit < 0 ∨ offset < 0 then .fail (.new "Internal server error" 500)
  else pure (rows limit.toNat offset.toNat)

/-- `pages` of `list` -/
def countPages (total size : Nat) : Checked AppError Nat :=
  if total = 0 then pure 1 else Checked.divCeil total size

/-- `previous_page` of `list` -/
def previousPage (checks : Bool) (path : String) (page size : Nat) :
    Checked AppError (Option String) :=
  if 1 < page then do
    let previous ← Checked.sub checks page 1
    pure (some (pageLink path previous size))
  else pure none

/-- `next_page` of `list` -/
def nextPage (checks : Bool) (path : String) (page pages size : Nat) :
    Checked AppError (Option String) :=
  if page < pages then do
    let next ← Checked.add checks page 1
    pure (some (pageLink path next size))
  else pure none

/-- `list`, for a table that counts `total` rows and returns `rows limit offset`; `checks`
says whether the build checks for overflow. -/
def list (checks : Bool) (params : Params) (path : String) (total : Nat)
    (rows : Nat → Nat → List Bakery) : Checked AppError ListPage := do
  let page := params.page.getD 1
  let size := params.size.getD 10
  let skipped ← Checked.sub checks page 1
  let product ← Checked.mul checks skipped size
  let offset ← Checked.asI64 product
  let pages ← countPages total size
  let limit ← Checked.asI64 size
  let bakeries ← fetchPage rows limit offset
  let previousPage ← previousPage checks path page size
  let nextPage ← nextPage checks path page pages size
  pure {
    data := bakeries
    currentPage := page
    pages := pages
    size := size
    previousPage := previousPage
    nextPage := nextPage
    firstPage := pageLink path 1 size
    lastPage := pageLink path pages size }

/-- The pages of `total` rows. -/
def pageCount (total size : Nat) : Nat := if total = 0 then 1 else (total + size - 1) / size

/-- The numbers of a query with which the handler computes exactly. -/
structure Exact (page size total : Nat) : Prop where
  page_pos : 1 ≤ page
  size_lt : size < 2 ^ 63
  offset_lt : (page - 1) * size < 2 ^ 63
  size_ne : total = 0 ∨ size ≠ 0

/-- What the handler answers when it computes exactly. -/
def exactPage (page size : Nat) (path : String) (total : Nat) (rows : Nat → Nat → List Bakery) :
    ListPage where
  data := rows size ((page - 1) * size)
  currentPage := page
  pages := pageCount total size
  size := size
  previousPage := if 1 < page then some (pageLink path (page - 1) size) else none
  nextPage := if page < pageCount total size then some (pageLink path (page + 1) size) else none
  firstPage := pageLink path 1 size
  lastPage := pageLink path (pageCount total size) size

variable {checks : Bool} {params : Params} {path : String} {total : Nat}
  {rows : Nat → Nat → List Bakery}

theorem pageCount_pos {total size : Nat} (h : total = 0 ∨ size ≠ 0) : 1 ≤ pageCount total size := by
  unfold pageCount
  split
  · exact le_refl 1
  · next hne =>
      have hsize : 0 < size := Nat.pos_of_ne_zero (h.resolve_left hne)
      exact (Checked.lt_ceil_iff hsize).mpr (by omega)

theorem pageCount_le (total size : Nat) : pageCount total size ≤ total + 1 := by
  unfold pageCount
  split
  · omega
  · rcases Nat.eq_zero_or_pos size with hzero | hsize
    · rw [hzero, Nat.div_zero]
      omega
    · by_contra hlt
      have hmore := (Checked.lt_ceil_iff hsize).mp (Nat.lt_of_not_le hlt)
      have hle := Nat.le_mul_of_pos_right (total + 1) hsize
      omega

/-- There is a page behind page `k` when there are rows behind its last. -/
theorem lt_pageCount_iff {total size k : Nat} (h : total = 0 ∨ size ≠ 0) (hk : 1 ≤ k) :
    k < pageCount total size ↔ k * size < total := by
  unfold pageCount
  split
  · next hzero =>
      subst hzero
      exact iff_of_false (by omega) (Nat.not_lt_zero _)
  · next hne => exact Checked.lt_ceil_iff (Nat.pos_of_ne_zero (h.resolve_left hne))

theorem countPages_eq {total size : Nat} (h : total = 0 ∨ size ≠ 0) :
    countPages total size = pure (pageCount total size) := by
  unfold countPages pageCount
  split
  · rfl
  · next hne => exact Checked.divCeil_eq (h.resolve_left hne)

theorem previousPage_eq {page size : Nat} (h : 1 ≤ page) :
    previousPage checks path page size =
      pure (if 1 < page then some (pageLink path (page - 1) size) else none) := by
  unfold previousPage
  split
  · rw [Checked.sub_eq checks h, Checked.pure_bind]
  · rfl

theorem nextPage_eq {page pages size : Nat} (h : pages < 2 ^ 64) :
    nextPage checks path page pages size =
      pure (if page < pages then some (pageLink path (page + 1) size) else none) := by
  unfold nextPage
  split
  · rw [Checked.add_eq checks (by omega), Checked.pure_bind]
  · rfl

theorem list_eq (h : Exact (params.page.getD 1) (params.size.getD 10) total)
    (htotal : total < 2 ^ 63) :
    list checks params path total rows =
      pure (exactPage (params.page.getD 1) (params.size.getD 10) path total rows) := by
  obtain ⟨hpage, hsize, hoffset, hne⟩ := h
  have hpages := pageCount_le total (params.size.getD 10)
  have hfetched : fetchPage rows (params.size.getD 10 : Nat)
      ((params.page.getD 1 - 1) * params.size.getD 10 : Nat) =
      pure (rows (params.size.getD 10) ((params.page.getD 1 - 1) * params.size.getD 10)) :=
    if_neg (by omega)
  simp only [list, Checked.sub_eq checks hpage, Checked.mul_eq checks (hoffset.trans (by decide)),
    Checked.asI64_eq hoffset, countPages_eq hne, Checked.asI64_eq hsize, hfetched,
    previousPage_eq hpage, Checked.pure_bind]
  rw [nextPage_eq (by omega)]
  rfl

theorem faults_countPages_bind {size : Nat} {β : Type} (f : Nat → Checked AppError β) :
    (countPages total size >>= f).faults = [] ↔
      (total = 0 ∨ size ≠ 0) ∧ (f (pageCount total size)).faults = [] := by
  refine Checked.faults_bind_iff f countPages_eq ?_
  intro h
  unfold countPages at h
  split at h
  · next hzero => exact .inl hzero
  · exact .inr (Checked.ne_zero_of_divCeil h)

/-- The handler computes exactly on no other numbers. -/
theorem list_faults_iff (htotal : total < 2 ^ 63) :
    (list checks params path total rows).faults = [] ↔
      Exact (params.page.getD 1) (params.size.getD 10) total := by
  constructor
  · intro h
    simp only [list, Checked.faults_sub_bind, Checked.faults_mul_bind,
      Checked.faults_asI64_bind, faults_countPages_bind] at h
    obtain ⟨hpage, -, hoffset, hne, hsize, -⟩ := h
    exact ⟨hpage, hsize, hoffset, hne⟩
  · intro h
    rw [list_eq h htotal]
    rfl

/-! ## Links -/

/-- A link tells its page. -/
theorem pageLink_inj {page other size : Nat}
    (h : pageLink path page size = pageLink path other size) : page = other := by
  unfold pageLink at h
  rw [String.append_left_inj, String.append_left_inj] at h
  exact Text.append_natRepr_inj h

/-- The page before is one that there is when the page is not beyond the one after the
last. -/
theorem previous_le_iff {page size : Nat} (h : total = 0 ∨ size ≠ 0) :
    page - 1 ≤ pageCount total size ↔ page ≤ 2 ∨ (page - 2) * size < total := by
  have hpos := pageCount_pos h
  by_cases hpage : page ≤ 2
  · exact iff_of_true (by omega) (.inl hpage)
  · have hprevious : page - 1 ≤ pageCount total size ↔ page - 2 < pageCount total size := by omega
    rw [hprevious, or_iff_right hpage, lt_pageCount_iff h (by omega)]

/-- **The links are to pages that there are** when the page is not beyond the one after the
last. -/
theorem links_iff {page size : Nat} (h : total = 0 ∨ size ≠ 0) (hpage : 1 ≤ page) :
    (∀ n, pageLink path n size ∈ (exactPage page size path total rows).links →
      1 ≤ n ∧ n ≤ pageCount total size) ↔ page ≤ 2 ∨ (page - 2) * size < total := by
  have hpos := pageCount_pos h
  rw [← previous_le_iff h]
  simp only [ListPage.links, exactPage, List.mem_append, Option.mem_toList, List.mem_cons,
    List.not_mem_nil, or_false]
  constructor
  · intro hlinks
    by_cases hfirst : 1 < page
    · exact (hlinks (page - 1) (.inl (.inl (by rw [if_pos hfirst])))).2
    · omega
  · rintro hprevious n ((hlink | hlink) | hlink | hlink)
    · split at hlink
      · obtain rfl := pageLink_inj (Option.some.inj hlink)
        omega
      · cases hlink
    · split at hlink
      · obtain rfl := pageLink_inj (Option.some.inj hlink)
        omega
      · cases hlink
    · obtain rfl := pageLink_inj hlink
      exact ⟨le_refl 1, hpos⟩
    · obtain rfl := pageLink_inj hlink
      exact ⟨hpos, le_refl _⟩

/-- **Listing by page number is safe**, in its arithmetic and its links, if and only if
neither the page nor the size is zero (a size of zero does no harm to an empty table), the
size and the offset are numbers of an `i64`, and the page is not beyond the one after the
last. -/
theorem list_safe_iff (checks : Bool) (params : Params) (path : String) (total : Nat)
    (rows : Nat → Nat → List Bakery) (htotal : total < 2 ^ 63) :
    ((list checks params path total rows).faults = [] ∧
      ∃ response, (list checks params path total rows).result = .ok response ∧
        ∀ n, pageLink path n response.size ∈ response.links → 1 ≤ n ∧ n ≤ response.pages) ↔
      Exact (params.page.getD 1) (params.size.getD 10) total ∧
        (params.page.getD 1 ≤ 2 ∨
          (params.page.getD 1 - 2) * params.size.getD 10 < total) := by
  rw [list_faults_iff htotal]
  constructor
  · rintro ⟨hexact, response, hresponse, hlinks⟩
    rw [list_eq hexact htotal] at hresponse
    obtain rfl := Except.ok.inj hresponse
    exact ⟨hexact, (links_iff hexact.size_ne hexact.page_pos).mp hlinks⟩
  · rintro ⟨hexact, hnear⟩
    refine ⟨hexact, _, by rw [list_eq hexact htotal]; rfl, ?_⟩
    exact (links_iff hexact.size_ne hexact.page_pos).mpr hnear

theorem list_safe_secondPage :
    (list true ⟨some 2, none⟩ "/api/bakery" 25 fun _ _ => []).faults = [] ∧
      ∃ response, (list true ⟨some 2, none⟩ "/api/bakery" 25 fun _ _ => []).result = .ok response ∧
        ∀ n, pageLink "/api/bakery" n response.size ∈ response.links →
          1 ≤ n ∧ n ≤ response.pages :=
  (list_safe_iff true ⟨some 2, none⟩ "/api/bakery" 25 (fun _ _ => []) (by decide)).mpr
    ⟨⟨by decide, by decide, by decide, by decide⟩, by decide⟩

/-- Page zero: a panic in a build that checks, and one wrong number after another in a
build that does not. -/
theorem not_list_safe :
    (list true ⟨some 0, none⟩ "/api/bakery" 25 fun _ _ => []).faults = [.underflow] ∧
    (list true ⟨some 0, none⟩ "/api/bakery" 25 fun _ _ => []).result = .error .panic ∧
    (list false ⟨some 0, none⟩ "/api/bakery" 25 fun _ _ => []).faults =
      [.underflow, .overflow, .negative] :=
  ⟨rfl, rfl, rfl⟩

end Axes.Bakeries
