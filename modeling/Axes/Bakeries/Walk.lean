import Axes.Bakeries.Basic
import Axes.Lib.Run

/-!
# Walking the bakeries by cursor

A client asks for the first page and then for the page behind each cursor it is given,
while rows are created, updated and deleted between its calls. `Sound` says where the walk
stands: what it has returned ends where the next page begins.
-/

namespace Axes.Bakeries

open Axes.Lib

structure Walk where
  table : Table
  /-- The pages returned so far. -/
  pages : List CursorPage

inductive WalkAction
  | create (id : Int) (payload : CreateDto)
  | update (payload : UpdateDto)
  | delete (payload : DeleteDto)
  | listByCursor

def WalkAction.isCall : WalkAction → Bool
  | .listByCursor => true
  | .create _ _ | .update _ | .delete _ => false

namespace Walk

/-- The `after` of the next call; none when the walk has ended. -/
def after? (walk : Walk) : Option (Option Int) :=
  match walk.pages.getLast? with
  | none => some none
  | some page => page.nextCursor.map some

def returned (walk : Walk) : List Bakery := walk.pages.flatMap (·.data)

/-- A step of a client that asks for `size` each time. -/
def step (usizeMax : Nat) (size : Option Nat) (walk : Walk) : WalkAction → Option Walk
  | .create id payload =>
      match walk.table.create id payload with
      | none => none
      | some table => some { walk with table := table }
  | .update payload => some { walk with table := walk.table.update payload }
  | .delete payload => some { walk with table := walk.table.delete payload }
  | .listByCursor =>
      match walk.after? with
      | none => none
      | some after =>
          -- A `Vec` has at most `usize::MAX` elements.
          if (fetchCursorRows ⟨after, size⟩ walk.table).length ≤ usizeMax then
            some { walk with
              pages := walk.pages ++ [Bakeries.listByCursor usizeMax ⟨after, size⟩ walk.table] }
          else none

/-- Walks from the first call on. -/
def system (usizeMax : Nat) (size : Option Nat) : TSys Walk WalkAction where
  init walk := walk.pages = []
  step := step usizeMax size

variable {usizeMax : Nat} {size : Option Nat} {walk walk' start : Walk} {action : WalkAction}
  {ts : List (Transition Walk WalkAction)}

/-- The page of the table behind a cursor. -/
def pageOf (size : Option Nat) (after : Option Int) (table : Table) : CursorPage where
  data := Paging.page Bakery.id after (sanitizedCursorPageSize size) table.rows
  after := after
  size := sanitizedCursorPageSize size
  nextCursor := Paging.next Bakery.id after (sanitizedCursorPageSize size) table.rows
  hasMore := (Paging.next Bakery.id after (sanitizedCursorPageSize size) table.rows).isSome

/-- **What a step of a walk does.** -/
theorem step_cases (h : walk.step usizeMax size action = some walk') :
    (action.isCall = false ∧ walk'.pages = walk.pages) ∨
    (action.isCall = true ∧ ∃ after, walk.after? = some after ∧
      walk' = { walk with pages := walk.pages ++ [pageOf size after walk.table] }) := by
  cases action with
  | create id payload =>
      simp only [step] at h
      split at h
      · cases h
      · obtain rfl := Option.some.inj h
        exact .inl ⟨rfl, rfl⟩
  | update payload | delete payload =>
      obtain rfl := Option.some.inj h
      exact .inl ⟨rfl, rfl⟩
  | listByCursor =>
      simp only [step] at h
      split at h
      · cases h
      · next after hafter =>
          split at h
          · next hfits =>
              rw [listByCursor_eq hfits] at h
              obtain rfl := Option.some.inj h
              exact .inr ⟨rfl, after, hafter, rfl⟩
          · cases h

@[simp] theorem after?_concat (table : Table) (pages : List CursorPage) (page : CursorPage) :
    after? ⟨table, pages ++ [page]⟩ = page.nextCursor.map some := by
  simp [after?]

@[simp] theorem returned_concat (table : Table) (pages : List CursorPage) (page : CursorPage) :
    returned ⟨table, pages ++ [page]⟩ = pages.flatMap (·.data) ++ page.data := by
  simp [returned]

/-! ## Walks over a changing table -/

/-- Where a walk stands: what it returned is in order, and in front of the next page. -/
structure Sound (walk : Walk) : Prop where
  ascending : Paging.Ascending Bakery.id walk.returned
  passed : ∀ after, walk.after? = some after →
    ∀ row ∈ walk.returned, ∃ cursor ∈ after, row.id ≤ cursor

/-- A call behind the cursor keeps the walk in order. -/
theorem Sound.call (h : walk.Sound) {after : Option Int} (hafter : walk.after? = some after) :
    Sound { walk with pages := walk.pages ++ [pageOf size after walk.table] } := by
  have hpage : Paging.Ascending Bakery.id (pageOf size after walk.table).data :=
    walk.table.ascending.page
  have hbehind : ∀ row ∈ walk.returned, ∀ other ∈ (pageOf size after walk.table).data,
      row.id < other.id := by
    intro row hrow other hother
    obtain ⟨cursor, hcursor, hle⟩ := h.passed after hafter row hrow
    have hlt := (Paging.mem_beyond.mp (Paging.mem_beyond_of_mem_page hother)).2 cursor hcursor
    omega
  have hascending : Paging.Ascending Bakery.id
      (walk.returned ++ (pageOf size after walk.table).data) :=
    List.pairwise_append.mpr ⟨h.ascending, hpage, hbehind⟩
  constructor
  · rw [returned_concat]
    exact hascending
  · intro next hnext row hrow
    rw [after?_concat] at hnext
    rw [returned_concat] at hrow
    obtain ⟨cursor, hcursor, rfl⟩ := Option.map_eq_some_iff.mp hnext
    obtain ⟨-, ⟨last, hlast, rfl⟩, -⟩ := Paging.page_of_next_some walk.table.ascending hcursor
    refine ⟨last.id, rfl, ?_⟩
    -- the next cursor is the last id returned
    obtain ⟨front, hfront⟩ := List.getLast?_eq_some_iff.mp hlast
    have hfront : (pageOf size after walk.table).data = front ++ [last] := hfront
    rw [hfront, ← List.append_assoc] at hascending
    have hrow : row ∈ walk.returned ++ (pageOf size after walk.table).data := hrow
    rw [hfront, ← List.append_assoc] at hrow
    rcases List.mem_append.mp hrow with hearlier | hself
    · have hlt := (List.pairwise_append.mp hascending).2.2 row hearlier last List.mem_cons_self
      omega
    · rw [List.mem_singleton.mp hself]

/-- A step that leaves the pages leaves the rest of the walk. -/
theorem after?_congr (h : walk'.pages = walk.pages) : walk'.after? = walk.after? := by
  simp only [after?, h]

theorem returned_congr (h : walk'.pages = walk.pages) : walk'.returned = walk.returned := by
  simp only [returned, h]

theorem Sound.step (h : walk.Sound) (hstep : walk.step usizeMax size action = some walk') :
    walk'.Sound := by
  rcases step_cases hstep with ⟨-, hpages⟩ | ⟨-, after, hafter, rfl⟩
  · refine ⟨returned_congr hpages ▸ h.ascending, ?_⟩
    rw [after?_congr hpages, returned_congr hpages]
    exact h.passed
  · exact h.call hafter

theorem sound_run (hinit : start.pages = []) (hrun : (system usizeMax size).Run start ts walk) :
    walk.Sound := by
  induction hrun with
  | refl =>
      have hreturned : start.returned = [] := by rw [returned, hinit, List.flatMap_nil]
      refine ⟨hreturned ▸ List.Pairwise.nil, ?_⟩
      intro after _ row hrow
      rw [hreturned] at hrow
      cases hrow
  | step _ hstep ih => exact ih.step hstep

/-- The id was returned, or is behind the cursor. -/
structure Covers (walk : Walk) (id : Int) : Prop where
  ended : walk.after? = none → id ∈ walk.returned.map (·.id)
  passed : ∀ cursor, walk.after? = some (some cursor) → id ≤ cursor →
    id ∈ walk.returned.map (·.id)

/-- A page takes in what is behind its cursor up to the next. -/
theorem Covers.call {id : Int} (h : walk.Covers id) {after : Option Int}
    (hafter : walk.after? = some after) (hpresent : id ∈ walk.table.rows.map (·.id)) :
    Covers { walk with pages := walk.pages ++ [pageOf size after walk.table] } id := by
  obtain ⟨row, hrow, rfl⟩ := List.mem_map.mp hpresent
  -- what is not behind the cursor was returned before
  have hcovered : row.id ∈ walk.returned.map (·.id) ∨
      row ∈ Paging.beyond Bakery.id after walk.table.rows := by
    by_cases hbehind : ∀ cursor ∈ after, cursor < row.id
    · exact .inr (Paging.mem_beyond.mpr ⟨hrow, hbehind⟩)
    · push Not at hbehind
      obtain ⟨cursor, rfl, hle⟩ := hbehind
      exact .inl (h.passed cursor hafter hle)
  have hreturned : row.id ∈ walk.returned.map (·.id) ∨
      row ∈ (pageOf size after walk.table).data →
      row.id ∈ (walk.returned ++ (pageOf size after walk.table).data).map (·.id) := by
    rw [List.map_append, List.mem_append]
    exact Or.imp_right fun hpage => List.mem_map.mpr ⟨row, hpage, rfl⟩
  constructor
  · intro hended
    rw [after?_concat, Option.map_eq_none_iff] at hended
    have hall : (pageOf size after walk.table).data =
        Paging.beyond Bakery.id after walk.table.rows :=
      Paging.page_of_next_none (sanitizedCursorPageSize_pos size) hended
    rw [returned_concat]
    rw [← hall] at hcovered
    exact hreturned hcovered
  · intro cursor hnext hle
    rw [after?_concat] at hnext
    obtain ⟨_, hcursor, hsame⟩ := Option.map_eq_some_iff.mp hnext
    obtain rfl := Option.some.inj hsame
    obtain ⟨-, -, hsplit, -⟩ := Paging.page_of_next_some walk.table.ascending hcursor
    rw [returned_concat]
    refine hreturned (hcovered.imp_right ?_)
    intro hbehind
    rw [hsplit] at hbehind
    rcases List.mem_append.mp hbehind with hpage | hlater
    · exact hpage
    · have hlt := (Paging.mem_beyond.mp hlater).2 _ rfl
      omega

/-- What is there at every call is covered. -/
theorem covers_run (hinit : start.pages = [])
    (hrun : (system usizeMax size).Run start ts walk) {id : Int}
    (hpresent : ∀ tr ∈ ts, tr.action.isCall = true → id ∈ tr.pre.table.rows.map (·.id)) :
    walk.Covers id := by
  have hstart : start.after? = some none := by simp [after?, hinit]
  have hcovers : start.Covers id := by
    constructor
    · intro hnone
      rw [hstart] at hnone
      cases hnone
    · intro cursor hsome
      rw [hstart] at hsome
      cases hsome
  refine (hrun.always (P := fun walk => walk.Covers id)
    (Q := fun tr => tr.action.isCall = true → id ∈ tr.pre.table.rows.map (·.id))
    hcovers ?_ hpresent).1
  intro walk action walk' h hhere hstep
  rcases step_cases hstep with ⟨-, hpages⟩ | ⟨hcall, after, hafter, rfl⟩
  · constructor
    · rw [after?_congr hpages, returned_congr hpages]
      exact h.ended
    · rw [after?_congr hpages, returned_congr hpages]
      exact h.passed
  · exact h.call hafter (hhere hcall)

/-! ## Walks over a fixed table -/

/-- Where a walk stands over a table that does not change. -/
structure Fixed (size : Nat) (table : Table) (walk : Walk) : Prop where
  same : walk.table = table
  /-- What was returned and what is behind the cursor are the table. -/
  split : ∀ after, walk.after? = some after →
    walk.returned ++ Paging.beyond Bakery.id after table.rows = table.rows ∧
      walk.returned.length = walk.pages.length * size ∧
      (walk.pages = [] ∨ Paging.beyond Bakery.id after table.rows ≠ [])
  ended : walk.after? = none → walk.returned = table.rows ∧
    walk.pages.length = max 1 ((table.rows.length + size - 1) / size)

/-- Pages of `size` rows and one of at most `size`, which is empty only alone. -/
theorem pages_length {k d size : Nat} (hsize : 0 < size) (hle : d ≤ size) (hlast : k = 0 ∨ 0 < d) :
    k + 1 = max 1 ((k * size + d + size - 1) / size) := by
  rcases hlast with rfl | hpos
  · have hdiv : (0 * size + d + size - 1) / size < 2 := by
      rw [Nat.div_lt_iff_lt_mul hsize]
      omega
    omega
  · have hdiv : (k * size + d + size - 1) / size = k + 1 := by
      refine Nat.div_eq_of_lt_le ?_ ?_
      · rw [Nat.add_mul]
        omega
      · rw [Nat.add_mul, Nat.add_mul]
        omega
    omega

theorem Fixed.call {table : Table} (h : walk.Fixed (sanitizedCursorPageSize size) table)
    {after : Option Int} (hafter : walk.after? = some after) :
    Fixed (sanitizedCursorPageSize size) table
      { walk with pages := walk.pages ++ [pageOf size after walk.table] } := by
  obtain ⟨hsplit, hlength, hmore⟩ := h.split after hafter
  have hpos := sanitizedCursorPageSize_pos size
  have htable := h.same
  constructor
  · exact htable
  · intro next hnext
    rw [after?_concat] at hnext
    obtain ⟨cursor, hcursor, rfl⟩ := Option.map_eq_some_iff.mp hnext
    obtain ⟨hfull, -, hpage, hleft⟩ := Paging.page_of_next_some walk.table.ascending hcursor
    rw [htable] at hfull hpage hleft
    rw [returned_concat, htable]
    refine ⟨?_, ?_, .inr hleft⟩
    · rw [List.append_assoc]
      exact (congrArg _ hpage.symm).trans hsplit
    · show (walk.returned ++ (pageOf size after table).data).length = (walk.pages ++ [_]).length * _
      rw [List.length_append, List.length_append, List.length_singleton, hlength, Nat.add_mul,
        Nat.one_mul]
      exact congrArg _ hfull
  · intro hended
    rw [after?_concat, Option.map_eq_none_iff] at hended
    have hall := Paging.page_of_next_none hpos hended
    rw [htable] at hall
    have hreturned : walk.returned ++ (pageOf size after table).data = table.rows := by
      rw [← hsplit]
      exact congrArg _ hall
    rw [returned_concat, htable]
    refine ⟨hreturned, ?_⟩
    have hle : (pageOf size after table).data.length ≤ sanitizedCursorPageSize size :=
      List.length_take_le _ _
    have hrows := congrArg List.length hreturned
    rw [List.length_append, hlength] at hrows
    rw [List.length_append, List.length_singleton, ← hrows]
    refine pages_length hpos hle ?_
    rcases hmore with hnil | hleft
    · exact .inl (List.length_eq_zero_iff.mpr hnil)
    · refine .inr ?_
      rw [show (pageOf size after table).data = Paging.beyond Bakery.id after table.rows from hall]
      exact List.length_pos_of_ne_nil hleft

theorem fixed_start (table : Table) : Fixed (sanitizedCursorPageSize size) table ⟨table, []⟩ := by
  constructor
  · rfl
  · intro after hafter
    obtain rfl := Option.some.inj hafter
    exact ⟨Paging.beyond_none, (Nat.zero_mul _).symm, .inl rfl⟩
  · intro hended
    cases hended

/-- A walk that has not ended goes on. -/
theorem Fixed.continues {table : Table} (h : walk.Fixed (sanitizedCursorPageSize size) table)
    (hfits : table.rows.length ≤ usizeMax) {after : Option Int}
    (hafter : walk.after? = some after) :
    walk.step usizeMax size .listByCursor = some
      { walk with pages := walk.pages ++ [pageOf size after walk.table] } := by
  have hrows : (fetchCursorRows ⟨after, size⟩ walk.table).length ≤ usizeMax := by
    have hle : (fetchCursorRows ⟨after, size⟩ walk.table).length ≤ walk.table.rows.length :=
      Nat.le_trans (List.length_take_le' _ _) (List.length_filter_le _ _)
    rw [h.same] at hle
    rw [h.same]
    omega
  simp only [Walk.step, hafter, if_pos hrows, listByCursor_eq hrows]
  rfl

/-- A walk that goes on has pages to come: no more than there are rows. -/
theorem Fixed.pages_le {table : Table} (h : walk.Fixed (sanitizedCursorPageSize size) table)
    {after : Option Int} (hafter : walk.after? = some after) :
    walk.pages.length ≤ table.rows.length := by
  obtain ⟨hsplit, hlength, -⟩ := h.split after hafter
  have hpos := sanitizedCursorPageSize_pos size
  have hle : walk.returned.length ≤ table.rows.length := by
    rw [← hsplit, List.length_append]
    omega
  calc walk.pages.length ≤ walk.pages.length * sanitizedCursorPageSize size :=
        Nat.le_mul_of_pos_right _ hpos
    _ = walk.returned.length := hlength.symm
    _ ≤ table.rows.length := hle

/-- Calls alone leave the table as it is, and each returns a page. -/
theorem fixed_run {table : Table} (hrun : (system usizeMax size).Run ⟨table, []⟩ ts walk)
    (hcalls : ∀ tr ∈ ts, tr.action.isCall = true) :
    walk.Fixed (sanitizedCursorPageSize size) table ∧ ts.length = walk.pages.length := by
  induction hrun with
  | refl => exact ⟨fixed_start table, rfl⟩
  | @step ts walk action walk' hrun hstep ih =>
      obtain ⟨hfixed, hlength⟩ := ih fun tr htr => hcalls tr (List.mem_append_left _ htr)
      have hcall : action.isCall = true :=
        hcalls _ (List.mem_append_right _ List.mem_cons_self)
      rcases step_cases hstep with ⟨hother, -⟩ | ⟨-, after, hafter, rfl⟩
      · rw [hcall] at hother
        cases hother
      · refine ⟨hfixed.call hafter, ?_⟩
        simp only [List.length_append, List.length_singleton, hlength]

/-- Calls alone end a walk. -/
theorem exists_ended {table : Table} (hfits : table.rows.length ≤ usizeMax) :
    ∀ n {ts walk}, (system usizeMax size).Run ⟨table, []⟩ ts walk →
      (∀ tr ∈ ts, tr.action.isCall = true) → table.rows.length < walk.pages.length + n →
      ∃ ts' walk', (system usizeMax size).Run ⟨table, []⟩ ts' walk' ∧
        (∀ tr ∈ ts', tr.action.isCall = true) ∧ walk'.after? = none := by
  intro n
  induction n with
  | zero =>
      intro ts walk hrun hcalls hmeasure
      cases hafter : walk.after? with
      | none => exact ⟨ts, walk, hrun, hcalls, hafter⟩
      | some after =>
          have hle := (fixed_run hrun hcalls).1.pages_le hafter
          omega
  | succ n ih =>
      intro ts walk hrun hcalls hmeasure
      cases hafter : walk.after? with
      | none => exact ⟨ts, walk, hrun, hcalls, hafter⟩
      | some after =>
          have hstep : (system usizeMax size).step walk .listByCursor = some _ :=
            (fixed_run hrun hcalls).1.continues hfits hafter
          refine ih (hrun.step hstep) ?_ ?_
          · intro tr htr
            rcases List.mem_append.mp htr with hearlier | hlast
            · exact hcalls tr hearlier
            · obtain rfl := List.mem_singleton.mp hlast
              rfl
          · simp only [List.length_append, List.length_singleton]
            omega

/-! ## What the client sees -/

/-- What a page says of the table it was taken from. -/
structure Paged (size : Nat) (table : Table) (page : CursorPage) : Prop where
  length_le : page.data.length ≤ size
  stored : ∀ row ∈ page.data, row ∈ table.rows
  has_more : page.hasMore = true ↔
    ∃ last, page.data.getLast? = some last ∧ ∃ row ∈ table.rows, last.id < row.id
  next_cursor : page.nextCursor.isSome = page.hasMore

theorem paged_pageOf (after : Option Int) (table : Table) :
    Paged (sanitizedCursorPageSize size) table (pageOf size after table) where
  length_le := List.length_take_le _ _
  stored _ hrow := (Paging.mem_beyond.mp (Paging.mem_beyond_of_mem_page hrow)).1
  has_more := Paging.next_isSome_iff table.ascending (sanitizedCursorPageSize_pos size)
  next_cursor := rfl

/-- **Cursor pagination neither skips nor repeats.** In every walk, over a table that
changes between the calls: the ids returned ascend; once the walk has ended, an id that
was there at every call was returned once; every page says what it should of the table at
its call. Over `n` rows that stay, the walk ends, after `max 1 ⌈n / size⌉` calls and with
the table in id order. -/
theorem cursor_walk (usizeMax : Nat) (size : Option Nat) (table : Table) :
    (∀ ts walk, (system usizeMax size).Run ⟨table, []⟩ ts walk →
      (walk.returned.map (·.id)).Pairwise (· < ·) ∧
      (walk.after? = none → ∀ id,
        (∀ tr ∈ ts, tr.action.isCall = true → id ∈ tr.pre.table.rows.map (·.id)) →
        (walk.returned.map (·.id)).count id = 1) ∧
      ∀ tr ∈ ts, tr.action.isCall = true → ∃ page, tr.post.pages = tr.pre.pages ++ [page] ∧
        Paged (sanitizedCursorPageSize size) tr.pre.table page) ∧
    (table.rows.length ≤ usizeMax →
      ∃ ts walk, (system usizeMax size).Run ⟨table, []⟩ ts walk ∧
        (∀ tr ∈ ts, tr.action.isCall = true) ∧ walk.after? = none) ∧
    ∀ ts walk, (system usizeMax size).Run ⟨table, []⟩ ts walk →
      (∀ tr ∈ ts, tr.action.isCall = true) → walk.after? = none →
      ts.length = max 1
        ((table.rows.length + sanitizedCursorPageSize size - 1) / sanitizedCursorPageSize size) ∧
      walk.returned = table.rows := by
  refine ⟨?_, ?_, ?_⟩
  · intro ts walk hrun
    have hascending : (walk.returned.map (·.id)).Pairwise (· < ·) :=
      List.pairwise_map.mpr (sound_run rfl hrun).ascending
    refine ⟨hascending, ?_, ?_⟩
    · intro hended id hpresent
      have hmem := (covers_run rfl hrun hpresent).ended hended
      exact List.count_eq_one_of_mem (hascending.imp fun hlt => ne_of_lt hlt) hmem
    · intro tr htr hcall
      rcases step_cases (hrun.step_of_mem htr) with ⟨hother, -⟩ | ⟨-, after, -, hpost⟩
      · rw [hcall] at hother
        cases hother
      · exact ⟨pageOf size after tr.pre.table, by rw [hpost], paged_pageOf after tr.pre.table⟩
  · intro hfits
    exact exists_ended hfits (table.rows.length + 1) .refl
      (fun _ htr => absurd htr List.not_mem_nil) (by omega)
  · intro ts walk hrun hcalls hended
    obtain ⟨hfixed, hlength⟩ := fixed_run hrun hcalls
    obtain ⟨hreturned, hpages⟩ := hfixed.ended hended
    exact ⟨hlength.trans hpages, hreturned⟩

/-- Three rows, asked for in twos; a row comes and one goes between the calls. -/
def threeRows : Table where
  rows := [⟨1, "A", 1.0⟩, ⟨2, "B", 2.0⟩, ⟨3, "C", 3.0⟩]
  ascending := by decide
  int4 := by decide

def twoCalls : List WalkAction :=
  [.listByCursor, .create 5 ⟨"E", 5.0⟩, .delete ⟨1⟩, .listByCursor]

theorem cursor_walk_threeRows : ∃ ts walk,
    (system (2 ^ 64 - 1) (some 2)).Run ⟨threeRows, []⟩ ts walk ∧
      (walk.returned.map (·.id)).count 3 = 1 := by
  have hchecked : ((system (2 ^ 64 - 1) (some 2)).exec [] ⟨threeRows, []⟩ twoCalls).any (fun r =>
      r.2.after? = none ∧ ∀ tr ∈ r.1, tr.action.isCall = true →
        3 ∈ tr.pre.table.rows.map (·.id)) = true := by
    decide
  obtain ⟨ts, walk, hrun, hchecked⟩ := TSys.exists_run hchecked
  obtain ⟨hended, hpresent⟩ := of_decide_eq_true hchecked
  exact ⟨ts, walk, hrun,
    ((cursor_walk (2 ^ 64 - 1) (some 2) threeRows).1 ts walk hrun).2.1 hended 3 hpresent⟩

end Walk

end Axes.Bakeries
