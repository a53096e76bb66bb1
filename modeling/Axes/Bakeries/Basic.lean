import Mathlib.Data.Int.Interval
import Axes.Lib.Paging

/-!
# Bakeries (`handlers/bakery/mod.rs`)

The `bakery` table, its writes, and the listing by cursor. A `u64`, a `usize` and the
`i64` of a limit are `Nat`s; where the source bounds one, so does the model. An `i32` id
is an `Int`, and a table holds only ids of that type.
-/

namespace Axes.Bakeries

open Axes.Lib

def u64Max : Nat := 2 ^ 64 - 1
def i64Max : Nat := 2 ^ 63 - 1

/-- `u64::saturating_add`. -/
def saturatingAdd (n m : Nat) : Nat := min (n + m) u64Max

structure CursorParams where
  after : Option Int
  size : Option Nat

structure Bakery where
  id : Int
  name : String
  profitMargin : Float

structure CursorPage where
  data : List Bakery
  after : Option Int
  size : Nat
  nextCursor : Option Int
  hasMore : Bool

structure CreateDto where
  name : String
  profitMargin : Float

structure UpdateDto where
  id : Int
  name : String
  profitMargin : Float

structure DeleteDto where
  id : Int

/-- The rows of `bakery`, listed by their primary key. -/
structure Table where
  rows : List Bakery
  ascending : Paging.Ascending Bakery.id rows
  int4 : ∀ row ∈ rows, -2 ^ 31 ≤ row.id ∧ row.id < 2 ^ 31

namespace Table

/-- `INSERT`, with the id the database draws. -/
def create (id : Int) (payload : CreateDto) (table : Table) : Option Table :=
  if h : id ∉ table.rows.map (·.id) ∧ -2 ^ 31 ≤ id ∧ id < 2 ^ 31 then some {
    rows := (table.rows.filter fun row => decide (row.id < id)) ++
      ⟨id, payload.name, payload.profitMargin⟩ ::
        table.rows.filter fun row => decide (id < row.id)
    ascending := by
      refine List.pairwise_append.mpr ⟨table.ascending.sublist List.filter_sublist,
        List.pairwise_cons.mpr ⟨?_, table.ascending.sublist List.filter_sublist⟩, ?_⟩
      · intro row hrow
        exact of_decide_eq_true (List.mem_filter.mp hrow).2
      · intro row hrow other hother
        have hbefore : row.id < id := of_decide_eq_true (List.mem_filter.mp hrow).2
        rcases List.mem_cons.mp hother with rfl | hother
        · exact hbefore
        · have hbehind : id < other.id := of_decide_eq_true (List.mem_filter.mp hother).2
          omega
    int4 := by
      intro row hrow
      rcases List.mem_append.mp hrow with hrow | hrow
      · exact table.int4 row (List.mem_of_mem_filter hrow)
      · rcases List.mem_cons.mp hrow with rfl | hrow
        · exact h.2
        · exact table.int4 row (List.mem_of_mem_filter hrow) }
  else none

def update (payload : UpdateDto) (table : Table) : Table where
  rows := table.rows.map fun row =>
    if row.id = payload.id then
      { row with name := payload.name, profitMargin := payload.profitMargin }
    else row
  ascending := by
    refine List.pairwise_map.mpr (table.ascending.imp ?_)
    intro row other hlt
    split <;> split <;> exact hlt
  int4 := by
    intro row' hrow'
    obtain ⟨row, hrow, rfl⟩ := List.mem_map.mp hrow'
    have hrange := table.int4 row hrow
    split <;> exact hrange

def delete (payload : DeleteDto) (table : Table) : Table where
  rows := table.rows.filter fun row => decide (row.id ≠ payload.id)
  ascending := table.ascending.sublist List.filter_sublist
  int4 := fun row hrow => table.int4 row (List.mem_of_mem_filter hrow)

/-- There are no more rows than ids. -/
theorem length_le (table : Table) : table.rows.length ≤ 2 ^ 32 := by
  have hnodup : (table.rows.map (·.id)).Nodup :=
    List.pairwise_map.mpr (table.ascending.imp fun hlt => ne_of_lt hlt)
  have hsubset : (table.rows.map (·.id)).toFinset ⊆ Finset.Ico (-2 ^ 31 : Int) (2 ^ 31) := by
    intro id hid
    obtain ⟨row, hrow, rfl⟩ := List.mem_map.mp (List.mem_toFinset.mp hid)
    exact Finset.mem_Ico.mpr (table.int4 row hrow)
  have hcard := Finset.card_le_card hsubset
  rw [List.toFinset_card_of_nodup hnodup, List.length_map, Int.card_Ico] at hcard
  exact hcard

end Table

def sanitizedCursorPageSize (size : Option Nat) : Nat :=
  match size with
  | some 0 => 10
  | none => 10
  | some size => size

def buildCursorPage (usizeMax : Nat) (bakeries : List Bakery) (after : Option Int)
    (size : Nat) : CursorPage :=
  -- `usize::try_from(size).unwrap_or(usize::MAX)`
  let pageSize := if size ≤ usizeMax then size else usizeMax
  let hasMore := decide (pageSize < bakeries.length)
  let bakeries := if hasMore then bakeries.take pageSize else bakeries
  let nextCursor := if hasMore then bakeries.getLast?.map (·.id) else none
  { data := bakeries, after := after, size := size, nextCursor := nextCursor, hasMore := hasMore }

/-- The rows the query of `list_by_cursor` returns. -/
def fetchCursorRows (params : CursorParams) (table : Table) : List Bakery :=
  let size := sanitizedCursorPageSize params.size
  let limit := min (saturatingAdd size 1) i64Max
  Paging.page Bakery.id params.after limit table.rows

def listByCursor (usizeMax : Nat) (params : CursorParams) (table : Table) : CursorPage :=
  buildCursorPage usizeMax (fetchCursorRows params table) params.after
    (sanitizedCursorPageSize params.size)

theorem sanitizedCursorPageSize_pos (size : Option Nat) : 0 < sanitizedCursorPageSize size := by
  unfold sanitizedCursorPageSize
  split
  · decide
  · decide
  · next hne => exact Nat.pos_of_ne_zero hne

/-- One row more than the page is fetched, if there is one. -/
theorem fetchCursorRows_eq (params : CursorParams) (table : Table) :
    fetchCursorRows params table =
      Paging.page Bakery.id params.after (sanitizedCursorPageSize params.size + 1) table.rows := by
  have hle : (Paging.beyond Bakery.id params.after table.rows).length ≤ 2 ^ 32 :=
    Nat.le_trans (List.length_filter_le _ _) table.length_le
  unfold fetchCursorRows saturatingAdd u64Max i64Max Paging.page
  dsimp only
  by_cases hlimit : sanitizedCursorPageSize params.size + 1 ≤ 2 ^ 63 - 1
  · rw [Nat.min_assoc, Nat.min_eq_left (by omega)]
  · -- a limit that is cut off is far beyond what a table holds
    rw [List.take_of_length_le (by omega), List.take_of_length_le (by omega)]

/-- The extra row says that there is more, and is left out. -/
theorem buildCursorPage_more {usizeMax size : Nat} {bakeries : List Bakery} {after : Option Int}
    (hsize : size ≤ usizeMax) (hmore : size < bakeries.length) :
    buildCursorPage usizeMax bakeries after size =
      ⟨bakeries.take size, after, size, (bakeries.take size).getLast?.map (·.id), true⟩ := by
  unfold buildCursorPage
  simp only [if_pos hsize, hmore, decide_true, if_true]

theorem buildCursorPage_last {usizeMax size : Nat} {bakeries : List Bakery} {after : Option Int}
    (hfits : bakeries.length ≤ usizeMax) (hlast : bakeries.length ≤ size) :
    buildCursorPage usizeMax bakeries after size = ⟨bakeries, after, size, none, false⟩ := by
  have hshort : ¬(if size ≤ usizeMax then size else usizeMax) < bakeries.length := by
    split <;> omega
  unfold buildCursorPage
  simp only [hshort, decide_false, Bool.false_eq_true, if_false]

/-- **A page of the handler is a page of the table.** -/
theorem listByCursor_eq {usizeMax : Nat} {params : CursorParams} {table : Table}
    (hfits : (fetchCursorRows params table).length ≤ usizeMax) :
    listByCursor usizeMax params table = {
      data := Paging.page Bakery.id params.after (sanitizedCursorPageSize params.size) table.rows
      after := params.after
      size := sanitizedCursorPageSize params.size
      nextCursor := Paging.next Bakery.id params.after (sanitizedCursorPageSize params.size)
        table.rows
      hasMore := (Paging.next Bakery.id params.after (sanitizedCursorPageSize params.size)
        table.rows).isSome } := by
  have hpos := sanitizedCursorPageSize_pos params.size
  have hrows : fetchCursorRows params table =
      (Paging.beyond Bakery.id params.after table.rows).take
        (sanitizedCursorPageSize params.size + 1) := fetchCursorRows_eq params table
  have hlength : (fetchCursorRows params table).length =
      min (sanitizedCursorPageSize params.size + 1)
        (Paging.beyond Bakery.id params.after table.rows).length := by
    rw [hrows, List.length_take]
  unfold listByCursor Paging.next
  by_cases hmore : sanitizedCursorPageSize params.size <
      (Paging.beyond Bakery.id params.after table.rows).length
  · have hpage : (fetchCursorRows params table).take (sanitizedCursorPageSize params.size) =
        Paging.page Bakery.id params.after (sanitizedCursorPageSize params.size) table.rows := by
      rw [hrows, List.take_take, Nat.min_eq_left (Nat.le_succ _)]
      rfl
    have hsome := Paging.next_isSome hpos hmore
    rw [Paging.next, if_pos hmore] at hsome
    rw [buildCursorPage_more (by omega) (by omega), hpage, if_pos hmore, hsome]
  · have hpage : fetchCursorRows params table =
        Paging.page Bakery.id params.after (sanitizedCursorPageSize params.size) table.rows := by
      rw [hrows, Paging.page, List.take_of_length_le (by omega), List.take_of_length_le (by omega)]
    rw [buildCursorPage_last hfits (by omega), hpage, if_neg hmore]
    rfl

end Axes.Bakeries
