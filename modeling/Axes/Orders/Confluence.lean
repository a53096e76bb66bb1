import Axes.Lib.Keyed
import Axes.Lib.Run
import Axes.Orders.Books

/-!
# Schedules of deliveries

The two worker transactions under any schedule of deliveries: a message may come late,
again and again, or out of order. What the saga comes to is read off the order in which
the events of each sku are first delivered: stock is taken sku by sku (`reserve`), and
each order is settled by the one result of its event.
-/

namespace Axes.Orders

open Axes.Lib Axes.Lib.Table

/-! ## The system -/

structure Deliveries where
  db : Database
  /-- The UUIDs drawn so far. -/
  issued : List Uuid

inductive Delivery
  | created (utcNow : DateTime) (messageId : Uuid) (outboxId : Int) (event : OrderCreatedEvent)
  | result (utcNow : DateTime) (event : InventoryResultEvent)

/-- The event handed to `handle_order_created_message`. -/
def Delivery.created? : Delivery → Option OrderCreatedEvent
  | created _ _ _ event => some event
  | result _ _ => none

/-- The event handed to `apply_inventory_result_message`. -/
def Delivery.result? : Delivery → Option InventoryResultEvent
  | created _ _ _ _ => none
  | result _ event => some event

namespace Deliveries

/-- A message of one of the outboxes is delivered; a transaction that fails changes
nothing. -/
def step (state : Deliveries) : Delivery → Option Deliveries
  | .created utcNow messageId outboxId event =>
      if event ∈ state.db.books.created ∧ messageId ∉ state.issued ∧
          outboxId ∉ state.db.inventoryOutbox.map (·.id) then
        match handleOrderCreatedMessage utcNow messageId outboxId event state.db with
        | .error _ => some state
        | .ok (_, db) => some ⟨db, messageId :: state.issued⟩
      else none
  | .result utcNow event =>
      if event ∈ state.db.books.results then
        match applyInventoryResultMessage utcNow event state.db with
        | .error _ => some state
        | .ok (_, db) => some { state with db := db }
      else none

/-- Orders were created on a stock, and nothing was delivered yet. -/
inductive Start : Deliveries → Prop
  | stocked {stocks : List StockRow} (skus : (stocks.map (·.sku)).Nodup)
      (range : ∀ row ∈ stocks, int4 row.availableQuantity ≠ none) :
      Start ⟨⟨[], [], [], stocks, [], []⟩, []⟩
  | created {state precheck utcNow orderId messageId outboxId request order db}
      (earlier : Start state) (fresh : orderId ∉ state.issued ∧ messageId ∉ state.issued)
      (create : createOrder precheck utcNow orderId messageId outboxId request state.db =
        .ok (order, db)) :
      Start ⟨db, orderId :: messageId :: state.issued⟩

/-- Every schedule of deliveries. -/
def system : TSys Deliveries Delivery where
  init := Start
  step := step

/-- The events delivered by a run, each where it was delivered first. -/
def firstDeliveries (ts : List (Transition Deliveries Delivery)) : List OrderCreatedEvent :=
  ts.foldl (fun seen tr =>
    match tr.action.created? with
    | some event => if event ∈ seen then seen else seen ++ [event]
    | none => seen) []

/-! ## What the stock does -/

/-- Taking the units of an event from what there is of its sku. -/
def reserve (event : OrderCreatedEvent) : Option Int → Option Int × Bool
  | some available =>
      if event.quantity ≤ available then (some (available - event.quantity), true)
      else (some available, false)
  | none => (none, false)

def stockOf (db : Database) (sku : String) : Option Int := loadInventoryStockQuantity sku db

/-- What some events make of a stock, and which of them succeed. -/
def reserveAll (events : List OrderCreatedEvent) (stock : String → Option Int) :
    (String → Option Int) × List (OrderCreatedEvent × Bool) :=
  Keyed.process (·.sku) reserve events stock

variable {state state' start : Deliveries} {delivery : Delivery} {event : OrderCreatedEvent}
  {db : Database} {ts : List (Transition Deliveries Delivery)}

theorem reserveAll_concat {events : List OrderCreatedEvent} {stock : String → Option Int} :
    reserveAll (events ++ [event]) stock =
      (Function.update (reserveAll events stock).1 event.sku
          (reserve event ((reserveAll events stock).1 event.sku)).1,
        (reserveAll events stock).2 ++
          [(event, (reserve event ((reserveAll events stock).1 event.sku)).2)]) :=
  Keyed.process_concat

/-! ## The transactions -/

/-- What the deliveries need of the tables. -/
structure Ready (state : Deliveries) : Prop where
  consistent : state.db.books.Consistent state.issued
  skus : (state.db.stocks.map (·.sku)).Nodup
  bounded : ∀ row ∈ state.db.stocks, row.availableQuantity < 2 ^ 31

/-- No handling of an order's message fails. -/
theorem Ready.handle_succeeds (h : state.Ready) (hevent : event ∈ state.db.books.created)
    (utcNow : DateTime) (messageId : Uuid) {outboxId : Int}
    (hfresh : outboxId ∉ state.db.inventoryOutbox.map (·.id)) :
    ∃ refresh db,
      handleOrderCreatedMessage utcNow messageId outboxId event state.db = .ok (refresh, db) := by
  have hpositive := h.consistent.placed.positive event hevent
  have hdebit : ∃ updatedRows stocks, debitStock utcNow event.sku event.quantity state.db.stocks =
      .ok (updatedRows, stocks) := by
    unfold debitStock
    rw [if_pos]
    · exact ⟨_, _, rfl⟩
    · -- What is left is between zero and what there was.
      intro row hrow hselected
      obtain ⟨-, hle⟩ := of_decide_eq_true hselected
      have hbound := h.bounded row hrow
      unfold int4
      rw [if_pos (by omega)]
      exact Option.some_ne_none _
  unfold handleOrderCreatedMessage
  dsimp only
  split
  · obtain ⟨updatedRows, stocks, hdebit⟩ := hdebit
    by_cases hflag : (loadSimulateInventoryFailure event.orderId state.db).getD false = true
    · simp only [hflag, if_true, bind, Except.bind]
      exact ⟨_, _, rfl⟩
    · simp only [hflag, hdebit, bind, Except.bind, Bool.false_eq_true, if_false]
      exact ⟨_, _, rfl⟩
  · exact ⟨_, _, rfl⟩

/-- No application of a result fails. -/
theorem Ready.apply_succeeds (h : state.Ready) {result : InventoryResultEvent}
    (hresult : result ∈ state.db.books.results) (utcNow : DateTime) :
    ∃ applied db, applyInventoryResultMessage utcNow result state.db = .ok (applied, db) := by
  obtain ⟨event, hevent, hanswers⟩ := h.consistent.resolved.result_created result hresult
  obtain ⟨row, hrow, hmatches⟩ := h.consistent.placed.created_order event hevent
  have hid : row.id = result.orderId := hmatches.id.trans hanswers.id.symm
  have hone : rowsAffected (fun row => decide (row.id = result.orderId)) state.db.orders = 1 := by
    have hle : rowsAffected (fun row => decide (row.id = result.orderId)) state.db.orders ≤ 1 :=
      rowsAffected_le_one h.consistent.placed.order_ids fun _ _ hsel => of_decide_eq_true hsel
    have hne : rowsAffected (fun row => decide (row.id = result.orderId)) state.db.orders ≠ 0 := by
      intro hzero
      have hnone := rowsAffected_eq_zero.mp hzero row hrow
      exact of_decide_eq_false hnone hid
    omega
  unfold applyInventoryResultMessage
  dsimp only
  split
  · exact ⟨_, _, rfl⟩
  · exact ⟨_, _, rfl⟩

/-- Nothing was handled or applied before the first delivery. -/
theorem Start.ready (h : Start state) : state.Ready ∧ state.db.inventoryInbox = [] ∧
    state.db.inventoryOutbox = [] ∧ state.db.orderInbox = [] := by
  induction h with
  | @stocked stocks hskus hrange =>
      refine ⟨⟨?_, hskus, ?_⟩, rfl, rfl, rfl⟩
      · show Books.Consistent [] ⟨[], [], [], stocks, [], []⟩
        constructor <;> constructor <;> simp [Books.Handled]
      · intro row hrow
        have hint := hrange row hrow
        unfold int4 at hint
        split at hint
        · next hbounds => exact hbounds.2
        · exact absurd rfl hint
  | @created state precheck utcNow orderId messageId outboxId request order db _ hfresh hcreate
      ih =>
      obtain ⟨hready, hhandled, hresults, happlied⟩ := ih
      obtain ⟨hquantity, hinsert⟩ := createOrder_ok hcreate
      have hbooks := books_insertOrderWithOutbox hinsert
      obtain ⟨-, rfl⟩ := insertOrderWithOutbox_ok hinsert
      refine ⟨⟨?_, hready.skus, hready.bounded⟩, hhandled, hresults, happlied⟩
      show Books.Consistent (orderId :: messageId :: state.issued) _
      rw [hbooks]
      exact hready.consistent.place hquantity hfresh.1 hfresh.2

/-! ## One delivery -/

/-- **What a delivery does.** -/
inductive Steps (state : Deliveries) : Delivery → Deliveries → Prop
  | duplicate {utcNow messageId outboxId event} (created : event ∈ state.db.books.created)
      (handled : state.db.books.Handled event.messageId) :
      Steps state (.created utcNow messageId outboxId event)
        ⟨state.db, messageId :: state.issued⟩
  | resolved {utcNow messageId outboxId event db stocks outcome}
      (created : event ∈ state.db.books.created)
      (unhandled : ¬state.db.books.Handled event.messageId)
      (decided : Decides utcNow event state.db.stocks outcome stocks)
      (books : db.books =
        state.db.books.resolve ⟨event.messageId, inventoryWorkerConsumer, utcNow⟩ stocks
          (event.answer utcNow messageId outcome)) :
      Steps state (.created utcNow messageId outboxId event) ⟨db, messageId :: state.issued⟩
  | reapplied {utcNow event} (result : event ∈ state.db.books.results)
      (applied : state.db.books.Applied event.messageId) :
      Steps state (.result utcNow event) state
  | settled {utcNow event db} (result : event ∈ state.db.books.results)
      (unapplied : ¬state.db.books.Applied event.messageId)
      (books : db.books =
        state.db.books.settle utcNow ⟨event.messageId, ordersWorkerConsumer, utcNow⟩ event) :
      Steps state (.result utcNow event) { state with db := db }

theorem Ready.step (h : state.Ready) (hstep : state.step delivery = some state') :
    state'.db.books.Consistent state'.issued ∧ Steps state delivery state' := by
  cases delivery with
  | created utcNow messageId outboxId event =>
      simp only [Deliveries.step] at hstep
      split at hstep
      · next hguard =>
          obtain ⟨hevent, hmessage, hfresh⟩ := hguard
          obtain ⟨refresh, db, hhandle⟩ := h.handle_succeeds hevent utcNow messageId hfresh
          rw [hhandle] at hstep
          obtain rfl := Option.some.inj hstep
          obtain ⟨hconsistent, ⟨-, rfl, hhandled⟩ |
            ⟨-, hunhandled, -, stocks, outcome, houtcome, -, -, hbooks⟩⟩ :=
            h.consistent.handle h.skus hevent hmessage hhandle
          · exact ⟨hconsistent, .duplicate hevent hhandled⟩
          · exact ⟨hconsistent, .resolved hevent hunhandled houtcome hbooks⟩
      · cases hstep
  | result utcNow event =>
      simp only [Deliveries.step] at hstep
      split at hstep
      · next hevent =>
          obtain ⟨applied, db, happly⟩ := h.apply_succeeds hevent utcNow
          rw [happly] at hstep
          obtain rfl := Option.some.inj hstep
          obtain ⟨hconsistent, ⟨-, rfl, happlied⟩ | ⟨-, hunapplied, -, -, -, hbooks⟩⟩ :=
            h.consistent.apply hevent happly
          · exact ⟨hconsistent, .reapplied hevent happlied⟩
          · exact ⟨hconsistent, .settled hevent hunapplied hbooks⟩
      · cases hstep

/-- The stock rows after an order is resolved. -/
theorem Ready.decided (h : state.Ready) {utcNow : DateTime} {stocks : List StockRow}
    {outcome : InventoryProcessingOutcome} (hquantity : 0 < event.quantity)
    (hdecided : Decides utcNow event state.db.stocks outcome stocks) :
    (stocks.map (·.sku)).Nodup ∧ ∀ row ∈ stocks, row.availableQuantity < 2 ^ 31 := by
  cases hdecided with
  | enough _ =>
      constructor
      · rw [map_sku_debited]
        exact h.skus
      · intro row' hrow'
        obtain ⟨row, hrow, rfl⟩ := mem_updateWhere.mp hrow'
        have hbound := h.bounded row hrow
        split
        · show row.availableQuantity - event.quantity < 2 ^ 31
          omega
        · exact hbound
  | short _ => exact ⟨h.skus, h.bounded⟩

/-- An order takes from the stock of its sku what `reserve` takes, and is answered by it. -/
theorem Ready.reserved (h : state.Ready) {utcNow : DateTime} {stocks : List StockRow}
    {outcome : InventoryProcessingOutcome}
    (hdecided : Decides utcNow event state.db.stocks outcome stocks) :
    (fun sku => (stocks.find? fun row => decide (row.sku = sku)).map (·.availableQuantity)) =
        Function.update (stockOf state.db) event.sku
          (reserve event (stockOf state.db event.sku)).1 ∧
      outcome.success = (reserve event (stockOf state.db event.sku)).2 := by
  have hsufficient : Sufficient event.sku event.quantity state.db.stocks ↔
      ∃ available, stockOf state.db event.sku = some available ∧ event.quantity ≤ available :=
    sufficient_iff h.skus
  cases hdecided with
  | enough henough =>
      obtain ⟨available, hload, hle⟩ := hsufficient.mp henough
      rw [hload, reserve, if_pos hle]
      refine ⟨?_, rfl⟩
      funext sku
      rw [find?_debited]
      by_cases hsku : sku = event.sku
      · subst hsku
        rw [Function.update_self]
        show (stockOf state.db event.sku).map _ = _
        rw [hload, Option.map_some, if_pos rfl]
      · rw [Function.update_of_ne hsku]
        simp only [if_neg hsku, Option.map_id']
        rfl
  | short hshort =>
      have hsame : (reserve event (stockOf state.db event.sku)) =
          (stockOf state.db event.sku, false) := by
        cases hload : stockOf state.db event.sku with
        | none => rfl
        | some available =>
            rw [reserve, if_neg]
            intro hle
            exact hshort (hsufficient.mpr ⟨available, hload, hle⟩)
      rw [hsame, Function.update_eq_self]
      exact ⟨rfl, rfl⟩

/-! ## A schedule -/

theorem firstDeliveries_concat (tr : Transition Deliveries Delivery) :
    firstDeliveries (ts ++ [tr]) =
      match tr.action.created? with
      | some event =>
          if event ∈ firstDeliveries ts then firstDeliveries ts
          else firstDeliveries ts ++ [event]
      | none => firstDeliveries ts := by
  unfold firstDeliveries
  rw [List.foldl_append, List.foldl_cons, List.foldl_nil]

/-- Each event has one first delivery. -/
theorem nodup_firstDeliveries : (firstDeliveries ts).Nodup := by
  induction ts using List.reverseRecOn with
  | nil => exact List.nodup_nil
  | append_singleton ts tr ih =>
      rw [firstDeliveries_concat]
      split
      · split
        · exact ih
        · next event _ hnew =>
            exact ih.append (List.nodup_singleton _) (List.disjoint_singleton.mpr hnew)
      · exact ih

/-- What is delivered is first delivered somewhere. -/
theorem mem_firstDeliveries (h : ∃ tr ∈ ts, tr.action.created? = some event) :
    event ∈ firstDeliveries ts := by
  induction ts using List.reverseRecOn with
  | nil =>
      obtain ⟨tr, htr, -⟩ := h
      cases htr
  | append_singleton ts tr ih =>
      rw [firstDeliveries_concat]
      obtain ⟨other, hother, hevent⟩ := h
      rcases List.mem_append.mp hother with hearlier | hlast
      · have hmem := ih ⟨other, hearlier, hevent⟩
        split
        · split
          · exact hmem
          · exact List.mem_append_left _ hmem
        · exact hmem
      · obtain rfl := List.mem_singleton.mp hlast
        rw [hevent]
        dsimp only
        split
        · next hmem => exact hmem
        · exact List.mem_append_right _ List.mem_cons_self

/-- The books after a schedule, read off its first deliveries. -/
structure Ran (start : Deliveries) (ts : List (Transition Deliveries Delivery))
    (state : Deliveries) : Prop where
  ready : state.Ready
  order_ids : state.db.orders.map (·.id) = start.db.orders.map (·.id)
  created : state.db.books.created = start.db.books.created
  firsts : ∀ event ∈ firstDeliveries ts, event ∈ start.db.books.created
  handled : ∀ event ∈ start.db.books.created,
    state.db.books.Handled event.messageId ↔ event ∈ firstDeliveries ts
  stock : stockOf state.db = (reserveAll (firstDeliveries ts) (stockOf start.db)).1
  answered : ∀ result ∈ state.db.books.results, ∃ event ∈ start.db.books.created,
    Books.Answers result event ∧
      (event, result.success) ∈ (reserveAll (firstDeliveries ts) (stockOf start.db)).2
  applied : ∀ tr ∈ ts, ∀ result, tr.action.result? = some result →
    state.db.books.Applied result.messageId

theorem Start.ran (h : Start start) : Ran start [] start := by
  obtain ⟨hready, hhandled, hresults, -⟩ := h.ready
  refine ⟨hready, rfl, rfl, ?_, ?_, rfl, ?_, ?_⟩
  · intro event hevent
    cases hevent
  · intro event _
    constructor
    · rintro ⟨row, hrow, -⟩
      have hrow : row ∈ start.db.inventoryInbox := hrow
      rw [hhandled] at hrow
      cases hrow
    · intro hmem
      cases hmem
  · intro result hresult
    have hresult : result ∈ start.db.inventoryOutbox.map (·.payload) := hresult
    rw [hresults] at hresult
    cases hresult
  · intro tr htr
    cases htr

/-- The message was applied, or is applied now. -/
theorem applied_concat {tr : Transition Deliveries Delivery} {Applied : Uuid → Prop}
    (h : ∀ tr ∈ ts, ∀ result, tr.action.result? = some result → Applied result.messageId)
    (hlast : ∀ result, tr.action.result? = some result → Applied result.messageId) :
    ∀ other ∈ ts ++ [tr], ∀ result, other.action.result? = some result →
      Applied result.messageId :=
  forall_mem_insert.mpr ⟨h, hlast⟩

/-- A delivery that changes no table. -/
theorem Ran.silent {tr : Transition Deliveries Delivery} (h : Ran start ts state)
    (hready : state'.Ready) (hdb : state'.db = state.db)
    (hfirsts : firstDeliveries (ts ++ [tr]) = firstDeliveries ts)
    (hlast : ∀ result, tr.action.result? = some result →
      state.db.books.Applied result.messageId) : Ran start (ts ++ [tr]) state' := by
  refine ⟨hready, ?_, ?_, ?_, ?_, ?_, ?_, ?_⟩
  · rw [hdb]
    exact h.order_ids
  · rw [hdb]
    exact h.created
  · rw [hfirsts]
    exact h.firsts
  · rw [hdb, hfirsts]
    exact h.handled
  · rw [hdb, hfirsts]
    exact h.stock
  · rw [hdb, hfirsts]
    exact h.answered
  · rw [hdb]
    exact applied_concat h.applied hlast

/-- **The first delivery of an event** answers it, with what the stock has left for it. -/
theorem Ran.resolve (h : Ran start ts state) {utcNow : DateTime} {messageId : Uuid} {outboxId : Int}
    {event : OrderCreatedEvent} {db : Database} {stocks : List StockRow}
    {outcome : InventoryProcessingOutcome}
    (hconsistent : db.books.Consistent (messageId :: state.issued))
    (hcreated : event ∈ state.db.books.created)
    (hunhandled : ¬state.db.books.Handled event.messageId)
    (hdecided : Decides utcNow event state.db.stocks outcome stocks)
    (hbooks : db.books =
      state.db.books.resolve ⟨event.messageId, inventoryWorkerConsumer, utcNow⟩ stocks
        (event.answer utcNow messageId outcome)) :
    Ran start (ts ++ [⟨state, .created utcNow messageId outboxId event,
      ⟨db, messageId :: state.issued⟩⟩]) ⟨db, messageId :: state.issued⟩ := by
  have hcreated₀ : event ∈ start.db.books.created := h.created ▸ hcreated
  have hnew : event ∉ firstDeliveries ts :=
    fun hmem => hunhandled ((h.handled event hcreated₀).mpr hmem)
  have hfirsts : firstDeliveries (ts ++ [⟨state, .created utcNow messageId outboxId event,
      ⟨db, messageId :: state.issued⟩⟩]) = firstDeliveries ts ++ [event] := by
    rw [firstDeliveries_concat]
    exact if_neg hnew
  have hstocks : db.stocks = stocks := congrArg Books.stocks hbooks
  have hquantity := h.ready.consistent.placed.positive event hcreated
  obtain ⟨hskus, hbounded⟩ := h.ready.decided hquantity hdecided
  obtain ⟨hstock, hsuccess⟩ := h.ready.reserved hdecided
  rw [h.stock] at hstock hsuccess
  refine ⟨⟨hconsistent, hstocks ▸ hskus, hstocks ▸ hbounded⟩, ?_, ?_, ?_, ?_, ?_, ?_, ?_⟩
  · have horders : db.orders = state.db.orders := congrArg Books.orders hbooks
    rw [horders]
    exact h.order_ids
  · rw [hbooks]
    exact h.created
  · rw [hfirsts]
    exact forall_mem_insert.mpr ⟨h.firsts, hcreated₀⟩
  · intro other hother
    rw [hfirsts, hbooks, Books.handled_resolve, List.mem_append, List.mem_singleton,
      ← h.handled other hother]
    refine or_congr_right ⟨?_, ?_⟩
    · -- message ids single out the event
      intro hid
      exact List.inj_on_of_nodup_map h.ready.consistent.placed.created_ids
        (h.created ▸ hother) hcreated hid.symm
    · intro hsame
      exact congrArg OrderCreatedEvent.messageId hsame.symm
  · rw [hfirsts, reserveAll_concat, ← hstock, ← hstocks]
    rfl
  · rw [hfirsts, hbooks, reserveAll_concat]
    refine forall_mem_insert.mpr ⟨?_, ?_⟩
    · intro result hresult
      obtain ⟨other, hother, hanswers, hmem⟩ := h.answered result hresult
      exact ⟨other, hother, hanswers, List.mem_append_left _ hmem⟩
    · refine ⟨event, hcreated₀, ⟨rfl, rfl, rfl⟩, List.mem_append_right _ ?_⟩
      rw [List.mem_singleton]
      exact congrArg (Prod.mk event) hsuccess
  · rw [hbooks]
    refine applied_concat h.applied ?_
    intro result hresult
    cases hresult

/-- A result that had not been applied. -/
theorem Ran.settle (h : Ran start ts state) {utcNow : DateTime} {event : InventoryResultEvent}
    {db : Database} (hconsistent : db.books.Consistent state.issued)
    (hbooks : db.books =
      state.db.books.settle utcNow ⟨event.messageId, ordersWorkerConsumer, utcNow⟩ event) :
    Ran start (ts ++ [⟨state, .result utcNow event, { state with db := db }⟩])
      { state with db := db } := by
  have hfirsts : firstDeliveries (ts ++ [⟨state, .result utcNow event,
      { state with db := db }⟩]) = firstDeliveries ts := firstDeliveries_concat _
  have hstocks : db.stocks = state.db.stocks := congrArg Books.stocks hbooks
  refine ⟨⟨hconsistent, hstocks ▸ h.ready.skus, hstocks ▸ h.ready.bounded⟩, ?_, ?_, ?_, ?_, ?_,
    ?_, ?_⟩
  · have horders : db.orders = _ := congrArg Books.orders hbooks
    rw [horders]
    have hids : (state.db.books.settle utcNow
        ⟨event.messageId, ordersWorkerConsumer, utcNow⟩ event).orders.map (·.id) =
        state.db.orders.map (·.id) := map_updateWhere fun _ => rfl
    exact hids.trans h.order_ids
  · rw [hbooks]
    exact h.created
  · rw [hfirsts]
    exact h.firsts
  · rw [hfirsts, hbooks]
    exact h.handled
  · rw [hfirsts, ← h.stock]
    show stockOf db = _
    unfold stockOf loadInventoryStockQuantity
    rw [hstocks]
  · rw [hfirsts, hbooks]
    exact h.answered
  · rw [hbooks]
    refine applied_concat ?_ ?_
    · intro tr htr result hsome
      exact (Books.applied_settle rfl).mpr (.inl (h.applied tr htr result hsome))
    · intro result hsome
      obtain rfl := Option.some.inj hsome
      exact (Books.applied_settle rfl).mpr (.inr rfl)

/-- **One delivery.** -/
theorem Ran.step (h : Ran start ts state) (hstep : state.step delivery = some state') :
    Ran start (ts ++ [⟨state, delivery, state'⟩]) state' := by
  obtain ⟨hconsistent, hsteps⟩ := h.ready.step hstep
  cases hsteps with
  | @duplicate utcNow messageId outboxId event hcreated hhandled =>
      refine h.silent ⟨hconsistent, h.ready.skus, h.ready.bounded⟩ rfl ?_ ?_
      · rw [firstDeliveries_concat]
        exact if_pos ((h.handled event (h.created ▸ hcreated)).mp hhandled)
      · intro result hresult
        cases hresult
  | resolved hcreated hunhandled hdecided hbooks =>
      exact h.resolve hconsistent hcreated hunhandled hdecided hbooks
  | @reapplied utcNow event hresult happlied =>
      refine h.silent h.ready rfl (firstDeliveries_concat _) ?_
      intro result hsome
      obtain rfl := Option.some.inj hsome
      exact happlied
  | settled _ _ hbooks => exact h.settle hconsistent hbooks

theorem Start.run (h : Start start) (hrun : system.Run start ts state) : Ran start ts state := by
  induction hrun with
  | refl => exact h.ran
  | step _ hstep ih => exact ih.step hstep

/-- How an order whose event came out as `success` ends. -/
def verdict (success : Bool) : Int × Option String :=
  let applied := applyInventoryResult success
    (if success then none else some "insufficient_stock")
  (applied.status.code, applied.failureReason)

/-- After every delivery each order ends as its event came out. -/
theorem Ran.verdict (h : Ran start ts state)
    (hdelivered : ∀ event ∈ start.db.books.created, ∃ tr ∈ ts, tr.action.created? = some event)
    (hanswered : ∀ result ∈ state.db.books.results, ∃ tr ∈ ts,
      tr.action.result? = some result) :
    ∀ row ∈ state.db.orders, ∃ event ∈ start.db.books.created, ∃ success,
      event.orderId = row.id ∧
      (event, success) ∈ (reserveAll (firstDeliveries ts) (stockOf start.db)).2 ∧
      (row.status, row.failureReason) = Deliveries.verdict success := by
  intro row hrow
  have hconsistent := h.ready.consistent
  obtain ⟨event, hevent, hmatches⟩ := hconsistent.placed.order_created row hrow
  have hevent₀ : event ∈ start.db.books.created := h.created ▸ hevent
  -- The event was handled, so it has a result, and that was applied.
  have hhandled := (h.handled event hevent₀).mpr (mem_firstDeliveries (hdelivered event hevent₀))
  obtain ⟨result, hresult, horder⟩ :=
    List.mem_map.mp ((hconsistent.resolved.handled_iff event hevent).mp hhandled)
  obtain ⟨tr, htr, hsome⟩ := hanswered result hresult
  have happlied := h.applied tr htr result hsome
  obtain ⟨hstatus, hreason⟩ :=
    hconsistent.settled.settled row hrow result hresult (horder.trans hmatches.id.symm) happlied
  obtain ⟨other, hother, hanswers, houtcome⟩ := h.answered result hresult
  obtain rfl := hconsistent.event_unique (h.created ▸ hother) hevent
    (hanswers.id.symm.trans horder)
  refine ⟨other, hevent₀, result.success, hmatches.id.symm, houtcome, ?_⟩
  rw [hstatus, hreason, hconsistent.resolved.reasons result hresult]
  rfl

/-- **Saga outcomes are schedule-independent.** -/
theorem outcomes_agree {final final' : Deliveries} {ts' : List (Transition Deliveries Delivery)}
    (hstart : Start start) (hrun : system.Run start ts final)
    (hrun' : system.Run start ts' final')
    (hdelivered : ∀ event ∈ start.db.books.created, ∃ tr ∈ ts, tr.action.created? = some event)
    (hdelivered' : ∀ event ∈ start.db.books.created, ∃ tr ∈ ts',
      tr.action.created? = some event)
    (hanswered : ∀ result ∈ final.db.books.results, ∃ tr ∈ ts,
      tr.action.result? = some result)
    (hanswered' : ∀ result ∈ final'.db.books.results, ∃ tr ∈ ts',
      tr.action.result? = some result)
    (hagree : ∀ sku : String,
      ((firstDeliveries ts).filter fun event => decide (event.sku = sku)) =
        (firstDeliveries ts').filter fun event => decide (event.sku = sku)) :
    (∀ sku, loadInventoryStockQuantity sku final.db =
        loadInventoryStockQuantity sku final'.db) ∧
      final.db.orders.map (fun row => (row.id, row.status, row.failureReason)) =
        final'.db.orders.map fun row => (row.id, row.status, row.failureReason) := by
  have hran := hstart.run hrun
  have hran' := hstart.run hrun'
  obtain ⟨hstock, houtcomes⟩ :
      (reserveAll (firstDeliveries ts) (stockOf start.db)).1 =
          (reserveAll (firstDeliveries ts') (stockOf start.db)).1 ∧
        ∀ entry, entry ∈ (reserveAll (firstDeliveries ts) (stockOf start.db)).2 ↔
          entry ∈ (reserveAll (firstDeliveries ts') (stockOf start.db)).2 :=
    Keyed.process_congr hagree
  constructor
  · intro sku
    have hsame : stockOf final.db = stockOf final'.db :=
      hran.stock.trans (hstock.trans hran'.stock.symm)
    exact congrFun hsame sku
  · refine map_eq_of_keys (hran.order_ids.trans hran'.order_ids.symm) ?_
    intro row hrow row' hrow' hid
    obtain ⟨event, hevent, success, horder, hout, hverdict⟩ :=
      hran.verdict hdelivered hanswered row hrow
    obtain ⟨event', hevent', success', horder', hout', hverdict'⟩ :=
      hran'.verdict hdelivered' hanswered' row' hrow'
    have hsame : event' = event := hstart.ready.1.consistent.event_unique hevent' hevent
      (horder'.trans (hid.symm.trans horder.symm))
    subst hsame
    -- An event comes out once.
    have hnodup : ((reserveAll (firstDeliveries ts) (stockOf start.db)).2.map (·.1)).Nodup := by
      rw [reserveAll, Keyed.map_fst_process]
      exact nodup_firstDeliveries
    have hsuccess : success = success' := congrArg Prod.snd
      (List.inj_on_of_nodup_map hnodup hout ((houtcomes _).mpr hout') rfl)
    have hboth : (row.status, row.failureReason) = (row'.status, row'.failureReason) := by
      rw [hverdict, hverdict', hsuccess]
    exact congrArg₂ Prod.mk hid hboth

/-- Two orders for the one unit of `"a"`, and one for two units of `"b"`. -/
def firstA : OrderCreatedEvent := CreateOrderRequest.event ⟨"a", 1⟩ 0 ⟨1⟩ ⟨2⟩
def secondA : OrderCreatedEvent := CreateOrderRequest.event ⟨"a", 1⟩ 0 ⟨3⟩ ⟨4⟩
def onlyB : OrderCreatedEvent := CreateOrderRequest.event ⟨"b", 2⟩ 0 ⟨5⟩ ⟨6⟩

def threeOrders : Deliveries where
  db := {
    orders := [CreateOrderRequest.row ⟨"a", 1⟩ 0 ⟨1⟩, CreateOrderRequest.row ⟨"a", 1⟩ 0 ⟨3⟩,
      CreateOrderRequest.row ⟨"b", 2⟩ 0 ⟨5⟩]
    orderOutbox := [
      .new 0 ⟨2⟩ ⟨1⟩ orderCreatedEventType firstA 0,
      .new 1 ⟨4⟩ ⟨3⟩ orderCreatedEventType secondA 0,
      .new 2 ⟨6⟩ ⟨5⟩ orderCreatedEventType onlyB 0]
    orderInbox := []
    stocks := [⟨"a", 1, 0⟩, ⟨"b", 5, 0⟩]
    inventoryOutbox := []
    inventoryInbox := [] }
  issued := [⟨5⟩, ⟨6⟩, ⟨3⟩, ⟨4⟩, ⟨1⟩, ⟨2⟩]

theorem start_threeOrders : Start threeOrders := by
  have hstock : Start ⟨⟨[], [], [], [⟨"a", 1, 0⟩, ⟨"b", 5, 0⟩], [], []⟩, []⟩ :=
    .stocked (by decide) (by decide)
  have hone := hstock.created (by decide)
    (rfl : createOrder .missing 0 ⟨1⟩ ⟨2⟩ 0 ⟨"a", 1⟩ _ = _)
  have htwo := hone.created (by decide)
    (rfl : createOrder .missing 0 ⟨3⟩ ⟨4⟩ 1 ⟨"a", 1⟩ _ = _)
  exact htwo.created (by decide) (rfl : createOrder .missing 0 ⟨5⟩ ⟨6⟩ 2 ⟨"b", 2⟩ _ = _)

/-- The messages in order, the first of them twice; then the results. -/
def inOrder : List Delivery :=
  [.created 1 ⟨7⟩ 0 firstA, .created 2 ⟨8⟩ 1 secondA, .created 3 ⟨9⟩ 2 firstA,
    .created 4 ⟨10⟩ 3 onlyB,
    .result 5 (firstA.answer 1 ⟨7⟩ ⟨true, none⟩),
    .result 6 (secondA.answer 2 ⟨8⟩ ⟨false, some "insufficient_stock"⟩),
    .result 7 (onlyB.answer 4 ⟨10⟩ ⟨true, none⟩)]

/-- `"b"` first, a result before the last message, and results twice and out of order. -/
def outOfOrder : List Delivery :=
  [.created 1 ⟨7⟩ 0 onlyB, .created 2 ⟨8⟩ 1 firstA,
    .result 3 (firstA.answer 2 ⟨8⟩ ⟨true, none⟩),
    .created 4 ⟨9⟩ 2 secondA, .created 5 ⟨10⟩ 3 onlyB,
    .result 6 (secondA.answer 4 ⟨9⟩ ⟨false, some "insufficient_stock"⟩),
    .result 7 (firstA.answer 2 ⟨8⟩ ⟨true, none⟩),
    .result 8 (onlyB.answer 1 ⟨7⟩ ⟨true, none⟩)]

theorem outcomes_agree_threeOrders : ∃ ts ts' final final',
    system.Run threeOrders ts final ∧ system.Run threeOrders ts' final' ∧
    firstDeliveries ts ≠ firstDeliveries ts' ∧
    (∀ sku, loadInventoryStockQuantity sku final.db =
        loadInventoryStockQuantity sku final'.db) ∧
      final.db.orders.map (fun row => (row.id, row.status, row.failureReason)) =
        final'.db.orders.map fun row => (row.id, row.status, row.failureReason) := by
  have hchecked : (system.exec [] threeOrders inOrder).any (fun r =>
      firstDeliveries r.1 = [firstA, secondA, onlyB] ∧
      (∀ event ∈ threeOrders.db.books.created, ∃ tr ∈ r.1, tr.action.created? = some event) ∧
      ∀ result ∈ r.2.db.books.results, ∃ tr ∈ r.1, tr.action.result? = some result) = true := by
    decide
  have hchecked' : (system.exec [] threeOrders outOfOrder).any (fun r =>
      firstDeliveries r.1 = [onlyB, firstA, secondA] ∧
      (∀ event ∈ threeOrders.db.books.created, ∃ tr ∈ r.1, tr.action.created? = some event) ∧
      ∀ result ∈ r.2.db.books.results, ∃ tr ∈ r.1, tr.action.result? = some result) = true := by
    decide
  obtain ⟨ts, final, hrun, hchecked⟩ := TSys.exists_run hchecked
  obtain ⟨ts', final', hrun', hchecked'⟩ := TSys.exists_run hchecked'
  obtain ⟨hfirsts, hdelivered, hanswered⟩ := of_decide_eq_true hchecked
  obtain ⟨hfirsts', hdelivered', hanswered'⟩ := of_decide_eq_true hchecked'
  have hne : firstDeliveries ts ≠ firstDeliveries ts' := by
    rw [hfirsts, hfirsts']
    decide
  refine ⟨ts, ts', final, final', hrun, hrun', hne,
    outcomes_agree start_threeOrders hrun hrun' hdelivered hdelivered' hanswered hanswered' ?_⟩
  intro sku
  rw [hfirsts, hfirsts']
  by_cases ha : sku = "a"
  · subst ha
    decide
  · have hfirst : firstA.sku ≠ sku := Ne.symm ha
    have hsecond : secondA.sku ≠ sku := Ne.symm ha
    simp [List.filter_cons, hfirst, hsecond]

end Deliveries

end Axes.Orders
