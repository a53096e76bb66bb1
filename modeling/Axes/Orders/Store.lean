import Axes.Orders.Outbox

/-!
# Order and stock tables (`orders/store.rs`)

The transactions of the two workers and of the order handler. A transaction that
fails returns an error and no database: it is rolled back. The clock, the UUIDs and
the generated row ids a transaction draws are its arguments. A transaction of a worker
reads `utc_now` for the inbox row and again for what it updates; one time stands for
them all.
-/

namespace Axes.Orders

open Axes.Lib Axes.Lib.Table

/-- A row of `orders`. -/
structure OrderRow where
  id : Uuid
  sku : String
  quantity : Int
  simulateInventoryFailure : Bool
  status : Int
  failureReason : Option String
  createdAtUtc : DateTime
  updatedAtUtc : DateTime
  deriving DecidableEq

/-- A row of `order_inbox_messages` or `inventory_inbox_messages`. -/
structure InboxRow where
  messageId : Uuid
  consumer : String
  processedAtUtc : DateTime
  deriving DecidableEq

/-- A row of `inventory_stocks`. -/
structure StockRow where
  sku : String
  availableQuantity : Int
  updatedAtUtc : DateTime
  deriving DecidableEq

structure Database where
  orders : List OrderRow
  orderOutbox : List (OutboxRow OrderCreatedEvent)
  orderInbox : List InboxRow
  stocks : List StockRow
  inventoryOutbox : List (OutboxRow InventoryResultEvent)
  inventoryInbox : List InboxRow

/-- Why a transaction is rolled back. -/
inductive StoreError
  | uniqueViolation (table : String)
  | integerOutOfRange
  | orderNotFound (orderId : Uuid)
  | invalidStatus (error : AppError)
  deriving DecidableEq

structure OrderRecord where
  id : Uuid
  sku : String
  quantity : Int
  simulateInventoryFailure : Bool
  status : OrderStatus
  failureReason : Option String
  createdAtUtc : DateTime
  updatedAtUtc : DateTime
  deriving DecidableEq

def mapOrderRow (row : OrderRow) : Except StoreError OrderRecord :=
  match OrderStatus.tryFrom row.status with
  | .error error => .error (.invalidStatus error)
  | .ok status => .ok {
      id := row.id
      sku := row.sku
      quantity := row.quantity
      simulateInventoryFailure := row.simulateInventoryFailure
      status := status
      failureReason := row.failureReason
      createdAtUtc := row.createdAtUtc
      updatedAtUtc := row.updatedAtUtc }

def getOrderById (orderId : Uuid) (db : Database) : Except StoreError (Option OrderRecord) :=
  match db.orders.find? (fun row => decide (row.id = orderId)) with
  | none => .ok none
  | some row => (mapOrderRow row).map some

/-- `INSERT … ON CONFLICT DO NOTHING`: whether the row was inserted, and the table. -/
def insertInboxOnce (table : List InboxRow) (messageId : Uuid) (consumer : String)
    (utcNow : DateTime) : Bool × List InboxRow :=
  if table.any (fun row => decide (row.messageId = messageId ∧ row.consumer = consumer)) then
    (false, table)
  else (true, table ++ [⟨messageId, consumer, utcNow⟩])

/-- The row of a new order. -/
def CreateOrderRequest.row (payload : CreateOrderRequest) (utcNow : DateTime)
    (orderId : Uuid) : OrderRow where
  id := orderId
  sku := payload.sku
  quantity := payload.quantity
  simulateInventoryFailure := false
  status := OrderStatus.pending.code
  failureReason := none
  createdAtUtc := utcNow
  updatedAtUtc := utcNow

/-- The event of a new order. -/
def CreateOrderRequest.event (payload : CreateOrderRequest) (utcNow : DateTime)
    (orderId messageId : Uuid) : OrderCreatedEvent where
  messageId := messageId
  correlationId := orderId
  orderId := orderId
  sku := payload.sku
  quantity := payload.quantity
  occurredOnUtc := utcNow

def insertOrderWithOutbox (utcNow : DateTime) (orderId messageId : Uuid) (outboxId : Int)
    (payload : CreateOrderRequest) (db : Database) : Except StoreError (OrderRecord × Database) :=
  let event := payload.event utcNow orderId messageId
  if orderId ∈ db.orders.map (·.id) then .error (.uniqueViolation "orders")
  else if outboxId ∈ db.orderOutbox.map (·.id) then
    .error (.uniqueViolation "order_outbox_messages")
  else .ok ({
      id := orderId
      sku := payload.sku
      quantity := payload.quantity
      simulateInventoryFailure := false
      status := .pending
      failureReason := none
      createdAtUtc := utcNow
      updatedAtUtc := utcNow },
    { db with
      orders := db.orders ++ [payload.row utcNow orderId]
      orderOutbox := db.orderOutbox ++ [.new outboxId event.messageId event.correlationId
        orderCreatedEventType event utcNow] })

def applyInventoryResultMessage (utcNow : DateTime) (event : InventoryResultEvent)
    (db : Database) : Except StoreError (Bool × Database) :=
  let (inserted, orderInbox) :=
    insertInboxOnce db.orderInbox event.messageId ordersWorkerConsumer utcNow
  if inserted then
    let applied := applyInventoryResult event.success event.reason
    let selected (row : OrderRow) : Bool := decide (row.id = event.orderId)
    if rowsAffected selected db.orders = 1 then
      .ok (true, { db with
        orderInbox := orderInbox
        orders := updateWhere selected (fun row => { row with
          status := applied.status.code
          failureReason := applied.failureReason
          updatedAtUtc := utcNow }) db.orders })
    else .error (.orderNotFound event.orderId)
  else .ok (false, db)

def loadSimulateInventoryFailure (orderId : Uuid) (db : Database) : Option Bool :=
  (db.orders.find? fun row => decide (row.id = orderId)).map (·.simulateInventoryFailure)

/-- The guarded `UPDATE` of the stock row; a difference outside `int4` is an error. -/
def debitStock (utcNow : DateTime) (sku : String) (quantity : Int) (stocks : List StockRow) :
    Except StoreError (Nat × List StockRow) :=
  let selected (row : StockRow) : Bool :=
    decide (row.sku = sku ∧ quantity ≤ row.availableQuantity)
  if ∀ row ∈ stocks, selected row = true → int4 (row.availableQuantity - quantity) ≠ none then
    .ok (rowsAffected selected stocks,
      updateWhere selected (fun row => { row with
        availableQuantity := row.availableQuantity - quantity
        updatedAtUtc := utcNow }) stocks)
  else .error .integerOutOfRange

/-- The result the inventory worker answers an order with. -/
def OrderCreatedEvent.answer (event : OrderCreatedEvent) (utcNow : DateTime)
    (messageId : Uuid) (outcome : InventoryProcessingOutcome) : InventoryResultEvent where
  messageId := messageId
  correlationId := event.correlationId
  orderId := event.orderId
  sku := event.sku
  quantity := event.quantity
  success := outcome.success
  reason := outcome.reason
  occurredOnUtc := utcNow

def handleOrderCreatedMessage (utcNow : DateTime) (messageId : Uuid) (outboxId : Int)
    (event : OrderCreatedEvent) (db : Database) :
    Except StoreError (Option String × Database) :=
  let (inserted, inventoryInbox) :=
    insertInboxOnce db.inventoryInbox event.messageId inventoryWorkerConsumer utcNow
  if inserted then do
    let simulateInventoryFailure := (loadSimulateInventoryFailure event.orderId db).getD false
    let (updatedRows, stocks) ←
      if simulateInventoryFailure then .ok (0, db.stocks)
      else debitStock utcNow event.sku event.quantity db.stocks
    let outcome := determineInventoryResult simulateInventoryFailure updatedRows
    let outboxEvent := event.answer utcNow messageId outcome
    if outboxId ∈ db.inventoryOutbox.map (·.id) then
      .error (.uniqueViolation "inventory_outbox_messages")
    else .ok (some event.sku, { db with
      inventoryInbox := inventoryInbox
      stocks := stocks
      inventoryOutbox := db.inventoryOutbox ++ [.new outboxId outboxEvent.messageId
        outboxEvent.correlationId inventoryResultEventType outboxEvent utcNow] })
  else .ok (none, db)

def loadInventoryStockQuantity (sku : String) (db : Database) : Option Int :=
  (db.stocks.find? fun row => decide (row.sku = sku)).map (·.availableQuantity)

/-- The handler of `POST /orders`: validate, consult the cache, insert. -/
def createOrder (precheck : RedisPrecheckOutcome) (utcNow : DateTime)
    (orderId messageId : Uuid) (outboxId : Int) (request : CreateOrderRequest)
    (db : Database) : Except AppError (OrderRecord × Database) := do
  let payload ← request.validate
  match decideOrderCreation precheck payload.quantity with
  | .reject status reason =>
      .error { error := "Insufficient stock", status := status, reason := some reason }
  | .allow =>
      match insertOrderWithOutbox utcNow orderId messageId outboxId payload db with
      | .error _ => .error (.new "Internal server error" 500)
      | .ok (order, db') => .ok (order, db')

/-! ## What the transactions do -/

theorem insertInboxOnce_inserted (table : List InboxRow) (messageId : Uuid)
    (consumer : String) (utcNow : DateTime) :
    (insertInboxOnce table messageId consumer utcNow).1 = true ↔
      ∀ row ∈ table, row.consumer = consumer → row.messageId ≠ messageId := by
  unfold insertInboxOnce
  split
  · next hany =>
      obtain ⟨row, hrow, hmatch⟩ := List.any_eq_true.mp hany
      obtain ⟨hid, hconsumer⟩ := of_decide_eq_true hmatch
      simp only [Bool.false_eq_true, false_iff]
      exact fun hnone => hnone row hrow hconsumer hid
  · next hany =>
      simp only [true_iff]
      intro row hrow hconsumer hid
      exact hany (List.any_eq_true.mpr ⟨row, hrow, decide_eq_true ⟨hid, hconsumer⟩⟩)

theorem insertInboxOnce_table {table : List InboxRow} {messageId : Uuid}
    {consumer : String} {utcNow : DateTime}
    (h : (insertInboxOnce table messageId consumer utcNow).1 = true) :
    (insertInboxOnce table messageId consumer utcNow).2 =
      table ++ [⟨messageId, consumer, utcNow⟩] := by
  unfold insertInboxOnce at h ⊢
  split at h
  · cases h
  · next hany => rw [if_neg hany]

theorem insertOrderWithOutbox_ok {utcNow : DateTime} {orderId messageId : Uuid}
    {outboxId : Int} {payload : CreateOrderRequest} {db db' : Database} {order : OrderRecord}
    (h : insertOrderWithOutbox utcNow orderId messageId outboxId payload db =
      .ok (order, db')) :
    outboxId ∉ db.orderOutbox.map (·.id) ∧
      db' = { db with
        orders := db.orders ++ [payload.row utcNow orderId]
        orderOutbox := db.orderOutbox ++ [.new outboxId messageId orderId
          orderCreatedEventType (payload.event utcNow orderId messageId) utcNow] } := by
  unfold insertOrderWithOutbox at h
  split at h
  · cases h
  · split at h
    · cases h
    · next hid =>
        cases h
        exact ⟨hid, rfl⟩

/-- A created order was validated. -/
theorem createOrder_ok {precheck : RedisPrecheckOutcome} {utcNow : DateTime}
    {orderId messageId : Uuid} {outboxId : Int} {request : CreateOrderRequest}
    {db db' : Database} {order : OrderRecord}
    (h : createOrder precheck utcNow orderId messageId outboxId request db =
      .ok (order, db')) :
    0 < request.quantity ∧
      insertOrderWithOutbox utcNow orderId messageId outboxId request db = .ok (order, db') := by
  unfold createOrder at h
  cases hvalid : request.validate with
  | error error =>
      rw [hvalid] at h
      cases h
  | ok payload =>
      obtain ⟨rfl, -, hquantity⟩ := CreateOrderRequest.validate_ok hvalid
      rw [hvalid] at h
      simp only [bind, Except.bind] at h
      split at h
      · cases h
      · split at h
        · cases h
        · next hinsert =>
            cases h
            exact ⟨hquantity, hinsert⟩

/-- An application writes the status of one order, once for each message. -/
theorem applyInventoryResultMessage_ok {utcNow : DateTime} {event : InventoryResultEvent}
    {db db' : Database} {applied : Bool}
    (h : applyInventoryResultMessage utcNow event db = .ok (applied, db')) :
    (applied = false ∧ db' = db ∧ ∃ row ∈ db.orderInbox,
      row.consumer = ordersWorkerConsumer ∧ row.messageId = event.messageId) ∨
    (applied = true ∧ (∀ row ∈ db.orderInbox, row.consumer = ordersWorkerConsumer →
      row.messageId ≠ event.messageId) ∧
      db' = { db with
        orderInbox := db.orderInbox ++ [⟨event.messageId, ordersWorkerConsumer, utcNow⟩]
        orders := updateWhere (fun row => decide (row.id = event.orderId))
          (fun row => { row with
            status := (applyInventoryResult event.success event.reason).status.code
            failureReason := (applyInventoryResult event.success event.reason).failureReason
            updatedAtUtc := utcNow }) db.orders }) := by
  have hfresh := insertInboxOnce_inserted db.orderInbox event.messageId ordersWorkerConsumer
    utcNow
  unfold applyInventoryResultMessage at h
  dsimp only at h
  split at h
  · next hinserted =>
      split at h
      · cases h
        rw [insertInboxOnce_table hinserted]
        exact .inr ⟨rfl, hfresh.mp hinserted, rfl⟩
      · cases h
  · next hinserted =>
      cases h
      rw [hfresh] at hinserted
      push Not at hinserted
      exact .inl ⟨rfl, rfl, hinserted⟩

/-- The stock after `quantity` units of `sku` are taken. -/
def debited (utcNow : DateTime) (sku : String) (quantity : Int) (stocks : List StockRow) :
    List StockRow :=
  updateWhere (fun row => decide (row.sku = sku)) (fun row => { row with
    availableQuantity := row.availableQuantity - quantity
    updatedAtUtc := utcNow }) stocks

theorem map_sku_debited (utcNow : DateTime) (sku : String) (quantity : Int)
    (stocks : List StockRow) :
    (debited utcNow sku quantity stocks).map (·.sku) = stocks.map (·.sku) :=
  map_updateWhere fun _ => rfl

/-- Some stock row of `sku` has `quantity` units. -/
def Sufficient (sku : String) (quantity : Int) (stocks : List StockRow) : Prop :=
  ∃ row ∈ stocks, row.sku = sku ∧ quantity ≤ row.availableQuantity

/-- On unique skus the guarded update takes the units of one row, or none. -/
theorem debitStock_ok {utcNow : DateTime} {sku : String} {quantity : Int}
    {stocks stocks' : List StockRow} {updatedRows : Nat}
    (hunique : (stocks.map (·.sku)).Nodup)
    (h : debitStock utcNow sku quantity stocks = .ok (updatedRows, stocks')) :
    (updatedRows = 1 ∧ Sufficient sku quantity stocks ∧
      stocks' = debited utcNow sku quantity stocks) ∨
    (updatedRows = 0 ∧ ¬Sufficient sku quantity stocks ∧ stocks' = stocks) := by
  unfold debitStock at h
  dsimp only at h
  split at h
  · cases h
    by_cases hsufficient : Sufficient sku quantity stocks
    · left
      obtain ⟨row, hrow, hsku, hle⟩ := hsufficient
      have hle_one : rowsAffected
          (fun row : StockRow => decide (row.sku = sku ∧ quantity ≤ row.availableQuantity))
          stocks ≤ 1 :=
        rowsAffected_le_one hunique fun other _ hsel => (of_decide_eq_true hsel).1
      have hne_zero : rowsAffected
          (fun row : StockRow => decide (row.sku = sku ∧ quantity ≤ row.availableQuantity))
          stocks ≠ 0 := fun hzero => by
        have := rowsAffected_eq_zero.mp hzero row hrow
        simp [hsku, hle] at this
      refine ⟨by omega, ⟨row, hrow, hsku, hle⟩, ?_⟩
      -- the guard holds of the only row of the sku
      refine List.map_congr_left ?_
      intro other hother
      by_cases hother_sku : other.sku = sku
      · obtain rfl := List.inj_on_of_nodup_map hunique hrow hother (hsku.trans hother_sku.symm)
        rw [if_pos (decide_eq_true ⟨hsku, hle⟩), if_pos (decide_eq_true hsku)]
      · rw [if_neg (by simp [hother_sku]), if_neg (by simp [hother_sku])]
    · right
      have hnone : ∀ row ∈ stocks,
          decide (row.sku = sku ∧ quantity ≤ row.availableQuantity) = false := by
        intro row hrow
        exact decide_eq_false fun hsel => hsufficient ⟨row, hrow, hsel.1, hsel.2⟩
      exact ⟨rowsAffected_eq_zero.mpr hnone, hsufficient, updateWhere_of_none hnone⟩
  · cases h

/-- What the stock makes of an order: its units are taken and it succeeds, or they do not
suffice. -/
inductive Decides (utcNow : DateTime) (event : OrderCreatedEvent) (stocks : List StockRow) :
    InventoryProcessingOutcome → List StockRow → Prop
  | enough (sufficient : Sufficient event.sku event.quantity stocks) :
      Decides utcNow event stocks ⟨true, none⟩
        (debited utcNow event.sku event.quantity stocks)
  | short (insufficient : ¬Sufficient event.sku event.quantity stocks) :
      Decides utcNow event stocks ⟨false, some "insufficient_stock"⟩ stocks

/-- A handling without simulated failure: nothing for a message seen before; else an
inbox row, an outbox row, and what the stock decides. -/
theorem handleOrderCreatedMessage_ok {utcNow : DateTime} {messageId : Uuid} {outboxId : Int}
    {event : OrderCreatedEvent} {db db' : Database} {refresh : Option String}
    (hunique : (db.stocks.map (·.sku)).Nodup)
    (hsimulate : ∀ row ∈ db.orders, row.simulateInventoryFailure = false)
    (h : handleOrderCreatedMessage utcNow messageId outboxId event db = .ok (refresh, db')) :
    (refresh = none ∧ db' = db ∧ ∃ row ∈ db.inventoryInbox,
      row.consumer = inventoryWorkerConsumer ∧ row.messageId = event.messageId) ∨
    (refresh = some event.sku ∧ (∀ row ∈ db.inventoryInbox,
      row.consumer = inventoryWorkerConsumer → row.messageId ≠ event.messageId) ∧
      outboxId ∉ db.inventoryOutbox.map (·.id) ∧
      ∃ stocks outcome,
        Decides utcNow event db.stocks outcome stocks ∧
        db' = { db with
          inventoryInbox := db.inventoryInbox ++
            [⟨event.messageId, inventoryWorkerConsumer, utcNow⟩]
          stocks := stocks
          inventoryOutbox := db.inventoryOutbox ++ [.new outboxId messageId
            event.correlationId inventoryResultEventType
            (event.answer utcNow messageId outcome) utcNow] }) := by
  have hfresh := insertInboxOnce_inserted db.inventoryInbox event.messageId
    inventoryWorkerConsumer utcNow
  -- No order was stored with the flag, so the stock is asked.
  have hflag : (loadSimulateInventoryFailure event.orderId db).getD false = false := by
    unfold loadSimulateInventoryFailure
    cases hfind : db.orders.find? (fun row => decide (row.id = event.orderId)) with
    | none => rfl
    | some row => exact hsimulate row (List.mem_of_find?_eq_some hfind)
  unfold handleOrderCreatedMessage at h
  dsimp only at h
  rw [hflag] at h
  split at h
  · next hinserted =>
      cases hdebit : debitStock utcNow event.sku event.quantity db.stocks with
      | error error =>
          rw [hdebit] at h
          cases h
      | ok debit =>
          obtain ⟨updatedRows, stocks⟩ := debit
          rw [hdebit] at h
          simp only [Bool.false_eq_true, if_false, bind, Except.bind] at h
          split at h
          · cases h
          · next hid =>
              cases h
              rw [insertInboxOnce_table hinserted]
              refine .inr ⟨rfl, hfresh.mp hinserted, hid, stocks, _, ?_, rfl⟩
              rcases debitStock_ok hunique hdebit with ⟨rfl, hstock, rfl⟩ | ⟨rfl, hstock, rfl⟩
              · exact .enough hstock
              · exact .short hstock
  · next hinserted =>
      cases h
      rw [hfresh] at hinserted
      push Not at hinserted
      exact .inl ⟨rfl, rfl, hinserted⟩

/-! ## What is left of a sku -/

/-- On unique skus the units suffice when the stock that is loaded does. -/
theorem sufficient_iff {stocks : List StockRow} (hskus : (stocks.map (·.sku)).Nodup)
    {sku : String} {quantity : Int} : Sufficient sku quantity stocks ↔
      ∃ available, (stocks.find? fun row => decide (row.sku = sku)).map (·.availableQuantity) =
        some available ∧ quantity ≤ available := by
  constructor
  · rintro ⟨row, hrow, rfl, hle⟩
    exact ⟨row.availableQuantity, by rw [find?_of_unique hskus hrow, Option.map_some], hle⟩
  · rintro ⟨available, hload, hle⟩
    obtain ⟨row, hfind, rfl⟩ := Option.map_eq_some_iff.mp hload
    have hsku := List.find?_some hfind
    exact ⟨row, List.mem_of_find?_eq_some hfind, of_decide_eq_true hsku, hle⟩

theorem find?_debited (utcNow : DateTime) (sku k : String) (quantity : Int)
    (stocks : List StockRow) :
    ((debited utcNow sku quantity stocks).find? fun row => decide (row.sku = k)).map
        (·.availableQuantity) =
      ((stocks.find? fun row => decide (row.sku = k)).map (·.availableQuantity)).map
        fun available => if k = sku then available - quantity else available := by
  have hsku : ∀ row : StockRow, StockRow.sku { row with
      availableQuantity := row.availableQuantity - quantity, updatedAtUtc := utcNow } =
      StockRow.sku row := fun _ => rfl
  unfold debited
  rw [find?_updateWhere hsku k]
  cases hfind : stocks.find? (fun row => decide (row.sku = k)) with
  | none => rfl
  | some row =>
      have hsku := List.find?_some hfind
      have hsku : row.sku = k := of_decide_eq_true hsku
      by_cases hk : k = sku
      · simp [hsku, hk]
      · simp [hsku, hk]

theorem loadInventoryStockQuantity_congr {sku : String} {db db' : Database}
    (h : db'.stocks = db.stocks) :
    loadInventoryStockQuantity sku db' = loadInventoryStockQuantity sku db := by
  unfold loadInventoryStockQuantity
  rw [h]

theorem loadInventoryStockQuantity_debited {utcNow : DateTime} {sku k : String} {quantity : Int}
    {db db' : Database} (h : db'.stocks = debited utcNow sku quantity db.stocks) :
    loadInventoryStockQuantity k db' = (loadInventoryStockQuantity k db).map
      fun available => if k = sku then available - quantity else available := by
  unfold loadInventoryStockQuantity
  rw [h]
  exact find?_debited utcNow sku k quantity db.stocks

/-- Whatever a handling answers, it takes the units of its order from its sku, or nothing;
when it answers that the message was seen before, nothing. -/
theorem handleOrderCreatedMessage_stocks {utcNow : DateTime} {messageId : Uuid} {outboxId : Int}
    {event : OrderCreatedEvent} {db db' : Database} {refresh : Option String}
    (hunique : (db.stocks.map (·.sku)).Nodup)
    (h : handleOrderCreatedMessage utcNow messageId outboxId event db = .ok (refresh, db')) :
    (refresh = none ∧ db'.stocks = db.stocks) ∨
    (refresh = some event.sku ∧ (db'.stocks = db.stocks ∨
      db'.stocks = debited utcNow event.sku event.quantity db.stocks)) := by
  unfold handleOrderCreatedMessage at h
  dsimp only at h
  split at h
  · split at h
    · -- a simulated failure takes nothing
      simp only [bind, Except.bind] at h
      split at h
      · cases h
      · cases h
        exact .inr ⟨rfl, .inl rfl⟩
    · cases hdebit : debitStock utcNow event.sku event.quantity db.stocks with
      | error error =>
          rw [hdebit] at h
          cases h
      | ok debit =>
          rw [hdebit] at h
          simp only [bind, Except.bind] at h
          split at h
          · cases h
          · cases h
            rcases debitStock_ok hunique hdebit with ⟨-, -, hstocks⟩ | ⟨-, -, hstocks⟩
            · exact .inr ⟨rfl, .inr hstocks⟩
            · exact .inr ⟨rfl, .inl hstocks⟩
  · cases h
    exact .inl ⟨rfl, rfl⟩

/-- An order of more than there is fails, whatever its flag says. -/
theorem handleOrderCreatedMessage_short {utcNow : DateTime} {messageId : Uuid} {outboxId : Int}
    {event : OrderCreatedEvent} {db : Database}
    (hnew : ∀ row ∈ db.inventoryInbox, row.consumer = inventoryWorkerConsumer →
      row.messageId ≠ event.messageId)
    (hfresh : outboxId ∉ db.inventoryOutbox.map (·.id))
    (hshort : ¬Sufficient event.sku event.quantity db.stocks) :
    ∃ outcome db', handleOrderCreatedMessage utcNow messageId outboxId event db =
        .ok (some event.sku, db') ∧
      db'.inventoryOutbox = db.inventoryOutbox ++ [.new outboxId messageId event.correlationId
        inventoryResultEventType (event.answer utcNow messageId outcome) utcNow] ∧
      outcome.success = false := by
  have hinserted := (insertInboxOnce_inserted db.inventoryInbox event.messageId
    inventoryWorkerConsumer utcNow).mpr hnew
  have hnone : ∀ row ∈ db.stocks,
      decide (row.sku = event.sku ∧ event.quantity ≤ row.availableQuantity) = false := by
    intro row hrow
    exact decide_eq_false fun hsel => hshort ⟨row, hrow, hsel⟩
  have hdebit : debitStock utcNow event.sku event.quantity db.stocks = .ok (0, db.stocks) := by
    unfold debitStock
    dsimp only
    rw [if_pos, rowsAffected_eq_zero.mpr hnone, updateWhere_of_none hnone]
    intro row hrow hsel
    rw [hnone row hrow] at hsel
    cases hsel
  unfold handleOrderCreatedMessage
  dsimp only
  rw [if_pos hinserted]
  by_cases hflag : (loadSimulateInventoryFailure event.orderId db).getD false = true
  · simp only [hflag, if_true, bind, Except.bind, if_neg hfresh]
    exact ⟨_, _, rfl, rfl, rfl⟩
  · simp only [hflag, hdebit, Bool.false_eq_true, if_false, bind, Except.bind, if_neg hfresh]
    exact ⟨_, _, rfl, rfl, rfl⟩

end Axes.Orders
