import Axes.Orders.Store

/-!
# What the saga has on record

The books of the saga are its tables without the columns that only say how far a
message has got: the orders, the events of the two outboxes, the two inboxes and the
stock. `Consistent` ties them together, `Stocked` accounts for the stock, and each
transaction keeps both.
-/

namespace Axes.Orders

open Axes.Lib Axes.Lib.Table

structure Books where
  orders : List OrderRow
  created : List OrderCreatedEvent
  /-- The inbox of the inventory worker. -/
  handled : List InboxRow
  stocks : List StockRow
  results : List InventoryResultEvent
  /-- The inbox of the orders worker. -/
  applied : List InboxRow

def Database.books (db : Database) : Books where
  orders := db.orders
  created := db.orderOutbox.map (·.payload)
  handled := db.inventoryInbox
  stocks := db.stocks
  results := db.inventoryOutbox.map (·.payload)
  applied := db.orderInbox

namespace Books

/-- The inventory worker has handled the message. -/
def Handled (b : Books) (messageId : Uuid) : Prop :=
  ∃ row ∈ b.handled, row.messageId = messageId

/-- The orders worker has applied the message. -/
def Applied (b : Books) (messageId : Uuid) : Prop :=
  ∃ row ∈ b.applied, row.messageId = messageId

/-- The units of `sku` that successful results have taken. -/
def reservedQuantity (results : List InventoryResultEvent) (sku : String) : Int :=
  ((results.filter fun result => decide (result.success = true ∧ result.sku = sku)).map
    (·.quantity)).sum

/-- The event of an order says what its row says. -/
structure Matches (row : OrderRow) (event : OrderCreatedEvent) : Prop where
  id : row.id = event.orderId
  sku : row.sku = event.sku
  quantity : row.quantity = event.quantity

/-- A result answers the event of its order. -/
structure Answers (result : InventoryResultEvent) (event : OrderCreatedEvent) : Prop where
  id : result.orderId = event.orderId
  sku : result.sku = event.sku
  quantity : result.quantity = event.quantity

/-- Orders and their events: one event for each order, placed as it was validated.
`issued` are the UUIDs drawn so far. -/
structure Placed (issued : List Uuid) (b : Books) : Prop where
  order_ids : (b.orders.map (·.id)).Nodup
  simulate : ∀ row ∈ b.orders, row.simulateInventoryFailure = false
  positive : ∀ event ∈ b.created, 0 < event.quantity
  created_ids : (b.created.map (·.messageId)).Nodup
  created_orders : (b.created.map (·.orderId)).Nodup
  order_created : ∀ row ∈ b.orders, ∃ event ∈ b.created, Matches row event
  created_order : ∀ event ∈ b.created, ∃ row ∈ b.orders, Matches row event
  issued_orders : ∀ row ∈ b.orders, row.id ∈ issued
  issued_created : ∀ event ∈ b.created, event.messageId ∈ issued

/-- Events and their results: one result for each handled event. -/
structure Resolved (issued : List Uuid) (b : Books) : Prop where
  handled_consumer : ∀ row ∈ b.handled, row.consumer = inventoryWorkerConsumer
  handled_issued : ∀ row ∈ b.handled, row.messageId ∈ issued
  result_ids : (b.results.map (·.messageId)).Nodup
  result_orders : (b.results.map (·.orderId)).Nodup
  result_created : ∀ result ∈ b.results, ∃ event ∈ b.created, Answers result event
  handled_iff : ∀ event ∈ b.created,
    b.Handled event.messageId ↔ event.orderId ∈ b.results.map (·.orderId)
  issued_results : ∀ result ∈ b.results, result.messageId ∈ issued
  reasons : ∀ result ∈ b.results,
    result.reason = if result.success then none else some "insufficient_stock"

/-- Results and the orders they were applied to: an order has the status of its
applied result, and is pending without one. -/
structure Settled (issued : List Uuid) (b : Books) : Prop where
  applied_consumer : ∀ row ∈ b.applied, row.consumer = ordersWorkerConsumer
  applied_issued : ∀ row ∈ b.applied, row.messageId ∈ issued
  settled : ∀ row ∈ b.orders, ∀ result ∈ b.results, result.orderId = row.id →
    b.Applied result.messageId →
    row.status = (applyInventoryResult result.success result.reason).status.code ∧
      row.failureReason = (applyInventoryResult result.success result.reason).failureReason
  pending : ∀ row ∈ b.orders, (∀ result ∈ b.results, result.orderId = row.id →
    ¬b.Applied result.messageId) → row.status = OrderStatus.pending.code

/-- The records agree. -/
structure Consistent (issued : List Uuid) (b : Books) : Prop where
  placed : b.Placed issued
  resolved : b.Resolved issued
  settled : b.Settled issued

/-- The stock is the initial stock less what successful results have taken. -/
structure Stocked (initial : List StockRow) (b : Books) : Prop where
  skus : b.stocks.map (·.sku) = initial.map (·.sku)
  nonneg : ∀ row ∈ b.stocks, 0 ≤ row.availableQuantity
  conserved : ∀ row ∈ b.stocks, ∀ row₀ ∈ initial, row₀.sku = row.sku →
    row₀.availableQuantity = row.availableQuantity + reservedQuantity b.results row.sku

variable {issued : List Uuid} {b : Books} {initial : List StockRow}

/-! ## Reading the records -/

/-- Events of one order are one event. -/
theorem Consistent.event_unique (h : b.Consistent issued) {event event' : OrderCreatedEvent}
    (hevent : event ∈ b.created) (hevent' : event' ∈ b.created)
    (horder : event.orderId = event'.orderId) : event = event' :=
  List.inj_on_of_nodup_map h.placed.created_orders hevent hevent' horder

/-- Results of one order are one result. -/
theorem Consistent.result_unique (h : b.Consistent issued)
    {result result' : InventoryResultEvent} (hresult : result ∈ b.results)
    (hresult' : result' ∈ b.results) (horder : result.orderId = result'.orderId) :
    result = result' :=
  List.inj_on_of_nodup_map h.resolved.result_orders hresult hresult' horder

/-- A new UUID is no order's. -/
theorem Placed.new_order (h : b.Placed issued) {orderId : Uuid} (hnew : orderId ∉ issued) :
    ∀ event ∈ b.created, event.orderId ≠ orderId := by
  rintro event hevent rfl
  obtain ⟨row, hrow, hmatches⟩ := h.created_order event hevent
  exact hnew (hmatches.id ▸ h.issued_orders row hrow)

theorem Consistent.issue (h : b.Consistent issued) (messageId : Uuid) :
    b.Consistent (messageId :: issued) where
  placed := { h.placed with
    issued_orders := fun row hrow => List.mem_cons_of_mem _ (h.placed.issued_orders row hrow)
    issued_created := fun event hevent =>
      List.mem_cons_of_mem _ (h.placed.issued_created event hevent) }
  resolved := { h.resolved with
    handled_issued := fun row hrow => List.mem_cons_of_mem _ (h.resolved.handled_issued row hrow)
    issued_results := fun result hresult =>
      List.mem_cons_of_mem _ (h.resolved.issued_results result hresult) }
  settled := { h.settled with
    applied_issued := fun row hrow => List.mem_cons_of_mem _ (h.settled.applied_issued row hrow) }

/-! ## Placing an order -/

def place (b : Books) (row : OrderRow) (event : OrderCreatedEvent) : Books :=
  { b with orders := b.orders ++ [row], created := b.created ++ [event] }

section Place

variable {payload : CreateOrderRequest} {utcNow : DateTime} {orderId messageId : Uuid}

theorem Placed.place (h : b.Placed issued) (hquantity : 0 < payload.quantity)
    (horder : orderId ∉ issued) (hmessage : messageId ∉ issued) :
    (b.place (payload.row utcNow orderId) (payload.event utcNow orderId messageId)).Placed
      (orderId :: messageId :: issued) where
  order_ids := nodup_map_insert h.order_ids fun hmem => by
    obtain ⟨row, hrow, hid⟩ := List.mem_map.mp hmem
    have hissued := h.issued_orders row hrow
    rw [hid] at hissued
    exact horder hissued
  simulate := forall_mem_insert.mpr ⟨h.simulate, rfl⟩
  positive := forall_mem_insert.mpr ⟨h.positive, hquantity⟩
  created_ids := nodup_map_insert h.created_ids fun hmem => by
    obtain ⟨event, hevent, hid⟩ := List.mem_map.mp hmem
    have hissued := h.issued_created event hevent
    rw [hid] at hissued
    exact hmessage hissued
  created_orders := nodup_map_insert h.created_orders fun hmem => by
    obtain ⟨event, hevent, hid⟩ := List.mem_map.mp hmem
    exact h.new_order horder event hevent hid
  order_created := forall_mem_insert.mpr
    ⟨fun row hrow => by
      obtain ⟨event, hevent, hmatches⟩ := h.order_created row hrow
      exact ⟨event, List.mem_append_left _ hevent, hmatches⟩,
    ⟨_, List.mem_append_right _ List.mem_cons_self, rfl, rfl, rfl⟩⟩
  created_order := forall_mem_insert.mpr
    ⟨fun event hevent => by
      obtain ⟨row, hrow, hmatches⟩ := h.created_order event hevent
      exact ⟨row, List.mem_append_left _ hrow, hmatches⟩,
    ⟨_, List.mem_append_right _ List.mem_cons_self, rfl, rfl, rfl⟩⟩
  issued_orders := forall_mem_insert.mpr
    ⟨fun row hrow => List.mem_cons_of_mem _ (List.mem_cons_of_mem _ (h.issued_orders row hrow)),
    List.mem_cons_self⟩
  issued_created := forall_mem_insert.mpr
    ⟨fun event hevent =>
      List.mem_cons_of_mem _ (List.mem_cons_of_mem _ (h.issued_created event hevent)),
    List.mem_cons_of_mem _ List.mem_cons_self⟩

/-- No result is about a new order. -/
theorem Consistent.no_result (h : b.Consistent issued) (horder : orderId ∉ issued) :
    ∀ result ∈ b.results, result.orderId ≠ orderId := by
  rintro result hresult rfl
  obtain ⟨event, hevent, hanswers⟩ := h.resolved.result_created result hresult
  exact h.placed.new_order horder event hevent hanswers.id.symm

theorem Consistent.place (h : b.Consistent issued) (hquantity : 0 < payload.quantity)
    (horder : orderId ∉ issued) (hmessage : messageId ∉ issued) :
    (b.place (payload.row utcNow orderId) (payload.event utcNow orderId messageId)).Consistent
      (orderId :: messageId :: issued) where
  placed := h.placed.place hquantity horder hmessage
  resolved := { ((h.issue messageId).issue orderId).resolved with
    result_created := fun result hresult => by
      obtain ⟨event, hevent, hanswers⟩ := h.resolved.result_created result hresult
      exact ⟨event, List.mem_append_left _ hevent, hanswers⟩
    handled_iff := forall_mem_insert.mpr ⟨h.resolved.handled_iff, by
      -- the message of a new order was neither handled nor answered
      constructor
      · rintro ⟨row, hrow, rfl⟩
        exact absurd (h.resolved.handled_issued row hrow) hmessage
      · intro hmem
        obtain ⟨result, hresult, hid⟩ := List.mem_map.mp hmem
        exact absurd hid (h.no_result horder result hresult)⟩ }
  settled := { ((h.issue messageId).issue orderId).settled with
    settled := forall_mem_insert.mpr ⟨h.settled.settled, fun result hresult hid =>
      absurd hid (h.no_result horder result hresult)⟩
    pending := forall_mem_insert.mpr ⟨h.settled.pending, fun _ => rfl⟩ }

end Place

/-! ## Resolving an order -/

def resolve (b : Books) (inbox : InboxRow) (stocks : List StockRow)
    (result : InventoryResultEvent) : Books :=
  { b with
    handled := b.handled ++ [inbox]
    stocks := stocks
    results := b.results ++ [result] }

section Resolve

variable {event : OrderCreatedEvent} {result : InventoryResultEvent} {inbox : InboxRow}
  {stocks : List StockRow}

/-- An unhandled event has no result. -/
theorem Consistent.unresolved (h : b.Consistent issued) (hevent : event ∈ b.created)
    (hunhandled : ¬b.Handled event.messageId) :
    event.orderId ∉ b.results.map (·.orderId) :=
  fun hmem => hunhandled ((h.resolved.handled_iff event hevent).mpr hmem)

theorem handled_resolve {messageId : Uuid} :
    (b.resolve inbox stocks result).Handled messageId ↔
      b.Handled messageId ∨ inbox.messageId = messageId := by
  simp only [Handled, Books.resolve, List.mem_append, List.mem_singleton, or_and_right,
    exists_or, exists_eq_left]

theorem Consistent.resolve (h : b.Consistent issued) (hevent : event ∈ b.created)
    (hunhandled : ¬b.Handled event.messageId) (hanswers : Answers result event)
    (hnew : result.messageId ∉ issued) (hinbox : inbox.messageId = event.messageId)
    (hconsumer : inbox.consumer = inventoryWorkerConsumer)
    (hreason : result.reason = if result.success then none else some "insufficient_stock") :
    (b.resolve inbox stocks result).Consistent (result.messageId :: issued) where
  placed := { (h.issue result.messageId).placed with }
  resolved := {
    handled_consumer := forall_mem_insert.mpr ⟨h.resolved.handled_consumer, hconsumer⟩
    handled_issued := forall_mem_insert.mpr
      ⟨(h.issue result.messageId).resolved.handled_issued,
        hinbox ▸ (h.issue result.messageId).placed.issued_created event hevent⟩
    result_ids := nodup_map_insert h.resolved.result_ids fun hmem => by
      obtain ⟨other, hother, hid⟩ := List.mem_map.mp hmem
      exact hnew (hid ▸ h.resolved.issued_results other hother)
    result_orders := nodup_map_insert h.resolved.result_orders
      (hanswers.id ▸ h.unresolved hevent hunhandled)
    result_created := forall_mem_insert.mpr
      ⟨h.resolved.result_created, event, hevent, hanswers⟩
    handled_iff := fun other hother => by
      have hold := h.resolved.handled_iff other hother
      rw [handled_resolve, hold]
      simp only [Books.resolve, List.map_append, List.map_singleton, List.mem_append,
        List.mem_singleton, hinbox, hanswers.id]
      refine or_congr_right ⟨fun hid => ?_, fun hid => ?_⟩
      -- Message ids and order ids both single out the event.
      · rw [List.inj_on_of_nodup_map h.placed.created_ids hevent hother hid]
      · rw [h.event_unique hother hevent hid]
    issued_results := forall_mem_insert.mpr
      ⟨(h.issue result.messageId).resolved.issued_results, List.mem_cons_self⟩
    reasons := forall_mem_insert.mpr ⟨h.resolved.reasons, hreason⟩ }
  settled := { (h.issue result.messageId).settled with
    settled := fun row hrow => forall_mem_insert.mpr ⟨h.settled.settled row hrow, by
      -- the new result was not applied
      rintro - ⟨inbox, hinbox, hid⟩
      exact absurd (hid ▸ h.settled.applied_issued inbox hinbox) hnew⟩
    pending := fun row hrow hnone =>
      h.settled.pending row hrow fun other hother => hnone other (List.mem_append_left _ hother) }

end Resolve

/-! ## Settling an order -/

/-- The order row an application writes. -/
def settleRow (utcNow : DateTime) (result : InventoryResultEvent) (row : OrderRow) : OrderRow :=
  { row with
    status := (applyInventoryResult result.success result.reason).status.code
    failureReason := (applyInventoryResult result.success result.reason).failureReason
    updatedAtUtc := utcNow }

def settle (b : Books) (utcNow : DateTime) (inbox : InboxRow) (result : InventoryResultEvent) :
    Books :=
  { b with
    applied := b.applied ++ [inbox]
    orders := updateWhere (fun row => decide (row.id = result.orderId))
      (settleRow utcNow result) b.orders }

section Settle

variable {result : InventoryResultEvent} {inbox : InboxRow} {utcNow : DateTime}

/-- Settling changes no column the events speak about. -/
theorem matches_settle {row : OrderRow} {event : OrderCreatedEvent} :
    Matches (if decide (row.id = result.orderId) = true then
      settleRow utcNow result row else row) event ↔ Matches row event := by
  split
  · exact ⟨fun ⟨hid, hsku, hquantity⟩ => ⟨hid, hsku, hquantity⟩,
      fun ⟨hid, hsku, hquantity⟩ => ⟨hid, hsku, hquantity⟩⟩
  · rfl

theorem Placed.settle (h : b.Placed issued) : (b.settle utcNow inbox result).Placed issued :=
  { h with
    order_ids := by
      have hids : (b.settle utcNow inbox result).orders.map (·.id) = b.orders.map (·.id) :=
        map_updateWhere fun _ => rfl
      rw [hids]
      exact h.order_ids
    simulate := fun row' hrow' => by
      obtain ⟨row, hrow, rfl⟩ := mem_updateWhere.mp hrow'
      have hflag := h.simulate row hrow
      split <;> exact hflag
    order_created := fun row' hrow' => by
      obtain ⟨row, hrow, rfl⟩ := mem_updateWhere.mp hrow'
      obtain ⟨event, hevent, hmatches⟩ := h.order_created row hrow
      exact ⟨event, hevent, matches_settle.mpr hmatches⟩
    created_order := fun event hevent => by
      obtain ⟨row, hrow, hmatches⟩ := h.created_order event hevent
      exact ⟨_, mem_updateWhere.mpr ⟨row, hrow, rfl⟩, matches_settle.mpr hmatches⟩
    issued_orders := fun row' hrow' => by
      obtain ⟨row, hrow, rfl⟩ := mem_updateWhere.mp hrow'
      have hissued := h.issued_orders row hrow
      split <;> exact hissued }

theorem applied_settle {messageId : Uuid} (hinbox : inbox.messageId = result.messageId) :
    (b.settle utcNow inbox result).Applied messageId ↔
      b.Applied messageId ∨ result.messageId = messageId := by
  simp only [Applied, Books.settle, List.mem_append, List.mem_singleton, or_and_right,
    exists_or, exists_eq_left, hinbox]

theorem Consistent.settle (h : b.Consistent issued) (hresult : result ∈ b.results)
    (hinbox : inbox.messageId = result.messageId)
    (hconsumer : inbox.consumer = ordersWorkerConsumer) :
    (b.settle utcNow inbox result).Consistent issued where
  placed := h.placed.settle
  resolved := { h.resolved with }
  settled := {
    applied_consumer := forall_mem_insert.mpr ⟨h.settled.applied_consumer, hconsumer⟩
    applied_issued := forall_mem_insert.mpr
      ⟨h.settled.applied_issued, hinbox ▸ h.resolved.issued_results result hresult⟩
    settled := fun row' hrow' other hother hid happlied => by
      obtain ⟨row, hrow, rfl⟩ := mem_updateWhere.mp hrow'
      by_cases hrowid : row.id = result.orderId
      · rw [if_pos (decide_eq_true hrowid)] at hid ⊢
        -- The order's only result is the one that is applied.
        obtain rfl := h.result_unique hother hresult (hid.trans hrowid)
        exact ⟨rfl, rfl⟩
      · rw [if_neg (by simpa using hrowid)] at hid ⊢
        refine h.settled.settled row hrow other hother hid ?_
        rcases (applied_settle hinbox).mp happlied with hold | hsame
        · exact hold
        -- Applied just now, so about another order.
        · obtain rfl := List.inj_on_of_nodup_map h.resolved.result_ids hresult hother hsame
          exact absurd hid.symm hrowid
    pending := fun row' hrow' hnone => by
      obtain ⟨row, hrow, rfl⟩ := mem_updateWhere.mp hrow'
      by_cases hrowid : row.id = result.orderId
      · rw [if_pos (decide_eq_true hrowid)] at hnone
        exact absurd ((applied_settle hinbox).mpr (.inr rfl)) (hnone result hresult hrowid.symm)
      · rw [if_neg (by simpa using hrowid)] at hnone ⊢
        exact h.settled.pending row hrow fun other hother hid happlied =>
          hnone other hother hid ((applied_settle hinbox).mpr (.inl happlied)) }

end Settle

/-! ## The stock -/

theorem reservedQuantity_append (results : List InventoryResultEvent)
    (result : InventoryResultEvent) (sku : String) :
    reservedQuantity (results ++ [result]) sku = reservedQuantity results sku +
      if result.success = true ∧ result.sku = sku then result.quantity else 0 := by
  unfold reservedQuantity
  rw [List.filter_append, List.map_append, List.sum_append]
  by_cases h : result.success = true ∧ result.sku = sku <;> simp [h]

/-- A failed result takes nothing. -/
theorem Stocked.resolve_failed (h : b.Stocked initial) {inbox : InboxRow}
    {result : InventoryResultEvent} (hfailed : result.success = false) :
    (b.resolve inbox b.stocks result).Stocked initial :=
  { h with
    conserved := fun row hrow row₀ hrow₀ hsku => by
      have hold := h.conserved row hrow row₀ hrow₀ hsku
      simp only [Books.resolve, reservedQuantity_append, hfailed, Bool.false_eq_true, false_and,
        if_false, Int.add_zero]
      exact hold }

/-- A successful result takes the units that are debited. -/
theorem Stocked.resolve_debited (h : b.Stocked initial) {inbox : InboxRow}
    {result : InventoryResultEvent} {utcNow : DateTime} (hunique : (b.stocks.map (·.sku)).Nodup)
    (hsucceeded : result.success = true)
    (hsufficient : Sufficient result.sku result.quantity b.stocks) :
    (b.resolve inbox (debited utcNow result.sku result.quantity b.stocks) result).Stocked
      initial where
  skus := (map_sku_debited ..).trans h.skus
  nonneg row' hrow' := by
    obtain ⟨row, hrow, rfl⟩ := mem_updateWhere.mp hrow'
    by_cases hsku : row.sku = result.sku
    -- The guard of the update was checked on this very row.
    · obtain ⟨other, hother, hother_sku, hle⟩ := hsufficient
      obtain rfl := List.inj_on_of_nodup_map hunique hrow hother (hsku.trans hother_sku.symm)
      rw [if_pos (decide_eq_true hsku)]
      show 0 ≤ row.availableQuantity - result.quantity
      omega
    · rw [if_neg (by simpa using hsku)]
      exact h.nonneg row hrow
  conserved row' hrow' row₀ hrow₀ hsku₀ := by
    obtain ⟨row, hrow, rfl⟩ := mem_updateWhere.mp hrow'
    simp only [Books.resolve, reservedQuantity_append, hsucceeded, true_and]
    by_cases hsku : row.sku = result.sku
    · rw [if_pos (decide_eq_true hsku)] at hsku₀ ⊢
      have hold := h.conserved row hrow row₀ hrow₀ hsku₀
      rw [if_pos hsku.symm]
      show row₀.availableQuantity = row.availableQuantity - result.quantity +
        (reservedQuantity b.results row.sku + result.quantity)
      omega
    · rw [if_neg (by simpa using hsku)] at hsku₀ ⊢
      have hold := h.conserved row hrow row₀ hrow₀ hsku₀
      rw [if_neg (Ne.symm hsku)]
      omega

end Books

/-! ## The transactions -/

section Transactions

variable {issued : List Uuid} {db db' : Database} {utcNow : DateTime} {messageId : Uuid}
  {outboxId : Int}

/-- An inserted order is placed. -/
theorem books_insertOrderWithOutbox {orderId : Uuid} {payload : CreateOrderRequest}
    {order : OrderRecord}
    (h : insertOrderWithOutbox utcNow orderId messageId outboxId payload db = .ok (order, db')) :
    db'.books =
      db.books.place (payload.row utcNow orderId) (payload.event utcNow orderId messageId) := by
  obtain ⟨-, rfl⟩ := insertOrderWithOutbox_ok h
  simp [Database.books, Books.place, OutboxRow.new]

/-- A handling does nothing to a message handled before; else it resolves the order as
the stock allows. -/
theorem Books.Consistent.handle (h : db.books.Consistent issued)
    (hskus : (db.stocks.map (·.sku)).Nodup) {event : OrderCreatedEvent} {refresh : Option String}
    (hevent : event ∈ db.books.created) (hmessage : messageId ∉ issued)
    (hhandle : handleOrderCreatedMessage utcNow messageId outboxId event db =
      .ok (refresh, db')) :
    db'.books.Consistent (messageId :: issued) ∧
    ((refresh = none ∧ db' = db ∧ db.books.Handled event.messageId) ∨
    (refresh = some event.sku ∧ ¬db.books.Handled event.messageId ∧
      outboxId ∉ db.inventoryOutbox.map (·.id) ∧
      ∃ stocks outcome,
        Decides utcNow event db.stocks outcome stocks ∧
        db'.orderOutbox = db.orderOutbox ∧
        db'.inventoryOutbox = db.inventoryOutbox ++ [.new outboxId messageId
          event.correlationId inventoryResultEventType
          (event.answer utcNow messageId outcome) utcNow] ∧
        db'.books = db.books.resolve ⟨event.messageId, inventoryWorkerConsumer, utcNow⟩ stocks
          (event.answer utcNow messageId outcome))) := by
  rcases handleOrderCreatedMessage_ok hskus h.placed.simulate hhandle with
    ⟨rfl, rfl, row, hrow, -, hid⟩ | ⟨rfl, hnew, hfresh, stocks, outcome, houtcome, rfl⟩
  · exact ⟨h.issue messageId, .inl ⟨rfl, rfl, row, hrow, hid⟩⟩
  · have hunhandled : ¬db.books.Handled event.messageId := by
      rintro ⟨row, hrow, hid⟩
      exact hnew row hrow (h.resolved.handled_consumer row hrow) hid
    have hbooks : Database.books { db with
        inventoryInbox := db.inventoryInbox ++
          [⟨event.messageId, inventoryWorkerConsumer, utcNow⟩]
        stocks := stocks
        inventoryOutbox := db.inventoryOutbox ++ [.new outboxId messageId
          event.correlationId inventoryResultEventType
          (event.answer utcNow messageId outcome) utcNow] } =
        db.books.resolve ⟨event.messageId, inventoryWorkerConsumer, utcNow⟩ stocks
          (event.answer utcNow messageId outcome) := by
      simp [Database.books, Books.resolve, OutboxRow.new]
    have hanswers : Books.Answers (event.answer utcNow messageId outcome) event :=
      ⟨rfl, rfl, rfl⟩
    have hreason : outcome.reason =
        if outcome.success then none else some "insufficient_stock" := by
      cases houtcome with
      | enough _ | short _ => rfl
    refine ⟨?_, .inr ⟨rfl, hunhandled, hfresh, stocks, outcome, houtcome, rfl, rfl, hbooks⟩⟩
    rw [hbooks]
    exact h.resolve hevent hunhandled hanswers hmessage rfl rfl hreason

/-- An application does nothing to a message applied before; else it settles the order. -/
theorem Books.Consistent.apply (h : db.books.Consistent issued) {event : InventoryResultEvent}
    {applied : Bool} (hevent : event ∈ db.books.results)
    (happly : applyInventoryResultMessage utcNow event db = .ok (applied, db')) :
    db'.books.Consistent issued ∧
    ((applied = false ∧ db' = db ∧ db.books.Applied event.messageId) ∨
    (applied = true ∧ ¬db.books.Applied event.messageId ∧ db'.stocks = db.stocks ∧
      db'.orderOutbox = db.orderOutbox ∧ db'.inventoryOutbox = db.inventoryOutbox ∧
      db'.books =
        db.books.settle utcNow ⟨event.messageId, ordersWorkerConsumer, utcNow⟩ event)) := by
  rcases applyInventoryResultMessage_ok happly with
    ⟨rfl, rfl, row, hrow, -, hid⟩ | ⟨rfl, hnew, rfl⟩
  · exact ⟨h, .inl ⟨rfl, rfl, row, hrow, hid⟩⟩
  · refine ⟨h.settle hevent rfl rfl, .inr ⟨rfl, ?_, rfl, rfl, rfl, rfl⟩⟩
    rintro ⟨row, hrow, hid⟩
    exact hnew row hrow (h.settled.applied_consumer row hrow) hid

end Transactions

end Axes.Orders
