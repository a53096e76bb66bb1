import Axes.Orders.Sound

/-!
# No order is stranded

A pending order is on its way in one of four places: the order outbox, the topic of
created orders, the inventory outbox, or the topic of results. This is the carrier rule
of the two lanes, joined at the inventory inbox.
-/

namespace Axes.Orders

open Axes.Lib Axes.Lib.Table

namespace World

/-- Where a pending order is carried. A topic carries it at an offset the consumer group
has not committed. -/
inductive Carrier (world : World) (orderId : Uuid) : Prop
  | orderOutbox (row : OutboxRow OrderCreatedEvent) (mem : row ∈ world.db.orderOutbox)
      (order : row.payload.orderId = orderId) (unpublished : row.publishedOnUtc = none)
  | created (p offset : Nat) (event : OrderCreatedEvent)
      (found : world.created.topic.At p offset (some event)) (order : event.orderId = orderId)
      (uncommitted : world.created.topic.committed p ≤ offset)
  | inventoryOutbox (row : OutboxRow InventoryResultEvent)
      (mem : row ∈ world.db.inventoryOutbox) (order : row.payload.orderId = orderId)
      (unpublished : row.publishedOnUtc = none)
  | results (p offset : Nat) (event : InventoryResultEvent)
      (found : world.results.topic.At p offset (some event)) (order : event.orderId = orderId)
      (uncommitted : world.results.topic.committed p ≤ offset)

variable {world : World}

/-- An order whose result was applied is not pending. -/
theorem Sound.not_pending {initial : List StockRow} (h : world.Sound initial)
    {order : OrderRow} (horder : order ∈ world.db.orders) {result : InventoryResultEvent}
    (hresult : result ∈ world.db.books.results) (hid : result.orderId = order.id)
    (happlied : world.db.books.Applied result.messageId) :
    order.status ≠ OrderStatus.pending.code := by
  rw [(h.consistent.settled.settled order horder result hresult hid happlied).1]
  cases result.success <;> simp [applyInventoryResult, OrderStatus.code]

theorem Sound.carrier {initial : List StockRow} (h : world.Sound initial)
    {order : OrderRow} (horder : order ∈ world.db.orders)
    (hpending : order.status = OrderStatus.pending.code) : world.Carrier order.id := by
  obtain ⟨event, hevent, hmatches⟩ := h.consistent.placed.order_created order horder
  obtain ⟨row, hrow, rfl⟩ := List.mem_map.mp hevent
  rcases h.created.carrier hrow with hunpublished | ⟨p, offset, hat, huncommitted⟩ | hhandled
  · exact .orderOutbox row hrow hmatches.id.symm hunpublished
  · exact .created p offset row.payload hat hmatches.id.symm huncommitted
  · -- handled, so the order has a result
    have hanswered := (h.consistent.resolved.handled_iff row.payload hevent).mp hhandled
    obtain ⟨result, hresult, hid⟩ := List.mem_map.mp hanswered
    have horder_id : result.orderId = order.id := hid.trans hmatches.id.symm
    obtain ⟨answer, hanswer, rfl⟩ := List.mem_map.mp hresult
    rcases h.results.carrier hanswer with hunpublished | ⟨p, offset, hat, huncommitted⟩ | happlied
    · exact .inventoryOutbox answer hanswer horder_id hunpublished
    · exact .results p offset answer.payload hat horder_id huncommitted
    · exact absurd hpending (h.not_pending horder hresult horder_id happlied)

/-- **No order is stranded.** In every reachable state, every pending order has a
carrier; a row is published only if the broker acknowledged its record; and no committed
offset has passed an event whose transaction has not committed. -/
theorem no_order_stranded (hreachable : saga.Reachable world) :
    (∀ order ∈ world.db.orders, order.status = OrderStatus.pending.code →
      world.Carrier order.id) ∧
    (∀ row ∈ world.db.orderOutbox, row.publishedOnUtc ≠ none →
      row.record ∈ world.created.acknowledged ∧
        world.created.topic.Holds (some row.payload)) ∧
    (∀ row ∈ world.db.inventoryOutbox, row.publishedOnUtc ≠ none →
      row.record ∈ world.results.acknowledged ∧
        world.results.topic.Holds (some row.payload)) ∧
    (∀ p offset event, world.created.topic.At p offset (some event) →
      offset < world.created.topic.committed p →
      ∃ row ∈ world.db.inventoryInbox, row.messageId = event.messageId) ∧
    (∀ p offset event, world.results.topic.At p offset (some event) →
      offset < world.results.topic.committed p →
      ∃ row ∈ world.db.orderInbox, row.messageId = event.messageId) := by
  obtain ⟨s₀, ts, hinit, hrun⟩ := hreachable
  have h := (Init.run hinit hrun).1
  refine ⟨fun order horder hpending => h.carrier horder hpending, ?_, ?_, ?_, ?_⟩
  · intro row hrow hpublished
    have hacknowledged := h.created.published row hrow hpublished
    exact ⟨hacknowledged, h.created.kept _ hacknowledged⟩
  · intro row hrow hpublished
    have hacknowledged := h.results.published row hrow hpublished
    exact ⟨hacknowledged, h.results.kept _ hacknowledged⟩
  · intro p offset event hat hlt
    exact (h.created.committed p).all offset (some event) hlt hat
  · intro p offset event hat hlt
    exact (h.results.committed p).all offset (some event) hlt hat

/-- After the order was handled and the inventory worker crashed before it could commit,
the order is still pending, and carried. -/
theorem no_order_stranded_crash : ∃ world, saga.Reachable world ∧
    ∃ order ∈ world.db.orders, order.status = OrderStatus.pending.code ∧
      world.Carrier order.id := by
  have hpending : (saga.exec [] oneSku (oneOrder.take 7 ++ [.crashInventoryWorker 0])).any
      (fun r => OrderStatus.pending.code ∈ r.2.db.orders.map (·.status)) = true := by decide
  obtain ⟨ts, s, hrun, hstatus⟩ := TSys.exists_run hpending
  obtain ⟨order, horder, hcode⟩ := List.mem_map.mp (of_decide_eq_true hstatus)
  have hreachable : saga.Reachable s := ⟨oneSku, ts, oneSku_init, hrun⟩
  exact ⟨s, hreachable, order, horder, hcode,
    (no_order_stranded hreachable).1 order horder hcode⟩

end World

end Axes.Orders
