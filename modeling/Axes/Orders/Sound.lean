import Axes.Orders.Saga

/-!
# The saga keeps its records and its messages

`Sound` is what holds in every reachable state: the books agree, the stock is
accounted for, and both lanes carry their messages. `Books.Moves` is what one step can
do to the books.
-/

namespace Axes.Orders

open Axes.Lib Axes.Lib.Table

/-- What a step can do to the books when it hands `delivered` to
`handle_order_created_message`. -/
inductive Books.Moves (b : Books) (delivered : Option OrderCreatedEvent) : Books → Prop
  | same : Moves b delivered b
  | place {payload : CreateOrderRequest} {utcNow : DateTime} {orderId messageId : Uuid}
      (new : ∀ row ∈ b.orders, row.id ≠ orderId) :
      Moves b delivered
        (b.place (payload.row utcNow orderId) (payload.event utcNow orderId messageId))
  | resolve (utcNow : DateTime) {event : OrderCreatedEvent} {result : InventoryResultEvent}
      {inbox : InboxRow} {stocks : List StockRow} (handed : delivered = some event)
      (created : event ∈ b.created) (unhandled : ¬b.Handled event.messageId)
      (answers : Books.Answers result event)
      (inboxed : inbox.messageId = event.messageId)
      (outcome : (result.success = true ∧ Sufficient event.sku event.quantity b.stocks ∧
          stocks = debited utcNow event.sku event.quantity b.stocks) ∨
        (result.success = false ∧ ¬Sufficient event.sku event.quantity b.stocks ∧
          stocks = b.stocks)) :
      Moves b delivered (b.resolve inbox stocks result)
  | settle {result : InventoryResultEvent} {inbox : InboxRow} {utcNow : DateTime}
      (known : result ∈ b.results) (unapplied : ¬b.Applied result.messageId)
      (inboxed : inbox.messageId = result.messageId) :
      Moves b delivered (b.settle utcNow inbox result)

namespace World

/-- The event a step hands to `handle_order_created_message`. -/
def delivered (world : World) : Action → Option OrderCreatedEvent
  | .handleOrderCreated w _ _ _ =>
      match (world.created.consumers w).phase with
      | .received _ _ entry => entry
      | _ => none
  | .redeliverOrderCreated p offset _ _ _ => ((world.created.topic.log p)[offset]?).join
  | _ => none

/-- The invariant of the saga; `initial` is the stock the run started from. -/
structure Sound (initial : List StockRow) (world : World) : Prop where
  skus : (initial.map (·.sku)).Nodup
  consistent : world.db.books.Consistent world.issued
  stocked : world.db.books.Stocked initial
  created : world.created.Carries (fun event => world.db.books.Handled event.messageId)
    world.db.orderOutbox
  results : world.results.Carries (fun result => world.db.books.Applied result.messageId)
    world.db.inventoryOutbox

variable {initial : List StockRow} {world world' : World}

theorem Init.sound (h : world.Init) : world.Sound world.db.stocks := by
  have hbooks : world.db.books = ⟨[], [], [], world.db.stocks, [], []⟩ := by
    simp [Database.books, h.orders, h.orderOutbox, h.orderInbox, h.inventoryOutbox,
      h.inventoryInbox]
  constructor
  case skus => exact h.skus
  case consistent =>
    rw [hbooks]
    constructor <;> constructor <;> simp [Books.Handled]
  case stocked =>
    rw [hbooks]
    refine ⟨rfl, h.nonneg, ?_⟩
    intro row hrow row₀ hrow₀ hsku
    obtain rfl := List.inj_on_of_nodup_map h.skus hrow₀ hrow hsku
    simp [Books.reservedQuantity]
  case created =>
    rw [h.created, h.orderOutbox]
    exact Lane.carries_start
  case results =>
    rw [h.results, h.inventoryOutbox]
    exact Lane.carries_start

theorem Sound.stock_skus (h : world.Sound initial) : (world.db.stocks.map (·.sku)).Nodup :=
  h.stocked.skus ▸ h.skus

/-! ## The transactions -/

/-- An order was placed. -/
theorem Sound.place (h : world.Sound initial) {utcNow : DateTime} {orderId messageId : Uuid}
    {outboxId : Int} {payload : CreateOrderRequest} {db : Database} {order : OrderRecord}
    (hquantity : 0 < payload.quantity) (horder : orderId ∉ world.issued)
    (hmessage : messageId ∉ world.issued)
    (hinsert : insertOrderWithOutbox utcNow orderId messageId outboxId payload world.db =
      .ok (order, db)) (delivered : Option OrderCreatedEvent) :
    Sound initial { world with issued := orderId :: messageId :: world.issued, db := db } ∧
      world.db.books.Moves delivered db.books := by
  have hbooks := books_insertOrderWithOutbox hinsert
  obtain ⟨hfresh, rfl⟩ := insertOrderWithOutbox_ok hinsert
  refine ⟨⟨h.skus, ?_, ?_, h.created.insert hfresh rfl, h.results⟩, ?_⟩
  · rw [hbooks]
    exact h.consistent.place hquantity horder hmessage
  · rw [hbooks]
    exact ⟨h.stocked.skus, h.stocked.nonneg, h.stocked.conserved⟩
  · rw [hbooks]
    exact .place fun row hrow hid =>
      horder (hid ▸ h.consistent.placed.issued_orders row hrow)

/-- An order message was delivered to `handle_order_created_message`. -/
theorem Sound.handle (h : world.Sound initial) {utcNow : DateTime} {messageId : Uuid}
    {outboxId : Int} {event : OrderCreatedEvent} {db : Database} {refresh : Option String}
    (hevent : world.created.topic.Holds (some event)) (hmessage : messageId ∉ world.issued)
    (hhandle : handleOrderCreatedMessage utcNow messageId outboxId event world.db =
      .ok (refresh, db)) :
    Sound initial { world with issued := messageId :: world.issued, db := db } ∧
      world.db.books.Moves (some event) db.books ∧ db.books.Handled event.messageId ∧
      (∀ other, world.db.books.Handled other → db.books.Handled other) ∧
      db.orderOutbox = world.db.orderOutbox := by
  have hcreated : event ∈ world.db.books.created := h.created.genuine event hevent
  obtain ⟨hconsistent, ⟨-, rfl, hhandled⟩ |
    ⟨-, hunhandled, hfresh, stocks, outcome, houtcome, horders, hresults, hbooks⟩⟩ :=
    h.consistent.handle h.stock_skus hcreated hmessage hhandle
  · -- delivered again: nothing changes
    exact ⟨⟨h.skus, hconsistent, h.stocked, h.created, h.results⟩, .same, hhandled, fun _ => id,
      rfl⟩
  · have hkept : ∀ other, world.db.books.Handled other → db.books.Handled other := by
      rw [hbooks]
      rintro other ⟨row, hrow, hid⟩
      exact ⟨row, List.mem_append_left _ hrow, hid⟩
    have hanswers : Books.Answers (event.answer utcNow messageId outcome) event :=
      ⟨rfl, rfl, rfl⟩
    refine ⟨⟨h.skus, hconsistent, ?_, ?_, ?_⟩, ?_, ?_, hkept, horders⟩
    · rw [hbooks]
      cases houtcome with
      | enough hsufficient =>
          have hsucceeded : (event.answer utcNow messageId ⟨true, none⟩).success = true := rfl
          exact h.stocked.resolve_debited h.stock_skus hsucceeded hsufficient
      | short _ => exact h.stocked.resolve_failed rfl
    · show world.created.Carries (fun event => db.books.Handled event.messageId) db.orderOutbox
      rw [horders]
      exact h.created.mono fun other => hkept other.messageId
    · show world.results.Carries (fun result => db.books.Applied result.messageId)
        db.inventoryOutbox
      rw [hresults, hbooks]
      exact h.results.insert hfresh rfl
    · rw [hbooks]
      refine .resolve utcNow rfl hcreated hunhandled hanswers rfl ?_
      cases houtcome with
      | enough hsufficient => exact .inl ⟨rfl, hsufficient, rfl⟩
      | short hinsufficient => exact .inr ⟨rfl, hinsufficient, rfl⟩
    · rw [hbooks]
      exact ⟨_, List.mem_append_right _ List.mem_cons_self, rfl⟩

/-- A result message was delivered to `apply_inventory_result_message`. -/
theorem Sound.apply (h : world.Sound initial) {utcNow : DateTime}
    {event : InventoryResultEvent} {db : Database} {applied : Bool}
    (hevent : world.results.topic.Holds (some event))
    (happly : applyInventoryResultMessage utcNow event world.db = .ok (applied, db))
    (delivered : Option OrderCreatedEvent) :
    Sound initial { world with db := db } ∧ world.db.books.Moves delivered db.books ∧
      db.books.Applied event.messageId ∧
      (∀ other, world.db.books.Applied other → db.books.Applied other) ∧
      db.inventoryOutbox = world.db.inventoryOutbox := by
  have hresult : event ∈ world.db.books.results := h.results.genuine event hevent
  obtain ⟨hconsistent, ⟨-, rfl, happlied⟩ |
    ⟨-, hunapplied, hstocks, horders, hresults, hbooks⟩⟩ := h.consistent.apply hresult happly
  · exact ⟨h, .same, happlied, fun _ => id, rfl⟩
  · have hkept : ∀ other, world.db.books.Applied other → db.books.Applied other := by
      rw [hbooks]
      rintro other ⟨row, hrow, hid⟩
      exact ⟨row, List.mem_append_left _ hrow, hid⟩
    refine ⟨⟨h.skus, hconsistent, ?_, ?_, ?_⟩, ?_, ?_, hkept, hresults⟩
    · rw [hbooks]
      exact ⟨h.stocked.skus, h.stocked.nonneg, h.stocked.conserved⟩
    · show world.created.Carries (fun event => db.books.Handled event.messageId) db.orderOutbox
      rw [horders, hbooks]
      exact h.created
    · show world.results.Carries (fun result => db.books.Applied result.messageId)
        db.inventoryOutbox
      rw [hresults]
      exact h.results.mono fun other => hkept other.messageId
    · rw [hbooks]
      exact .settle hresult hunapplied rfl
    · rw [hbooks]
      exact ⟨_, List.mem_append_right _ List.mem_cons_self, rfl⟩

/-! ## One step -/

theorem Sound.crashOrders (h : world.Sound initial) (w : Nat) :
    (world.crashOrders w).Sound initial :=
  ⟨h.skus, h.consistent, h.stocked, h.created.stopPublisher w, h.results.stopConsumer w⟩

theorem Sound.crashInventory (h : world.Sound initial) (w : Nat) :
    (world.crashInventory w).Sound initial :=
  ⟨h.skus, h.consistent, h.stocked, h.created.stopConsumer w, h.results.stopPublisher w⟩

/-- A step of the lane of orders leaves the books as they are. -/
theorem books_created {now : DateTime} {db : Database} {lane lane' : Lane OrderCreatedEvent Refresh}
    {action : LaneAction} {table : List (OutboxRow OrderCreatedEvent)}
    (h : lane.step now db.orderOutbox action = some (table, lane')) :
    Database.books { db with orderOutbox := table } = db.books := by
  have hpayloads : table.map (·.payload) = db.orderOutbox.map (·.payload) :=
    Lane.step_records h (fun _ _ => rfl) (fun _ _ _ _ => rfl) fun _ _ _ _ => rfl
  simp [Database.books, hpayloads]

theorem books_results {now : DateTime} {db : Database}
    {lane lane' : Lane InventoryResultEvent Empty} {action : LaneAction}
    {table : List (OutboxRow InventoryResultEvent)}
    (h : lane.step now db.inventoryOutbox action = some (table, lane')) :
    Database.books { db with inventoryOutbox := table } = db.books := by
  have hpayloads : table.map (·.payload) = db.inventoryOutbox.map (·.payload) :=
    Lane.step_records h (fun _ _ => rfl) (fun _ _ _ _ => rfl) fun _ _ _ _ => rfl
  simp [Database.books, hpayloads]

/-- **One step of the saga** keeps the invariant, and moves the books. -/
theorem Sound.step {action : Action} (h : world.Sound initial)
    (hstep : world.step action = some world') :
    world'.Sound initial ∧ world.db.books.Moves (world.delivered action) world'.db.books := by
  cases step_cases hstep with
  | ticked | cacheWritten =>
      exact ⟨⟨h.skus, h.consistent, h.stocked, h.created, h.results⟩, .same⟩
  | refused | redeliveryFailed | resultRedeliveryFailed => exact ⟨h, .same⟩
  | placed horder hmessage _ hcreate =>
      obtain ⟨hquantity, hinsert⟩ := createOrder_ok hcreate
      exact h.place hquantity horder hmessage hinsert _
  | created hlane =>
      have hbooks := books_created hlane
      refine ⟨⟨h.skus, hbooks ▸ h.consistent, hbooks ▸ h.stocked, ?_, ?_⟩, ?_⟩
      · rw [hbooks]
        exact h.created.step hlane
      · rw [hbooks]
        exact h.results
      · rw [hbooks]
        exact .same
  | results hlane =>
      have hbooks := books_results hlane
      refine ⟨⟨h.skus, hbooks ▸ h.consistent, hbooks ▸ h.stocked, ?_, ?_⟩, ?_⟩
      · rw [hbooks]
        exact h.created
      · rw [hbooks]
        exact h.results.step hlane
      · rw [hbooks]
        exact .same
  | handleFailed | crashedInventory => exact ⟨h.crashInventory _, .same⟩
  | applyFailed | crashedOrders => exact ⟨h.crashOrders _, .same⟩
  | @handled w utcNow messageId outboxId p offset event refresh db hphase hmessage hhandle =>
      have hevent : world.created.topic.Holds (some event) :=
        ⟨p, offset, ((h.created.settled w).received p offset _ hphase).1⟩
      obtain ⟨hsound, hmoves, hhandled, hkept, htable⟩ := h.handle hevent hmessage hhandle
      refine ⟨⟨h.skus, hsound.consistent, hsound.stocked, ?_, hsound.results⟩, ?_⟩
      · -- the consumer may commit past the event now: its message is in the inbox
        show Lane.Carries (fun event => db.books.Handled event.messageId) db.orderOutbox _
        rw [htable]
        exact h.created.handle (refresh.map .load) hphase (fun other => hkept other.messageId)
          hhandled
      · simpa only [delivered, hphase] using hmoves
  | stockLoaded hphase | stockCached hphase =>
      exact ⟨⟨h.skus, h.consistent, h.stocked, h.created.work _ hphase, h.results⟩, .same⟩
  | @applied w utcNow p offset event changed db hphase happly =>
      have hevent : world.results.topic.Holds (some event) :=
        ⟨p, offset, ((h.results.settled w).received p offset _ hphase).1⟩
      obtain ⟨hsound, hmoves, happlied, hkept, htable⟩ := h.apply hevent happly _
      refine ⟨⟨h.skus, hsound.consistent, hsound.stocked, hsound.created, ?_⟩, hmoves⟩
      show Lane.Carries (fun result => db.books.Applied result.messageId) db.inventoryOutbox _
      rw [htable]
      exact h.results.handle none hphase (fun other => hkept other.messageId) happlied
  | @redelivered p offset utcNow messageId outboxId event refresh db hat hmessage hhandle =>
      obtain ⟨hsound, hmoves, -⟩ := h.handle ⟨p, offset, hat⟩ hmessage hhandle
      exact ⟨hsound, by simpa only [delivered, hat, Option.join_some] using hmoves⟩
  | @resultRedelivered p offset utcNow event changed db hat happly =>
      obtain ⟨hsound, hmoves, -⟩ := h.apply ⟨p, offset, hat⟩ happly _
      exact ⟨hsound, hmoves⟩

/-- Every state of a run is sound, and every step of it moves the books. -/
theorem Init.run {s₀ s : World} {ts : List (Transition World Action)} (hinit : s₀.Init)
    (hrun : saga.Run s₀ ts s) : s.Sound s₀.db.stocks ∧ ∀ tr ∈ ts,
      tr.pre.Sound s₀.db.stocks ∧ tr.post.Sound s₀.db.stocks ∧
        tr.pre.db.books.Moves (tr.pre.delivered tr.action) tr.post.db.books := by
  obtain ⟨hsound, hpre⟩ := hrun.always (P := Sound s₀.db.stocks) (Q := fun _ => True)
    hinit.sound (fun _ _ _ h _ hstep => (h.step hstep).1) fun _ _ => trivial
  exact ⟨hsound, fun tr htr => ⟨hpre tr htr, (hpre tr htr).step (hrun.step_of_mem htr)⟩⟩

end World

end Axes.Orders
