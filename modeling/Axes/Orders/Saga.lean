import Axes.Lib.Run
import Axes.Orders.Books
import Axes.Orders.Cache
import Axes.Orders.Lane

/-!
# The order saga (`handlers/orders`, `bin/orders-worker.rs`, `bin/inventory-worker.rs`)

Any number of order handlers, orders workers and inventory workers over one database,
two topics and the stock cache. Orders workers publish the order outbox and consume the
results; inventory workers consume the created orders and publish the result outbox.
A step is one database statement, one broker operation, one Redis command or one
transaction; a worker can crash between any two of its steps, and one whose handler
fails exits. Besides the consumers, the environment may deliver any entry of a topic
again, and write anything to the cache.
-/

namespace Axes.Orders

open Axes.Lib Axes.Lib.Redis

/-- What is left of `refresh_redis_stock`: reading the stock, then writing the cache. -/
inductive Refresh
  | load (sku : String)
  | store (sku : String) (quantity : Option Int)

structure World where
  now : DateTime
  /-- The UUIDs drawn so far. -/
  issued : List Uuid
  db : Database
  cache : Keyspace
  /-- From the orders workers to the inventory workers. -/
  created : Lane OrderCreatedEvent Refresh
  /-- From the inventory workers to the orders workers. -/
  results : Lane InventoryResultEvent Empty

inductive Action
  | tick (microseconds : Nat)
  | create (connected : Bool) (utcNow : DateTime) (orderId messageId : Uuid) (outboxId : Int)
      (request : CreateOrderRequest)
  | created (action : LaneAction)
  | results (action : LaneAction)
  | handleOrderCreated (w : Nat) (utcNow : DateTime) (messageId : Uuid) (outboxId : Int)
  | refresh (w : Nat) (succeeds : Bool)
  | applyInventoryResult (w : Nat) (utcNow : DateTime)
  | redeliverOrderCreated (p offset : Nat) (utcNow : DateTime) (messageId : Uuid)
      (outboxId : Int)
  | redeliverInventoryResult (p offset : Nat) (utcNow : DateTime)
  | crashOrdersWorker (w : Nat)
  | crashInventoryWorker (w : Nat)
  | writeCache (cache : Keyspace)

namespace World

/-- `redis_precheck`, when a connection could be opened or not. -/
def redisPrecheck (world : World) (connected : Bool) (sku : String) : RedisPrecheckOutcome :=
  if connected then redisPrecheckOutcome (exec (redisPrecheckGet sku) world.cache).1
  else .unavailable

def crashOrders (world : World) (w : Nat) : World :=
  { world with
    created := world.created.setPublisher w .idle
    results := world.results.setConsumer w .start }

def crashInventory (world : World) (w : Nat) : World :=
  { world with
    created := world.created.setConsumer w .start
    results := world.results.setPublisher w .idle }

def step (world : World) : Action → Option World
  | .tick microseconds => some { world with now := world.now + microseconds }
  | .create connected utcNow orderId messageId outboxId request =>
      -- `Uuid::new_v4` draws an id that was not drawn before.
      if orderId ∈ world.issued ∨ messageId ∈ world.issued ∨ orderId = messageId then none
      else
        match createOrder (world.redisPrecheck connected request.sku) utcNow orderId messageId
          outboxId request world.db with
        | .error _ => some world
        | .ok (_, db) =>
            some { world with issued := orderId :: messageId :: world.issued, db := db }
  | .created action =>
      match world.created.step world.now world.db.orderOutbox action with
      | none => none
      | some (table, lane) =>
          some { world with db := { world.db with orderOutbox := table }, created := lane }
  | .results action =>
      match world.results.step world.now world.db.inventoryOutbox action with
      | none => none
      | some (table, lane) =>
          some { world with db := { world.db with inventoryOutbox := table }, results := lane }
  | .handleOrderCreated w utcNow messageId outboxId =>
      match (world.created.consumers w).phase with
      | .received p offset (some event) =>
          if messageId ∈ world.issued then none
          else
            match handleOrderCreatedMessage utcNow messageId outboxId event world.db with
            -- The error ends `main`, and with it the worker.
            | .error _ => some (world.crashInventory w)
            | .ok (refresh, db) => some { world with
                issued := messageId :: world.issued
                db := db
                created := world.created.setPhase w (.handled p offset (refresh.map .load)) }
      | _ => none
  | .refresh w succeeds =>
      match (world.created.consumers w).phase with
      | .handled p offset (some (.load sku)) =>
          -- A refresh that fails is logged and given up; the offset is committed all the same.
          let work := if succeeds then
              some (.store sku (loadInventoryStockQuantity sku world.db))
            else none
          some { world with created := world.created.setPhase w (.handled p offset work) }
      | .handled p offset (some (.store sku quantity)) =>
          some { world with
            cache := if succeeds then (exec (refreshRedisStock sku quantity) world.cache).2
              else world.cache
            created := world.created.setPhase w (.handled p offset none) }
      | _ => none
  | .applyInventoryResult w utcNow =>
      match (world.results.consumers w).phase with
      | .received p offset (some event) =>
          match applyInventoryResultMessage utcNow event world.db with
          -- The error ends `main`, and with it the worker.
          | .error _ => some (world.crashOrders w)
          | .ok (_, db) => some { world with
              db := db
              results := world.results.setPhase w (.handled p offset none) }
      | _ => none
  | .redeliverOrderCreated p offset utcNow messageId outboxId =>
      match (world.created.topic.log p)[offset]? with
      | some (some event) =>
          if messageId ∈ world.issued then none
          else
            match handleOrderCreatedMessage utcNow messageId outboxId event world.db with
            | .error _ => some world
            | .ok (_, db) => some { world with issued := messageId :: world.issued, db := db }
      | _ => none
  | .redeliverInventoryResult p offset utcNow =>
      match (world.results.topic.log p)[offset]? with
      | some (some event) =>
          match applyInventoryResultMessage utcNow event world.db with
          | .error _ => some world
          | .ok (_, db) => some { world with db := db }
      | _ => none
  | .crashOrdersWorker w => some (world.crashOrders w)
  | .crashInventoryWorker w => some (world.crashInventory w)
  | .writeCache cache => some { world with cache := cache }

/-- **What a step can do.** -/
inductive Steps (world : World) : Action → World → Prop
  | ticked {microseconds} :
      Steps world (.tick microseconds) { world with now := world.now + microseconds }
  | refused {connected utcNow orderId messageId outboxId request error}
      (create : createOrder (world.redisPrecheck connected request.sku) utcNow orderId messageId
        outboxId request world.db = .error error) :
      Steps world (.create connected utcNow orderId messageId outboxId request) world
  | placed {connected utcNow orderId messageId outboxId request order db}
      (order_new : orderId ∉ world.issued) (message_new : messageId ∉ world.issued)
      (distinct : orderId ≠ messageId)
      (create : createOrder (world.redisPrecheck connected request.sku) utcNow orderId messageId
        outboxId request world.db = .ok (order, db)) :
      Steps world (.create connected utcNow orderId messageId outboxId request)
        { world with issued := orderId :: messageId :: world.issued, db := db }
  | created {action table lane}
      (moved : world.created.step world.now world.db.orderOutbox action = some (table, lane)) :
      Steps world (.created action)
        { world with db := { world.db with orderOutbox := table }, created := lane }
  | results {action table lane}
      (moved : world.results.step world.now world.db.inventoryOutbox action =
        some (table, lane)) :
      Steps world (.results action)
        { world with db := { world.db with inventoryOutbox := table }, results := lane }
  | handleFailed {w utcNow messageId outboxId p offset event error}
      (phase : (world.created.consumers w).phase = .received p offset (some event))
      (handle : handleOrderCreatedMessage utcNow messageId outboxId event world.db =
        .error error) :
      Steps world (.handleOrderCreated w utcNow messageId outboxId) (world.crashInventory w)
  | handled {w utcNow messageId outboxId p offset event refresh db}
      (phase : (world.created.consumers w).phase = .received p offset (some event))
      (message_new : messageId ∉ world.issued)
      (handle : handleOrderCreatedMessage utcNow messageId outboxId event world.db =
        .ok (refresh, db)) :
      Steps world (.handleOrderCreated w utcNow messageId outboxId) { world with
        issued := messageId :: world.issued
        db := db
        created := world.created.setPhase w (.handled p offset (refresh.map .load)) }
  | stockLoaded {w succeeds p offset sku}
      (phase : (world.created.consumers w).phase = .handled p offset (some (.load sku))) :
      Steps world (.refresh w succeeds) { world with
        created := world.created.setPhase w (.handled p offset
          (if succeeds then some (.store sku (loadInventoryStockQuantity sku world.db))
            else none)) }
  | stockCached {w succeeds p offset sku quantity}
      (phase : (world.created.consumers w).phase =
        .handled p offset (some (.store sku quantity))) :
      Steps world (.refresh w succeeds) { world with
        cache := if succeeds then (exec (refreshRedisStock sku quantity) world.cache).2
          else world.cache
        created := world.created.setPhase w (.handled p offset none) }
  | applyFailed {w utcNow p offset event error}
      (phase : (world.results.consumers w).phase = .received p offset (some event))
      (apply : applyInventoryResultMessage utcNow event world.db = .error error) :
      Steps world (.applyInventoryResult w utcNow) (world.crashOrders w)
  | applied {w utcNow p offset event changed db}
      (phase : (world.results.consumers w).phase = .received p offset (some event))
      (apply : applyInventoryResultMessage utcNow event world.db = .ok (changed, db)) :
      Steps world (.applyInventoryResult w utcNow) { world with
        db := db
        results := world.results.setPhase w (.handled p offset none) }
  | redeliveryFailed {p offset utcNow messageId outboxId event error}
      (found : (world.created.topic.log p)[offset]? = some (some event))
      (handle : handleOrderCreatedMessage utcNow messageId outboxId event world.db =
        .error error) :
      Steps world (.redeliverOrderCreated p offset utcNow messageId outboxId) world
  | redelivered {p offset utcNow messageId outboxId event refresh db}
      (found : (world.created.topic.log p)[offset]? = some (some event))
      (message_new : messageId ∉ world.issued)
      (handle : handleOrderCreatedMessage utcNow messageId outboxId event world.db =
        .ok (refresh, db)) :
      Steps world (.redeliverOrderCreated p offset utcNow messageId outboxId)
        { world with issued := messageId :: world.issued, db := db }
  | resultRedeliveryFailed {p offset utcNow event error}
      (found : (world.results.topic.log p)[offset]? = some (some event))
      (apply : applyInventoryResultMessage utcNow event world.db = .error error) :
      Steps world (.redeliverInventoryResult p offset utcNow) world
  | resultRedelivered {p offset utcNow event changed db}
      (found : (world.results.topic.log p)[offset]? = some (some event))
      (apply : applyInventoryResultMessage utcNow event world.db = .ok (changed, db)) :
      Steps world (.redeliverInventoryResult p offset utcNow) { world with db := db }
  | crashedOrders {w} : Steps world (.crashOrdersWorker w) (world.crashOrders w)
  | crashedInventory {w} : Steps world (.crashInventoryWorker w) (world.crashInventory w)
  | cacheWritten {cache} : Steps world (.writeCache cache) { world with cache := cache }

theorem step_cases {world world' : World} {action : Action}
    (h : world.step action = some world') : world.Steps action world' := by
  cases action with
  | tick microseconds =>
      obtain rfl := Option.some.inj h
      exact .ticked
  | create connected utcNow orderId messageId outboxId request =>
      simp only [step] at h
      split at h
      · cases h
      · next fresh =>
          push Not at fresh
          split at h
          · next create =>
              obtain rfl := Option.some.inj h
              exact .refused create
          · next create =>
              obtain rfl := Option.some.inj h
              exact .placed fresh.1 fresh.2.1 fresh.2.2 create
  | created action =>
      simp only [step] at h
      split at h
      · cases h
      · next moved =>
          obtain rfl := Option.some.inj h
          exact .created moved
  | results action =>
      simp only [step] at h
      split at h
      · cases h
      · next moved =>
          obtain rfl := Option.some.inj h
          exact .results moved
  | handleOrderCreated w utcNow messageId outboxId =>
      simp only [step] at h
      split at h
      · next phase =>
          split at h
          · cases h
          · next message_new =>
              split at h
              · next handle =>
                  obtain rfl := Option.some.inj h
                  exact .handleFailed phase handle
              · next handle =>
                  obtain rfl := Option.some.inj h
                  exact .handled phase message_new handle
      · cases h
  | refresh w succeeds =>
      simp only [step] at h
      split at h
      · next phase =>
          obtain rfl := Option.some.inj h
          exact .stockLoaded phase
      · next phase =>
          obtain rfl := Option.some.inj h
          exact .stockCached phase
      · cases h
  | applyInventoryResult w utcNow =>
      simp only [step] at h
      split at h
      · next phase =>
          split at h
          · next apply =>
              obtain rfl := Option.some.inj h
              exact .applyFailed phase apply
          · next apply =>
              obtain rfl := Option.some.inj h
              exact .applied phase apply
      · cases h
  | redeliverOrderCreated p offset utcNow messageId outboxId =>
      simp only [step] at h
      split at h
      · next found =>
          split at h
          · cases h
          · next message_new =>
              split at h
              · next handle =>
                  obtain rfl := Option.some.inj h
                  exact .redeliveryFailed found handle
              · next handle =>
                  obtain rfl := Option.some.inj h
                  exact .redelivered found message_new handle
      · cases h
  | redeliverInventoryResult p offset utcNow =>
      simp only [step] at h
      split at h
      · next found =>
          split at h
          · next apply =>
              obtain rfl := Option.some.inj h
              exact .resultRedeliveryFailed found apply
          · next apply =>
              obtain rfl := Option.some.inj h
              exact .resultRedelivered found apply
      · cases h
  | crashOrdersWorker w =>
      obtain rfl := Option.some.inj h
      exact .crashedOrders
  | crashInventoryWorker w =>
      obtain rfl := Option.some.inj h
      exact .crashedInventory
  | writeCache cache =>
      obtain rfl := Option.some.inj h
      exact .cacheWritten

/-- No order yet, a stock with unique skus and no negative quantity, nothing published. -/
structure Init (world : World) : Prop where
  orders : world.db.orders = []
  orderOutbox : world.db.orderOutbox = []
  orderInbox : world.db.orderInbox = []
  inventoryOutbox : world.db.inventoryOutbox = []
  inventoryInbox : world.db.inventoryInbox = []
  skus : (world.db.stocks.map (·.sku)).Nodup
  nonneg : ∀ row ∈ world.db.stocks, 0 ≤ row.availableQuantity
  created : world.created = .start
  results : world.results = .start

end World

def saga : TSys World Action where
  init := World.Init
  step := World.step

/-! ## A run -/

/-- Five units of one sku, and nothing else. -/
def oneSku : World where
  now := 0
  issued := []
  db := {
    orders := []
    orderOutbox := []
    orderInbox := []
    stocks := [⟨"sku-1", 5, 0⟩]
    inventoryOutbox := []
    inventoryInbox := [] }
  cache _ := none
  created := .start
  results := .start

theorem oneSku_init : oneSku.Init := by
  constructor <;> first | rfl | simp [oneSku]

/-- An order of two units is placed and published, handled by an inventory worker, which
refreshes the cache and commits; its result is published and applied. -/
def oneOrder : List Action :=
  [.create false 1 ⟨1⟩ ⟨2⟩ 1 ⟨"sku-1", 2⟩,
    .created (.publish 0 .list),
    .created (.publish 0 (.send 0 (.acknowledged 0))),
    .created (.publish 0 (.mark 2)),
    .created (.consume 0 (.assign 0)),
    .created (.consume 0 (.receive 0)),
    .handleOrderCreated 0 3 ⟨3⟩ 1,
    .refresh 0 true,
    .refresh 0 true,
    .created (.consume 0 (.commit true)),
    .results (.publish 0 .list),
    .results (.publish 0 (.send 0 (.acknowledged 0))),
    .results (.publish 0 (.mark 4)),
    .results (.consume 0 (.assign 0)),
    .results (.consume 0 (.receive 0)),
    .applyInventoryResult 0 5,
    .results (.consume 0 (.commit true))]

end Axes.Orders
