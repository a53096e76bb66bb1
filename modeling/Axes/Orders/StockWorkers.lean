import Axes.Lib.Run
import Axes.Orders.Cache
import Axes.Orders.Saga

/-!
# Inventory workers and the stock cache (`bin/inventory-worker.rs`)

Any number of inventory workers over one database and one cache. A worker handles a
message, and when `handle_order_created_message` answers with a sku, reads the stock of it
and writes that to the cache; the three are separate steps, and a worker can fail or crash
at each. The messages are any events of validated orders, and the other transactions
change anything but the stock.
-/

namespace Axes.Orders

open Axes.Lib Axes.Lib.Redis Axes.Lib.Table

structure StockWorld where
  db : Database
  cache : Keyspace
  /-- What each worker has still to do of `refresh_redis_stock`. -/
  workers : Nat → Option Refresh

inductive StockAction
  | handleOrderCreated (w : Nat) (utcNow : DateTime) (messageId : Uuid) (outboxId : Int)
      (event : OrderCreatedEvent)
  | refresh (w : Nat) (succeeds : Bool)
  | crash (w : Nat)
  | transaction (db : Database)

namespace StockWorld

def setWork (world : StockWorld) (w : Nat) (work : Option Refresh) : StockWorld :=
  { world with workers := Function.update world.workers w work }

def step (world : StockWorld) : StockAction → Option StockWorld
  | .handleOrderCreated w utcNow messageId outboxId event =>
      match world.workers w with
      | some _ => none
      | none =>
          if 0 < event.quantity then
            match handleOrderCreatedMessage utcNow messageId outboxId event world.db with
            -- The transaction is rolled back, and the worker exits.
            | .error _ => some world
            | .ok (refresh, db) =>
                some ({ world with db := db }.setWork w (refresh.map .load))
          else none
  | .refresh w succeeds =>
      match world.workers w with
      | some (.load sku) =>
          -- A refresh that fails is logged and given up.
          some (world.setWork w (if succeeds then
            some (.store sku (loadInventoryStockQuantity sku world.db)) else none))
      | some (.store sku quantity) =>
          some ({ world with
            cache := if succeeds then (exec (refreshRedisStock sku quantity) world.cache).2
              else world.cache }.setWork w none)
      | none => none
  | .crash w => some (world.setWork w none)
  | .transaction db => if db.stocks = world.db.stocks then some { world with db := db } else none

/-- **What a step can do.** -/
inductive Steps (world : StockWorld) : StockAction → StockWorld → Prop
  | failed {w utcNow messageId outboxId event error} (idle : world.workers w = none)
      (handle : handleOrderCreatedMessage utcNow messageId outboxId event world.db =
        .error error) :
      Steps world (.handleOrderCreated w utcNow messageId outboxId event) world
  | handled {w utcNow messageId outboxId event refresh db} (idle : world.workers w = none)
      (positive : 0 < event.quantity)
      (handle : handleOrderCreatedMessage utcNow messageId outboxId event world.db =
        .ok (refresh, db)) :
      Steps world (.handleOrderCreated w utcNow messageId outboxId event)
        ({ world with db := db }.setWork w (refresh.map .load))
  | loaded {w succeeds sku} (work : world.workers w = some (.load sku)) :
      Steps world (.refresh w succeeds) (world.setWork w (if succeeds then
        some (.store sku (loadInventoryStockQuantity sku world.db)) else none))
  | stored {w succeeds sku quantity} (work : world.workers w = some (.store sku quantity)) :
      Steps world (.refresh w succeeds) ({ world with
        cache := if succeeds then (exec (refreshRedisStock sku quantity) world.cache).2
          else world.cache }.setWork w none)
  | crashed {w} : Steps world (.crash w) (world.setWork w none)
  | committed {db} (stocks : db.stocks = world.db.stocks) :
      Steps world (.transaction db) { world with db := db }

theorem step_cases {world world' : StockWorld} {action : StockAction}
    (h : world.step action = some world') : Steps world action world' := by
  cases action with
  | handleOrderCreated w utcNow messageId outboxId event =>
      simp only [step] at h
      split at h
      · cases h
      · next hidle =>
          split at h
          · next hpositive =>
              split at h
              · next hhandle =>
                  obtain rfl := Option.some.inj h
                  exact .failed hidle hhandle
              · next hhandle =>
                  obtain rfl := Option.some.inj h
                  exact .handled hidle hpositive hhandle
          · cases h
  | refresh w succeeds =>
      simp only [step] at h
      split at h
      · next hwork =>
          obtain rfl := Option.some.inj h
          exact .loaded hwork
      · next hwork =>
          obtain rfl := Option.some.inj h
          exact .stored hwork
      · cases h
  | crash w =>
      obtain rfl := Option.some.inj h
      exact .crashed
  | transaction db =>
      simp only [step] at h
      split at h
      · next hstocks =>
          obtain rfl := Option.some.inj h
          exact .committed hstocks
      · cases h

/-- No worker has begun, and no stock key is in the cache. -/
structure Init (world : StockWorld) : Prop where
  skus : (world.db.stocks.map (·.sku)).Nodup
  idle : ∀ w, world.workers w = none
  empty : ∀ sku, world.cache (redisStockKey sku) = none

def system : TSys StockWorld StockAction where
  init := Init
  step := step

variable {world world' : StockWorld} {action : StockAction} {sku : String} {w : Nat}

@[simp] theorem setWork_self (world : StockWorld) (w : Nat) (work : Option Refresh) :
    (world.setWork w work).workers w = work := Function.update_self ..

theorem setWork_of_ne {other : Nat} (h : other ≠ w) (work : Option Refresh) :
    (world.setWork w work).workers other = world.workers other := Function.update_of_ne h ..

/-! ## The cache -/

theorem redisStockKey_injective {sku other : String} (h : redisStockKey sku = redisStockKey other) :
    sku = other := by
  have hkey : "demo:stock:" ++ sku = "demo:stock:" ++ other := h
  rwa [String.append_right_inj] at hkey

/-- What the cache holds of a stock. -/
def cached (quantity : Option Int) : Option Value := quantity.map fun q => .string q.repr

/-- A refresh writes the stock it has loaded. -/
theorem refreshRedisStock_self (sku : String) (quantity : Option Int) (ks : Keyspace) :
    (exec (refreshRedisStock sku quantity) ks).2 (redisStockKey sku) = cached quantity := by
  cases quantity <;> exact Function.update_self ..

theorem refreshRedisStock_of_ne {other : String} (h : other ≠ sku) (quantity : Option Int)
    (ks : Keyspace) :
    (exec (refreshRedisStock sku quantity) ks).2 (redisStockKey other) =
      ks (redisStockKey other) :=
  (local_refreshRedisStock sku quantity).writes ks _ fun hkey =>
    h (redisStockKey_injective hkey)

/-! ## The stock -/

/-- The stock of a sku, as `load_inventory_stock_quantity` reads it. -/
def stock (world : StockWorld) (sku : String) : Option Int :=
  loadInventoryStockQuantity sku world.db

/-- The rows keep their skus. -/
theorem skus_step (h : (world.db.stocks.map (·.sku)).Nodup)
    (hstep : world.step action = some world') : (world'.db.stocks.map (·.sku)).Nodup := by
  cases step_cases hstep with
  | failed _ _ | loaded _ | stored _ | crashed => exact h
  | @handled w utcNow messageId outboxId event refresh db _ _ hhandle =>
      have hskus : db.stocks.map (·.sku) = world.db.stocks.map (·.sku) := by
        rcases handleOrderCreatedMessage_stocks h hhandle with
          ⟨-, hstocks⟩ | ⟨-, hstocks | hstocks⟩
        · rw [hstocks]
        · rw [hstocks]
        · rw [hstocks, map_sku_debited]
      exact hskus ▸ h
  | committed hstocks => exact hstocks ▸ h

/-- **Stock only goes down.** -/
theorem stock_step (h : (world.db.stocks.map (·.sku)).Nodup)
    (hstep : world.step action = some world') {available : Int}
    (hafter : world'.stock sku = some available) :
    ∃ before, world.stock sku = some before ∧ available ≤ before := by
  cases step_cases hstep with
  | failed _ _ | loaded _ | stored _ | crashed => exact ⟨available, hafter, le_refl _⟩
  | @handled w utcNow messageId outboxId event refresh db _ hpositive hhandle =>
      have hafter : loadInventoryStockQuantity sku db = some available := hafter
      rcases handleOrderCreatedMessage_stocks h hhandle with
        ⟨-, hstocks⟩ | ⟨-, hstocks | hstocks⟩
      · rw [loadInventoryStockQuantity_congr hstocks] at hafter
        exact ⟨available, hafter, le_refl _⟩
      · rw [loadInventoryStockQuantity_congr hstocks] at hafter
        exact ⟨available, hafter, le_refl _⟩
      · rw [loadInventoryStockQuantity_debited hstocks] at hafter
        obtain ⟨before, hbefore, rfl⟩ := Option.map_eq_some_iff.mp hafter
        refine ⟨before, hbefore, ?_⟩
        split <;> omega
  | committed hstocks =>
      exact ⟨available, (loadInventoryStockQuantity_congr hstocks).symm.trans hafter, le_refl _⟩

/-! ## The work of a refresh -/

/-- What a worker is about to write it held before, or has read just now. -/
theorem store_step {quantity : Option Int} (hstep : world.step action = some world')
    (hwork : world'.workers w = some (.store sku quantity)) :
    world.workers w = some (.store sku quantity) ∨ world.stock sku = quantity := by
  cases step_cases hstep with
  | failed _ _ | committed _ => exact .inl hwork
  | @handled other utcNow messageId outboxId event refresh db hidle _ _ =>
      by_cases hw : w = other
      · subst hw
        rw [setWork_self] at hwork
        obtain ⟨_, -, hload⟩ := Option.map_eq_some_iff.mp hwork
        cases hload
      · rw [setWork_of_ne hw] at hwork
        exact .inl hwork
  | @loaded other succeeds loadedSku _ =>
      by_cases hw : w = other
      · subst hw
        rw [setWork_self] at hwork
        split at hwork
        · cases hwork
          exact .inr rfl
        · cases hwork
      · rw [setWork_of_ne hw] at hwork
        exact .inl hwork
  | @stored other _ _ _ _ | @crashed other =>
      by_cases hw : w = other
      · subst hw
        rw [setWork_self] at hwork
        cases hwork
      · rw [setWork_of_ne hw] at hwork
        exact .inl hwork

end StockWorld

end Axes.Orders
