import Axes.Lib.Redis
import Axes.Orders.Basic

/-!
# The stock cache (`handlers/orders/mod.rs`, `bin/inventory-worker.rs`)

The two places where the order path touches Redis: the precheck of a new order
reads the cached stock of its sku, and the inventory worker rewrites it after
handling an order.
-/

namespace Axes.Orders

open Axes.Lib Axes.Lib.Redis

/-- `GET` as an `Option<i32>`: text that is no `i32` is an error of the client. -/
def redisPrecheckGet (sku : String) : Command (Option Int) := do
  match ← get (redisStockKey sku) with
  | none => pure none
  | some text =>
      match (Text.parseInt text).bind int4 with
      | some available => pure (some available)
      | none => throw .reply

/-- The outcome of the precheck once a connection is there. -/
def redisPrecheckOutcome (reply : Except Error (Option Int)) : RedisPrecheckOutcome :=
  match reply with
  | .ok (some available) => .known available
  | .ok none => .missing
  | .error _ => .unavailable

/-- The write of `refresh_redis_stock`, for the quantity it has loaded. -/
def refreshRedisStock (sku : String) (quantity : Option Int) : Command Unit :=
  match quantity with
  | some quantity => set (redisStockKey sku) quantity.repr
  | none => del (redisStockKey sku)

theorem local_redisPrecheckGet (sku : String) :
    Local {redisStockKey sku} (redisPrecheckGet sku) := by
  refine (local_get _).bind ?_
  intro text
  split
  · exact .pure _
  · split
    · exact .pure _
    · exact .throw _

theorem local_refreshRedisStock (sku : String) (quantity : Option Int) :
    Local {redisStockKey sku} (refreshRedisStock sku quantity) := by
  cases quantity with
  | some quantity => exact local_set _ _
  | none => exact local_del _

end Axes.Orders
