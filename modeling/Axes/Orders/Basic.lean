import Mathlib.Algebra.Ring.Int.Defs
import Axes.Lib.Text

/-!
# Orders: requests, events and pure decisions (`orders/mod.rs`)

An `i32` is an `Int`; where a value of that type is computed or read back, its
range is checked (`int4`). A UUID is only ever compared, a time only ordered.
-/

namespace Axes.Orders

open Axes.Lib

/-- A UUID, compared for equality only. -/
structure Uuid where
  value : Nat
  deriving DecidableEq

/-- An instant in microseconds. -/
abbrev DateTime := Int

/-- The range of a Postgres `int4` and of an `i32`. -/
def int4 (n : Int) : Option Int := if -2 ^ 31 ≤ n ∧ n < 2 ^ 31 then some n else none

/-- `AppError`, with the HTTP status code; `reason` is the one detail an error of the
order path carries. -/
structure AppError where
  error : String
  status : Nat
  reason : Option String
  deriving DecidableEq

def AppError.new (error : String) (status : Nat) : AppError :=
  { error := error, status := status, reason := none }

def orderCreatedEventType : String := "OrderCreated"
def inventoryResultEventType : String := "InventoryResult"
def ordersWorkerConsumer : String := "axes-orders-worker"
def inventoryWorkerConsumer : String := "axes-inventory-worker"

inductive OrderStatus
  | pending
  | confirmed
  | rejected
  deriving DecidableEq

namespace OrderStatus

def code : OrderStatus → Int
  | pending => 0
  | confirmed => 1
  | rejected => 2

/-- `TryFrom<i32>`. -/
def tryFrom : Int → Except AppError OrderStatus
  | 0 => .ok pending
  | 1 => .ok confirmed
  | 2 => .ok rejected
  | _ => .error (.new "Invalid order status" 500)

/-- The stored code of a status reads back as the status. -/
@[simp] theorem tryFrom_code (status : OrderStatus) : tryFrom status.code = .ok status := by
  cases status <;> rfl

end OrderStatus

structure CreateOrderRequest where
  sku : String
  quantity : Int
  deriving DecidableEq

def CreateOrderRequest.validate (request : CreateOrderRequest) :
    Except AppError CreateOrderRequest :=
  if Text.trim request.sku = "" then .error (.new "Sku is required" 400)
  else if request.quantity ≤ 0 then .error (.new "Quantity must be greater than zero" 400)
  else .ok request

theorem CreateOrderRequest.validate_ok {request validated : CreateOrderRequest}
    (h : request.validate = .ok validated) :
    validated = request ∧ Text.trim request.sku ≠ "" ∧ 0 < request.quantity := by
  unfold validate at h
  split at h
  · cases h
  · next hsku =>
      split at h
      · cases h
      · next hquantity =>
          injection h with h
          exact ⟨h.symm, hsku, by omega⟩

inductive RedisPrecheckOutcome
  | known (available : Int)
  | missing
  | unavailable
  deriving DecidableEq

inductive PrecheckDecision
  | allow
  | reject (status : Nat) (reason : String)
  deriving DecidableEq

def redisStockKey (sku : String) : String := s!"demo:stock:{sku}"

def decideOrderCreation (precheck : RedisPrecheckOutcome) (quantity : Int) :
    PrecheckDecision :=
  match precheck with
  | .known available =>
      if available < quantity then .reject 409 "insufficient_stock" else .allow
  | .missing => .allow
  | .unavailable => .allow

structure AppliedInventoryResult where
  status : OrderStatus
  failureReason : Option String
  deriving DecidableEq

def applyInventoryResult (success : Bool) (reason : Option String) : AppliedInventoryResult :=
  if success then { status := .confirmed, failureReason := none }
  else { status := .rejected, failureReason := reason.or (some "insufficient_stock") }

structure OrderCreatedEvent where
  messageId : Uuid
  correlationId : Uuid
  orderId : Uuid
  sku : String
  quantity : Int
  occurredOnUtc : DateTime
  deriving DecidableEq

structure InventoryResultEvent where
  messageId : Uuid
  correlationId : Uuid
  orderId : Uuid
  sku : String
  quantity : Int
  success : Bool
  reason : Option String
  occurredOnUtc : DateTime
  deriving DecidableEq

structure InventoryProcessingOutcome where
  success : Bool
  reason : Option String
  deriving DecidableEq

def determineInventoryResult (simulateInventoryFailure : Bool) (updatedRows : Nat) :
    InventoryProcessingOutcome :=
  if simulateInventoryFailure then
    { success := false, reason := some "simulated_inventory_failure" }
  else if updatedRows = 1 then { success := true, reason := none }
  else { success := false, reason := some "insufficient_stock" }

end Axes.Orders
