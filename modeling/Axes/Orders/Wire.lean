import Axes.Lib.Serde
import Axes.Orders.Store

/-!
# Order events on the wire (`orders/mod.rs`, `orders/store.rs`, `orders/worker.rs`)

The events with the types they are serialized from: the payload of an outbox row is their
JSON text, a Kafka message carries its bytes, and `decode_event` reads them back. The events
of the saga are written through them, and what is decoded is handled as they are.
-/

namespace Axes.Orders.Wire

open Axes.Lib Axes.Lib.Serde

structure OrderCreatedEvent where
  messageId : BitVec 128
  correlationId : BitVec 128
  orderId : BitVec 128
  sku : String
  quantity : Int32
  occurredOnUtc : String

structure InventoryResultEvent where
  messageId : BitVec 128
  correlationId : BitVec 128
  orderId : BitVec 128
  sku : String
  quantity : Int32
  success : Bool
  reason : Option String
  occurredOnUtc : String

def OrderCreatedEvent.fields : Fields OrderCreatedEvent where
  names := ["message_id", "correlation_id", "order_id", "sku", "quantity", "occurred_on_utc"]
  distinct := by decide
  write event :=
    [("message_id", uuid.write event.messageId),
      ("correlation_id", uuid.write event.correlationId),
      ("order_id", uuid.write event.orderId),
      ("sku", string.write event.sku),
      ("quantity", int32.write event.quantity),
      ("occurred_on_utc", string.write event.occurredOnUtc)]
  read get := do
    let messageId ← field uuid (get "message_id")
    let correlationId ← field uuid (get "correlation_id")
    let orderId ← field uuid (get "order_id")
    let sku ← field string (get "sku")
    let quantity ← field int32 (get "quantity")
    let occurredOnUtc ← field string (get "occurred_on_utc")
    pure ⟨messageId, correlationId, orderId, sku, quantity, occurredOnUtc⟩
  names_write _ := rfl
  read_write event get h := by
    simp only [List.forall_mem_cons, List.not_mem_nil, false_implies, implies_true, and_true] at h
    obtain ⟨hmessage, hcorrelation, horder, hsku, hquantity, hoccurred⟩ := h
    simp [field, hmessage, hcorrelation, horder, hsku, hquantity, hoccurred]

def InventoryResultEvent.fields : Fields InventoryResultEvent where
  names := ["message_id", "correlation_id", "order_id", "sku", "quantity", "success", "reason",
    "occurred_on_utc"]
  distinct := by decide
  write event :=
    [("message_id", uuid.write event.messageId),
      ("correlation_id", uuid.write event.correlationId),
      ("order_id", uuid.write event.orderId),
      ("sku", string.write event.sku),
      ("quantity", int32.write event.quantity),
      ("success", bool.write event.success),
      ("reason", writeOptional string event.reason),
      ("occurred_on_utc", string.write event.occurredOnUtc)]
  read get := do
    let messageId ← field uuid (get "message_id")
    let correlationId ← field uuid (get "correlation_id")
    let orderId ← field uuid (get "order_id")
    let sku ← field string (get "sku")
    let quantity ← field int32 (get "quantity")
    let success ← field bool (get "success")
    let reason ← optionalField string (get "reason")
    let occurredOnUtc ← field string (get "occurred_on_utc")
    pure ⟨messageId, correlationId, orderId, sku, quantity, success, reason, occurredOnUtc⟩
  names_write _ := rfl
  read_write event get h := by
    simp only [List.forall_mem_cons, List.not_mem_nil, false_implies, implies_true, and_true] at h
    obtain ⟨hmessage, hcorrelation, horder, hsku, hquantity, hsuccess, hreason, hoccurred⟩ := h
    have hnull : ∀ s, string.write s ≠ .null := fun s h => by cases h
    simp [field, hmessage, hcorrelation, horder, hsku, hquantity, hsuccess, hreason, hoccurred,
      optionalField_write string hnull]

/-- A result says whether it succeeded. -/
theorem InventoryResultEvent.read_of_missing {get : String → Option Json}
    (h : get "success" = none) : InventoryResultEvent.fields.read get = none := by
  simp [InventoryResultEvent.fields, field, h]

variable {α : Type} (fields : Fields α)

/-- `serde_json::to_string`, the payload of an outbox row. -/
def payload (event : α) : String := String.ofList (Json.print (fields.toJson event))

/-- `decode_event`, of the payload of a Kafka message if it has one. -/
def decodeEvent : Option ByteArray → Option α
  | none => none
  | some bytes =>
      match String.fromUTF8? bytes with
      | none => none
      | some text => (Json.parse text.toList).bind fields.ofJson

theorem decodeEvent_text (text : String) :
    decodeEvent fields (some text.toByteArray) =
      (Json.parse text.toList).bind fields.ofJson := by
  have htext : String.fromUTF8? text.toByteArray = some text := dif_pos text.isValidUTF8
  simp only [decodeEvent, htext]

theorem decodeEvent_payload (event : α) :
    decodeEvent fields (some (payload fields event).toByteArray) = some event := by
  rw [decodeEvent_text, payload, String.toList_ofList, Json.parse_print, Option.bind_some,
    fields.ofJson_toJson]

/-- A text of an object with the members of an event, in any order and beside unknown ones. -/
inductive Spells (event : α) (text : String) : Prop
  | object (ms unknown : List (String × Json))
      (document : Json.DocumentText (.obj (ms.map fun m => (some m.1, m.2))) text.toList)
      (members : ms.Perm (fields.write event ++ unknown))
      (beside : ∀ m ∈ unknown, m.1 ∉ fields.names)

variable {fields}

theorem Spells.decode {text : String} {event : α} (h : Spells fields event text) :
    decodeEvent fields (some text.toByteArray) = some event := by
  obtain ⟨ms, unknown, document, members, beside⟩ := h
  rw [decodeEvent_text, Json.parse_document document, Option.bind_some,
    fields.ofJson_of_perm members beside]

/-! ## The events of the saga -/

/-- The ids and the quantity of an event are in the ranges of their types. -/
structure InRange (messageId correlationId orderId : Uuid) (quantity : Int) : Prop where
  messageId : messageId.value < 2 ^ 128
  correlationId : correlationId.value < 2 ^ 128
  orderId : orderId.value < 2 ^ 128
  quantity : int4 quantity = some quantity

def ofUuid (id : Uuid) : BitVec 128 := .ofNat 128 id.value

def toUuid (id : BitVec 128) : Uuid := ⟨id.toNat⟩

theorem toUuid_ofUuid {id : Uuid} (h : id.value < 2 ^ 128) : toUuid (ofUuid id) = id := by
  rw [toUuid, ofUuid, BitVec.toNat_ofNat, Nat.mod_eq_of_lt h]

theorem toInt_ofInt {n : Int} (h : int4 n = some n) : (Int32.ofInt n).toInt = n := by
  have hrange : -2 ^ 31 ≤ n ∧ n < 2 ^ 31 := by
    by_contra hout
    rw [int4, if_neg hout] at h
    cases h
  exact Int32.toInt_ofInt_of_le hrange.1 hrange.2

section Saga

variable (rfc3339 : DateTime → String)

/-- An event of the saga, to be serialized. -/
def OrderCreatedEvent.of (event : Orders.OrderCreatedEvent) : OrderCreatedEvent where
  messageId := ofUuid event.messageId
  correlationId := ofUuid event.correlationId
  orderId := ofUuid event.orderId
  sku := event.sku
  quantity := .ofInt event.quantity
  occurredOnUtc := rfc3339 event.occurredOnUtc

/-- A decoded event, as the inventory worker handles it at any time. -/
def OrderCreatedEvent.event (decoded : OrderCreatedEvent) (occurredOnUtc : DateTime) :
    Orders.OrderCreatedEvent where
  messageId := toUuid decoded.messageId
  correlationId := toUuid decoded.correlationId
  orderId := toUuid decoded.orderId
  sku := decoded.sku
  quantity := decoded.quantity.toInt
  occurredOnUtc := occurredOnUtc

def InventoryResultEvent.of (result : Orders.InventoryResultEvent) : InventoryResultEvent where
  messageId := ofUuid result.messageId
  correlationId := ofUuid result.correlationId
  orderId := ofUuid result.orderId
  sku := result.sku
  quantity := .ofInt result.quantity
  success := result.success
  reason := result.reason
  occurredOnUtc := rfc3339 result.occurredOnUtc

/-- A decoded result, as the orders worker applies it at any time. -/
def InventoryResultEvent.event (decoded : InventoryResultEvent) (occurredOnUtc : DateTime) :
    Orders.InventoryResultEvent where
  messageId := toUuid decoded.messageId
  correlationId := toUuid decoded.correlationId
  orderId := toUuid decoded.orderId
  sku := decoded.sku
  quantity := decoded.quantity.toInt
  success := decoded.success
  reason := decoded.reason
  occurredOnUtc := occurredOnUtc

variable {rfc3339}

/-- An event comes back up to its time, which no worker reads. -/
theorem OrderCreatedEvent.event_of {event : Orders.OrderCreatedEvent}
    (h : InRange event.messageId event.correlationId event.orderId event.quantity)
    (occurredOnUtc : DateTime) : (OrderCreatedEvent.of rfc3339 event).event occurredOnUtc =
      { event with occurredOnUtc := occurredOnUtc } := by
  simp only [OrderCreatedEvent.event, OrderCreatedEvent.of, toUuid_ofUuid h.messageId,
    toUuid_ofUuid h.correlationId, toUuid_ofUuid h.orderId, toInt_ofInt h.quantity]

theorem InventoryResultEvent.event_of {result : Orders.InventoryResultEvent}
    (h : InRange result.messageId result.correlationId result.orderId result.quantity)
    (occurredOnUtc : DateTime) : (InventoryResultEvent.of rfc3339 result).event occurredOnUtc =
      { result with occurredOnUtc := occurredOnUtc } := by
  simp only [InventoryResultEvent.event, InventoryResultEvent.of, toUuid_ofUuid h.messageId,
    toUuid_ofUuid h.correlationId, toUuid_ofUuid h.orderId, toInt_ofInt h.quantity]

/-- The inventory worker does with what it decodes what the saga does with the event. -/
theorem order_handled {event : Orders.OrderCreatedEvent}
    (h : InRange event.messageId event.correlationId event.orderId event.quantity)
    (occurredOnUtc utcNow : DateTime) (messageId : Uuid) (outboxId : Int) (db : Database) :
    (decodeEvent OrderCreatedEvent.fields
        (some (payload OrderCreatedEvent.fields (.of rfc3339 event)).toByteArray)).map
      (fun decoded => handleOrderCreatedMessage utcNow messageId outboxId
        (decoded.event occurredOnUtc) db) =
      some (handleOrderCreatedMessage utcNow messageId outboxId event db) := by
  rw [decodeEvent_payload, Option.map_some, OrderCreatedEvent.event_of h]
  rfl

theorem result_applied {result : Orders.InventoryResultEvent}
    (h : InRange result.messageId result.correlationId result.orderId result.quantity)
    (occurredOnUtc utcNow : DateTime) (db : Database) :
    (decodeEvent InventoryResultEvent.fields
        (some (payload InventoryResultEvent.fields (.of rfc3339 result)).toByteArray)).map
      (fun decoded => applyInventoryResultMessage utcNow (decoded.event occurredOnUtc) db) =
      some (applyInventoryResultMessage utcNow result db) := by
  rw [decodeEvent_payload, Option.map_some, InventoryResultEvent.event_of h]
  rfl

end Saga

/-- What the inventory worker answers an event it has read with. -/
def OrderCreatedEvent.result (event : OrderCreatedEvent) (messageId : BitVec 128)
    (success : Bool) (reason : Option String) (occurredOnUtc : String) :
    InventoryResultEvent where
  messageId := messageId
  correlationId := event.correlationId
  orderId := event.orderId
  sku := event.sku
  quantity := event.quantity
  success := success
  reason := reason
  occurredOnUtc := occurredOnUtc

/-- **Events survive the wire**: a consumer reads the event its producer wrote, also from any
other text with its members; an order comes back from both hops as it went out; and both
handlers do with what is decoded what the saga does with its event. -/
theorem events_survive (rfc3339 : DateTime → String) :
    (∀ event, decodeEvent OrderCreatedEvent.fields
      (some (payload OrderCreatedEvent.fields event).toByteArray) = some event) ∧
    (∀ event, decodeEvent InventoryResultEvent.fields
      (some (payload InventoryResultEvent.fields event).toByteArray) = some event) ∧
    (∀ event text, Spells OrderCreatedEvent.fields event text →
      decodeEvent OrderCreatedEvent.fields (some text.toByteArray) = some event) ∧
    (∀ event text, Spells InventoryResultEvent.fields event text →
      decodeEvent InventoryResultEvent.fields (some text.toByteArray) = some event) ∧
    (∀ event messageId success reason occurredOnUtc,
      ((decodeEvent OrderCreatedEvent.fields
          (some (payload OrderCreatedEvent.fields event).toByteArray)).bind fun created =>
        decodeEvent InventoryResultEvent.fields (some (payload InventoryResultEvent.fields
          (created.result messageId success reason occurredOnUtc)).toByteArray)) =
        some ⟨messageId, event.correlationId, event.orderId, event.sku, event.quantity, success,
          reason, occurredOnUtc⟩) ∧
    (∀ event : Orders.OrderCreatedEvent,
      InRange event.messageId event.correlationId event.orderId event.quantity →
      ∀ occurredOnUtc utcNow messageId outboxId db,
        (decodeEvent OrderCreatedEvent.fields
            (some (payload OrderCreatedEvent.fields (.of rfc3339 event)).toByteArray)).map
          (fun decoded => handleOrderCreatedMessage utcNow messageId outboxId
            (decoded.event occurredOnUtc) db) =
          some (handleOrderCreatedMessage utcNow messageId outboxId event db)) ∧
    ∀ result : Orders.InventoryResultEvent,
      InRange result.messageId result.correlationId result.orderId result.quantity →
      ∀ occurredOnUtc utcNow db,
        (decodeEvent InventoryResultEvent.fields
            (some (payload InventoryResultEvent.fields (.of rfc3339 result)).toByteArray)).map
          (fun decoded => applyInventoryResultMessage utcNow (decoded.event occurredOnUtc) db) =
          some (applyInventoryResultMessage utcNow result db) := by
  refine ⟨decodeEvent_payload _, decodeEvent_payload _, fun _ _ => Spells.decode,
    fun _ _ => Spells.decode, ?_, fun _ => order_handled, fun _ => result_applied⟩
  intro event messageId success reason occurredOnUtc
  rw [decodeEvent_payload, Option.bind_some, decodeEvent_payload]
  rfl

/-- The members of an order backwards, after a note and a space; and an order of the saga. -/
theorem events_survive_backwards :
    decodeEvent OrderCreatedEvent.fields (some (String.ofList (' ' :: Json.print (.obj
      ((("note", Json.null) :: (OrderCreatedEvent.fields.write ⟨1, 2, 2, "A", 3, "t"⟩).reverse).map
        fun m => (some m.1, m.2))))).toByteArray) = some ⟨1, 2, 2, "A", 3, "t"⟩ ∧
    (decodeEvent OrderCreatedEvent.fields (some (payload OrderCreatedEvent.fields
        (.of (fun _ => "t") ⟨⟨1⟩, ⟨2⟩, ⟨2⟩, "A", 3, 0⟩)).toByteArray)).map
      (fun decoded => handleOrderCreatedMessage 5 ⟨3⟩ 1 (decoded.event 7)
        ⟨[], [], [], [⟨"A", 4, 0⟩], [], []⟩) =
      some (handleOrderCreatedMessage 5 ⟨3⟩ 1 ⟨⟨1⟩, ⟨2⟩, ⟨2⟩, "A", 3, 0⟩
        ⟨[], [], [], [⟨"A", 4, 0⟩], [], []⟩) := by
  obtain ⟨-, -, hspelled, -, -, hhandled, -⟩ := events_survive fun _ => "t"
  constructor
  · refine hspelled ⟨1, 2, 2, "A", 3, "t"⟩ _ (.object
      (("note", .null) :: (OrderCreatedEvent.fields.write ⟨1, 2, 2, "A", 3, "t"⟩).reverse)
      [("note", .null)] ?_ ?_ (by decide))
    · have hblank : Json.Blank [' '] := by simp [Json.Blank]
      have hdocument := Json.DocumentText.padded hblank (Json.valueText_print (.obj
        ((("note", Json.null) ::
          (OrderCreatedEvent.fields.write ⟨1, 2, 2, "A", 3, "t"⟩).reverse).map
            fun m => (some m.1, m.2)))) .nil
      rw [List.append_nil] at hdocument
      rw [String.toList_ofList]
      exact hdocument
    · exact ((List.reverse_perm _).cons _).trans (@List.perm_append_comm _ [_] _)
  · exact hhandled ⟨⟨1⟩, ⟨2⟩, ⟨2⟩, "A", 3, 0⟩ ⟨by decide, by decide, by decide, by decide⟩ 7 5 ⟨3⟩
      1 _

/-- A payload says nothing of its event type: an order is never read as a result, but **a
result that reaches a consumer of orders is read as an order** of the same ids, sku and
quantity. -/
theorem misrouted_events :
    (∀ event, decodeEvent InventoryResultEvent.fields
      (some (payload OrderCreatedEvent.fields event).toByteArray) = none) ∧
    ∀ result, decodeEvent OrderCreatedEvent.fields
      (some (payload InventoryResultEvent.fields result).toByteArray) =
        some ⟨result.messageId, result.correlationId, result.orderId, result.sku,
          result.quantity, result.occurredOnUtc⟩ := by
  constructor
  · intro event
    rw [decodeEvent_text, payload, String.toList_ofList, Json.parse_print, Option.bind_some,
      Fields.toJson, Fields.ofJson_obj]
    · refine InventoryResultEvent.read_of_missing ?_
      simp [OrderCreatedEvent.fields, InventoryResultEvent.fields]
    · exact OrderCreatedEvent.fields.distinct
  · intro result
    refine Spells.decode (.object (InventoryResultEvent.fields.write result)
      [("success", bool.write result.success), ("reason", writeOptional string result.reason)]
      ?_ ?_ ?_)
    · rw [payload, String.toList_ofList]
      exact (Json.valueText_print _).document
    · exact (@List.perm_append_comm _ [_, _] [_]).append_left [_, _, _, _, _]
    · simp [OrderCreatedEvent.fields]

end Axes.Orders.Wire
