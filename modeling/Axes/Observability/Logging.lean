import Std.Data.String.ToInt
import Axes.Lib.JsonLines
import Axes.Lib.JsonMap
import Axes.Lib.Serde

/-!
# The log (`utils/observability/logging.rs`)

In production an event is written as one line of JSON. `log_tells` is what a reader of the log
may rely on: each line is one event, in the order they were written, whatever the texts are
that the fields hold; and the object of an event tells its body, its integers and the place it
comes from, of which a field cannot pretend otherwise.
-/

namespace Axes.Observability

open Axes.Lib

/-! ## Events -/

/-- `tracing::Level` -/
inductive Level
  | trace | debug | info | warn | error

/-- A float that is finite, as it is printed, or one that is not. -/
inductive F64
  | finite (shortest : Json.Number)
  | infinite (negative : Bool)
  | nan

/-- What is recorded of a field: the methods of `Visit`, with the text that an error or a
debug value prints. -/
inductive FieldValue
  | f64 (value : F64)
  | i64 (value : Int64)
  | u64 (value : UInt64)
  | i128 (value : BitVec 128)
  | u128 (value : BitVec 128)
  | bool (value : Bool)
  | str (value : String)
  | bytes (value : List UInt8)
  | error (text : String)
  | debug (text : String)

structure Metadata where
  name : String
  target : String
  level : Level
  modulePath : Option String
  file : Option String
  line : Option UInt32

structure Event where
  metadata : Metadata
  fields : List (String × FieldValue)

/-- The clock: seconds, the nanoseconds after them, and the text of `to_rfc3339`. -/
structure Instant where
  timestamp : Int
  subsecNanos : Nat
  rfc3339 : String

structure SpanContext where
  traceId : BitVec 128
  spanId : BitVec 64

/-! ## The visitor -/

structure JsonVisitor where
  body : Option String
  attributes : BTreeMap String Json

def JsonVisitor.default : JsonVisitor := ⟨none, ∅⟩

def jsonText (text : String) : Json := .str (some text)

namespace JsonVisitor

def insertAttribute (key : String) (value : Json) (visitor : JsonVisitor) : JsonVisitor :=
  { visitor with attributes := visitor.attributes.insert key value }

def insertOptional (key : String) (value : Option Json) (visitor : JsonVisitor) : JsonVisitor :=
  match value with
  | some value => visitor.insertAttribute key value
  | none => visitor

/-- A message that is no string is printed. -/
def bodyText : Json → String
  | .str (some text) => text
  | other => String.ofList other.print

def recordJsonValue (field : String) (value : Json) (visitor : JsonVisitor) : JsonVisitor :=
  if field = "message" then
    { visitor with body := some (bodyText value) }
  else
    visitor.insertAttribute field value

/-- `Number::from_f64` -/
def fromF64 : F64 → Option Json.Number
  | .finite shortest => some shortest
  | _ => none

def f64Text : F64 → String
  | .finite shortest => String.ofList (Json.printNumber shortest)
  | .infinite negative => if negative then "-inf" else "inf"
  | .nan => "NaN"

/-- `Number::from_i128`: a number is a `u64` or else an `i64`. -/
def fromI128 (value : BitVec 128) : Option Json.Number :=
  if 0 ≤ value.toInt ∧ value.toInt < 2 ^ 64 ∨ -2 ^ 63 ≤ value.toInt ∧ value.toInt < 2 ^ 63 then
    some (.ofInt value.toInt)
  else
    none

/-- `Number::from_u128` -/
def fromU128 (value : BitVec 128) : Option Json.Number :=
  if value.toNat < 2 ^ 64 then some (.ofInt value.toNat) else none

/-- A number, or its text when it is not one that JSON can hold. -/
def numberOr (text : String) : Option Json.Number → Json
  | some number => .num number
  | none => jsonText text

/-- `{:?}` of a slice -/
def debugBytes (value : List UInt8) : String :=
  "[" ++ ", ".intercalate (value.map fun byte => toString byte.toNat) ++ "]"

/-- The value each of the `record_` methods hands to `record_json_value`. -/
def jsonValue : FieldValue → Json
  | .f64 value => numberOr (f64Text value) (fromF64 value)
  | .i64 value => .num (.ofInt value.toInt)
  | .u64 value => .num (.ofInt value.toNat)
  | .i128 value => numberOr value.toInt.repr (fromI128 value)
  | .u128 value => numberOr value.toNat.repr (fromU128 value)
  | .bool value => .bool value
  | .str value => jsonText value
  | .bytes value => jsonText (debugBytes value)
  | .error text => jsonText text
  | .debug text => jsonText text

/-- `event.record(&mut visitor)` -/
def record (fields : List (String × FieldValue)) (visitor : JsonVisitor) : JsonVisitor :=
  fields.foldl (fun visitor field => visitor.recordJsonValue field.1 (jsonValue field.2)) visitor

end JsonVisitor

/-! ## The formatter -/

def severity : Level → Int × String
  | .trace => (1, "TRACE")
  | .debug => (5, "DEBUG")
  | .info => (9, "INFO")
  | .warn => (13, "WARN")
  | .error => (17, "ERROR")

def unixTimeNanos (now : Instant) : String :=
  (now.timestamp * 1000000000 + now.subsecNanos).repr

def traceAndSpanId (context : SpanContext) : Option (String × String) :=
  if context.traceId = 0 ∨ context.spanId = 0 then
    none
  else
    some (String.ofList (Serde.hexDigits 32 context.traceId.toNat),
      String.ofList (Serde.hexDigits 16 context.spanId.toNat))

structure OtelJsonFormatter where
  deploymentEnvironment : String

/-- A call of the formatter: the event, and what it reads of the clock and of the span. -/
structure LogRecord where
  event : Event
  now : Instant
  context : SpanContext

namespace OtelJsonFormatter

/-- The visitor after the attributes of the metadata are inserted. -/
def visit (event : Event) : JsonVisitor :=
  let metadata := event.metadata
  let visitor := JsonVisitor.default.record event.fields
  let visitor := visitor.insertAttribute "target" (jsonText metadata.target)
  let visitor := visitor.insertOptional "module_path" (metadata.modulePath.map jsonText)
  let visitor := visitor.insertOptional "file" (metadata.file.map jsonText)
  visitor.insertOptional "line" (metadata.line.map fun line => .num (.ofInt line.toNat))

def payload (formatter : OtelJsonFormatter) (call : LogRecord) : Json :=
  let visitor := visit call.event
  let (severityNumber, severityText) := severity call.event.metadata.level
  let timestamp := unixTimeNanos call.now
  let body := visitor.body.getD call.event.metadata.name
  let (traceId, spanId) := (traceAndSpanId call.context).getD ("", "")
  .object [
    ("timestamp", jsonText call.now.rfc3339),
    ("time_unix_nano", jsonText timestamp),
    ("observed_time_unix_nano", jsonText timestamp),
    ("severity_number", .num (.ofInt severityNumber)),
    ("severity_text", jsonText severityText),
    ("body", jsonText body),
    ("trace_id", jsonText traceId),
    ("span_id", jsonText spanId),
    ("resource", .object [
      ("service.name", jsonText "axes"),
      ("service.version", jsonText "0.1.0"),
      ("deployment.environment", jsonText formatter.deploymentEnvironment)]),
    ("attributes", .ofMap visitor.attributes)]

/-- What `format_event` writes. -/
def formatEvent (formatter : OtelJsonFormatter) (call : LogRecord) : List Char :=
  Json.writeLine (formatter.payload call)

end OtelJsonFormatter

/-! ## What the log tells -/

/-- The last field of a name. -/
def Event.lastField (event : Event) (name : String) : Option FieldValue :=
  (event.fields.reverse.find? (·.1 == name)).map (·.2)

/-- The attributes that say where an event comes from. -/
def Metadata.origin (metadata : Metadata) (key : String) : Option Json :=
  if key = "target" then some (jsonText metadata.target)
  else if key = "module_path" then metadata.modulePath.map jsonText
  else if key = "file" then metadata.file.map jsonText
  else if key = "line" then metadata.line.map fun line => .num (.ofInt line.toNat)
  else none

/-- The integer a field was given. -/
def FieldValue.integer : FieldValue → Option Int
  | .i64 value => some value.toInt
  | .u64 value => some value.toNat
  | .i128 value => some value.toInt
  | .u128 value => some value.toNat
  | _ => none

/-- How a reader takes an integer: as a number, or as the digits of a text. -/
def readInteger : Json → Option Int
  | .num number => number.toInt
  | .str (some text) => text.toInt?
  | _ => none

/-- How a reader takes the digits of an id. -/
def readHex : Json → Option Nat
  | .str (some text) => Serde.hexNumber text.toList
  | _ => none

def attributeOf (key : String) (j : Json) : Option Json := (j.get? "attributes").bind (·.get? key)

/-- What the object of an event tells of it. -/
structure Tells (call : LogRecord) (j : Json) : Prop where
  body : j.get? "body" = some (jsonText
    (((call.event.lastField "message").map fun value =>
      JsonVisitor.bodyText (JsonVisitor.jsonValue value)).getD call.event.metadata.name))
  severity : j.get? "severity_number" =
    some (.num (.ofInt (severity call.event.metadata.level).1))
  severityText : j.get? "severity_text" =
    some (jsonText (Observability.severity call.event.metadata.level).2)
  timestamp : j.get? "timestamp" = some (jsonText call.now.rfc3339)
  time : (j.get? "time_unix_nano").bind readInteger =
    some (call.now.timestamp * 1000000000 + call.now.subsecNanos)
  observed : (j.get? "observed_time_unix_nano").bind readInteger =
    some (call.now.timestamp * 1000000000 + call.now.subsecNanos)
  noSpan : call.context.traceId = 0 ∨ call.context.spanId = 0 →
    j.get? "trace_id" = some (jsonText "") ∧ j.get? "span_id" = some (jsonText "")
  span : call.context.traceId ≠ 0 → call.context.spanId ≠ 0 →
    (j.get? "trace_id").bind readHex = some call.context.traceId.toNat ∧
      (j.get? "span_id").bind readHex = some call.context.spanId.toNat
  origin : ∀ key value, call.event.metadata.origin key = some value →
    attributeOf key j = some value
  field : ∀ key, call.event.metadata.origin key = none → key ≠ "message" →
    attributeOf key j = (call.event.lastField key).map JsonVisitor.jsonValue
  integer : ∀ key value n, call.event.metadata.origin key = none → key ≠ "message" →
    call.event.lastField key = some value → value.integer = some n →
      (attributeOf key j).bind readInteger = some n

namespace JsonVisitor

variable {visitor : JsonVisitor} {field key : String} {value : Json}

@[simp] theorem insertAttribute_body : (visitor.insertAttribute key value).body = visitor.body :=
  rfl

@[simp] theorem insertOptional_body {value : Option Json} :
    (visitor.insertOptional key value).body = visitor.body := by
  cases value with
  | none => rfl
  | some value => rfl

theorem insertAttribute_attributes :
    (visitor.insertAttribute field value).attributes[key]? =
      if key = field then some value else visitor.attributes[key]? :=
  BTreeMap.find_insert

theorem insertOptional_attributes {value : Option Json} :
    (visitor.insertOptional field value).attributes[key]? =
      (if key = field then value else none).or visitor.attributes[key]? := by
  cases value with
  | none =>
      rw [ite_self]
      rfl
  | some value =>
      refine insertAttribute_attributes.trans ?_
      by_cases hkey : key = field
      · rw [if_pos hkey, if_pos hkey]
        rfl
      · rw [if_neg hkey, if_neg hkey]
        rfl

/-- The last message is the body. -/
theorem record_body (visitor : JsonVisitor) (fields : List (String × FieldValue)) :
    (visitor.record fields).body =
      (((fields.reverse.find? (·.1 == "message")).map (·.2)).map
        fun value => bodyText (jsonValue value)).or visitor.body := by
  induction fields generalizing visitor with
  | nil => rfl
  | cons e fields ih =>
      obtain ⟨name, value⟩ := e
      show (JsonVisitor.record fields (visitor.recordJsonValue name (jsonValue value))).body = _
      rw [ih, List.reverse_cons, List.find?_append, recordJsonValue]
      cases fields.reverse.find? (·.1 == "message") with
      | some e' => rfl
      | none =>
          by_cases hname : name = "message"
          · simp [hname]
          · simp [hname]

/-- Any other field of a name is overwritten by the next one. -/
theorem record_attributes (visitor : JsonVisitor) (fields : List (String × FieldValue))
    (hkey : key ≠ "message") :
    (visitor.record fields).attributes[key]? =
      (((fields.reverse.find? (·.1 == key)).map (·.2)).map jsonValue).or
        visitor.attributes[key]? := by
  induction fields generalizing visitor with
  | nil => rfl
  | cons e fields ih =>
      obtain ⟨name, value⟩ := e
      show (JsonVisitor.record fields
        (visitor.recordJsonValue name (jsonValue value))).attributes[key]? = _
      rw [ih, List.reverse_cons, List.find?_append, recordJsonValue]
      cases fields.reverse.find? (·.1 == key) with
      | some e' => rfl
      | none =>
          by_cases hname : name = "message"
          · have hother : ¬"message" = key := fun h => hkey h.symm
            simp [hname, hother]
          · rw [if_neg hname, insertAttribute_attributes]
            by_cases hkeyname : key = name
            · simp [hkeyname]
            · have hother : ¬name = key := fun h => hkeyname h.symm
              simp [hkeyname, hother]

theorem readInteger_number (n : Int) : readInteger (.num (.ofInt n)) = some n :=
  Json.Number.toInt_ofInt n

theorem readInteger_numberOr {n : Int} {text : String} {number : Option Json.Number}
    (htext : text.toInt? = some n) (hnumber : ∀ m ∈ number, m = .ofInt n) :
    readInteger (numberOr text number) = some n := by
  cases number with
  | none => exact htext
  | some m =>
      rw [hnumber m rfl]
      exact readInteger_number n

/-- An integer is read back, also one that is written as a text. -/
theorem readInteger_jsonValue {value : FieldValue} {n : Int} (h : value.integer = some n) :
    readInteger (jsonValue value) = some n := by
  cases value with
  | i64 value =>
      cases h
      exact readInteger_number value.toInt
  | u64 value =>
      cases h
      exact readInteger_number value.toNat
  | i128 value =>
      cases h
      refine readInteger_numberOr (Int.toInt?_repr _) ?_
      intro m hm
      unfold fromI128 at hm
      split at hm
      · cases hm
        rfl
      · cases hm
  | u128 value =>
      cases h
      refine readInteger_numberOr (Nat.toInt?_repr _) ?_
      intro m hm
      unfold fromU128 at hm
      split at hm
      · cases hm
        rfl
      · cases hm
  | f64 _ | bool _ | str _ | bytes _ | error _ | debug _ => cases h

end JsonVisitor

namespace OtelJsonFormatter

variable {event : Event} {key : String}

theorem visit_body : (visit event).body =
    (event.lastField "message").map fun value =>
      JsonVisitor.bodyText (JsonVisitor.jsonValue value) := by
  have hrecord := JsonVisitor.record_body .default event.fields
  simp only [visit, JsonVisitor.insertOptional_body, JsonVisitor.insertAttribute_body]
  exact hrecord.trans Option.or_none

/-- The metadata have the last word. -/
theorem visit_attributes (hkey : key ≠ "message") :
    (visit event).attributes[key]? =
      (event.metadata.origin key).or ((event.lastField key).map JsonVisitor.jsonValue) := by
  have hrecord := JsonVisitor.record_attributes .default event.fields hkey
  have hfields : (JsonVisitor.default.record event.fields).attributes[key]? =
      (event.lastField key).map JsonVisitor.jsonValue := by
    rw [hrecord]
    exact Option.or_none
  simp only [visit, JsonVisitor.insertOptional_attributes, JsonVisitor.insertAttribute_attributes,
    hfields, Metadata.origin]
  by_cases htarget : key = "target"
  · subst htarget
    rfl
  by_cases hmodule : key = "module_path"
  · subst hmodule
    rfl
  by_cases hfile : key = "file"
  · subst hfile
    rfl
  by_cases hline : key = "line"
  · subst hline
    rfl
  simp [htarget, hmodule, hfile, hline]

theorem traceAndSpanId_of_valid {context : SpanContext} (htrace : context.traceId ≠ 0)
    (hspan : context.spanId ≠ 0) :
    traceAndSpanId context = some (String.ofList (Serde.hexDigits 32 context.traceId.toNat),
      String.ofList (Serde.hexDigits 16 context.spanId.toNat)) :=
  if_neg fun h => h.elim htrace hspan

theorem readHex_hexDigits {k n : Nat} (h : n < 16 ^ k) :
    readHex (jsonText (String.ofList (Serde.hexDigits k n))) = some n := by
  show Serde.hexNumber (String.ofList (Serde.hexDigits k n)).toList = some n
  rw [String.toList_ofList, Serde.hexNumber_hexDigits, Nat.mod_eq_of_lt h]

theorem tells_payload (formatter : OtelJsonFormatter) (call : LogRecord) :
    Tells call (formatter.payload call) := by
  have hattribute : ∀ key, attributeOf key (formatter.payload call) =
      (visit call.event).attributes[key]? := by
    intro key
    simp [attributeOf, payload]
  refine ⟨?_, ?_, ?_, ?_, ?_, ?_, ?_, ?_, ?_, ?_, ?_⟩
  · simp [payload, visit_body]
  · simp [payload]
  · simp [payload]
  · simp [payload]
  · simp [payload, readInteger, jsonText, unixTimeNanos, Int.toInt?_repr]
  · simp [payload, readInteger, jsonText, unixTimeNanos, Int.toInt?_repr]
  · intro hinvalid
    have hnone : traceAndSpanId call.context = none := if_pos hinvalid
    simp [payload, hnone]
  · intro htrace hspan
    have htraceId := readHex_hexDigits (k := 32) call.context.traceId.isLt
    have hspanId := readHex_hexDigits (k := 16) call.context.spanId.isLt
    simp [payload, traceAndSpanId_of_valid htrace hspan, htraceId, hspanId]
  · intro key value horigin
    have hkey : key ≠ "message" := by
      intro hmessage
      subst hmessage
      cases horigin
    rw [hattribute, visit_attributes hkey, horigin]
    rfl
  · intro key horigin hkey
    rw [hattribute, visit_attributes hkey, horigin]
    rfl
  · intro key value n horigin hkey hfield hinteger
    rw [hattribute, visit_attributes hkey, horigin, hfield]
    exact JsonVisitor.readInteger_jsonValue hinteger

/-- **The log is read back as it was written.** -/
theorem log_tells (formatter : OtelJsonFormatter) (calls : List LogRecord) :
    ∃ js, Json.readLines (calls.flatMap formatter.formatEvent) = some js ∧
      List.Forall₂ Tells calls js := by
  refine ⟨calls.map formatter.payload, ?_, ?_⟩
  · rw [← Json.readLines_writeLines, List.flatMap_map]
    rfl
  · rw [List.forall₂_map_right_iff]
    exact List.forall₂_same.mpr fun call _ => tells_payload formatter call

end OtelJsonFormatter

end Axes.Observability
