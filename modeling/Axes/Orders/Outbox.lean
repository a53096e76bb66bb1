import Mathlib.Data.List.Sort
import Axes.Lib.Table
import Axes.Orders.Basic

/-!
# Transactional outbox (`orders/store.rs`, `orders/worker.rs`)

The table functions shared by the two outboxes, and one publisher of
`publish_outbox_loop` as a state machine over them. A payload is kept as the event
it encodes. `UPDATE … RETURNING` promises no order, so a publisher may take the
rows of its batch in any order.
-/

namespace Axes.Orders

open Axes.Lib Axes.Lib.Table

def outboxLockSeconds : Int := 300

/-- `n * INTERVAL '1 second'`. -/
def seconds (n : Int) : DateTime := n * 1000000

/-- A row of `order_outbox_messages` or `inventory_outbox_messages`. -/
structure OutboxRow (ε : Type) where
  id : Int
  messageId : Uuid
  correlationId : Uuid
  eventType : String
  payload : ε
  occurredOnUtc : DateTime
  publishedOnUtc : Option DateTime
  lockedUntilUtc : Option DateTime
  retryCount : Int
  lastError : Option String
  deriving DecidableEq

structure OutboxMessageRecord (ε : Type) where
  id : Int
  messageId : Uuid
  payload : ε
  deriving DecidableEq

variable {ε : Type}

/-- The `WHERE` clause of the pick: unpublished, and not locked past `now`. -/
def OutboxRow.claimable (now : DateTime) (row : OutboxRow ε) : Bool :=
  row.publishedOnUtc.isNone &&
    match row.lockedUntilUtc with
    | none => true
    | some lockedUntil => decide (lockedUntil ≤ now)

def OutboxRow.record (row : OutboxRow ε) : OutboxMessageRecord ε :=
  { id := row.id, messageId := row.messageId, payload := row.payload }

/-- A row as the `INSERT`s write it; the lock column is left at its default, null. -/
def OutboxRow.new (id : Int) (messageId correlationId : Uuid) (eventType : String)
    (payload : ε) (now : DateTime) : OutboxRow ε :=
  { id := id, messageId := messageId, correlationId := correlationId,
    eventType := eventType, payload := payload, occurredOnUtc := now,
    publishedOnUtc := none, lockedUntilUtc := none, retryCount := 0, lastError := none }

/-- The ids of the first `limit` claimable rows. -/
def pickedIds (now : DateTime) (limit : Nat) (table : List (OutboxRow ε)) : List Int :=
  (((table.filter (OutboxRow.claimable now)).map (·.id)).insertionSort (· ≤ ·)).take limit

/-- `list_unpublished_outbox`: lock the picked rows and return them. -/
def listUnpublishedOutbox (now : DateTime) (limit : Nat) (table : List (OutboxRow ε)) :
    List (OutboxMessageRecord ε) × List (OutboxRow ε) :=
  let picked := pickedIds now limit table
  ((table.filter fun row => decide (row.id ∈ picked)).map OutboxRow.record,
    updateWhere (fun row => decide (row.id ∈ picked))
      (fun row => { row with lockedUntilUtc := some (now + seconds outboxLockSeconds) }) table)

def markOutboxPublished (utcNow : DateTime) (id : Int) (table : List (OutboxRow ε)) :
    List (OutboxRow ε) :=
  updateWhere (fun row => decide (row.id = id))
    (fun row => { row with
      publishedOnUtc := some utcNow, lockedUntilUtc := none, lastError := none }) table

def markOutboxFailed (id : Int) (error : String) (table : List (OutboxRow ε)) :
    List (OutboxRow ε) :=
  updateWhere (fun row => decide (row.id = id))
    (fun row => { row with
      retryCount := row.retryCount + 1, lockedUntilUtc := none, lastError := some error }) table

/-- The mark the loop makes for the result of a send. -/
def markOutbox (utcNow : DateTime) (id : Int) (result : Except String Unit)
    (table : List (OutboxRow ε)) : List (OutboxRow ε) :=
  match result with
  | .ok () => markOutboxPublished utcNow id table
  | .error error => markOutboxFailed id error table

/-! ## One publisher -/

/-- Where a publisher is in its loop. `claimedAt` is the database time of the call
that returned the batch; no step reads it. -/
inductive Publisher (ε : Type)
  | idle
  | sending (claimedAt : DateTime) (batch : List (OutboxMessageRecord ε))
  | marking (claimedAt : DateTime) (message : OutboxMessageRecord ε)
      (result : Except String Unit) (rest : List (OutboxMessageRecord ε))

/-- What became of a send: acknowledged into a partition, or failed, in which case the
broker may still have stored the message. -/
inductive SendOutcome
  | acknowledged (partition : Nat)
  | failed (error : String) (stored : Option Nat)

def SendOutcome.result : SendOutcome → Except String Unit
  | acknowledged _ => .ok ()
  | failed error _ => .error error

def SendOutcome.stored : SendOutcome → Option Nat
  | acknowledged partition => some partition
  | failed _ stored => stored

inductive PublisherAction
  | list
  | send (index : Nat) (outcome : SendOutcome)
  | mark (utcNow : DateTime)

/-- Back to the batch, or to the ticker when it is empty. -/
def Publisher.resume (claimedAt : DateTime) : List (OutboxMessageRecord ε) → Publisher ε
  | [] => .idle
  | batch => .sending claimedAt batch

/-- One step of `publish_outbox_loop`: the new state, the new table, and what the broker
stored in which partition. -/
def Publisher.step (now : DateTime) (table : List (OutboxRow ε)) :
    Publisher ε → PublisherAction →
      Option (Publisher ε × List (OutboxRow ε) × Option (Nat × ε))
  | .idle, .list =>
      let (batch, table') := listUnpublishedOutbox now 50 table
      some (.resume now batch, table', none)
  | .sending claimedAt batch, .send index outcome =>
      match batch[index]? with
      | none => none
      | some message =>
          some (.marking claimedAt message outcome.result (batch.eraseIdx index), table,
            outcome.stored.map fun partition => (partition, message.payload))
  | .marking claimedAt message result rest, .mark utcNow =>
      some (.resume claimedAt rest, markOutbox utcNow message.id result table, none)
  | _, _ => none

/-- The messages of a claim its publisher has not marked. -/
def Publisher.unmarked : Publisher ε → List (OutboxMessageRecord ε)
  | .idle => []
  | .sending _ batch => batch
  | .marking _ message _ rest => message :: rest

@[simp] theorem Publisher.unmarked_resume (claimedAt : DateTime)
    (batch : List (OutboxMessageRecord ε)) :
    (Publisher.resume claimedAt batch).unmarked = batch := by
  cases batch <;> rfl

/-- The time of the claim whose messages are unmarked. -/
def Publisher.claimedAt : Publisher ε → DateTime
  | .idle => 0
  | .sending claimedAt _ => claimedAt
  | .marking claimedAt _ _ _ => claimedAt

theorem Publisher.claimedAt_resume {claimedAt : DateTime}
    {batch : List (OutboxMessageRecord ε)} {message : OutboxMessageRecord ε}
    (h : message ∈ batch) : (Publisher.resume claimedAt batch).claimedAt = claimedAt := by
  cases batch with
  | nil => cases h
  | cons _ _ => rfl

/-- All a publisher can do in one step. -/
theorem Publisher.step_cases {now : DateTime} {table table' : List (OutboxRow ε)}
    {publisher publisher' : Publisher ε} {action : PublisherAction}
    {sent : Option (Nat × ε)}
    (h : Publisher.step now table publisher action = some (publisher', table', sent)) :
    (publisher = .idle ∧ action = .list ∧
      publisher' = .resume now (listUnpublishedOutbox now 50 table).1 ∧
      table' = (listUnpublishedOutbox now 50 table).2 ∧ sent = none) ∨
    (∃ claimedAt batch index outcome message,
      publisher = .sending claimedAt batch ∧ action = .send index outcome ∧
      batch[index]? = some message ∧
      publisher' = .marking claimedAt message outcome.result (batch.eraseIdx index) ∧
      table' = table ∧
      sent = outcome.stored.map fun partition => (partition, message.payload)) ∨
    (∃ claimedAt message result rest utcNow,
      publisher = .marking claimedAt message result rest ∧ action = .mark utcNow ∧
      publisher' = .resume claimedAt rest ∧
      table' = markOutbox utcNow message.id result table ∧ sent = none) := by
  cases publisher <;> cases action <;> simp only [Publisher.step, reduceCtorEq] at h
  case idle.list =>
    cases h
    exact .inl ⟨rfl, rfl, rfl, rfl, rfl⟩
  case sending.send claimedAt batch index outcome =>
    split at h
    · cases h
    · next message hmessage =>
        cases h
        exact .inr (.inl ⟨_, _, _, _, message, rfl, rfl, hmessage, rfl, rfl, rfl⟩)
  case marking.mark claimedAt message result rest utcNow =>
    cases h
    exact .inr (.inr ⟨_, _, _, _, _, rfl, rfl, rfl, rfl, rfl⟩)

/-! ## What the table functions change -/

/-- A picked id is the id of a claimable row. -/
theorem exists_claimable {now : DateTime} {limit : Nat} {table : List (OutboxRow ε)}
    {id : Int} (h : id ∈ pickedIds now limit table) :
    ∃ row ∈ table, row.id = id ∧ row.claimable now = true := by
  have hsorted := (List.mem_insertionSort _).mp (List.mem_of_mem_take h)
  obtain ⟨row, hrow, rfl⟩ := List.mem_map.mp hsorted
  obtain ⟨hmem, hclaimable⟩ := List.mem_filter.mp hrow
  exact ⟨row, hmem, rfl, hclaimable⟩

theorem mem_listed {now : DateTime} {limit : Nat} {table : List (OutboxRow ε)}
    {message : OutboxMessageRecord ε}
    (h : message ∈ (listUnpublishedOutbox now limit table).1) :
    message.id ∈ pickedIds now limit table ∧
      ∃ row ∈ table, row.record = message := by
  obtain ⟨row, hrow, rfl⟩ := List.mem_map.mp h
  obtain ⟨hmem, hpicked⟩ := List.mem_filter.mp hrow
  exact ⟨of_decide_eq_true hpicked, row, hmem, rfl⟩

/-- A claimable row is not published, and its lock is over. -/
theorem OutboxRow.claimable_iff {now : DateTime} {row : OutboxRow ε} :
    row.claimable now = true ↔ row.publishedOnUtc = none ∧
      ∀ lockedUntil, row.lockedUntilUtc = some lockedUntil → lockedUntil ≤ now := by
  unfold OutboxRow.claimable
  cases row.publishedOnUtc <;> cases row.lockedUntilUtc <;> simp

end Axes.Orders
