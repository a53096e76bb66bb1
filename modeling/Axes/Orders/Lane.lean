import Axes.Lib.Topic
import Axes.Orders.Outbox

/-!
# From an outbox to the workers that consume it (`orders/worker.rs`)

One direction of the saga: the publishers of an outbox table, the topic they publish
to, and the consumers of that topic. A topic entry is the event its payload decodes
to, or none for a payload that does not decode, which the consumers commit unhandled.
Handling an event is a transaction and belongs to the saga; here an event is `done`
or not.

The invariant `Carries` follows a row from the outbox to the committed offset: a
published row is in the topic, and what a committed offset has passed is done.
-/

namespace Axes.Orders

open Axes.Lib Axes.Lib.Table

/-- `ω` is the work a consumer may owe between handling an event and committing it.
`acknowledged` are the records the broker has acknowledged; no step reads it. -/
structure Lane (ε ω : Type) where
  topic : Topic (Option ε)
  acknowledged : List (OutboxMessageRecord ε)
  publishers : Nat → Publisher ε
  consumers : Nat → Consumer (Option ε) ω

inductive LaneAction
  | publish (w : Nat) (action : PublisherAction)
  | consume (w : Nat) (action : ConsumerAction)
  | skip (w : Nat)
  | noise (p : Nat)

namespace Lane

variable {ε ω : Type}

def start : Lane ε ω where
  topic := .empty
  acknowledged := []
  publishers _ := .idle
  consumers _ := .start

def setPublisher (lane : Lane ε ω) (w : Nat) (publisher : Publisher ε) : Lane ε ω :=
  { lane with publishers := Function.update lane.publishers w publisher }

def setConsumer (lane : Lane ε ω) (w : Nat) (consumer : Consumer (Option ε) ω) : Lane ε ω :=
  { lane with consumers := Function.update lane.consumers w consumer }

/-- The loop of consumer `w` moves on. -/
def setPhase (lane : Lane ε ω) (w : Nat) (phase : Consumer.Phase (Option ε) ω) : Lane ε ω :=
  lane.setConsumer w { lane.consumers w with phase := phase }

@[simp] theorem setPublisher_self (lane : Lane ε ω) (w : Nat) (publisher : Publisher ε) :
    (lane.setPublisher w publisher).publishers w = publisher :=
  Function.update_self ..

theorem setPublisher_of_ne (lane : Lane ε ω) {v w : Nat} (publisher : Publisher ε)
    (h : v ≠ w) : (lane.setPublisher w publisher).publishers v = lane.publishers v :=
  Function.update_of_ne h ..

@[simp] theorem setConsumer_self (lane : Lane ε ω) (w : Nat)
    (consumer : Consumer (Option ε) ω) : (lane.setConsumer w consumer).consumers w = consumer :=
  Function.update_self ..

theorem setConsumer_of_ne (lane : Lane ε ω) {v w : Nat} (consumer : Consumer (Option ε) ω)
    (h : v ≠ w) : (lane.setConsumer w consumer).consumers v = lane.consumers v :=
  Function.update_of_ne h ..

/-- What the broker stored. -/
def store (lane : Lane ε ω) : Option (Nat × ε) → Lane ε ω
  | none => lane
  | some (p, event) => { lane with topic := lane.topic.append p (some event) }

@[simp] theorem store_none (lane : Lane ε ω) : lane.store none = lane := rfl

/-- The record a step of a publisher gets acknowledged. -/
def acknowledges : Publisher ε → PublisherAction → List (OutboxMessageRecord ε)
  | .sending _ batch, .send index (.acknowledged _) => batch[index]?.toList
  | _, _ => []

def acknowledge (lane : Lane ε ω) (messages : List (OutboxMessageRecord ε)) : Lane ε ω :=
  { lane with acknowledged := lane.acknowledged ++ messages }

@[simp] theorem acknowledge_nil (lane : Lane ε ω) : lane.acknowledge [] = lane := by
  simp [acknowledge]

def step (now : DateTime) (table : List (OutboxRow ε)) (lane : Lane ε ω) :
    LaneAction → Option (List (OutboxRow ε) × Lane ε ω)
  | .publish w action =>
      match Publisher.step now table (lane.publishers w) action with
      | none => none
      | some (publisher, table', sent) =>
          some (table', ((lane.setPublisher w publisher).store sent).acknowledge
            (acknowledges (lane.publishers w) action))
  | .consume w action =>
      match (lane.consumers w).step lane.topic action with
      | none => none
      | some (consumer, topic) => some (table, { lane with topic := topic }.setConsumer w consumer)
  | .skip w =>
      -- `decode_event` returned `None`
      match (lane.consumers w).phase with
      | .received p offset none =>
          some (table, lane.setPhase w (.handled p offset none))
      | _ => none
  | .noise p => some (table, { lane with topic := lane.topic.append p none })

/-! ## The invariant -/

/-- An entry that does not decode needs no handling. -/
def Settles (done : ε → Prop) : Option ε → Prop
  | none => True
  | some event => done event

/-- Every row is on its way, and nothing else is. -/
structure Carries (done : ε → Prop) (table : List (OutboxRow ε)) (lane : Lane ε ω) : Prop where
  ids : (table.map (·.id)).Nodup
  /-- A published row was acknowledged. -/
  published : ∀ row ∈ table, row.publishedOnUtc ≠ none → row.record ∈ lane.acknowledged
  /-- What was acknowledged is in the topic. -/
  kept : ∀ message ∈ lane.acknowledged, lane.topic.Holds (some message.payload)
  /-- The topic has events of the table only. -/
  genuine : ∀ event, lane.topic.Holds (some event) → event ∈ table.map (·.payload)
  /-- A publisher holds records of the table only. -/
  batch : ∀ w, ∀ message ∈ (lane.publishers w).unmarked,
    message ∈ table.map OutboxRow.record
  /-- What is about to be marked published was acknowledged. -/
  acknowledged : ∀ w claimedAt message rest,
    lane.publishers w = .marking claimedAt message (.ok ()) rest →
    message ∈ lane.acknowledged
  committed : ∀ p, Topic.Done (Settles done) lane.topic p (lane.topic.committed p)
  settled : ∀ w, Consumer.Settled (Settles done) lane.topic (lane.consumers w)

variable {done done' : ε → Prop} {table : List (OutboxRow ε)} {lane : Lane ε ω}

theorem carries_start : Carries done [] (start : Lane ε ω) where
  ids := List.nodup_nil
  published _ h := absurd h List.not_mem_nil
  kept _ h := absurd h List.not_mem_nil
  genuine event h := by
    obtain ⟨p, offset, h⟩ := h
    simp [Topic.At, start, Topic.empty] at h
  batch _ _ h := absurd h List.not_mem_nil
  acknowledged _ _ _ _ h := by cases h
  committed _ := .zero
  settled _ := Consumer.settled_start

theorem Settles.mono (hdone : ∀ event, done event → done' event) :
    ∀ entry, Settles done entry → Settles done' entry
  | none => id
  | some event => hdone event

theorem Carries.mono (h : lane.Carries done table)
    (hdone : ∀ event, done event → done' event) : lane.Carries done' table :=
  { h with
    committed := fun p => (h.committed p).mono (Settles.mono hdone)
    settled := fun w => (h.settled w).mono (Settles.mono hdone) }

/-- A transaction added an unpublished row. -/
theorem Carries.insert (h : lane.Carries done table) {row : OutboxRow ε}
    (hfresh : row.id ∉ table.map (·.id)) (hunpublished : row.publishedOnUtc = none) :
    lane.Carries done (table ++ [row]) :=
  { h with
    ids := nodup_map_insert h.ids hfresh
    published := fun other hother hpublished => by
      rcases List.mem_append.mp hother with hold | hnew
      · exact h.published other hold hpublished
      · obtain rfl := List.mem_singleton.mp hnew
        exact absurd hunpublished hpublished
    genuine := fun event hevent => by
      rw [List.map_append]
      exact List.mem_append_left _ (h.genuine event hevent)
    batch := fun w message hmessage => by
      rw [List.map_append]
      exact List.mem_append_left _ (h.batch w message hmessage) }

/-- The broker appended an entry. -/
theorem Carries.append (h : lane.Carries done table) (p : Nat) (entry : Option ε)
    (hentry : ∀ event, entry = some event → event ∈ table.map (·.payload)) :
    Carries done table { lane with topic := lane.topic.append p entry } where
  ids := h.ids
  published := h.published
  kept message hmessage := (h.kept message hmessage).append p
  genuine event hevent := by
    rcases Topic.holds_append hevent with hold | hnew
    · exact h.genuine event hold
    · exact hentry event hnew.symm
  batch := h.batch
  acknowledged := h.acknowledged
  committed q := (h.committed q).append p entry
  settled w := (h.settled w).append p entry

/-- A publisher moved on with messages that are records of the table. -/
theorem Carries.setPublisher (h : lane.Carries done table) (w : Nat)
    {publisher : Publisher ε}
    (hbatch : ∀ message ∈ publisher.unmarked, message ∈ table.map OutboxRow.record)
    (hacknowledged : ∀ claimedAt message rest,
      publisher = .marking claimedAt message (.ok ()) rest → message ∈ lane.acknowledged) :
    (lane.setPublisher w publisher).Carries done table :=
  { h with
    batch := fun v message hmessage => by
      by_cases hvw : v = w
      · subst hvw
        rw [setPublisher_self] at hmessage
        exact hbatch message hmessage
      · rw [lane.setPublisher_of_ne _ hvw] at hmessage
        exact h.batch v message hmessage
    acknowledged := fun v claimedAt message rest hmarking => by
      by_cases hvw : v = w
      · subst hvw
        rw [setPublisher_self] at hmarking
        exact hacknowledged claimedAt message rest hmarking
      · rw [lane.setPublisher_of_ne _ hvw] at hmarking
        exact h.acknowledged v claimedAt message rest hmarking }

theorem Carries.stopPublisher (h : lane.Carries done table) (w : Nat) :
    (lane.setPublisher w .idle).Carries done table :=
  h.setPublisher w (fun _ hmessage => absurd hmessage List.not_mem_nil)
    fun _ _ _ hmarking => by cases hmarking

/-- An update of columns other than id, message and payload, that publishes only what
was acknowledged. -/
theorem Carries.update (h : lane.Carries done table) {selected : OutboxRow ε → Bool}
    {f : OutboxRow ε → OutboxRow ε} (hrecord : ∀ row, (f row).record = row.record)
    (hpublished : ∀ row ∈ table, selected row = true → (f row).publishedOnUtc ≠ none →
      row.record ∈ lane.acknowledged) :
    lane.Carries done (updateWhere selected f table) := by
  have hrecords : (updateWhere selected f table).map OutboxRow.record =
      table.map OutboxRow.record := map_updateWhere hrecord
  have hids : (updateWhere selected f table).map (·.id) = table.map (·.id) :=
    map_updateWhere fun row => congrArg OutboxMessageRecord.id (hrecord row)
  have hpayloads : (updateWhere selected f table).map (·.payload) = table.map (·.payload) :=
    map_updateWhere fun row => congrArg OutboxMessageRecord.payload (hrecord row)
  refine { h with ids := hids ▸ h.ids, published := ?_, genuine := ?_, batch := ?_ }
  · intro row' hrow' hpublished'
    obtain ⟨row, hrow, rfl⟩ := mem_updateWhere.mp hrow'
    by_cases hselected : selected row = true
    · rw [if_pos hselected] at hpublished' ⊢
      rw [hrecord]
      exact hpublished row hrow hselected hpublished'
    · rw [if_neg hselected] at hpublished' ⊢
      exact h.published row hrow hpublished'
  · rw [hpayloads]
    exact h.genuine
  · rw [hrecords]
    exact h.batch

theorem Carries.list (h : lane.Carries done table) (now : DateTime) (w : Nat) :
    (lane.setPublisher w (.resume now (listUnpublishedOutbox now 50 table).1)).Carries done
      (listUnpublishedOutbox now 50 table).2 := by
  have htable : lane.Carries done (listUnpublishedOutbox now 50 table).2 :=
    h.update (fun _ => rfl) fun row hrow _ hpublished => h.published row hrow hpublished
  refine htable.setPublisher w ?_ ?_
  · intro message hmessage
    rw [Publisher.unmarked_resume] at hmessage
    obtain ⟨-, row, hrow, rfl⟩ := mem_listed hmessage
    have hrecords : (listUnpublishedOutbox now 50 table).2.map OutboxRow.record =
        table.map OutboxRow.record := map_updateWhere fun _ => rfl
    rw [hrecords]
    exact List.mem_map_of_mem hrow
  · intro claimedAt message rest hmarking
    cases hbatch : (listUnpublishedOutbox now 50 table).1 <;>
      simp [hbatch, Publisher.resume] at hmarking

/-- The broker acknowledged records it has stored. -/
theorem Carries.acknowledge (h : lane.Carries done table)
    {messages : List (OutboxMessageRecord ε)}
    (hkept : ∀ message ∈ messages, lane.topic.Holds (some message.payload)) :
    (lane.acknowledge messages).Carries done table :=
  { h with
    published := fun row hrow hpublished =>
      List.mem_append_left _ (h.published row hrow hpublished)
    kept := List.forall_mem_append.mpr ⟨h.kept, hkept⟩
    acknowledged := fun w claimedAt message rest hmarking =>
      List.mem_append_left _ (h.acknowledged w claimedAt message rest hmarking) }

theorem Carries.send (h : lane.Carries done table) {w : Nat} {claimedAt : DateTime}
    {batch : List (OutboxMessageRecord ε)} {index : Nat} {message : OutboxMessageRecord ε}
    (outcome : SendOutcome) (hsending : lane.publishers w = .sending claimedAt batch)
    (hmessage : batch[index]? = some message) :
    (((lane.setPublisher w
      (.marking claimedAt message outcome.result (batch.eraseIdx index))).store
        (outcome.stored.map fun p => (p, message.payload))).acknowledge
          (acknowledges (lane.publishers w) (.send index outcome))).Carries done table := by
  have hbatch : ∀ other ∈ batch, other ∈ table.map OutboxRow.record := fun other hother =>
    h.batch w other (by rw [hsending]; exact hother)
  have hunmarked : ∀ other ∈ message :: batch.eraseIdx index,
      other ∈ table.map OutboxRow.record := by
    intro other hother
    rcases List.mem_cons.mp hother with rfl | hrest
    · exact hbatch _ (List.mem_of_getElem? hmessage)
    · exact hbatch other (List.mem_of_mem_eraseIdx hrest)
  have hpayload : message.payload ∈ table.map (·.payload) := by
    obtain ⟨row, hrow, hrecord⟩ := List.mem_map.mp
      (hunmarked message List.mem_cons_self)
    exact List.mem_map.mpr ⟨row, hrow, congrArg OutboxMessageRecord.payload hrecord⟩
  have hstored : ∀ p, Carries done table
      -- A send that times out may have stored its record all the same.
      { lane with topic := lane.topic.append p (some message.payload) } := fun p =>
    h.append p _ fun event hevent => by
      cases hevent
      exact hpayload
  rw [hsending]
  cases outcome with
  | acknowledged p =>
      -- acknowledged first, then about to be marked
      have hacknowledged : Carries done table (Lane.acknowledge
          { lane with topic := lane.topic.append p (some message.payload) } [message]) :=
        (hstored p).acknowledge fun other hother => by
          obtain rfl := List.mem_singleton.mp hother
          exact Topic.holds_append_self p _
      have hmarking : (acknowledges (.sending claimedAt batch)
          (.send index (.acknowledged p))) = [message] := by
        simp [acknowledges, hmessage]
      rw [hmarking]
      refine hacknowledged.setPublisher w hunmarked ?_
      intro _ other _ hnext
      cases hnext
      exact List.mem_append_right _ List.mem_cons_self
  | failed error stored =>
      simp only [acknowledges, acknowledge_nil]
      cases stored with
      | none =>
          refine h.setPublisher w hunmarked ?_
          intro _ _ _ hmarking
          cases hmarking
      | some p =>
          refine (hstored p).setPublisher w hunmarked ?_
          intro _ _ _ hmarking
          cases hmarking

theorem Carries.mark (h : lane.Carries done table) {w : Nat} {claimedAt : DateTime}
    {message : OutboxMessageRecord ε} {result : Except String Unit}
    {rest : List (OutboxMessageRecord ε)} (utcNow : DateTime)
    (hmarking : lane.publishers w = .marking claimedAt message result rest) :
    (lane.setPublisher w (.resume claimedAt rest)).Carries done
      (markOutbox utcNow message.id result table) := by
  have hbatch : ∀ other ∈ message :: rest, other ∈ table.map OutboxRow.record :=
    fun other hother => h.batch w other (by rw [hmarking]; exact hother)
  have htable : lane.Carries done (markOutbox utcNow message.id result table) := by
    cases result with
    | ok =>
        refine h.update (fun _ => rfl) ?_
        intro row hrow hselected _
        -- the marked row is the one the message was read from
        obtain ⟨other, hother, hrecord⟩ := List.mem_map.mp (hbatch message List.mem_cons_self)
        have hid : row.id = other.id := (of_decide_eq_true hselected).trans
          (congrArg OutboxMessageRecord.id hrecord).symm
        obtain rfl := List.inj_on_of_nodup_map h.ids hrow hother hid
        rw [hrecord]
        exact h.acknowledged w claimedAt message rest hmarking
    | error error =>
        exact h.update (fun _ => rfl) fun row hrow _ hpublished =>
          h.published row hrow hpublished
  have hrecords : (markOutbox utcNow message.id result table).map OutboxRow.record =
      table.map OutboxRow.record := by
    cases result <;> exact map_updateWhere fun _ => rfl
  refine htable.setPublisher w ?_ ?_
  · intro other hother
    rw [Publisher.unmarked_resume] at hother
    rw [hrecords]
    exact hbatch other (List.mem_cons_of_mem _ hother)
  · intro _ _ _ hnext
    cases rest <;> simp [Publisher.resume] at hnext

theorem Carries.setConsumer (h : lane.Carries done table) (w : Nat)
    {consumer : Consumer (Option ε) ω}
    (hsettled : Consumer.Settled (Settles done) lane.topic consumer) :
    (lane.setConsumer w consumer).Carries done table :=
  { h with
    settled := fun v => by
      by_cases hvw : v = w
      · subst hvw
        rw [setConsumer_self]
        exact hsettled
      · rw [lane.setConsumer_of_ne _ hvw]
        exact h.settled v }

theorem Carries.stopConsumer (h : lane.Carries done table) (w : Nat) :
    (lane.setConsumer w .start).Carries done table :=
  h.setConsumer w Consumer.settled_start

/-- The held event was handled. -/
theorem Carries.handle (h : lane.Carries done table) {w p offset : Nat} {event : ε}
    (work : Option ω) (hphase : (lane.consumers w).phase = .received p offset (some event))
    (hdone : ∀ event, done event → done' event) (hevent : done' event) :
    (lane.setPhase w (.handled p offset work)).Carries done' table :=
  (h.mono hdone).setConsumer w
    ((h.settled w).handle work hphase (Settles.mono hdone) hevent)

theorem Carries.work (h : lane.Carries done table) {w p offset : Nat} {work : Option ω}
    (work' : Option ω) (hphase : (lane.consumers w).phase = .handled p offset work) :
    (lane.setPhase w (.handled p offset work')).Carries done table :=
  h.setConsumer w ((h.settled w).work work' hphase)

theorem Carries.consume (h : lane.Carries done table) {w : Nat} {action : ConsumerAction}
    {consumer : Consumer (Option ε) ω} {topic : Topic (Option ε)}
    (hstep : (lane.consumers w).step lane.topic action = some (consumer, topic)) :
    ({ lane with topic := topic }.setConsumer w consumer).Carries done table := by
  obtain ⟨hsettled, hcommitted, hlog, hother⟩ := (h.settled w).step h.committed hstep
  have hholds : ∀ entry, topic.Holds entry ↔ lane.topic.Holds entry := by
    intro entry
    simp only [Topic.Holds, Topic.At, hlog]
  have htopic : Carries done table { lane with topic := topic } := {
    ids := h.ids
    published := h.published
    kept := fun message hmessage => (hholds _).mpr (h.kept message hmessage)
    genuine := fun event hevent => h.genuine event ((hholds _).mp hevent)
    batch := h.batch
    acknowledged := h.acknowledged
    committed := hcommitted
    settled := fun v => hother _ (h.settled v) }
  exact htopic.setConsumer w hsettled

/-- **One step of a lane** keeps every row on its way. -/
theorem Carries.step {now : DateTime} {action : LaneAction} {table' : List (OutboxRow ε)}
    {lane' : Lane ε ω} (h : lane.Carries done table)
    (hstep : lane.step now table action = some (table', lane')) :
    lane'.Carries done table' := by
  cases action with
  | publish w action =>
      simp only [Lane.step] at hstep
      split at hstep
      · cases hstep
      · next publisher table'' sent hpublisher =>
          cases hstep
          obtain ⟨hidle, rfl, rfl, rfl, rfl⟩ |
            ⟨claimedAt, batch, index, outcome, message, hsending, rfl, hmessage, rfl, rfl, rfl⟩ |
            ⟨claimedAt, message, result, rest, utcNow, hmarking, rfl, rfl, rfl, rfl⟩ :=
            Publisher.step_cases hpublisher
          · rw [hidle]
            simpa only [acknowledges, acknowledge_nil, store_none] using h.list now w
          · exact h.send outcome hsending hmessage
          · rw [hmarking]
            simpa only [acknowledges, acknowledge_nil, store_none] using h.mark utcNow hmarking
  | consume w action =>
      simp only [Lane.step] at hstep
      split at hstep
      · cases hstep
      · next consumer topic hconsumer =>
          cases hstep
          exact h.consume hconsumer
  | skip w =>
      simp only [Lane.step] at hstep
      split at hstep
      · next p offset hphase =>
          cases hstep
          -- An entry that does not decode is done as it is.
          exact h.setConsumer w ((h.settled w).handle none hphase (fun _ => id) trivial)
      · cases hstep
  | noise p =>
      cases hstep
      exact h.append p none fun _ hevent => by cases hevent

/-- **Every row has a carrier, or is done**: it is unpublished, or the topic has its
event at an offset that is not committed, or the event is done. -/
theorem Carries.carrier (h : lane.Carries done table) {row : OutboxRow ε}
    (hrow : row ∈ table) :
    row.publishedOnUtc = none ∨
      (∃ p offset, lane.topic.At p offset (some row.payload) ∧
        lane.topic.committed p ≤ offset) ∨
      done row.payload := by
  by_cases hpublished : row.publishedOnUtc = none
  · exact .inl hpublished
  -- Published, so acknowledged, so in the topic.
  · obtain ⟨p, offset, hat⟩ := h.kept _ (h.published row hrow hpublished)
    rcases Nat.lt_or_ge offset (lane.topic.committed p) with hlt | hge
    · exact .inr (.inr ((h.committed p).all offset _ hlt hat))
    · exact .inr (.inl ⟨p, offset, hat, hge⟩)

/-- The worker that a step is of. -/
def worker : LaneAction → Option Nat
  | .publish w _ | .consume w _ | .skip w => some w
  | .noise _ => none

/-- A step is nothing to the other workers. -/
theorem step_others {now : DateTime} {action : LaneAction} {table' : List (OutboxRow ε)}
    {lane' : Lane ε ω} {v : Nat} (hstep : lane.step now table action = some (table', lane'))
    (hother : worker action ≠ some v) :
    lane'.publishers v = lane.publishers v ∧ lane'.consumers v = lane.consumers v := by
  cases action with
  | publish w action =>
      have hv : v ≠ w := fun h => hother (congrArg some h.symm)
      simp only [Lane.step] at hstep
      split at hstep
      · cases hstep
      · next sent _ =>
          cases hstep
          cases sent with
          | none => exact ⟨lane.setPublisher_of_ne _ hv, rfl⟩
          | some record => exact ⟨lane.setPublisher_of_ne _ hv, rfl⟩
  | consume w action =>
      have hv : v ≠ w := fun h => hother (congrArg some h.symm)
      simp only [Lane.step] at hstep
      split at hstep
      · cases hstep
      · cases hstep
        exact ⟨rfl, Lane.setConsumer_of_ne _ _ hv⟩
  | skip w =>
      have hv : v ≠ w := fun h => hother (congrArg some h.symm)
      simp only [Lane.step] at hstep
      split at hstep
      · cases hstep
        exact ⟨rfl, lane.setConsumer_of_ne _ hv⟩
      · cases hstep
  | noise p =>
      cases hstep
      exact ⟨rfl, rfl⟩

/-- The rows a lane step leaves in the table are the same but for their lock and
publication columns. -/
theorem step_records {now : DateTime} {action : LaneAction} {table' : List (OutboxRow ε)}
    {lane' : Lane ε ω} (hstep : lane.step now table action = some (table', lane'))
    {κ : Type} {column : OutboxRow ε → κ}
    (hlock : ∀ row lock, column { row with lockedUntilUtc := lock } = column row)
    (hpublished : ∀ (row : OutboxRow ε) publishedOn lock error,
      column { row with
        publishedOnUtc := publishedOn, lockedUntilUtc := lock, lastError := error } = column row)
    (hfailed : ∀ (row : OutboxRow ε) retryCount lock error,
      column { row with
        retryCount := retryCount, lockedUntilUtc := lock, lastError := error } = column row) :
    table'.map column = table.map column := by
  cases action with
  | publish w action =>
      simp only [Lane.step] at hstep
      split at hstep
      · cases hstep
      · next publisher table'' sent hpublisher =>
          cases hstep
          obtain ⟨-, -, -, rfl, -⟩ | ⟨_, _, _, _, _, -, -, -, -, rfl, -⟩ |
            ⟨_, _, result, _, _, -, -, -, rfl, -⟩ := Publisher.step_cases hpublisher
          · exact map_updateWhere fun row => hlock row _
          · rfl
          · cases result with
            | ok => exact map_updateWhere fun row => hpublished row _ _ _
            | error error => exact map_updateWhere fun row => hfailed row _ _ _
  | consume w action =>
      simp only [Lane.step] at hstep
      split at hstep <;> cases hstep
      rfl
  | skip w =>
      simp only [Lane.step] at hstep
      split at hstep <;> cases hstep
      rfl
  | noise p =>
      cases hstep
      rfl

end Lane

end Axes.Orders
