import Mathlib.Algebra.Order.BigOperators.Group.List
import Mathlib.Data.Fintype.EquivFin
import Axes.Orders.Confluence
import Axes.Orders.Delivery
import Axes.Orders.Drain

/-!
# One worker of each kind decides every order

Every worker may be stopped at any point (`Init.outage`). When none is running, a worker of
each kind that is started can bring every order to its end: it publishes what is in the outbox
(`Lane.publishes`), handles what is in the topic and commits it, and the same once more for the
results. Nothing that is in its way fails for good, since no transaction fails on the messages
of the saga, and no partition it takes is held by another consumer.
-/

namespace Axes.Orders

open Axes.Lib Axes.Lib.Table

/-! ## What a worker does alone -/

/-- What the workers do to the books while no order is placed. -/
structure Books.Ahead (b b' : Books) : Prop where
  orders : b'.orders.map (·.id) = b.orders.map (·.id)
  created : b'.created = b.created
  results : b.results ⊆ b'.results
  handled : ∀ messageId, b.Handled messageId → b'.Handled messageId
  applied : ∀ messageId, b.Applied messageId → b'.Applied messageId

theorem Books.Ahead.refl (b : Books) : b.Ahead b :=
  ⟨rfl, rfl, List.Subset.refl _, fun _ => id, fun _ => id⟩

theorem Books.Ahead.trans {b b' b'' : Books} (h : b.Ahead b') (h' : b'.Ahead b'') :
    b.Ahead b'' where
  orders := h'.orders.trans h.orders
  created := h'.created.trans h.created
  results := List.Subset.trans h.results h'.results
  handled messageId hhandled := h'.handled messageId (h.handled messageId hhandled)
  applied messageId happlied := h'.applied messageId (h.applied messageId happlied)

theorem Books.ahead_resolve (b : Books) (inbox : InboxRow) (stocks : List StockRow)
    (result : InventoryResultEvent) : b.Ahead (b.resolve inbox stocks result) where
  orders := rfl
  created := rfl
  results := List.subset_append_left _ _
  handled _ h := handled_resolve.mpr (.inl h)
  applied _ h := h

theorem Books.ahead_settle (b : Books) (utcNow : DateTime) (inbox : InboxRow)
    (result : InventoryResultEvent) : b.Ahead (b.settle utcNow inbox result) where
  orders := map_updateWhere fun _ => rfl
  created := rfl
  results := List.Subset.refl _
  handled _ h := h
  applied _ := fun ⟨row, hrow, hid⟩ => ⟨row, List.mem_append_left _ hrow, hid⟩

namespace World

/-- Steps of the worker `w` of each kind, and of the clock; a partition is taken when no
consumer of the group holds it. -/
inductive Alone (w : Nat) (world : World) : Action → Prop
  | tick (microseconds : Nat) : Alone w world (.tick microseconds)
  | publishCreated (action : PublisherAction) : Alone w world (.created (.publish w action))
  | consumeCreated (action : ConsumerAction)
      (free : ∀ p, action = .assign p → ∀ v, (world.created.consumers v).positions p = none) :
      Alone w world (.created (.consume w action))
  | skipCreated : Alone w world (.created (.skip w))
  | handle (utcNow : DateTime) (messageId : Uuid) (outboxId : Int) :
      Alone w world (.handleOrderCreated w utcNow messageId outboxId)
  | refresh (succeeds : Bool) : Alone w world (.refresh w succeeds)
  | publishResults (action : PublisherAction) : Alone w world (.results (.publish w action))
  | consumeResults (action : ConsumerAction)
      (free : ∀ p, action = .assign p → ∀ v, (world.results.consumers v).positions p = none) :
      Alone w world (.results (.consume w action))
  | skipResults : Alone w world (.results (.skip w))
  | apply (utcNow : DateTime) : Alone w world (.applyInventoryResult w utcNow)

/-- The workers `w` are at the top of their loops, and no other consumer is running. -/
structure Rested (w : Nat) (world : World) : Prop where
  publishesCreated : world.created.publishers w = .idle
  consumesCreated : (world.created.consumers w).phase = .polling
  othersCreated : ∀ v, v ≠ w → world.created.consumers v = .start
  publishesResults : world.results.publishers w = .idle
  consumesResults : (world.results.consumers w).phase = .polling
  othersResults : ∀ v, v ≠ w → world.results.consumers v = .start

variable {initial : List StockRow} {world world' : World} {w : Nat}

theorem Sound.ahead {action : Action} (h : world.Sound initial) (halone : Alone w world action)
    (hstep : world.step action = some world') :
    world'.Sound initial ∧ world.db.books.Ahead world'.db.books := by
  refine ⟨(h.step hstep).1, ?_⟩
  cases step_cases hstep with
  | ticked | handleFailed | applyFailed | stockLoaded | stockCached => exact .refl _
  | created hlane => rw [books_created hlane]; exact .refl _
  | results hlane => rw [books_results hlane]; exact .refl _
  | @handled _ utcNow messageId outboxId p offset event refresh db hphase hmessage hhandle =>
      have hevent : event ∈ world.db.books.created :=
        h.created.genuine event ⟨p, offset, ((h.created.settled _).received p offset _ hphase).1⟩
      obtain ⟨-, ⟨-, rfl, -⟩ | ⟨-, -, -, stocks, outcome, -, -, -, hbooks⟩⟩ :=
        h.consistent.handle h.stock_skus hevent hmessage hhandle
      · exact .refl _
      · rw [hbooks]
        exact Books.ahead_resolve _ _ _ _
  | @applied _ utcNow p offset event changed db hphase happly =>
      have hevent : event ∈ world.db.books.results :=
        h.results.genuine event ⟨p, offset, ((h.results.settled _).received p offset _ hphase).1⟩
      obtain ⟨-, ⟨-, rfl, -⟩ | ⟨-, -, -, -, -, hbooks⟩⟩ := h.consistent.apply hevent happly
      · exact .refl _
      · rw [hbooks]
        exact Books.ahead_settle _ _ _ _
  | refused | placed | redeliveryFailed | redelivered | resultRedeliveryFailed
  | resultRedelivered | crashedOrders | crashedInventory | cacheWritten => cases halone

/-- Whatever the workers do alone, the records stay sound and get ahead. -/
theorem Sound.canReach {Q : World → Prop} (h : world.Sound initial)
    (hreach : saga.CanReach (Alone w) Q world) :
    saga.CanReach (Alone w) (fun t => Q t ∧ t.Sound initial ∧ world.db.books.Ahead t.db.books)
      world := by
  refine hreach.keep ?_ ⟨h, .refl _⟩
  rintro s action t halone ⟨hs, hbooks⟩ hstep
  obtain ⟨ht, hahead⟩ := hs.ahead halone hstep
  exact ⟨ht, hbooks.trans hahead⟩

/-! ## Publishing -/

/-- Some time later no row is locked. -/
theorem exists_unlocked {ε : Type} (now : DateTime) (table : List (OutboxRow ε)) :
    ∃ d : Nat, ∀ row ∈ table, row.publishedOnUtc = none → row.claimable (now + d) = true := by
  induction table with
  | nil => exact ⟨0, fun row hrow => absurd hrow List.not_mem_nil⟩
  | cons row table ih =>
      obtain ⟨d, hd⟩ := ih
      have hover : ∀ lock : Int, lock ≤ (now : Int) + (max d (lock - now).toNat : Nat) := by
        omega
      have hlater : ∀ (lock : Int) (e : Nat), lock ≤ (now : Int) + d →
          lock ≤ (now : Int) + (max d e : Nat) := by
        omega
      refine ⟨max d ((row.lockedUntilUtc.getD now) - now).toNat, ?_⟩
      intro other hother hunpublished
      refine OutboxRow.claimable_iff.mpr ⟨hunpublished, ?_⟩
      intro lockedUntil hlocked
      rcases List.mem_cons.mp hother with rfl | hrest
      · rw [hlocked, Option.getD_some]
        exact hover lockedUntil
      · exact hlater lockedUntil _
          ((OutboxRow.claimable_iff.mp (hd other hrest hunpublished)).2 lockedUntil hlocked)

theorem Rested.publishCreated (h : world.Rested w) :
    saga.CanReach (Alone w) (fun t => t.Rested w ∧
      ∀ row ∈ t.db.orderOutbox, row.publishedOnUtc ≠ none) world := by
  obtain ⟨d, hunlocked⟩ := exists_unlocked world.now world.db.orderOutbox
  refine .step (.tick d) rfl ?_
  have hlane : (Lane.system (world.now + d) _ _).CanReach (Lane.Publishes w) _ _ :=
    Lane.publishes (s := (world.db.orderOutbox, world.created)) h.publishesCreated hunlocked
  have hsaga := hlane.lift (M := saga) (A := Alone w)
    (fun s => { world with
      now := world.now + d, db := { world.db with orderOutbox := s.1 }, created := s.2 })
    Action.created (by rintro _ _ ⟨step, rfl⟩; exact .publishCreated step) ?_
  · refine hsaga.mono ?_
    rintro t ⟨⟨table, lane⟩, ⟨hpublished, hidle, hconsumers⟩, rfl⟩
    dsimp only at hconsumers
    refine ⟨⟨hidle, ?_, ?_, h.publishesResults, h.consumesResults, h.othersResults⟩, hpublished⟩
    · show (lane.consumers w).phase = .polling
      rw [hconsumers]
      exact h.consumesCreated
    · show ∀ v, v ≠ w → lane.consumers v = .start
      rw [hconsumers]
      exact h.othersCreated
  · rintro ⟨table, lane⟩ action ⟨table', lane'⟩ hstep
    dsimp only [Lane.system] at hstep
    simp only [saga, step, hstep]

theorem Rested.publishResults (h : world.Rested w) :
    saga.CanReach (Alone w) (fun t => t.Rested w ∧
      ∀ row ∈ t.db.inventoryOutbox, row.publishedOnUtc ≠ none) world := by
  obtain ⟨d, hunlocked⟩ := exists_unlocked world.now world.db.inventoryOutbox
  refine .step (.tick d) rfl ?_
  have hlane : (Lane.system (world.now + d) _ _).CanReach (Lane.Publishes w) _ _ :=
    Lane.publishes (s := (world.db.inventoryOutbox, world.results)) h.publishesResults hunlocked
  have hsaga := hlane.lift (M := saga) (A := Alone w)
    (fun s => { world with
      now := world.now + d, db := { world.db with inventoryOutbox := s.1 }, results := s.2 })
    Action.results (by rintro _ _ ⟨step, rfl⟩; exact .publishResults step) ?_
  · refine hsaga.mono ?_
    rintro t ⟨⟨table, lane⟩, ⟨hpublished, hidle, hconsumers⟩, rfl⟩
    dsimp only at hconsumers
    refine ⟨⟨h.publishesCreated, h.consumesCreated, h.othersCreated, hidle, ?_, ?_⟩, hpublished⟩
    · show (lane.consumers w).phase = .polling
      rw [hconsumers]
      exact h.consumesResults
    · show ∀ v, v ≠ w → lane.consumers v = .start
      rw [hconsumers]
      exact h.othersResults
  · rintro ⟨table, lane⟩ action ⟨table', lane'⟩ hstep
    dsimp only [Lane.system] at hstep
    simp only [saga, step, hstep]

/-! ## Consuming -/

theorem Sound.ready (h : world.Sound initial)
    (hstock : ∀ row ∈ initial, row.availableQuantity < 2 ^ 31) :
    Deliveries.Ready ⟨world.db, world.issued⟩ where
  consistent := h.consistent
  skus := h.stock_skus
  bounded row hrow := by
    have hsku : row.sku ∈ initial.map (·.sku) := by
      rw [← h.stocked.skus]
      exact List.mem_map_of_mem hrow
    obtain ⟨row₀, hrow₀, hsame⟩ := List.mem_map.mp hsku
    have hconserved := h.stocked.conserved row hrow row₀ hrow₀ hsame
    have hnonneg : 0 ≤ Books.reservedQuantity world.db.books.results row.sku := by
      refine List.sum_nonneg ?_
      intro quantity hquantity
      obtain ⟨result, hresult, rfl⟩ := List.mem_map.mp hquantity
      obtain ⟨event, hevent, hanswers⟩ := h.consistent.resolved.result_created result
        (List.mem_of_mem_filter hresult)
      have hpositive := h.consistent.placed.positive event hevent
      rw [hanswers.quantity]
      omega
    have hbound := hstock row₀ hrow₀
    omega

/-- A message of a topic is done when a consumer that is polling has got past it. -/
theorem done_of_position {ε ω : Type} {done : ε → Prop} {table : List (OutboxRow ε)}
    {lane : Lane ε ω} (h : lane.Carries done table) {w p k offset : Nat} {event : ε}
    (hpolling : (lane.consumers w).phase = .polling)
    (hposition : (lane.consumers w).positions p = some k)
    (hat : lane.topic.At p offset (some event)) (hlt : offset < k) : done event := by
  rcases (h.settled w).position p k hposition with hdone | ⟨held, m, hheld, -⟩
  · exact hdone.all offset (some event) hlt hat
  · rw [hpolling] at hheld
    cases hheld

theorem exists_uuid (issued : List Uuid) : ∃ messageId, messageId ∉ issued := by
  have : Infinite Uuid := Infinite.of_injective Uuid.mk fun _ _ h => Uuid.mk.inj h
  obtain ⟨messageId, hnew⟩ := Infinite.exists_notMem_finset issued.toFinset
  exact ⟨messageId, fun hmem => hnew (List.mem_toFinset.mpr hmem)⟩

theorem exists_rowId (ids : List Int) : ∃ id, id ∉ ids := by
  obtain ⟨id, hnew⟩ := Infinite.exists_notMem_finset ids.toFinset
  exact ⟨id, fun hmem => hnew (List.mem_toFinset.mpr hmem)⟩

/-- A partition that no other consumer can hold is free, unless the worker holds it. -/
theorem free_of_others {μ ω : Type} {consumers : Nat → Consumer μ ω} {p : Nat}
    (hothers : ∀ v, v ≠ w → consumers v = .start) (hown : (consumers w).positions p = none)
    (v : Nat) : (consumers v).positions p = none := by
  by_cases hv : v = w
  · rw [hv]
    exact hown
  · rw [hothers v hv]
    rfl

/-- What the inventory worker leaves as it was at `start` while it consumes. -/
structure Handling (w : Nat) (initial : List StockRow) (start world : World) : Prop where
  sound : world.Sound initial
  others : ∀ v, v ≠ w → world.created.consumers v = .start
  results : world.results = start.results
  publishers : world.created.publishers = start.created.publishers
  outbox : world.db.orderOutbox = start.db.orderOutbox

variable {start : World}

/-- An order message that was received can be handled, and is then ready to be committed. -/
theorem Handling.handle (h : Handling w initial start world)
    (hstock : ∀ row ∈ initial, row.availableQuantity < 2 ^ 31) {p offset : Nat}
    {event : OrderCreatedEvent}
    (hphase : (world.created.consumers w).phase = .received p offset (some event)) :
    saga.CanReach (Alone w) (fun t => Handling w initial start t ∧
      (t.created.consumers w).phase = .handled p offset none ∧
      (t.created.consumers w).positions = (world.created.consumers w).positions ∧
      t.created.topic.log = world.created.topic.log) world := by
  have hevent : event ∈ world.db.books.created := h.sound.created.genuine event
    ⟨p, offset, ((h.sound.created.settled w).received p offset _ hphase).1⟩
  obtain ⟨messageId, hmessage⟩ := exists_uuid world.issued
  obtain ⟨outboxId, hfresh⟩ := exists_rowId (world.db.inventoryOutbox.map (·.id))
  obtain ⟨refresh, db, hhandle⟩ :=
    (h.sound.ready hstock).handle_succeeds hevent 0 messageId hfresh
  have houtbox : db.orderOutbox = world.db.orderOutbox := by
    obtain ⟨-, ⟨-, rfl, -⟩ | ⟨-, -, -, _, _, -, horders, -, -⟩⟩ :=
      h.sound.consistent.handle h.sound.stock_skus hevent hmessage hhandle
    · rfl
    · exact horders
  have hstep : world.step (.handleOrderCreated w 0 messageId outboxId) = some { world with
      issued := messageId :: world.issued
      db := db
      created := world.created.setPhase w (.handled p offset (refresh.map .load)) } := by
    simp only [step, hphase, if_neg hmessage, hhandle]
  have hothers : ∀ (lane : Lane OrderCreatedEvent Refresh) phase,
      (∀ v, v ≠ w → lane.consumers v = .start) →
      ∀ v, v ≠ w → (lane.setPhase w phase).consumers v = .start :=
    fun lane phase hlane v hv => (lane.setConsumer_of_ne _ hv).trans (hlane v hv)
  have hhandled : Handling w initial start _ := ⟨(h.sound.step hstep).1,
    hothers _ _ h.others, h.results, h.publishers, houtbox.trans h.outbox⟩
  refine .step (.handle 0 messageId outboxId) hstep ?_
  cases refresh with
  | none => exact .here ⟨hhandled, by simp [Lane.setPhase], by simp [Lane.setPhase], rfl⟩
  | some sku =>
      -- the refresh may fail, and the offset is committed all the same
      have hrefresh : step { world with
          issued := messageId :: world.issued
          db := db
          created := world.created.setPhase w (.handled p offset (some (.load sku))) }
          (.refresh w false) = some { world with
            issued := messageId :: world.issued
            db := db
            created := (world.created.setPhase w (.handled p offset (some (.load sku)))).setPhase
              w (.handled p offset none) } := by
        simp [step, Lane.setPhase]
      exact .one (.refresh false) hrefresh ⟨⟨(hhandled.sound.step hrefresh).1,
        hothers _ _ hhandled.others, h.results, h.publishers, hhandled.outbox⟩,
        by simp [Lane.setPhase], by simp [Lane.setPhase], rfl⟩

/-- The inventory worker can handle whatever it takes from the topic. -/
theorem reads_created (hstock : ∀ row ∈ initial, row.availableQuantity < 2 ^ 31) :
    Reads saga (Alone w) (Handling w initial start) (fun world => world.created.topic)
      (fun world => world.created.consumers w) where
  consume world action consumer topic h hconsumer hown := by
    have hstep : world.step (.created (.consume w action)) = some { world with
        created := { world.created with topic := topic }.setConsumer w consumer } := by
      simp only [step, Lane.step, hconsumer]
    exact .one (.consumeCreated action fun p hassign => free_of_others h.others (hown p hassign))
      hstep ⟨⟨(h.sound.step hstep).1, fun v hv => (Lane.setConsumer_of_ne _ _ hv).trans
        (h.others v hv), h.results, h.publishers, h.outbox⟩, Lane.setConsumer_self .., rfl⟩
  handle world p offset entry h hphase := by
    cases entry with
    | some event => exact h.handle hstock hphase
    | none =>
        have hstep : world.step (.created (.skip w)) = some { world with
            created := world.created.setPhase w (.handled p offset none) } := by
          simp only [step, Lane.step, hphase]
        exact .one .skipCreated hstep ⟨⟨(h.sound.step hstep).1, fun v hv =>
          (Lane.setConsumer_of_ne _ _ hv).trans (h.others v hv), h.results, h.publishers, h.outbox⟩,
            by simp [Lane.setPhase], by simp [Lane.setPhase], rfl⟩

/-- What is published of the orders, the inventory worker can handle. -/
theorem Sound.handleCreated (h : world.Sound initial) (hrested : world.Rested w)
    (hstock : ∀ row ∈ initial, row.availableQuantity < 2 ^ 31)
    (hpublished : ∀ row ∈ world.db.orderOutbox, row.publishedOnUtc ≠ none) :
    saga.CanReach (Alone w) (fun t => t.Rested w ∧
      ∀ event ∈ world.db.books.created, t.db.books.Handled event.messageId) world := by
  have hall := TSys.CanReach.forall_mem (M := saga) (A := Alone w)
    (I := fun t => Handling w initial world t ∧ (t.created.consumers w).phase = .polling)
    (G := fun (event : OrderCreatedEvent) t =>
      t.Sound initial ∧ t.db.books.Handled event.messageId)
    (s := world) world.db.books.created ?_ ?_ ⟨⟨h, hrested.othersCreated, rfl, rfl, rfl⟩,
      hrested.consumesCreated⟩
  · refine hall.mono ?_
    rintro t ⟨hhandled, ht, hpolling⟩
    refine ⟨⟨?_, hpolling, ht.others, ?_, ?_, ?_⟩, fun event hevent => (hhandled event hevent).2⟩
    · rw [ht.publishers]
      exact hrested.publishesCreated
    · rw [ht.results]
      exact hrested.publishesResults
    · rw [ht.results]
      exact hrested.consumesResults
    · rw [ht.results]
      exact hrested.othersResults
  · rintro event s action t halone ⟨hs, hhandled⟩ hstep
    obtain ⟨ht, hahead⟩ := hs.ahead halone hstep
    exact ⟨ht, hahead.handled _ hhandled⟩
  · rintro event hevent s ⟨hs, hpolling⟩
    obtain ⟨row, hrow, rfl⟩ := List.mem_map.mp hevent
    obtain ⟨p, offset, hat⟩ := hs.sound.created.kept _
      (hs.sound.created.published row (hs.outbox ▸ hrow) (hpublished row hrow))
    refine ((reads_created hstock).upto hs hpolling hat.lt_length).mono ?_
    rintro t ⟨ht, hpolling', hlog, k, hk, hposition⟩
    have hat' : t.created.topic.At p offset (some row.payload) := by
      unfold Topic.At
      rw [hlog]
      exact hat
    exact ⟨⟨ht.sound, done_of_position ht.sound.created hpolling' hposition hat' hk⟩, ht,
      hpolling'⟩

/-! ### The results -/

/-- What the orders worker leaves as it was at `start` while it consumes. -/
structure Applying (w : Nat) (initial : List StockRow) (start world : World) : Prop where
  sound : world.Sound initial
  others : ∀ v, v ≠ w → world.results.consumers v = .start
  created : world.created = start.created
  publishers : world.results.publishers = start.results.publishers
  outbox : world.db.inventoryOutbox = start.db.inventoryOutbox

/-- A result that was received can be applied, and is then ready to be committed. -/
theorem Applying.apply (h : Applying w initial start world)
    (hstock : ∀ row ∈ initial, row.availableQuantity < 2 ^ 31) {p offset : Nat}
    {event : InventoryResultEvent}
    (hphase : (world.results.consumers w).phase = .received p offset (some event)) :
    saga.CanReach (Alone w) (fun t => Applying w initial start t ∧
      (t.results.consumers w).phase = .handled p offset none ∧
      (t.results.consumers w).positions = (world.results.consumers w).positions ∧
      t.results.topic.log = world.results.topic.log) world := by
  have hevent : event ∈ world.db.books.results := h.sound.results.genuine event
    ⟨p, offset, ((h.sound.results.settled w).received p offset _ hphase).1⟩
  obtain ⟨applied, db, happly⟩ := (h.sound.ready hstock).apply_succeeds hevent 0
  have houtbox : db.inventoryOutbox = world.db.inventoryOutbox := by
    obtain ⟨-, ⟨-, rfl, -⟩ | ⟨-, -, -, -, hresults, -⟩⟩ :=
      h.sound.consistent.apply hevent happly
    · rfl
    · exact hresults
  have hstep : world.step (.applyInventoryResult w 0) = some { world with
      db := db
      results := world.results.setPhase w (.handled p offset none) } := by
    simp only [step, hphase, happly]
  exact .one (.apply 0) hstep ⟨⟨(h.sound.step hstep).1, fun v hv =>
    (Lane.setConsumer_of_ne _ _ hv).trans (h.others v hv), h.created, h.publishers,
    houtbox.trans h.outbox⟩, by simp [Lane.setPhase], by simp [Lane.setPhase], rfl⟩

/-- The orders worker can apply whatever it takes from the topic. -/
theorem reads_results (hstock : ∀ row ∈ initial, row.availableQuantity < 2 ^ 31) :
    Reads saga (Alone w) (Applying w initial start) (fun world => world.results.topic)
      (fun world => world.results.consumers w) where
  consume world action consumer topic h hconsumer hown := by
    have hstep : world.step (.results (.consume w action)) = some { world with
        results := { world.results with topic := topic }.setConsumer w consumer } := by
      simp only [step, Lane.step, hconsumer]
    exact .one (.consumeResults action fun p hassign => free_of_others h.others (hown p hassign))
      hstep ⟨⟨(h.sound.step hstep).1, fun v hv => (Lane.setConsumer_of_ne _ _ hv).trans
        (h.others v hv), h.created, h.publishers, h.outbox⟩, Lane.setConsumer_self .., rfl⟩
  handle world p offset entry h hphase := by
    cases entry with
    | some event => exact h.apply hstock hphase
    | none =>
        have hstep : world.step (.results (.skip w)) = some { world with
            results := world.results.setPhase w (.handled p offset none) } := by
          simp only [step, Lane.step, hphase]
        exact .one .skipResults hstep ⟨⟨(h.sound.step hstep).1, fun v hv =>
          (Lane.setConsumer_of_ne _ _ hv).trans (h.others v hv), h.created, h.publishers, h.outbox⟩,
            by simp [Lane.setPhase], by simp [Lane.setPhase], rfl⟩

/-- What is published of the results, the orders worker can apply. -/
theorem Sound.applyResults (h : world.Sound initial) (hrested : world.Rested w)
    (hstock : ∀ row ∈ initial, row.availableQuantity < 2 ^ 31)
    (hpublished : ∀ row ∈ world.db.inventoryOutbox, row.publishedOnUtc ≠ none) :
    saga.CanReach (Alone w) (fun t => t.db.books.results = world.db.books.results ∧
      ∀ result ∈ world.db.books.results, t.db.books.Applied result.messageId) world := by
  have hall := TSys.CanReach.forall_mem (M := saga) (A := Alone w)
    (I := fun t => Applying w initial world t ∧ (t.results.consumers w).phase = .polling)
    (G := fun (result : InventoryResultEvent) t =>
      t.Sound initial ∧ t.db.books.Applied result.messageId)
    (s := world) world.db.books.results ?_ ?_ ⟨⟨h, hrested.othersResults, rfl, rfl, rfl⟩,
      hrested.consumesResults⟩
  · refine hall.mono ?_
    rintro t ⟨happlied, ht, -⟩
    exact ⟨congrArg (List.map OutboxRow.payload) ht.outbox,
      fun result hresult => (happlied result hresult).2⟩
  · rintro result s action t halone ⟨hs, happlied⟩ hstep
    obtain ⟨ht, hahead⟩ := hs.ahead halone hstep
    exact ⟨ht, hahead.applied _ happlied⟩
  · rintro result hresult s ⟨hs, hpolling⟩
    obtain ⟨row, hrow, rfl⟩ := List.mem_map.mp hresult
    obtain ⟨p, offset, hat⟩ := hs.sound.results.kept _
      (hs.sound.results.published row (hs.outbox ▸ hrow) (hpublished row hrow))
    refine ((reads_results hstock).upto hs hpolling hat.lt_length).mono ?_
    rintro t ⟨ht, hpolling', hlog, k, hk, hposition⟩
    have hat' : t.results.topic.At p offset (some row.payload) := by
      unfold Topic.At
      rw [hlog]
      exact hat
    exact ⟨⟨ht.sound, done_of_position ht.sound.results hpolling' hposition hat' hk⟩, ht,
      hpolling'⟩

/-! ## All together -/

/-- An order whose event was handled, and whose result was applied, is decided. -/
theorem Sound.decided (h : world.Sound initial)
    (hhandled : ∀ event ∈ world.db.books.created, world.db.books.Handled event.messageId)
    (happlied : ∀ result ∈ world.db.books.results, world.db.books.Applied result.messageId)
    {order : OrderRow} (horder : order ∈ world.db.orders) :
    order.status = OrderStatus.confirmed.code ∨ order.status = OrderStatus.rejected.code := by
  obtain ⟨event, hevent, hmatches⟩ := h.consistent.placed.order_created order horder
  have hanswered := (h.consistent.resolved.handled_iff event hevent).mp (hhandled event hevent)
  obtain ⟨result, hresult, hid⟩ := List.mem_map.mp hanswered
  rw [(h.consistent.settled.settled order horder result hresult (hid.trans hmatches.id.symm)
    (happlied result hresult)).1]
  cases result.success with
  | true => exact .inl rfl
  | false => exact .inr rfl

/-- Workers that are at the top of their loops can decide every order. -/
theorem Sound.decides (h : world.Sound initial) (hrested : world.Rested w)
    (hstock : ∀ row ∈ initial, row.availableQuantity < 2 ^ 31) :
    saga.CanReach (Alone w) (fun t => t.Sound initial ∧ world.db.books.Ahead t.db.books ∧
      ∀ order ∈ t.db.orders,
        order.status = OrderStatus.confirmed.code ∨ order.status = OrderStatus.rejected.code)
      world := by
  refine (h.canReach hrested.publishCreated).trans ?_
  rintro t₁ ⟨⟨hrested₁, hpublished⟩, h₁, hahead₁⟩
  refine (h₁.canReach (h₁.handleCreated hrested₁ hstock hpublished)).trans ?_
  rintro t₂ ⟨⟨hrested₂, hhandled₂⟩, h₂, hahead₂⟩
  refine (h₂.canReach hrested₂.publishResults).trans ?_
  rintro t₃ ⟨⟨hrested₃, hpublished₃⟩, h₃, hahead₃⟩
  refine (h₃.canReach (h₃.applyResults hrested₃ hstock hpublished₃)).mono ?_
  rintro t₄ ⟨⟨hresults, happlied⟩, h₄, hahead₄⟩
  have hlater : t₁.db.books.Ahead t₄.db.books := hahead₂.trans (hahead₃.trans hahead₄)
  refine ⟨h₄, hahead₁.trans hlater, fun order horder => h₄.decided ?_ ?_ horder⟩
  · intro event hevent
    rw [hlater.created] at hevent
    exact (hahead₃.trans hahead₄).handled _ (hhandled₂ event hevent)
  · intro result hresult
    exact happlied result (hresults ▸ hresult)

/-! ## Outages -/

/-- The workers `v` are not running. -/
structure Down (v : Nat) (world : World) : Prop where
  publishesCreated : world.created.publishers v = .idle
  consumesCreated : world.created.consumers v = .start
  publishesResults : world.results.publishers v = .idle
  consumesResults : world.results.consumers v = .start

/-- The worker that a step is of. -/
def worker : Action → Option Nat
  | .created action | .results action => Lane.worker action
  | .handleOrderCreated w _ _ _ | .refresh w _ | .applyInventoryResult w _
  | .crashOrdersWorker w | .crashInventoryWorker w => some w
  | _ => none

variable {v : Nat}

theorem Down.crashOrders (h : Down v world) (w : Nat) : Down v (world.crashOrders w) := by
  by_cases hv : v = w
  · subst hv
    exact ⟨world.created.setPublisher_self v .idle, h.consumesCreated, h.publishesResults,
      world.results.setConsumer_self v .start⟩
  · exact ⟨(world.created.setPublisher_of_ne _ hv).trans h.publishesCreated, h.consumesCreated,
      h.publishesResults, (world.results.setConsumer_of_ne _ hv).trans h.consumesResults⟩

theorem Down.crashInventory (h : Down v world) (w : Nat) : Down v (world.crashInventory w) := by
  by_cases hv : v = w
  · subst hv
    exact ⟨h.publishesCreated, world.created.setConsumer_self v .start,
      world.results.setPublisher_self v .idle, h.consumesResults⟩
  · exact ⟨h.publishesCreated, (world.created.setConsumer_of_ne _ hv).trans h.consumesCreated,
      (world.results.setPublisher_of_ne _ hv).trans h.publishesResults, h.consumesResults⟩

/-- Workers that are not running are not started by the steps of others. -/
theorem Down.step {action : Action} (h : Down v world) (hother : worker action ≠ some v)
    (hstep : world.step action = some world') : Down v world' := by
  have hconsumer : ∀ {ε ω : Type} {lane : Lane ε ω} {u : Nat} (phase : Consumer.Phase _ ω),
      some u ≠ some v → lane.consumers v = .start →
      (lane.setPhase u phase).consumers v = .start :=
    fun phase hu hv => (Lane.setConsumer_of_ne _ _ fun heq => hu (congrArg some heq.symm)).trans hv
  cases step_cases hstep with
  | ticked | refused | placed | redeliveryFailed | redelivered | resultRedeliveryFailed
  | resultRedelivered | cacheWritten =>
      exact ⟨h.publishesCreated, h.consumesCreated, h.publishesResults, h.consumesResults⟩
  | created moved =>
      obtain ⟨hpublisher, hconsumer⟩ := Lane.step_others moved hother
      exact ⟨hpublisher.trans h.publishesCreated, hconsumer.trans h.consumesCreated,
        h.publishesResults, h.consumesResults⟩
  | results moved =>
      obtain ⟨hpublisher, hconsumer⟩ := Lane.step_others moved hother
      exact ⟨h.publishesCreated, h.consumesCreated, hpublisher.trans h.publishesResults,
        hconsumer.trans h.consumesResults⟩
  | handled | stockLoaded | stockCached =>
      exact ⟨h.publishesCreated, hconsumer _ hother h.consumesCreated, h.publishesResults,
        h.consumesResults⟩
  | applied =>
      exact ⟨h.publishesCreated, h.consumesCreated, h.publishesResults,
        hconsumer _ hother h.consumesResults⟩
  | handleFailed | crashedInventory => exact h.crashInventory _
  | applyFailed | crashedOrders => exact h.crashOrders _

/-- Only so many workers have been started. -/
theorem Init.bounded {s₀ s : World} {ts : List (Transition World Action)} (hinit : s₀.Init)
    (hrun : saga.Run s₀ ts s) : ∃ n, ∀ v, n ≤ v → Down v s := by
  induction hrun with
  | refl =>
      refine ⟨0, fun v _ => ⟨?_, ?_, ?_, ?_⟩⟩
      · rw [hinit.created]; rfl
      · rw [hinit.created]; rfl
      · rw [hinit.results]; rfl
      · rw [hinit.results]; rfl
  | @step ts s action t _ hstep ih =>
      obtain ⟨n, hdown⟩ := ih
      cases hworker : worker action with
      | none => exact ⟨n, fun v hv => (hdown v hv).step (by simp [hworker]) hstep⟩
      | some w =>
          refine ⟨max n (w + 1), fun v hv => (hdown v (by omega)).step ?_ hstep⟩
          rw [hworker]
          intro hsame
          obtain rfl := Option.some.inj hsame
          omega

/-- A step that stops a worker. -/
def Stops (_ : World) (action : Action) : Prop :=
  ∃ w, action = .crashOrdersWorker w ∨ action = .crashInventoryWorker w

/-- **All workers can be stopped** at any point of a run, and nothing else changes. -/
theorem Init.outage {s₀ s : World} {ts : List (Transition World Action)} (hinit : s₀.Init)
    (hrun : saga.Run s₀ ts s) :
    saga.CanReach Stops (fun t => (∀ v, Down v t) ∧ t.db = s.db) s := by
  obtain ⟨n, hdown⟩ := hinit.bounded hrun
  clear hrun
  induction n generalizing s with
  | zero => exact .here ⟨fun v => hdown v (Nat.zero_le v), rfl⟩
  | succ n ih =>
      refine .step ⟨n, .inl rfl⟩ (t := s.crashOrders n) rfl ?_
      refine .step ⟨n, .inr rfl⟩ (t := (s.crashOrders n).crashInventory n) rfl (ih ?_)
      intro v hv
      by_cases hlast : v = n
      · subst hlast
        exact ⟨s.created.setPublisher_self v .idle, Lane.setConsumer_self ..,
          Lane.setPublisher_self .., s.results.setConsumer_self v .start⟩
      · exact ((hdown v (by omega)).crashOrders n).crashInventory n

/-- **One worker of each kind decides every order.** From any state that a run has led to,
when no worker is running: worker `w` of each kind, once started, can bring the saga by its own
steps to a state with the same orders, where each of them is confirmed or rejected. -/
theorem restart_decides_orders {s₀ s : World} {ts : List (Transition World Action)}
    (hinit : s₀.Init) (hstock : ∀ row ∈ s₀.db.stocks, row.availableQuantity < 2 ^ 31)
    (hrun : saga.Run s₀ ts s) (houtage : ∀ v, Down v s) (w : Nat) :
    saga.CanReach (Alone w) (fun t => t.db.orders.map (·.id) = s.db.orders.map (·.id) ∧
      ∀ order ∈ t.db.orders,
        order.status = OrderStatus.confirmed.code ∨ order.status = OrderStatus.rejected.code)
      s := by
  have hrested : s.Rested w := {
    publishesCreated := (houtage w).publishesCreated
    consumesCreated := congrArg Consumer.phase (houtage w).consumesCreated
    othersCreated := fun v _ => (houtage v).consumesCreated
    publishesResults := (houtage w).publishesResults
    consumesResults := congrArg Consumer.phase (houtage w).consumesResults
    othersResults := fun v _ => (houtage v).consumesResults }
  refine ((Init.run hinit hrun).1.decides hrested hstock).mono ?_
  rintro t ⟨-, hahead, hdecided⟩
  exact ⟨hahead.orders, hdecided⟩

/-- The inventory worker has handled an order, and all workers are stopped before it can commit
or publish: worker 1 of each kind finishes the order. -/
theorem restart_decides_orders_outage : ∃ s, saga.Reachable s ∧
    (∃ order ∈ s.db.orders, order.status = OrderStatus.pending.code) ∧
    saga.CanReach (Alone 1) (fun t => t.db.orders.map (·.id) = s.db.orders.map (·.id) ∧
      ∀ order ∈ t.db.orders,
        order.status = OrderStatus.confirmed.code ∨ order.status = OrderStatus.rejected.code)
      s := by
  have hpending : (saga.exec [] oneSku (oneOrder.take 7)).any
      (fun r => OrderStatus.pending.code ∈ r.2.db.orders.map (·.status)) = true := by decide
  obtain ⟨ts, s, hrun, hstatus⟩ := TSys.exists_run hpending
  obtain ⟨order, horder, hcode⟩ := List.mem_map.mp (of_decide_eq_true hstatus)
  obtain ⟨us, t, hstops, -, houtage, hdb⟩ := Init.outage oneSku_init hrun
  exact ⟨t, ⟨oneSku, ts ++ us, oneSku_init, hrun.append hstops⟩,
    ⟨order, hdb ▸ horder, hcode⟩,
    restart_decides_orders oneSku_init (by decide) (hrun.append hstops) houtage 1⟩

end World

end Axes.Orders
