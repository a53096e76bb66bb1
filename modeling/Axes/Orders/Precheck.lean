import Axes.Orders.StockWorkers

/-!
# The precheck turns nothing away

A cached stock may be old, but stock only goes down: what a worker has loaded and what is
cached is at least what there is (`Bounded`), whatever is in flight, failed or crashed. So
an order the precheck rejects is one that the stock does not suffice for, then and later.
-/

namespace Axes.Orders.StockWorld

open Axes.Lib Axes.Lib.Redis

/-- No more than `quantity` is left of the sku. -/
def AtMost (world : StockWorld) (sku : String) (quantity : Int) : Prop :=
  ∀ available, world.stock sku = some available → available ≤ quantity

/-- What is cached or about to be bounds the stock. -/
structure Bounded (world : StockWorld) : Prop where
  skus : (world.db.stocks.map (·.sku)).Nodup
  cached : ∀ sku value, world.cache (redisStockKey sku) = some value →
    ∃ quantity : Int, value = .string quantity.repr ∧ world.AtMost sku quantity
  loaded : ∀ w sku quantity, world.workers w = some (.store sku (some quantity)) →
    world.AtMost sku quantity

variable {world world' : StockWorld} {action : StockAction} {sku : String} {quantity : Int}

theorem AtMost.step (h : world.AtMost sku quantity) (hskus : (world.db.stocks.map (·.sku)).Nodup)
    (hstep : world.step action = some world') : world'.AtMost sku quantity := by
  intro available hafter
  obtain ⟨before, hbefore, hle⟩ := stock_step hskus hstep hafter
  have hbound := h before hbefore
  omega

theorem Init.bounded (h : world.Init) : world.Bounded := by
  refine ⟨h.skus, ?_, ?_⟩
  · intro sku value hvalue
    rw [h.empty] at hvalue
    cases hvalue
  · intro w sku quantity hwork
    rw [h.idle] at hwork
    cases hwork

theorem Bounded.step (h : world.Bounded) (hstep : world.step action = some world') :
    world'.Bounded := by
  have hskus := h.skus
  have hbound : ∀ {sku quantity}, world.AtMost sku quantity → world'.AtMost sku quantity :=
    fun hatMost => hatMost.step hskus hstep
  refine ⟨skus_step hskus hstep, ?_, ?_⟩
  · -- what is in the cache was there, or has been loaded
    intro sku value hvalue
    cases step_cases hstep with
    | failed _ _ | handled _ _ _ | loaded _ | crashed | committed _ =>
        obtain ⟨quantity, hstring, hatMost⟩ := h.cached sku value hvalue
        exact ⟨quantity, hstring, hbound hatMost⟩
    | @stored w succeeds other loaded hwork =>
        have hvalue : (if succeeds then (exec (refreshRedisStock other loaded) world.cache).2
            else world.cache) (redisStockKey sku) = some value := hvalue
        by_cases hwritten : succeeds = true ∧ sku = other
        · obtain ⟨rfl, rfl⟩ := hwritten
          rw [if_pos rfl, refreshRedisStock_self] at hvalue
          obtain ⟨quantity, rfl, rfl⟩ := Option.map_eq_some_iff.mp hvalue
          exact ⟨quantity, rfl, hbound (h.loaded w sku quantity hwork)⟩
        · have hkept : world.cache (redisStockKey sku) = some value := by
            rw [← hvalue]
            split
            · next hsucceeds =>
                exact (refreshRedisStock_of_ne (fun hsku => hwritten ⟨hsucceeds, hsku⟩) _ _).symm
            · rfl
          obtain ⟨quantity, hstring, hatMost⟩ := h.cached sku value hkept
          exact ⟨quantity, hstring, hbound hatMost⟩
  · -- what a worker holds it held before, or has read just now
    intro w sku quantity hwork
    rcases store_step hstep hwork with hheld | hread
    · exact hbound (h.loaded w sku quantity hheld)
    · refine hbound ?_
      intro available hstock
      rw [hread] at hstock
      obtain rfl := Option.some.inj hstock
      exact le_refl _

theorem bounded_run {start : StockWorld} {ts : List (Transition StockWorld StockAction)}
    (h : start.Bounded) (hrun : system.Run start ts world) : world.Bounded := by
  induction hrun with
  | refl => exact h
  | step _ hstep ih => exact ih.step hstep

theorem AtMost.run {later : StockWorld} {ts : List (Transition StockWorld StockAction)}
    (h : world.AtMost sku quantity) (hskus : (world.db.stocks.map (·.sku)).Nodup)
    (hrun : system.Run world ts later) :
    (later.db.stocks.map (·.sku)).Nodup ∧ later.AtMost sku quantity := by
  induction hrun with
  | refl => exact ⟨hskus, h⟩
  | step _ hstep ih => exact ⟨skus_step ih.1 hstep, ih.2.step ih.1 hstep⟩

/-- `redis_precheck`, on a connection. -/
def redisPrecheck (world : StockWorld) (sku : String) : RedisPrecheckOutcome :=
  redisPrecheckOutcome (exec (redisPrecheckGet sku) world.cache).1

/-- What the precheck reads is what is cached. -/
theorem redisPrecheck_known (h : world.Bounded) {available : Int}
    (hknown : world.redisPrecheck sku = .known available) : world.AtMost sku available := by
  cases hcache : world.cache (redisStockKey sku) with
  | none =>
      unfold redisPrecheck redisPrecheckGet at hknown
      rw [exec_bind, exec_get_none hcache] at hknown
      cases hknown
  | some value =>
      obtain ⟨quantity, rfl, hatMost⟩ := h.cached sku value hcache
      unfold redisPrecheck redisPrecheckGet at hknown
      rw [exec_bind, exec_get_string hcache] at hknown
      dsimp only at hknown
      rw [Text.parseInt_repr, Option.bind_some] at hknown
      unfold int4 at hknown
      split at hknown
      · next hsome =>
          split at hsome
          · obtain rfl := Option.some.inj hsome
            cases hknown
            exact hatMost
          · cases hsome
      · cases hknown

/-- **The precheck turns away no order the database would accept.** In every reachable
state a cached stock is at least what there is, and an order that is rejected fails when it
is handled, at that moment or later. -/
theorem precheck_turns_nothing_away {start : StockWorld}
    {ts : List (Transition StockWorld StockAction)} (hinit : start.Init)
    (hrun : system.Run start ts world) (sku : String) :
    (∀ value, world.cache (redisStockKey sku) = some value →
      ∃ quantity : Int, value = .string quantity.repr ∧
        ∀ available, loadInventoryStockQuantity sku world.db = some available →
          available ≤ quantity) ∧
    ∀ (quantity : Int) (status : Nat) (reason : String),
      decideOrderCreation (world.redisPrecheck sku) quantity = .reject status reason →
      ∀ later ts', system.Run world ts' later →
      ∀ (utcNow : DateTime) (messageId : Uuid) (outboxId : Int) (event : OrderCreatedEvent),
        event.sku = sku → event.quantity = quantity →
        (∀ row ∈ later.db.inventoryInbox, row.consumer = inventoryWorkerConsumer →
          row.messageId ≠ event.messageId) →
        outboxId ∉ later.db.inventoryOutbox.map (·.id) →
        ∃ db row, handleOrderCreatedMessage utcNow messageId outboxId event later.db =
            .ok (some sku, db) ∧
          db.inventoryOutbox = later.db.inventoryOutbox ++ [row] ∧
          row.payload.orderId = event.orderId ∧ row.payload.success = false := by
  have hbounded := bounded_run hinit.bounded hrun
  refine ⟨hbounded.cached sku, ?_⟩
  intro quantity status reason hreject later ts' hlater utcNow messageId outboxId event hsku
    hquantity hnew hfresh
  subst hsku hquantity
  -- The precheck knew of fewer units than the order asks for.
  obtain ⟨available, hknown, hlt⟩ : ∃ available,
      world.redisPrecheck event.sku = .known available ∧ available < event.quantity := by
    unfold decideOrderCreation at hreject
    split at hreject
    · next available hknown =>
        split at hreject
        · next hlt => exact ⟨available, hknown, hlt⟩
        · cases hreject
    · cases hreject
    · cases hreject
  obtain ⟨hskus, hatMost⟩ :=
    (redisPrecheck_known hbounded hknown).run hbounded.skus hlater
  have hshort : ¬Sufficient event.sku event.quantity later.db.stocks := by
    intro henough
    obtain ⟨left, hleft, hle⟩ := (sufficient_iff hskus).mp henough
    have hbound := hatMost left hleft
    omega
  obtain ⟨outcome, db, hhandle, houtbox, hfailed⟩ :=
    handleOrderCreatedMessage_short hnew hfresh hshort
  exact ⟨db, _, hhandle, houtbox, rfl, hfailed⟩

/-- Three units of `"a"`; worker 0 takes two and caches what is left, then worker 1 takes
the last. -/
def threeUnits : StockWorld where
  db := ⟨[], [], [], [⟨"a", 3, 0⟩], [], []⟩
  cache := fun _ => none
  workers := fun _ => none

def order (orderId messageId : Nat) (quantity : Int) : OrderCreatedEvent :=
  CreateOrderRequest.event ⟨"a", quantity⟩ 0 ⟨orderId⟩ ⟨messageId⟩

def cachedOne : List StockAction :=
  [.handleOrderCreated 0 1 ⟨10⟩ 0 (order 1 2 2), .refresh 0 true, .refresh 0 true]

theorem init_threeUnits : threeUnits.Init where
  skus := by decide
  idle _ := rfl
  empty _ := rfl

theorem precheck_turns_nothing_away_cachedOne : ∃ world ts later ts',
    system.Run threeUnits ts world ∧ system.Run world ts' later ∧
      ∃ db row, handleOrderCreatedMessage 3 ⟨30⟩ 2 (order 5 6 2) later.db = .ok (some "a", db) ∧
        db.inventoryOutbox = later.db.inventoryOutbox ++ [row] ∧ row.payload.success = false := by
  have hcached : (system.exec [] threeUnits cachedOne).any (fun r =>
      (decideOrderCreation (r.2.redisPrecheck "a") 2 = .reject 409 "insufficient_stock" ∧
        (system.exec [] r.2 [.handleOrderCreated 1 2 ⟨20⟩ 1 (order 3 4 1)]).any (fun later =>
          (∀ row ∈ later.2.db.inventoryInbox, row.consumer = inventoryWorkerConsumer →
            row.messageId ≠ ⟨6⟩) ∧
          2 ∉ later.2.db.inventoryOutbox.map (·.id)) = true)) = true := by
    decide
  obtain ⟨ts, world, hrun, hcached⟩ := TSys.exists_run hcached
  obtain ⟨hreject, hlater⟩ := of_decide_eq_true hcached
  obtain ⟨ts', later, hrun', hlater⟩ := TSys.exists_run hlater
  obtain ⟨hnew, hfresh⟩ := of_decide_eq_true hlater
  obtain ⟨db, row, hhandle, houtbox, -, hfailed⟩ :=
    (precheck_turns_nothing_away init_threeUnits hrun "a").2 2 _ _ hreject later ts' hrun' 3 ⟨30⟩
      2 (order 5 6 2) rfl rfl hnew hfresh
  exact ⟨world, ts, later, ts', hrun, hrun', db, row, hhandle, houtbox, hfailed⟩

end Axes.Orders.StockWorld
