import Axes.Orders.StockWorkers

/-!
# The stock cache at rest

Workers that refresh one sku at a time can write what they have read in another order than
they read it, and then the cache is left with a stock that is gone. It is not when such a
write is caught: another worker has still to read the stock, or to write what it is now
(`Fresh`).
-/

namespace Axes.Orders

open Axes.Lib Axes.Lib.Redis Axes.Lib.Table

deriving instance DecidableEq for Refresh

def Refresh.sku : Refresh → String
  | .load sku | .store sku _ => sku

/-- Nothing crashes or fails. -/
def StockAction.Undisturbed : StockAction → Prop
  | .handleOrderCreated .. | .transaction _ => True
  | .refresh _ succeeds => succeeds = true
  | .crash _ => False

instance (action : StockAction) : Decidable action.Undisturbed := by
  cases action <;> unfold StockAction.Undisturbed <;> infer_instance

/-- The worker that takes a step. -/
def StockAction.worker : StockAction → Option Nat
  | .handleOrderCreated w _ _ _ _ | .refresh w _ | .crash w => some w
  | .transaction _ => none

namespace StockWorld

/-- The sku `handle_order_created_message` answers with. -/
def answered (tr : Transition StockWorld StockAction) : Option String :=
  match tr.action with
  | .handleOrderCreated _ utcNow messageId outboxId event =>
      match handleOrderCreatedMessage utcNow messageId outboxId event tr.pre.db with
      | .error _ => none
      | .ok (refresh, _) => refresh
  | .refresh _ _ | .crash _ | .transaction _ => none

def handledSkus (ts : List (Transition StockWorld StockAction)) : List String :=
  ts.filterMap answered

/-- No worker is between its commit and the end of its refresh. -/
def AtRest (world : StockWorld) : Prop := ∀ w, world.workers w = none

/-- The cache holds the stock of a sku. -/
def Coherent (world : StockWorld) (sku : String) : Prop :=
  world.cache (redisStockKey sku) = cached (world.stock sku)

/-- The worker has still to read the stock of a sku, or to write what it is now. -/
def Refreshes (world : StockWorld) (w : Nat) (sku : String) : Prop :=
  world.workers w = some (.load sku) ∨ world.workers w = some (.store sku (world.stock sku))

instance (world : StockWorld) (w : Nat) (sku : String) : Decidable (world.Refreshes w sku) :=
  inferInstanceAs (Decidable (_ ∨ _))

/-- The worker and the sku of a write of a stock that is gone. -/
def staleWrite (tr : Transition StockWorld StockAction) : Option (Nat × String) :=
  match tr.action with
  | .refresh w _ =>
      match tr.pre.workers w with
      | some (.store sku quantity) =>
          if quantity = tr.pre.stock sku then none else some (w, sku)
      | _ => none
  | .handleOrderCreated .. | .crash _ | .transaction _ => none

/-- A stale write is made only while another worker refreshes the sku. -/
def Caught (tr : Transition StockWorld StockAction) : Prop :=
  ∀ w sku, staleWrite tr = some (w, sku) → ∃ other, other ≠ w ∧ tr.pre.Refreshes other sku

/-- The cache holds the stock, or a worker will see to it. -/
def Fresh (world : StockWorld) (sku : String) : Prop :=
  world.Coherent sku ∨ ∃ w, world.Refreshes w sku

variable {world world' start : StockWorld} {action : StockAction} {sku : String} {w : Nat}
  {ts : List (Transition StockWorld StockAction)}

/-! ## What a step leaves -/

theorem Refreshes.keep (h : world.Refreshes w sku) (hwork : world'.workers w = world.workers w)
    (hstock : world'.stock sku = world.stock sku) : world'.Refreshes w sku := by
  unfold Refreshes
  rw [hwork, hstock]
  exact h

theorem coherent_congr (hcache : world'.cache = world.cache)
    (hstock : world'.stock sku = world.stock sku) : world'.Coherent sku ↔ world.Coherent sku := by
  unfold Coherent
  rw [hcache, hstock]

theorem Fresh.keep (h : world.Fresh sku) (hcache : world'.cache = world.cache)
    (hstock : world'.stock sku = world.stock sku)
    (hwork : ∀ w, world.Refreshes w sku → world'.workers w = world.workers w) :
    world'.Fresh sku := by
  rcases h with hcoherent | ⟨w, hrefreshes⟩
  · exact .inl ((coherent_congr hcache hstock).mpr hcoherent)
  · exact .inr ⟨w, hrefreshes.keep (hwork w hrefreshes) hstock⟩

theorem Refreshes.sku_eq (h : world.Refreshes w sku) :
    (world.workers w).map Refresh.sku = some sku := by
  rcases h with hload | hstore
  · rw [hload]
    rfl
  · rw [hstore]
    rfl

/-- The work of a worker refreshes no other sku. -/
theorem Refreshes.ne {other : Nat} {work : Option Refresh} (h : world.Refreshes other sku)
    (hwork : world.workers w = work) (hsku : work.map Refresh.sku ≠ some sku) : other ≠ w := by
  rintro rfl
  have heq := h.sku_eq
  rw [hwork] at heq
  exact hsku heq

/-- A handling changes the stock of no other sku. -/
theorem stock_of_ne (hskus : (world.db.stocks.map (·.sku)).Nodup) {utcNow : DateTime}
    {messageId : Uuid} {outboxId : Int} {event : OrderCreatedEvent} {refresh : Option String}
    {db : Database}
    (hhandle : handleOrderCreatedMessage utcNow messageId outboxId event world.db =
      .ok (refresh, db)) (hne : refresh ≠ some sku) :
    loadInventoryStockQuantity sku db = world.stock sku := by
  rcases handleOrderCreatedMessage_stocks hskus hhandle with
    ⟨-, hstocks⟩ | ⟨rfl, hstocks | hstocks⟩
  · exact loadInventoryStockQuantity_congr hstocks
  · exact loadInventoryStockQuantity_congr hstocks
  · have hother : sku ≠ event.sku := fun hsku => hne (congrArg some hsku.symm)
    rw [loadInventoryStockQuantity_debited hstocks]
    simp only [if_neg hother, Option.map_id']
    rfl

/-- **One step.** A caught step leaves a fresh sku fresh, and makes the one it handles so. -/
theorem Fresh.step (hskus : (world.db.stocks.map (·.sku)).Nodup)
    (hstep : world.step action = some world') (hundisturbed : action.Undisturbed)
    (hcaught : Caught ⟨world, action, world'⟩)
    (h : world.Fresh sku ∨ answered ⟨world, action, world'⟩ = some sku) : world'.Fresh sku := by
  cases step_cases hstep with
  | @failed w utcNow messageId outboxId event error _ hhandle =>
      rcases h with hfresh | hanswered
      · exact hfresh
      · simp only [answered, hhandle] at hanswered
        cases hanswered
  | @handled w utcNow messageId outboxId event refresh db hidle _ hhandle =>
      simp only [answered, hhandle] at h
      by_cases hsku : refresh = some sku
      · -- the worker has yet to read the stock
        subst hsku
        exact .inr ⟨w, .inl (setWork_self ..)⟩
      · have hfresh := h.resolve_right hsku
        refine hfresh.keep rfl (stock_of_ne hskus hhandle hsku) ?_
        intro other hrefreshes
        exact setWork_of_ne (hrefreshes.ne hidle (by simp)) _
  | @loaded w succeeds loadedSku hwork =>
      have hfresh := h.resolve_right (by simp [answered])
      obtain rfl : succeeds = true := hundisturbed
      by_cases hsku : loadedSku = sku
      · subst hsku
        exact .inr ⟨w, .inr (setWork_self ..)⟩
      · refine hfresh.keep rfl rfl ?_
        intro other hrefreshes
        exact setWork_of_ne (hrefreshes.ne hwork fun heq => hsku (Option.some.inj heq)) _
  | @stored w succeeds storedSku quantity hwork =>
      have hfresh := h.resolve_right (by simp [answered])
      obtain rfl : succeeds = true := hundisturbed
      by_cases hsku : storedSku = sku
      · subst hsku
        by_cases hcurrent : quantity = world.stock storedSku
        · refine .inl ?_
          show (exec (refreshRedisStock storedSku quantity) world.cache).2 _ = _
          rw [refreshRedisStock_self, hcurrent]
          rfl
        · -- the write is stale, and caught
          obtain ⟨other, hother, hrefreshes⟩ := hcaught w storedSku (by
            simp only [staleWrite, hwork, if_neg hcurrent])
          exact .inr ⟨other, hrefreshes.keep (setWork_of_ne hother _) rfl⟩
      · rcases hfresh with hcoherent | ⟨other, hrefreshes⟩
        · refine .inl ?_
          show (exec (refreshRedisStock storedSku quantity) world.cache).2 _ = _
          rw [refreshRedisStock_of_ne (Ne.symm hsku)]
          exact hcoherent
        · have hother := hrefreshes.ne hwork fun heq => hsku (Option.some.inj heq)
          exact .inr ⟨other, hrefreshes.keep (setWork_of_ne hother _) rfl⟩
  | crashed => exact absurd hundisturbed id
  | committed hstocks =>
      have hfresh := h.resolve_right (by simp [answered])
      exact hfresh.keep rfl (loadInventoryStockQuantity_congr hstocks) fun _ _ => rfl

/-! ## A write that is not caught -/

theorem cached_injective {quantity quantity' : Option Int}
    (h : cached quantity = cached quantity') : quantity = quantity' := by
  have hrepr : ∀ {q q' : Int}, Value.string q.repr = Value.string q'.repr → q = q' := by
    intro q q' hvalue
    have hparse := Text.parseInt_repr q
    rw [Value.string.inj hvalue, Text.parseInt_repr] at hparse
    exact (Option.some.inj hparse).symm
  exact Option.map_injective (fun _ _ hvalue => hrepr hvalue) h

/-- The cache is wrong about the sku, and no worker will see to it. -/
structure Stale (world : StockWorld) (sku : String) : Prop where
  wrong : ¬world.Coherent sku
  unseen : ∀ w, ¬world.Refreshes w sku

/-- The step of one worker, seen from a sku that is stale. -/
theorem Stale.keep (h : world.Stale sku)
    (hcoherent : world'.Coherent sku → world.Coherent sku)
    (hstock : world'.stock sku = world.stock sku)
    (hothers : ∀ other, other ≠ w → world'.workers other = world.workers other)
    (hwork : ¬world'.Refreshes w sku) : world'.Stale sku := by
  refine ⟨fun hafter => h.wrong (hcoherent hafter), ?_⟩
  intro other hrefreshes
  by_cases hother : other = w
  · subst hother
    exact hwork hrefreshes
  · exact h.unseen other (hrefreshes.keep (hothers other hother).symm hstock.symm)

/-- Only the next order of the sku helps. -/
theorem Stale.step (hskus : (world.db.stocks.map (·.sku)).Nodup)
    (hstep : world.step action = some world')
    (hnot : answered ⟨world, action, world'⟩ ≠ some sku) (h : world.Stale sku) :
    world'.Stale sku := by
  cases step_cases hstep with
  | failed _ _ => exact h
  | @handled w utcNow messageId outboxId event refresh db hidle _ hhandle =>
      simp only [answered, hhandle] at hnot
      have hstock : ({ world with db := db }.setWork w (refresh.map .load)).stock sku =
          world.stock sku := stock_of_ne hskus hhandle hnot
      have hcache : ({ world with db := db }.setWork w (refresh.map .load)).cache =
          world.cache := rfl
      refine h.keep (w := w) (coherent_congr hcache hstock).mp hstock
        (fun other hother => setWork_of_ne hother _) ?_
      intro hrefreshes
      have hsku := hrefreshes.sku_eq
      rw [setWork_self, Option.map_map] at hsku
      have hid : Refresh.sku ∘ Refresh.load = id := rfl
      rw [hid, Option.map_id] at hsku
      exact hnot hsku
  | @loaded w succeeds loadedSku hwork =>
      refine h.keep (w := w) id rfl (fun other hother => setWork_of_ne hother _) ?_
      intro hrefreshes
      have hsku := hrefreshes.sku_eq
      rw [setWork_self] at hsku
      split at hsku
      · obtain rfl := Option.some.inj hsku
        exact h.unseen w (.inl hwork)
      · cases hsku
  | @stored w succeeds storedSku quantity hwork =>
      refine h.keep (w := w) ?_ rfl (fun other hother => setWork_of_ne hother _) ?_
      · intro hcoherent
        have hcoherent : (if succeeds then (exec (refreshRedisStock storedSku quantity)
            world.cache).2 else world.cache) (redisStockKey sku) = cached (world.stock sku) :=
          hcoherent
        split at hcoherent
        · by_cases hsku : storedSku = sku
          · -- the write would have been of what the stock is
            subst hsku
            rw [refreshRedisStock_self] at hcoherent
            obtain rfl := cached_injective hcoherent
            exact absurd (.inr hwork) (h.unseen w)
          · rw [refreshRedisStock_of_ne (Ne.symm hsku)] at hcoherent
            exact hcoherent
        · exact hcoherent
      · intro hrefreshes
        have hsku := hrefreshes.sku_eq
        rw [setWork_self] at hsku
        cases hsku
  | @crashed w =>
      refine h.keep (w := w) id rfl (fun other hother => setWork_of_ne hother _) ?_
      intro hrefreshes
      have hsku := hrefreshes.sku_eq
      rw [setWork_self] at hsku
      cases hsku
  | @committed db hstocks =>
      have hstock : stock { world with db := db } sku = world.stock sku :=
        loadInventoryStockQuantity_congr hstocks
      have hcache : StockWorld.cache { world with db := db } = world.cache := rfl
      refine h.keep (w := 0) (coherent_congr hcache hstock).mp hstock (fun _ _ => rfl) ?_
      intro hrefreshes
      exact h.unseen 0 (hrefreshes.keep rfl hstock.symm)

theorem staleWrite_some {tr : Transition StockWorld StockAction}
    (h : staleWrite tr = some (w, sku)) : ∃ succeeds quantity, tr.action = .refresh w succeeds ∧
      tr.pre.workers w = some (.store sku quantity) ∧ quantity ≠ tr.pre.stock sku := by
  unfold staleWrite at h
  split at h
  · next writer succeeds haction =>
      split at h
      · next hwork =>
          split at h
          · cases h
          · next hgone =>
              cases h
              exact ⟨succeeds, _, haction, hwork, hgone⟩
      · cases h
  all_goals cases h

/-- A write that is stale and not caught leaves the sku stale. -/
theorem stale_of_not_caught {tr : Transition StockWorld StockAction}
    (hstep : tr.pre.step tr.action = some tr.post) (hundisturbed : tr.action.Undisturbed)
    (hstale : staleWrite tr = some (w, sku))
    (huncaught : ∀ other, other ≠ w → ¬tr.pre.Refreshes other sku) : tr.post.Stale sku := by
  obtain ⟨succeeds, quantity, haction, hwork, hgone⟩ := staleWrite_some hstale
  rw [haction] at hstep hundisturbed
  obtain rfl : succeeds = true := hundisturbed
  simp only [step, hwork, if_true] at hstep
  rw [← Option.some.inj hstep]
  constructor
  · intro hcoherent
    have hcoherent : (exec (refreshRedisStock sku quantity) tr.pre.cache).2
        (redisStockKey sku) = cached (tr.pre.stock sku) := hcoherent
    rw [refreshRedisStock_self] at hcoherent
    exact hgone (cached_injective hcoherent)
  · intro other hrefreshes
    by_cases hother : other = w
    · subst hother
      have hsku := hrefreshes.sku_eq
      rw [setWork_self] at hsku
      cases hsku
    · exact huncaught other hother (hrefreshes.keep (setWork_of_ne hother none).symm rfl)

/-! ## Runs -/

theorem skus_run (hskus : (start.db.stocks.map (·.sku)).Nodup)
    (hrun : system.Run start ts world) : (world.db.stocks.map (·.sku)).Nodup := by
  induction hrun with
  | refl => exact hskus
  | step _ hstep ih => exact skus_step ih hstep

theorem mem_handledSkus_concat {tr : Transition StockWorld StockAction} :
    sku ∈ handledSkus (ts ++ [tr]) ↔ sku ∈ handledSkus ts ∨ answered tr = some sku := by
  simp [handledSkus, List.filterMap_append]

theorem fresh_run (hskus : (start.db.stocks.map (·.sku)).Nodup)
    (hrun : system.Run start ts world) (hundisturbed : ∀ tr ∈ ts, tr.action.Undisturbed)
    (hcaught : ∀ tr ∈ ts, Caught tr) (hsku : sku ∈ handledSkus ts) : world.Fresh sku := by
  induction hrun with
  | refl => cases hsku
  | @step ts world action world' hrun hstep ih =>
      rw [forall_mem_insert] at hundisturbed hcaught
      rw [mem_handledSkus_concat] at hsku
      exact Fresh.step (skus_run hskus hrun) hstep hundisturbed.2 hcaught.2
        (hsku.imp_left (ih hundisturbed.1 hcaught.1))

theorem stale_run (hskus : (world.db.stocks.map (·.sku)).Nodup) (h : world.Stale sku)
    (hrun : system.Run world ts world') (hnot : sku ∉ handledSkus ts) : world'.Stale sku := by
  induction hrun with
  | refl => exact h
  | @step ts middle action later hrun hstep ih =>
      rw [mem_handledSkus_concat, not_or] at hnot
      exact (ih hnot.1).step (skus_run hskus hrun) hstep hnot.2

/-- A worker at work has handled an order of its sku. -/
theorem work_handled (hidle : start.AtRest) (hrun : system.Run start ts world)
    {work : Refresh} (hwork : world.workers w = some work) : work.sku ∈ handledSkus ts := by
  induction hrun generalizing w work with
  | refl =>
      rw [hidle w] at hwork
      cases hwork
  | @step ts world action world' hrun hstep ih =>
      rw [mem_handledSkus_concat]
      cases step_cases hstep with
      | failed _ _ | committed _ => exact .inl (ih hwork)
      | @handled other utcNow messageId outboxId event refresh db _ _ hhandle =>
          by_cases hw : w = other
          · subst hw
            rw [setWork_self] at hwork
            obtain ⟨sku, rfl, rfl⟩ := Option.map_eq_some_iff.mp hwork
            refine .inr ?_
            simp only [answered, hhandle]
            rfl
          · rw [setWork_of_ne hw] at hwork
            exact .inl (ih hwork)
      | @loaded other succeeds sku hload =>
          by_cases hw : w = other
          · subst hw
            rw [setWork_self] at hwork
            split at hwork
            · obtain rfl := Option.some.inj hwork
              have hsku : Refresh.sku (.load sku) ∈ handledSkus ts := ih hload
              exact .inl hsku
            · cases hwork
          · rw [setWork_of_ne hw] at hwork
            exact .inl (ih hwork)
      | @stored other _ _ _ _ | @crashed other =>
          by_cases hw : w = other
          · subst hw
            rw [setWork_self] at hwork
            cases hwork
          · rw [setWork_of_ne hw] at hwork
            exact .inl (ih hwork)

/-- **The cache is coherent at rest when every stale write is caught.** And one that is
not leaves a handled sku wrong until the next order of it is handled. -/
theorem coherent_at_rest (hskus : (start.db.stocks.map (·.sku)).Nodup) (hidle : start.AtRest)
    (hrun : system.Run start ts world) (hundisturbed : ∀ tr ∈ ts, tr.action.Undisturbed) :
    ((∀ tr ∈ ts, Caught tr) → world.AtRest → ∀ sku ∈ handledSkus ts, world.Coherent sku) ∧
    ∀ tr ∈ ts, ¬Caught tr → ∃ sku ∈ handledSkus ts, ∀ later ts',
      system.Run tr.post ts' later → sku ∉ handledSkus ts' → ¬later.Coherent sku := by
  constructor
  · intro hcaught hrest sku hsku
    rcases fresh_run hskus hrun hundisturbed hcaught hsku with hcoherent | ⟨w, hrefreshes⟩
    · exact hcoherent
    · have hwork := hrefreshes.sku_eq
      rw [hrest w] at hwork
      cases hwork
  · intro tr htr huncaught
    obtain ⟨before, after, rfl, hbefore, hstep⟩ := hrun.split htr
    obtain ⟨w, sku, hstale, hnone⟩ : ∃ w sku, staleWrite tr = some (w, sku) ∧
        ∀ other, other ≠ w → ¬tr.pre.Refreshes other sku := by
      unfold Caught at huncaught
      push Not at huncaught
      exact huncaught
    have hskus' := skus_run hskus hbefore
    have hwrong := stale_of_not_caught hstep (hundisturbed tr htr) hstale hnone
    refine ⟨sku, ?_, ?_⟩
    · obtain ⟨_, quantity, -, hwork, -⟩ := staleWrite_some hstale
      have hmem : Refresh.sku (.store sku quantity) ∈ handledSkus before :=
        work_handled hidle hbefore hwork
      rw [handledSkus, List.filterMap_append]
      exact List.mem_append_left _ hmem
    · intro later ts' hlater hnot
      exact (stale_run (skus_step hskus' hstep) hwrong hlater hnot).wrong

/-- A step changes the work of the worker that takes it. -/
theorem workers_run (hrun : system.Run start ts world)
    (hothers : ∀ tr ∈ ts, tr.action.worker ≠ some w) : world.workers w = start.workers w := by
  induction hrun with
  | refl => rfl
  | @step ts world action world' hrun hstep ih =>
      rw [forall_mem_insert] at hothers
      have hother : action.worker ≠ some w := hothers.2
      rw [← ih hothers.1]
      cases step_cases hstep with
      | failed _ _ | committed _ => rfl
      | handled _ _ _ | loaded _ | stored _ | crashed =>
          exact setWork_of_ne (fun hw => hother (congrArg some hw.symm)) _

/-- Three units of `"a"`, and two workers. -/
def threeOfA : StockWorld where
  db := ⟨[], [], [], [⟨"a", 3, 0⟩], [], []⟩
  cache := fun _ => none
  workers := fun _ => none

def orderOfA (orderId messageId : Nat) : OrderCreatedEvent :=
  CreateOrderRequest.event ⟨"a", 1⟩ 0 ⟨orderId⟩ ⟨messageId⟩

/-- Worker 0 reads the stock before worker 1 handles an order, and writes it after worker 1
has written what is left. -/
def lateWrite : List StockAction :=
  [.handleOrderCreated 0 1 ⟨10⟩ 0 (orderOfA 1 2), .refresh 0 true,
    .handleOrderCreated 1 2 ⟨20⟩ 1 (orderOfA 3 4), .refresh 1 true, .refresh 1 true,
    .refresh 0 true]

/-- The same, but worker 1 writes last. -/
def caughtWrite : List StockAction :=
  [.handleOrderCreated 0 1 ⟨10⟩ 0 (orderOfA 1 2), .refresh 0 true,
    .handleOrderCreated 1 2 ⟨20⟩ 1 (orderOfA 3 4), .refresh 0 true, .refresh 1 true,
    .refresh 1 true]

/-- Two workers that have finished. -/
theorem atRest_of_two (hrun : system.Run threeOfA ts world)
    (hworkers : ∀ tr ∈ ts, tr.action.worker = some 0 ∨ tr.action.worker = some 1)
    (hzero : world.workers 0 = none) (hone : world.workers 1 = none) : world.AtRest := by
  intro w
  by_cases hw : w = 0 ∨ w = 1
  · rcases hw with rfl | rfl
    · exact hzero
    · exact hone
  · rw [not_or] at hw
    refine (workers_run hrun ?_).trans rfl
    intro tr htr hworker
    rcases hworkers tr htr with h | h
    · exact hw.1 (Option.some.inj (hworker.symm.trans h))
    · exact hw.2 (Option.some.inj (hworker.symm.trans h))

/-- Not all runs leave the cache coherent. -/
theorem not_coherent_at_rest : ¬∀ (start world : StockWorld)
    (ts : List (Transition StockWorld StockAction)),
    (start.db.stocks.map (·.sku)).Nodup → start.AtRest → system.Run start ts world →
    (∀ tr ∈ ts, tr.action.Undisturbed) → world.AtRest →
    ∀ sku ∈ handledSkus ts, world.Coherent sku := by
  intro h
  have hbroken : (system.exec [] threeOfA lateWrite).any (fun r =>
      (∀ tr ∈ r.1, tr.action.Undisturbed) ∧
      (∀ tr ∈ r.1, tr.action.worker = some 0 ∨ tr.action.worker = some 1) ∧
      r.2.workers 0 = none ∧ r.2.workers 1 = none ∧ "a" ∈ handledSkus r.1 ∧
      r.2.cache (redisStockKey "a") = some (.string "2") ∧ r.2.stock "a" = some 1) = true := by
    decide
  obtain ⟨ts, world, hrun, hbroken⟩ := TSys.exists_run hbroken
  obtain ⟨hundisturbed, hworkers, hzero, hone, hhandled, hcache, hstock⟩ :=
    of_decide_eq_true hbroken
  have hcoherent := h threeOfA world ts (by decide) (fun _ => rfl) hrun hundisturbed
    (atRest_of_two hrun hworkers hzero hone) "a" hhandled
  unfold Coherent at hcoherent
  rw [hcache, hstock] at hcoherent
  exact absurd hcoherent (by decide)

theorem coherent_at_rest_caughtWrite : ∃ ts world, system.Run threeOfA ts world ∧
    (∃ tr ∈ ts, staleWrite tr ≠ none) ∧ world.AtRest ∧ world.Coherent "a" := by
  have hchecked : (system.exec [] threeOfA caughtWrite).any (fun r =>
      (∀ tr ∈ r.1, tr.action.Undisturbed) ∧
      (∀ tr ∈ r.1, tr.action.worker = some 0 ∨ tr.action.worker = some 1) ∧
      r.2.workers 0 = none ∧ r.2.workers 1 = none ∧ "a" ∈ handledSkus r.1 ∧
      (∃ tr ∈ r.1, staleWrite tr ≠ none) ∧
      ∀ tr ∈ r.1, ∀ write ∈ staleWrite tr, 1 ≠ write.1 ∧ tr.pre.Refreshes 1 write.2) = true := by
    decide
  obtain ⟨ts, world, hrun, hchecked⟩ := TSys.exists_run hchecked
  obtain ⟨hundisturbed, hworkers, hzero, hone, hhandled, hstale, hcaught⟩ :=
    of_decide_eq_true hchecked
  have hrest := atRest_of_two hrun hworkers hzero hone
  refine ⟨ts, world, hrun, hstale, hrest,
    (coherent_at_rest (by decide) (fun _ => rfl) hrun hundisturbed).1 ?_ hrest "a" hhandled⟩
  intro tr htr w sku hwrite
  exact ⟨1, hcaught tr htr (w, sku) hwrite⟩

end StockWorld

end Axes.Orders
