import Axes.Orders.Sound

/-!
# Orders and inventory agree

What the history of a run says about an order: its status changes at most once, and
the units that were taken for it are those of its result. Both histories are read off
the transitions; `statusChanges_run` and `debits_run` determine them from the records
of the last state.
-/

namespace Axes.Orders

open Axes.Lib Axes.Lib.Table

/-- The status column of an order. -/
def Books.statusOf (b : Books) (orderId : Uuid) : Option Int :=
  (b.orders.find? fun row => decide (row.id = orderId)).map (·.status)

namespace World

/-- The change a step makes to the status of an order. -/
def statusChange (orderId : Uuid) (tr : Transition World Action) : Option (Int × Int) :=
  match tr.pre.db.books.statusOf orderId, tr.post.db.books.statusOf orderId with
  | some before, some after => if before = after then none else some (before, after)
  | _, _ => none

/-- The changes of an order's status over a run, oldest first. -/
def statusChanges (orderId : Uuid) (ts : List (Transition World Action)) : List (Int × Int) :=
  ts.filterMap (statusChange orderId)

/-- The skus whose stock a step changed, each with the units it took. -/
def taken : List StockRow → List StockRow → List (String × Int)
  | row :: stocks, row' :: stocks' =>
      if row.availableQuantity = row'.availableQuantity then taken stocks stocks'
      else (row.sku, row.availableQuantity - row'.availableQuantity) :: taken stocks stocks'
  | _, _ => []

/-- The units a step took, with the order whose message it handled. -/
def debitsOf (tr : Transition World Action) : List (Option Uuid × String × Int) :=
  (taken tr.pre.db.stocks tr.post.db.stocks).map fun unit =>
    ((tr.pre.delivered tr.action).map (·.orderId), unit)

/-- Every debit of a run, oldest first. -/
def debits (ts : List (Transition World Action)) : List (Option Uuid × String × Int) :=
  ts.flatMap debitsOf

/-! ## One step -/

theorem taken_self (stocks : List StockRow) : taken stocks stocks = [] := by
  induction stocks with
  | nil => rfl
  | cons row stocks ih => rw [taken, if_pos rfl, ih]

/-- A debit takes its units of its sku, and nothing else. -/
theorem taken_debited {stocks : List StockRow} (hunique : (stocks.map (·.sku)).Nodup)
    {utcNow : DateTime} {sku : String} {quantity : Int} (hquantity : 0 < quantity)
    (hsufficient : Sufficient sku quantity stocks) :
    taken stocks (debited utcNow sku quantity stocks) = [(sku, quantity)] := by
  have htaken : taken stocks (debited utcNow sku quantity stocks) =
      (stocks.filter fun row => decide (row.sku = sku)).map fun _ => (sku, quantity) := by
    clear hunique hsufficient
    unfold debited updateWhere
    induction stocks with
    | nil => rfl
    | cons row stocks ih =>
        rw [List.map_cons, taken, ih]
        by_cases hsku : row.sku = sku
        · have hchanged : row.availableQuantity ≠ row.availableQuantity - quantity := by omega
          simp [hsku, hchanged]
        · simp [hsku]
  obtain ⟨row, hrow, rfl, -⟩ := hsufficient
  rw [htaken, filter_of_unique hunique hrow]
  rfl

variable {initial : List StockRow}

/-- The units a step takes are those of the successful results it adds. -/
theorem debitsOf_step (tr : Transition World Action) (hpre : tr.pre.Sound initial)
    (hmoves : tr.pre.db.books.Moves (tr.pre.delivered tr.action) tr.post.db.books) :
    ∃ added, tr.post.db.books.results = tr.pre.db.books.results ++ added ∧
      debitsOf tr = (added.filter (·.success)).map fun result =>
        (some result.orderId, result.sku, result.quantity) := by
  have hstocks : ∀ {b b' : Books}, b.stocks = b'.stocks → taken b.stocks b'.stocks = [] :=
    fun h => h ▸ taken_self _
  unfold debitsOf
  generalize hbefore : tr.pre.db.books = before at hmoves
  generalize hafter : tr.post.db.books = after at hmoves
  have hstock_before : tr.pre.db.stocks = before.stocks := hbefore ▸ rfl
  have hstock_after : tr.post.db.stocks = after.stocks := hafter ▸ rfl
  rw [hstock_before, hstock_after]
  cases hmoves with
  | same => exact ⟨[], by simp, by rw [taken_self]; rfl⟩
  | place => exact ⟨[], by simp [Books.place], by rw [Books.place, taken_self]; rfl⟩
  | settle => exact ⟨[], by simp [Books.settle], by rw [Books.settle, taken_self]; rfl⟩
  | @resolve utcNow event result inbox stocks handed created unhandled answers inboxed outcome =>
      refine ⟨[result], rfl, ?_⟩
      rcases outcome with ⟨hsuccess, hsufficient, rfl⟩ | ⟨hfailed, -, rfl⟩
      · have hquantity := hpre.consistent.placed.positive event (hbefore ▸ created)
        have hskus : (before.stocks.map (·.sku)).Nodup := hbefore ▸ hpre.stock_skus
        rw [Books.resolve, taken_debited hskus hquantity hsufficient, handed]
        simp [hsuccess, answers.id, answers.sku, answers.quantity]
      · rw [Books.resolve, taken_self]
        -- Nothing was taken, and the result is no success.
        simp [hfailed]

/-- The history a status tells: an order that is not pending was pending before. -/
def historyOf : Option Int → List (Int × Int)
  | none => []
  | some status =>
      if status = OrderStatus.pending.code then [] else [(OrderStatus.pending.code, status)]

/-- An order whose result is applied now was pending. -/
theorem pending_before {b : Books} {issued : List Uuid} (h : b.Consistent issued)
    {result : InventoryResultEvent} (hresult : result ∈ b.results)
    (hunapplied : ¬b.Applied result.messageId) {row : OrderRow} (hrow : row ∈ b.orders)
    (hid : row.id = result.orderId) : row.status = OrderStatus.pending.code := by
  refine h.settled.pending row hrow ?_
  intro other hother hother_id happlied
  obtain rfl := h.result_unique hother hresult (hother_id.trans hid)
  exact hunapplied happlied

theorem applied_ne_pending (success : Bool) (reason : Option String) :
    (applyInventoryResult success reason).status.code ≠ OrderStatus.pending.code := by
  cases success <;> simp [applyInventoryResult, OrderStatus.code]

/-- A step adds to the history of an order what its new status tells. -/
theorem statusChange_step (tr : Transition World Action) (hpre : tr.pre.Sound initial)
    (hmoves : tr.pre.db.books.Moves (tr.pre.delivered tr.action) tr.post.db.books)
    (orderId : Uuid) :
    historyOf (tr.pre.db.books.statusOf orderId) ++ (statusChange orderId tr).toList =
      historyOf (tr.post.db.books.statusOf orderId) := by
  have hconsistent := hpre.consistent
  unfold statusChange
  generalize tr.pre.db.books = before at hmoves hconsistent
  generalize tr.post.db.books = after at hmoves
  -- Most moves leave the status of the order alone, and add nothing to its history.
  have hsame : ∀ {after : Books}, after.statusOf orderId = before.statusOf orderId →
      historyOf (before.statusOf orderId) ++
        (match before.statusOf orderId, after.statusOf orderId with
          | some before, some after => if before = after then none else some (before, after)
          | _, _ => none).toList = historyOf (after.statusOf orderId) := by
    intro after hafter
    rw [hafter]
    cases before.statusOf orderId <;> simp
  cases hmoves with
  | same => exact hsame rfl
  | resolve => exact hsame rfl
  | @place payload utcNow newId messageId new =>
      unfold Books.statusOf Books.place
      rw [List.find?_append]
      cases hfind : before.orders.find? fun row => decide (row.id = orderId) with
      | some row => simp
      | none =>
          by_cases hnew : newId = orderId
          · simp [CreateOrderRequest.row, hnew, historyOf]
          · simp [CreateOrderRequest.row, hnew, historyOf]
  | @settle result inbox utcNow known unapplied inboxed =>
      have hfind_after : (before.settle utcNow inbox result).statusOf orderId =
          (before.orders.find? fun row => decide (row.id = orderId)).map fun row =>
            (if decide (row.id = result.orderId) = true then
              Books.settleRow utcNow result row else row).status := by
        have hselect : (before.settle utcNow inbox result).orders.find?
            (fun row => decide (row.id = orderId)) =
            (before.orders.find? fun row => decide (row.id = orderId)).map fun row =>
              if decide (row.id = result.orderId) = true then
                Books.settleRow utcNow result row else row :=
          find?_updateWhere (f := Books.settleRow utcNow result) (fun _ => rfl) orderId
        rw [Books.statusOf, hselect, Option.map_map]
        rfl
      cases hfind : before.orders.find? fun row => decide (row.id = orderId) with
      | none => exact hsame (by rw [hfind_after, Books.statusOf, hfind]; rfl)
      | some row =>
          by_cases hid : row.id = result.orderId
          -- Its own result, so it was pending until now.
          · have hrow := List.mem_of_find?_eq_some hfind
            have hpending := pending_before hconsistent known unapplied hrow hid
            have happlied := applied_ne_pending result.success result.reason
            rw [hfind_after, Books.statusOf, hfind]
            simp [hid, hpending, historyOf, Books.settleRow, happlied, happlied.symm]
          · refine hsame ?_
            rw [hfind_after, Books.statusOf, hfind]
            simp [hid]

/-! ## Whole runs -/

variable {s₀ s : World} {ts : List (Transition World Action)}

/-- **The status of an order tells its history.** -/
theorem statusChanges_run (hinit : s₀.Init) (hrun : saga.Run s₀ ts s) (orderId : Uuid) :
    statusChanges orderId ts = historyOf (s.db.books.statusOf orderId) := by
  induction hrun with
  | refl =>
      have hnone : s₀.db.books.statusOf orderId = none := by
        simp [Books.statusOf, Database.books, hinit.orders]
      rw [hnone]
      rfl
  | @step ts s action t hrun hstep ih =>
      have hsound := (hinit.run hrun).1
      -- The last step adds to both sides what `statusChange_step` says.
      have hlast : statusChanges orderId [⟨s, action, t⟩] =
          (statusChange orderId ⟨s, action, t⟩).toList := by
        unfold statusChanges
        cases h : statusChange orderId ⟨s, action, t⟩ <;> simp [h]
      unfold statusChanges at ih hlast ⊢
      rw [List.filterMap_append, ih, hlast]
      exact statusChange_step ⟨s, action, t⟩ hsound (hsound.step hstep).2 orderId

/-- **The successful results are the debits.** -/
theorem debits_run (hinit : s₀.Init) (hrun : saga.Run s₀ ts s) :
    debits ts = (s.db.books.results.filter (·.success)).map fun result =>
      (some result.orderId, result.sku, result.quantity) := by
  induction hrun with
  | refl => simp [debits, Database.books, hinit.inventoryOutbox]
  | @step ts s action t hrun hstep ih =>
      have hsound := (hinit.run hrun).1
      obtain ⟨added, hresults, hdebits⟩ :=
        debitsOf_step ⟨s, action, t⟩ hsound (hsound.step hstep).2
      unfold debits at ih ⊢
      dsimp only at hresults
      rw [List.flatMap_append, ih, hresults, List.filter_append, List.map_append,
        List.flatMap_cons, List.flatMap_nil, List.append_nil, hdebits]

/-- A step keeps the orders there are. -/
theorem order_kept {tr : Transition World Action}
    (hmoves : tr.pre.db.books.Moves (tr.pre.delivered tr.action) tr.post.db.books)
    {order : OrderRow} (horder : order ∈ tr.pre.db.orders) :
    ∃ order' ∈ tr.post.db.orders, order'.id = order.id ∧ order'.sku = order.sku ∧
      order'.quantity = order.quantity := by
  have hbefore : order ∈ tr.pre.db.books.orders := horder
  have hafter : ∀ order', order' ∈ tr.post.db.books.orders → order' ∈ tr.post.db.orders :=
    fun _ => id
  suffices h : ∃ order' ∈ tr.post.db.books.orders, order'.id = order.id ∧
      order'.sku = order.sku ∧ order'.quantity = order.quantity by
    obtain ⟨order', horder', hsame⟩ := h
    exact ⟨order', hafter order' horder', hsame⟩
  generalize tr.pre.db.books = before at hmoves hbefore
  generalize tr.post.db.books = after at hmoves
  cases hmoves with
  | same => exact ⟨order, hbefore, rfl, rfl, rfl⟩
  | place => exact ⟨order, List.mem_append_left _ hbefore, rfl, rfl, rfl⟩
  | resolve => exact ⟨order, hbefore, rfl, rfl, rfl⟩
  | @settle result inbox utcNow =>
      refine ⟨_, mem_updateWhere.mpr ⟨order, hbefore, rfl⟩, ?_⟩
      split <;> exact ⟨rfl, rfl, rfl⟩

/-- The result an order's status comes from. -/
theorem Sound.status_cases {initial : List StockRow} {world : World}
    (h : world.Sound initial) {order : OrderRow} (horder : order ∈ world.db.orders) :
    order.status = OrderStatus.pending.code ∨
    ∃ result ∈ world.db.books.results, result.orderId = order.id ∧
      result.sku = order.sku ∧ result.quantity = order.quantity ∧
      order.status = (applyInventoryResult result.success result.reason).status.code ∧
      order.failureReason =
        (applyInventoryResult result.success result.reason).failureReason := by
  by_cases hnone : ∀ result ∈ world.db.books.results, result.orderId = order.id →
      ¬world.db.books.Applied result.messageId
  · exact .inl (h.consistent.settled.pending order horder hnone)
  · push Not at hnone
    obtain ⟨result, hresult, hid, happlied⟩ := hnone
    obtain ⟨event, hevent, hanswers⟩ := h.consistent.resolved.result_created result hresult
    obtain ⟨row, hrow, hmatches⟩ := h.consistent.placed.created_order event hevent
    have hrow_order : row = order := List.inj_on_of_nodup_map h.consistent.placed.order_ids hrow
      horder (hmatches.id.trans (hanswers.id.symm.trans hid))
    subst hrow_order
    exact .inr ⟨result, hresult, hid, hanswers.sku.trans hmatches.sku.symm,
      hanswers.quantity.trans hmatches.quantity.symm,
      h.consistent.settled.settled row horder result hresult hid happlied⟩

/-- The debits of the order of a result are those of the result. -/
theorem debits_of_result (hinit : s₀.Init) (hrun : saga.Run s₀ ts s)
    {result : InventoryResultEvent} (hresult : result ∈ s.db.books.results) :
    (debits ts).filter (fun debit => decide (debit.1 = some result.orderId)) =
      if result.success then [(some result.orderId, result.sku, result.quantity)] else [] := by
  have hunique := (hinit.run hrun).1.consistent.resolved.result_orders
  have hselect : ((fun debit : Option Uuid × String × Int =>
      decide (debit.1 = some result.orderId)) ∘ fun other : InventoryResultEvent =>
        (some other.orderId, other.sku, other.quantity)) =
      fun other => decide (other.orderId = result.orderId) := by
    funext other
    simp
  have hswap : (s.db.books.results.filter (·.success)).filter
      (fun other => decide (other.orderId = result.orderId)) =
      (s.db.books.results.filter fun other =>
        decide (other.orderId = result.orderId)).filter (·.success) := by
    rw [List.filter_filter, List.filter_filter]
    exact List.filter_congr fun _ _ => Bool.and_comm _ _
  rw [debits_run hinit hrun, List.filter_map, hselect, hswap,
    filter_of_unique hunique hresult]
  cases hsuccess : result.success <;> simp [hsuccess]

/-- **Orders and inventory agree, and finally so.** In every run, for every order:
its row is never lost and keeps its sku and quantity; its status changes at most once,
and then from `Pending` to `Confirmed` or `Rejected`; if it is confirmed, exactly one
debit was committed for it, of its quantity of its sku; if it is rejected, none was,
and the reason is insufficient stock; and every debit is of some order. -/
theorem orders_agree (hinit : s₀.Init) (hrun : saga.Run s₀ ts s) :
    (∀ tr ∈ ts, ∀ order ∈ tr.pre.db.orders, ∃ order' ∈ tr.post.db.orders,
      order'.id = order.id ∧ order'.sku = order.sku ∧ order'.quantity = order.quantity) ∧
    (∀ order ∈ s.db.orders,
      ((statusChanges order.id ts = [] ∧ order.status = OrderStatus.pending.code) ∨
        ∃ status, (status = OrderStatus.confirmed ∨ status = OrderStatus.rejected) ∧
          statusChanges order.id ts = [(OrderStatus.pending.code, status.code)] ∧
          order.status = status.code) ∧
      (order.status = OrderStatus.confirmed.code →
        (debits ts).filter (fun debit => decide (debit.1 = some order.id)) =
          [(some order.id, order.sku, order.quantity)]) ∧
      (order.status = OrderStatus.rejected.code →
        (debits ts).filter (fun debit => decide (debit.1 = some order.id)) = [] ∧
          order.failureReason = some "insufficient_stock")) ∧
    ∀ debit ∈ debits ts, ∃ order ∈ s.db.orders,
      debit = (some order.id, order.sku, order.quantity) := by
  obtain ⟨hsound, hsteps⟩ := hinit.run hrun
  have hconsistent := hsound.consistent
  refine ⟨fun tr htr order horder => order_kept (hsteps tr htr).2.2 horder, ?_, ?_⟩
  · intro order horder
    have hstatus : s.db.books.statusOf order.id = some order.status := by
      have hfind : s.db.books.orders.find? (fun row => decide (row.id = order.id)) =
          some order := find?_of_unique hconsistent.placed.order_ids horder
      rw [Books.statusOf, hfind]
      rfl
    have hhistory := statusChanges_run hinit hrun order.id
    rw [hstatus] at hhistory
    rcases hsound.status_cases horder with hpending |
      ⟨result, hresult, hid, hsku, hquantity, hcode, hreason⟩
    · refine ⟨.inl ⟨?_, hpending⟩, ?_, ?_⟩
      · simpa [historyOf, hpending] using hhistory
      · simp [hpending, OrderStatus.code]
      · simp [hpending, OrderStatus.code]
    · have hdebits := debits_of_result hinit hrun hresult
      have hreasons := hconsistent.resolved.reasons result hresult
      rw [hid, hsku, hquantity] at hdebits
      cases hsuccess : result.success with
      | true =>
          rw [hsuccess] at hcode hreason hdebits
          have hcode : order.status = OrderStatus.confirmed.code := hcode
          refine ⟨.inr ⟨.confirmed, .inl rfl, ?_, hcode⟩, fun _ => hdebits, ?_⟩
          · simpa [historyOf, hcode, OrderStatus.code] using hhistory
          · simp [hcode, OrderStatus.code]
      | false =>
          rw [hsuccess] at hcode hreason hdebits hreasons
          have hcode : order.status = OrderStatus.rejected.code := hcode
          refine ⟨.inr ⟨.rejected, .inr rfl, ?_, hcode⟩, ?_, fun _ => ⟨hdebits, ?_⟩⟩
          · simpa [historyOf, hcode, OrderStatus.code] using hhistory
          · simp [hcode, OrderStatus.code]
          · simpa [applyInventoryResult, hreasons] using hreason
  · intro debit hdebit
    rw [debits_run hinit hrun] at hdebit
    obtain ⟨result, hresult, rfl⟩ := List.mem_map.mp hdebit
    obtain ⟨event, hevent, hanswers⟩ :=
      hconsistent.resolved.result_created result (List.mem_of_mem_filter hresult)
    obtain ⟨order, horder, hmatches⟩ := hconsistent.placed.created_order event hevent
    refine ⟨order, horder, ?_⟩
    rw [hmatches.id, hmatches.sku, hmatches.quantity, hanswers.id, hanswers.sku,
      hanswers.quantity]

/-- One order, confirmed: its two units were taken once. -/
theorem orders_agree_confirmed : ∃ ts s, saga.Run oneSku ts s ∧ ∃ order ∈ s.db.orders,
    order.status = OrderStatus.confirmed.code ∧
    (debits ts).filter (fun debit => decide (debit.1 = some order.id)) =
      [(some order.id, order.sku, order.quantity)] := by
  have hconfirmed : (saga.exec [] oneSku oneOrder).any (fun r =>
      OrderStatus.confirmed.code ∈ r.2.db.orders.map (·.status)) = true := by decide
  obtain ⟨ts, s, hrun, hstatus⟩ := TSys.exists_run hconfirmed
  obtain ⟨order, horder, hcode⟩ := List.mem_map.mp (of_decide_eq_true hstatus)
  exact ⟨ts, s, hrun, order, horder, hcode,
    ((orders_agree oneSku_init hrun).2.1 order horder).2.1 hcode⟩

end World

end Axes.Orders
