import Axes.Orders.Sound

/-!
# Stock is conserved

The stock of a sku is what it was at the start less the units its successful results
took. A result is written by the first handling of its order's message to commit, and
says whether the stock sufficed then.
-/

namespace Axes.Orders

open Axes.Lib Axes.Lib.Table

namespace World

/-- The step that commits the first handling of an event. -/
structure FirstHandling (tr : Transition World Action) (event : OrderCreatedEvent) : Prop where
  delivered : tr.pre.delivered tr.action = some event
  before : ¬∃ row ∈ tr.pre.db.inventoryInbox, row.messageId = event.messageId
  after : ∃ row ∈ tr.post.db.inventoryInbox, row.messageId = event.messageId

/-- A result says how the first handling of its event went. -/
structure TellsHandling (tr : Transition World Action) (event : OrderCreatedEvent)
    (result : InventoryResultEvent) : Prop where
  answers : Books.Answers result event
  first : FirstHandling tr event
  success : result.success = true ↔ Sufficient event.sku event.quantity tr.pre.db.stocks
  failure : result.success = false → tr.post.db.stocks = tr.pre.db.stocks

/-- A step adds only results that tell how it handled their events. -/
theorem results_step (tr : Transition World Action)
    (hmoves : tr.pre.db.books.Moves (tr.pre.delivered tr.action) tr.post.db.books) :
    ∀ result ∈ tr.post.db.books.results, result ∈ tr.pre.db.books.results ∨
      ∃ event, TellsHandling tr event result := by
  intro result hresult
  generalize hbefore : tr.pre.db.books = before at hmoves
  generalize hafter : tr.post.db.books = after at hmoves hresult
  cases hmoves with
  | same => exact .inl hresult
  | place => exact .inl hresult
  | settle => exact .inl hresult
  | @resolve utcNow event new inbox stocks handed created unhandled answers inboxed outcome =>
      rcases List.mem_append.mp hresult with hold | hnew
      · exact .inl hold
      · obtain rfl := List.mem_singleton.mp hnew
        have hinbox_before : tr.pre.db.inventoryInbox = before.handled := hbefore ▸ rfl
        have hinbox_after : tr.post.db.inventoryInbox = before.handled ++ [inbox] :=
          congrArg Books.handled hafter
        have hstocks_before : tr.pre.db.stocks = before.stocks := hbefore ▸ rfl
        have hstocks_after : tr.post.db.stocks = stocks := congrArg Books.stocks hafter
        refine .inr ⟨event, answers, ⟨handed, hinbox_before ▸ unhandled, ?_⟩, ?_, ?_⟩
        · rw [hinbox_after]
          exact ⟨inbox, List.mem_append_right _ List.mem_cons_self, inboxed⟩
        · rw [hstocks_before]
          rcases outcome with ⟨hsuccess, hsufficient, -⟩ | ⟨hfailed, hinsufficient, -⟩
          · exact ⟨fun _ => hsufficient, fun _ => hsuccess⟩
          · exact ⟨fun hsuccess => by simp [hfailed] at hsuccess,
              fun hsufficient => absurd hsufficient hinsufficient⟩
        · intro hfailed
          rw [hstocks_before, hstocks_after]
          rcases outcome with ⟨hsuccess, -, -⟩ | ⟨-, -, hstocks⟩
          · simp [hfailed] at hsuccess
          · exact hstocks

variable {s₀ s : World} {ts : List (Transition World Action)}

/-- Every result tells how a step of the run handled its event. -/
theorem results_run (hinit : s₀.Init) (hrun : saga.Run s₀ ts s) :
    ∀ result ∈ s.db.books.results, ∃ tr ∈ ts, ∃ event, TellsHandling tr event result := by
  induction hrun with
  | refl => simp [Database.books, hinit.inventoryOutbox]
  | @step ts s action t hrun hstep ih =>
      intro result hresult
      have hsound := (hinit.run hrun).1
      rcases results_step ⟨s, action, t⟩ (hsound.step hstep).2 result hresult with
        hold | ⟨event, htells⟩
      · obtain ⟨tr, htr, htells⟩ := ih result hold
        exact ⟨tr, List.mem_append_left _ htr, htells⟩
      · exact ⟨_, List.mem_append_right _ List.mem_cons_self, event, htells⟩

/-- **Stock is conserved and never oversold.** In every run: no stock row is added or
lost, none is negative, and what each has lost is the sum of the successful results of
its sku. Each order has at most one result, and one iff its message is in the inventory
inbox. The result says success iff the stock sufficed when the first handling of the
message committed; a failure left the stock as it was. -/
theorem stock_conserved (hinit : s₀.Init) (hrun : saga.Run s₀ ts s) :
    s.db.stocks.map (·.sku) = s₀.db.stocks.map (·.sku) ∧
    (∀ row ∈ s.db.stocks, 0 ≤ row.availableQuantity ∧
      ∀ row₀ ∈ s₀.db.stocks, row₀.sku = row.sku →
        row₀.availableQuantity = row.availableQuantity +
          Books.reservedQuantity (s.db.inventoryOutbox.map (·.payload)) row.sku) ∧
    (∀ created ∈ s.db.orderOutbox,
      s.db.inventoryOutbox.countP (fun result =>
        decide (result.payload.orderId = created.payload.orderId)) =
          if ∃ row ∈ s.db.inventoryInbox, row.messageId = created.payload.messageId
          then 1 else 0) ∧
    ∀ result ∈ s.db.inventoryOutbox, ∃ tr ∈ ts, ∃ event,
      TellsHandling tr event result.payload := by
  have hsound := (hinit.run hrun).1
  refine ⟨hsound.stocked.skus, fun row hrow => ⟨hsound.stocked.nonneg row hrow, ?_⟩, ?_, ?_⟩
  · exact hsound.stocked.conserved row hrow
  · intro created hcreated
    have hevent : created.payload ∈ s.db.books.created := List.mem_map_of_mem hcreated
    have hiff := hsound.consistent.resolved.handled_iff created.payload hevent
    have hunique : (s.db.inventoryOutbox.map (·.payload.orderId)).Nodup := by
      have horders := hsound.consistent.resolved.result_orders
      simpa [Database.books, Function.comp_def] using horders
    have hle : rowsAffected (fun result : OutboxRow InventoryResultEvent =>
        decide (result.payload.orderId = created.payload.orderId)) s.db.inventoryOutbox ≤ 1 :=
      rowsAffected_le_one hunique fun _ _ hselected => of_decide_eq_true hselected
    unfold rowsAffected at hle
    split
    · next hhandled =>
        obtain ⟨result, hresult, hid⟩ := List.mem_map.mp (hiff.mp hhandled)
        obtain ⟨row, hrow, rfl⟩ := List.mem_map.mp hresult
        exact Nat.le_antisymm hle (List.countP_pos_iff.mpr ⟨row, hrow, decide_eq_true hid⟩)
    · next hunhandled =>
        refine List.countP_eq_zero.mpr fun row hrow hid => hunhandled (hiff.mpr ?_)
        exact List.mem_map.mpr
          ⟨row.payload, List.mem_map_of_mem hrow, of_decide_eq_true hid⟩
  · intro result hresult
    exact results_run hinit hrun result.payload (List.mem_map_of_mem hresult)

/-- Two of five units are taken: three are left. -/
theorem stock_conserved_one_order : ∃ ts s, saga.Run oneSku ts s ∧
    s.db.stocks.map (·.availableQuantity) = [3] ∧
    ∀ row ∈ s.db.stocks, ∀ row₀ ∈ oneSku.db.stocks, row₀.sku = row.sku →
      row₀.availableQuantity = row.availableQuantity +
        Books.reservedQuantity (s.db.inventoryOutbox.map (·.payload)) row.sku := by
  have hthree : (saga.exec [] oneSku oneOrder).any (fun r =>
      r.2.db.stocks.map (·.availableQuantity) = [3]) = true := by decide
  obtain ⟨ts, s, hrun, hleft⟩ := TSys.exists_run hthree
  exact ⟨ts, s, hrun, of_decide_eq_true hleft,
    fun row hrow => ((stock_conserved oneSku_init hrun).2.1 row hrow).2⟩

end World

end Axes.Orders
