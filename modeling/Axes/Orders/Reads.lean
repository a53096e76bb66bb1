import Axes.Lib.Replication
import Axes.Orders.Agreement

/-!
# Reading an order (`handlers/orders`)

`POST /orders` writes through `write_pool`, `GET /orders/{id}` reads through `read_pool`, which
may be a replica behind the primary. What a client sees of an order goes one way all the same:
not found, then pending, then confirmed or rejected for good.
-/

namespace Axes.Orders

open Axes.Lib Axes.Lib.Table

/-! ## Responses -/

def OrderStatus.asStr : OrderStatus → String
  | pending => "Pending"
  | confirmed => "Confirmed"
  | rejected => "Rejected"

structure OrderStatusView where
  code : Int
  label : String
  deriving DecidableEq

structure OrderResponse where
  id : Uuid
  sku : String
  quantity : Int
  status : OrderStatusView
  failureReason : Option String
  createdAtUtc : String
  updatedAtUtc : String
  deriving DecidableEq

def OrderStatus.view (status : OrderStatus) : OrderStatusView :=
  { code := status.code, label := status.asStr }

/-- `to_order_response`; `toRfc3339` is `DateTime::to_rfc3339`. -/
def toOrderResponse (toRfc3339 : DateTime → String) (order : OrderRecord) : OrderResponse where
  id := order.id
  sku := order.sku
  quantity := order.quantity
  status := order.status.view
  failureReason := order.failureReason
  createdAtUtc := toRfc3339 order.createdAtUtc
  updatedAtUtc := toRfc3339 order.updatedAtUtc

/-- A request to `GET /orders/{id}`, and whether the read pool answers it. -/
structure DetailRequest where
  connected : Bool
  orderId : Uuid
  deriving DecidableEq

/-- `detail`: the body of a 200, or an error. -/
def detail (toRfc3339 : DateTime → String) (request : DetailRequest) (db : Database) :
    Except AppError OrderResponse :=
  if request.connected then
    match getOrderById request.orderId db with
    | .error _ => .error (.new "Internal server error" 500)
    | .ok none => .error (.new "Order not found" 404)
    | .ok (some order) => .ok (toOrderResponse toRfc3339 order)
  else .error (.new "Internal server error" 500)

/-- What a response says of a status: a reason comes with a rejection and nothing else. -/
def OrderResponse.Tells (response : OrderResponse) : Prop :=
  (response.status = OrderStatus.pending.view ∧ response.failureReason = none) ∨
  (response.status = OrderStatus.confirmed.view ∧ response.failureReason = none) ∨
  (response.status = OrderStatus.rejected.view ∧
    response.failureReason = some "insufficient_stock")

/-- What a later response may say: the same, or that a pending order is decided. -/
inductive OrderResponse.Later (response : OrderResponse) : OrderResponse → Prop
  | same : Later response response
  | decided {status : OrderStatus} {failureReason : Option String} {updatedAtUtc : String}
      (pending : response.status = OrderStatus.pending.view) (decided : status ≠ .pending) :
      Later response { response with
        status := status.view, failureReason := failureReason, updatedAtUtc := updatedAtUtc }

/-! ## Rows -/

/-- `SELECT … WHERE "Id" = $1`. -/
def Database.order (db : Database) (orderId : Uuid) : Option OrderRow :=
  db.orders.find? fun row => decide (row.id = orderId)

/-- What can become of a row: nothing, or it is decided. -/
inductive OrderRow.Later (row : OrderRow) : OrderRow → Prop
  | same : Later row row
  | decided {status : OrderStatus} {failureReason : Option String} {utcNow : DateTime}
      (pending : row.status = OrderStatus.pending.code) (decided : status ≠ .pending) :
      Later row { row with
        status := status.code, failureReason := failureReason, updatedAtUtc := utcNow }

/-- What a row tells, as `OrderResponse.Tells`. -/
def OrderRow.Tells (row : OrderRow) : Prop :=
  (row.status = OrderStatus.pending.code ∧ row.failureReason = none) ∨
  (row.status = OrderStatus.confirmed.code ∧ row.failureReason = none) ∨
  (row.status = OrderStatus.rejected.code ∧ row.failureReason = some "insufficient_stock")

theorem OrderRow.Later.trans {row row' row'' : OrderRow} (h : row.Later row')
    (h' : row'.Later row'') : row.Later row'' := by
  cases h with
  | same => exact h'
  | @decided status failureReason utcNow hpending hdecided =>
      cases h' with
      | same => exact .decided hpending hdecided
      | decided hagain _ =>
          -- a decided row is not pending
          cases status with
          | pending => exact absurd rfl hdecided
          | confirmed | rejected => cases hagain

namespace Database

/-- Every order is there still, and has moved on at most. -/
def Later (db db' : Database) : Prop :=
  ∀ orderId row, db.order orderId = some row →
    ∃ row', db'.order orderId = some row' ∧ row.Later row'

/-- Every row tells its status. -/
def Tells (db : Database) : Prop := ∀ row ∈ db.orders, row.Tells

variable {db db' db'' : Database}

theorem Later.refl (db : Database) : db.Later db := fun _ row hrow => ⟨row, hrow, .same⟩

theorem Later.trans (h : db.Later db') (h' : db'.Later db'') : db.Later db'' := by
  intro orderId row hrow
  obtain ⟨row', hrow', hlater⟩ := h orderId row hrow
  obtain ⟨row'', hrow'', hlater'⟩ := h' orderId row' hrow'
  exact ⟨row'', hrow'', hlater.trans hlater'⟩

theorem id_of_order {orderId : Uuid} {row : OrderRow} (h : db.order orderId = some row) :
    row.id = orderId :=
  of_decide_eq_true (List.find?_some (p := fun row : OrderRow => decide (row.id = orderId)) h)

theorem mem_of_order {orderId : Uuid} {row : OrderRow} (h : db.order orderId = some row) :
    row ∈ db.orders :=
  List.mem_of_find?_eq_some h

end Database

variable {toRfc3339 : DateTime → String} {orderId : Uuid} {db db' : Database} {row : OrderRow}

theorem detail_missing (h : db.order orderId = none) :
    detail toRfc3339 ⟨true, orderId⟩ db = .error (.new "Order not found" 404) := by
  unfold Database.order at h
  simp only [detail, getOrderById, h, if_true]

theorem detail_found {status : OrderStatus} (h : db.order orderId = some row)
    (hstatus : row.status = status.code) :
    detail toRfc3339 ⟨true, orderId⟩ db = .ok {
      id := row.id
      sku := row.sku
      quantity := row.quantity
      status := status.view
      failureReason := row.failureReason
      createdAtUtc := toRfc3339 row.createdAtUtc
      updatedAtUtc := toRfc3339 row.updatedAtUtc } := by
  unfold Database.order at h
  simp only [detail, getOrderById, h, if_true, mapOrderRow, hstatus, OrderStatus.tryFrom_code]
  rfl

/-- A row that tells its status reads back as a response that does. -/
theorem OrderRow.Tells.detail (h : row.Tells) (hrow : db.order orderId = some row) :
    ∃ response, detail toRfc3339 ⟨true, orderId⟩ db = .ok response ∧ response.Tells ∧
      response.id = orderId ∧ response.sku = row.sku ∧ response.quantity = row.quantity := by
  have hid := Database.id_of_order hrow
  rcases h with ⟨hstatus, hreason⟩ | ⟨hstatus, hreason⟩ | ⟨hstatus, hreason⟩
  · exact ⟨_, detail_found hrow hstatus, .inl ⟨rfl, hreason⟩, hid, rfl, rfl⟩
  · exact ⟨_, detail_found hrow hstatus, .inr (.inl ⟨rfl, hreason⟩), hid, rfl, rfl⟩
  · exact ⟨_, detail_found hrow hstatus, .inr (.inr ⟨rfl, hreason⟩), hid, rfl, rfl⟩

theorem OrderRow.Tells.status (h : row.Tells) :
    ∃ status : OrderStatus, row.status = status.code := by
  rcases h with ⟨hstatus, -⟩ | ⟨hstatus, -⟩ | ⟨hstatus, -⟩
  · exact ⟨_, hstatus⟩
  · exact ⟨_, hstatus⟩
  · exact ⟨_, hstatus⟩

/-- From a later database, a later response. -/
theorem Database.Later.detail (h : db.Later db') (htells : db.Tells) {response : OrderResponse}
    (hdetail : detail toRfc3339 ⟨true, orderId⟩ db = .ok response) :
    ∃ response', detail toRfc3339 ⟨true, orderId⟩ db' = .ok response' ∧
      response.Later response' := by
  cases hrow : db.order orderId with
  | none =>
      rw [detail_missing hrow] at hdetail
      cases hdetail
  | some row =>
      obtain ⟨row', hrow', hlater⟩ := h orderId row hrow
      obtain ⟨status, hstatus⟩ := (htells row (Database.mem_of_order hrow)).status
      rw [detail_found hrow hstatus] at hdetail
      cases hdetail
      cases hlater with
      | same => exact ⟨_, detail_found hrow' hstatus, .same⟩
      | @decided status' failureReason utcNow hpending hdecided =>
          have hstatus' : ({ row with
              status := status'.code
              failureReason := failureReason
              updatedAtUtc := utcNow } : OrderRow).status = status'.code := rfl
          refine ⟨_, detail_found hrow' hstatus', .decided ?_ hdecided⟩
          cases status with
          | pending => rfl
          | confirmed | rejected =>
              rw [hstatus] at hpending
              cases hpending

/-! ## What the primary does -/

namespace World

variable {initial : List StockRow} {world world' : World}

/-- A sound world whose orders have no reason as long as they are pending. -/
structure Readable (initial : List StockRow) (world : World) : Prop where
  sound : world.Sound initial
  unexplained : ∀ row ∈ world.db.orders, row.status = OrderStatus.pending.code →
    row.failureReason = none

theorem Readable.tells (h : world.Readable initial) : world.db.Tells := by
  intro row hrow
  rcases h.sound.status_cases hrow with hpending | ⟨result, hresult, -, -, -, hcode, hreason⟩
  · exact .inl ⟨hpending, h.unexplained row hrow hpending⟩
  · have hreasons := h.sound.consistent.resolved.reasons result hresult
    rw [hreasons] at hcode hreason
    cases hsuccess : result.success with
    | true =>
        rw [hsuccess] at hcode hreason
        exact .inr (.inl ⟨hcode, hreason⟩)
    | false =>
        rw [hsuccess] at hcode hreason
        exact .inr (.inr ⟨hcode, hreason⟩)

/-- What a move of the books does to the orders. -/
theorem Books.later {before after : Books} {issued : List Uuid}
    {delivered : Option OrderCreatedEvent} (h : before.Consistent issued)
    (hmoves : before.Moves delivered after)
    (hunexplained : ∀ row ∈ before.orders, row.status = OrderStatus.pending.code →
      row.failureReason = none) :
    (∀ orderId row, before.orders.find? (fun row => decide (row.id = orderId)) = some row →
      ∃ row', after.orders.find? (fun row => decide (row.id = orderId)) = some row' ∧
        row.Later row') ∧
    ∀ row ∈ after.orders, row.status = OrderStatus.pending.code → row.failureReason = none := by
  cases hmoves with
  | same | resolve => exact ⟨fun _ row hrow => ⟨row, hrow, .same⟩, hunexplained⟩
  | place =>
      refine ⟨?_, forall_mem_insert.mpr ⟨hunexplained, fun _ => rfl⟩⟩
      intro orderId row hrow
      refine ⟨row, ?_, .same⟩
      unfold Books.place
      rw [List.find?_append, hrow]
      rfl
  | @settle result inbox utcNow known unapplied inboxed =>
      constructor
      · intro orderId row hrow
        have hfind : (before.settle utcNow inbox result).orders.find?
            (fun row => decide (row.id = orderId)) =
            some (if decide (row.id = result.orderId) = true then
              Books.settleRow utcNow result row else row) := by
          refine (find?_updateWhere (f := Books.settleRow utcNow result) (fun _ => rfl)
            orderId).trans ?_
          rw [hrow]
          rfl
        refine ⟨_, hfind, ?_⟩
        by_cases hid : row.id = result.orderId
        · rw [if_pos (decide_eq_true hid)]
          exact .decided (pending_before h known unapplied (List.mem_of_find?_eq_some hrow) hid)
            fun hpending => applied_ne_pending result.success result.reason
              (congrArg OrderStatus.code hpending)
        · rw [if_neg (by simpa using hid)]
          exact .same
      · intro row' hrow' hpending
        obtain ⟨row, hrow, rfl⟩ := mem_updateWhere.mp hrow'
        by_cases hid : row.id = result.orderId
        · rw [if_pos (decide_eq_true hid)] at hpending
          exact absurd hpending (applied_ne_pending result.success result.reason)
        · rw [if_neg (by simpa using hid)] at hpending ⊢
          exact hunexplained row hrow hpending

theorem moves_later (initial : List StockRow) :
    Replicated.Moves saga (·.db) (Readable initial) Database.Later where
  refl := Database.Later.refl
  trans _ _ _ h h' := h.trans h'
  step world action world' h hstep := by
    obtain ⟨hsound, hmoves⟩ := h.sound.step hstep
    obtain ⟨hlater, hunexplained⟩ := Books.later h.sound.consistent hmoves h.unexplained
    exact ⟨⟨hsound, hunexplained⟩, hlater⟩

theorem Init.readable (h : world.Init) : world.Readable world.db.stocks where
  sound := h.sound
  unexplained row hrow := by
    rw [h.orders] at hrow
    cases hrow

/-! ## What clients see -/

/-- The saga, with the reads of a replica. -/
def service : TSys (Replicated World Database) (ReplicatedAction Action DetailRequest) :=
  Replicated.system saga (·.db) DetailRequest

variable {s₀ s : Replicated World Database}
  {ts : List (Transition (Replicated World Database) (ReplicatedAction Action DetailRequest))}

theorem follows_init (hinit : service.init s₀) :
    Replicated.Follows (·.db) (Readable s₀.primary.db.stocks) Database.Tells Database.Later s₀ :=
  (moves_later _).init (fun _ h => h.tells) hinit.1.readable hinit.2.1 hinit.2.2

/-- **Reads never go back.** However far the replica is behind, a read that the pool answers says
that there is no such order, or gives one whose label, code and reason agree; and once a client was
given an order, whatever is read later is the same order as it was, or decided if it was pending. -/
theorem reads_never_go_back (toRfc3339 : DateTime → String) (hinit : service.init s₀)
    (hrun : service.Run s₀ ts s) :
    (∀ tr ∈ ts, ∀ orderId,
      detail toRfc3339 ⟨true, orderId⟩ tr.pre.replica = .error (.new "Order not found" 404) ∨
      ∃ response, detail toRfc3339 ⟨true, orderId⟩ tr.pre.replica = .ok response ∧
        response.id = orderId ∧ response.Tells) ∧
    ts.Pairwise fun tr tr' => ∀ orderId response,
      detail toRfc3339 ⟨true, orderId⟩ tr.pre.replica = .ok response →
      ∃ response', detail toRfc3339 ⟨true, orderId⟩ tr'.pre.replica = .ok response' ∧
        response.Later response' := by
  obtain ⟨htells, hpairwise⟩ :=
    Replicated.reads_pairwise (follows_init hinit) (moves_later _) (fun _ h => h.tells) hrun
  constructor
  · intro tr htr orderId
    cases hrow : tr.pre.replica.order orderId with
    | none => exact .inl (detail_missing hrow)
    | some row =>
        obtain ⟨response, hdetail, htold, hid, -⟩ :=
          (htells tr htr row (Database.mem_of_order hrow)).detail hrow
        exact .inr ⟨response, hdetail, hid, htold⟩
  · refine hpairwise.imp_of_mem ?_
    intro tr tr' htr _ hlater orderId response hdetail
    exact hlater.detail (htells tr htr) hdetail

/-- How `to_rfc3339` writes the time of `oneOrder`'s create, one microsecond past the epoch. -/
def epochRfc3339 (_ : DateTime) : String := "1970-01-01T00:00:00.000001+00:00"

theorem service_oneSku : service.init ⟨oneSku, oneSku.db, []⟩ := ⟨oneSku_init, rfl, rfl⟩

/-- An order is created, read while it is pending, and read again when the replica has caught up
with its confirmation. -/
theorem reads_never_go_back_oneOrder : ∃ ts s,
    service.Run ⟨oneSku, oneSku.db, []⟩ ts s ∧
    (∃ tr ∈ ts, tr.pre.replica.orders.map (·.status) = [OrderStatus.pending.code]) ∧
    s.replica.orders.map (·.status) = [OrderStatus.confirmed.code] ∧
    ts.Pairwise fun tr tr' => ∀ orderId response,
      detail epochRfc3339 ⟨true, orderId⟩ tr.pre.replica = .ok response →
      ∃ response', detail epochRfc3339 ⟨true, orderId⟩ tr'.pre.replica = .ok response' ∧
        response.Later response' := by
  have hchecked : (service.exec [] ⟨oneSku, oneSku.db, []⟩
      (oneOrder.map .write ++ [.replay, .read ⟨true, ⟨1⟩⟩] ++ List.replicate 16 .replay ++
        [.read ⟨true, ⟨1⟩⟩])).any
      (fun r => (∃ tr ∈ r.1,
          tr.pre.replica.orders.map (·.status) = [OrderStatus.pending.code]) ∧
        r.2.replica.orders.map (·.status) = [OrderStatus.confirmed.code]) = true := by decide
  obtain ⟨ts, s, hrun, hchecked⟩ := TSys.exists_run hchecked
  obtain ⟨hpending, hconfirmed⟩ := of_decide_eq_true hchecked
  exact ⟨ts, s, hrun, hpending, hconfirmed,
    (reads_never_go_back epochRfc3339 service_oneSku hrun).2⟩

/-! ### After a create -/

/-- What was created, and where. -/
theorem order_created {utcNow : DateTime} {orderId messageId : Uuid} {outboxId : Int}
    {request : CreateOrderRequest} {precheck : RedisPrecheckOutcome} {db db' : Database}
    {order : OrderRecord} (hnew : db.order orderId = none)
    (h : createOrder precheck utcNow orderId messageId outboxId request db = .ok (order, db')) :
    order.id = orderId ∧ ∃ row, db'.order orderId = some row ∧ row.sku = order.sku ∧
      row.quantity = order.quantity := by
  obtain ⟨-, hinsert⟩ := createOrder_ok h
  obtain ⟨-, rfl⟩ := insertOrderWithOutbox_ok hinsert
  have horder : order.id = orderId ∧ order.sku = request.sku ∧
      order.quantity = request.quantity := by
    unfold insertOrderWithOutbox at hinsert
    split at hinsert
    · cases hinsert
    · split at hinsert
      · cases hinsert
      · cases hinsert
        exact ⟨rfl, rfl, rfl⟩
  refine ⟨horder.1, request.row utcNow orderId, ?_, horder.2.1.symm, horder.2.2.symm⟩
  unfold Database.order at hnew ⊢
  rw [List.find?_append, hnew]
  simp [CreateOrderRequest.row]

variable {connected : Bool} {utcNow : DateTime} {orderId messageId : Uuid} {outboxId : Int}
  {request : CreateOrderRequest} {order : OrderRecord} {db : Database}

/-- A create that is answered with an order draws a new id, and its transaction is committed. -/
theorem create_fresh {world world' : World}
    (hstep : world.step (.create connected utcNow orderId messageId outboxId request) =
      some world')
    (hcreate : createOrder (world.redisPrecheck connected request.sku) utcNow orderId messageId
      outboxId request world.db = .ok (order, db)) :
    orderId ∉ world.issued ∧ world'.db = db := by
  cases step_cases hstep with
  | refused hrefused =>
      rw [hcreate] at hrefused
      cases hrefused
  | placed horder _ _ hplaced =>
      rw [hcreate] at hplaced
      cases hplaced
      exact ⟨horder, rfl⟩

/-- No copy has an order under an id that was not drawn. -/
theorem order_of_fresh {initial : List StockRow}
    (h : Replicated.Follows (·.db) (Readable initial) Database.Tells Database.Later s)
    (hfresh : orderId ∉ s.primary.issued) :
    s.primary.db.order orderId = none ∧ ∀ d ∈ s.copies, d.order orderId = none := by
  have hnone : s.primary.db.order orderId = none := by
    cases hrow : s.primary.db.order orderId with
    | none => rfl
    | some row =>
        refine absurd ?_ hfresh
        rw [← Database.id_of_order hrow]
        exact h.primary.sound.consistent.placed.issued_orders row (Database.mem_of_order hrow)
  refine ⟨hnone, fun d hd => ?_⟩
  cases hrow : d.order orderId with
  | none => rfl
  | some row =>
      obtain ⟨row', hrow', -⟩ := h.older d hd orderId row hrow
      rw [hnone] at hrow'
      cases hrow'

/-- Later data give the order, whatever has become of it. -/
theorem detail_later {later : Database} (toRfc3339 : DateTime → String) {row : OrderRow}
    (hrow : db.order orderId = some row) (htells : later.Tells) (hlater : db.Later later) :
    ∃ response, detail toRfc3339 ⟨true, orderId⟩ later = .ok response ∧ response.Tells ∧
      response.id = orderId ∧ response.sku = row.sku ∧ response.quantity = row.quantity := by
  obtain ⟨row', hrow', hmoved⟩ := hlater orderId row hrow
  obtain ⟨response, hdetail, htold, hid, hsku, hquantity⟩ :=
    (htells row' (Database.mem_of_order hrow')).detail hrow'
  have hsame : row'.sku = row.sku ∧ row'.quantity = row.quantity := by
    cases hmoved with
    | same | decided => exact ⟨rfl, rfl⟩
  exact ⟨response, hdetail, htold, hid, hsku.trans hsame.1, hquantity.trans hsame.2⟩

/-- **Reads after a create.** Once `POST /orders` was answered with an order, a read of it that the
pool answers gives that order, or says that there is none, which it only does while the replica is
behind. -/
theorem read_after_create (toRfc3339 : DateTime → String) (hinit : service.init s₀)
    {before later : List (Transition (Replicated World Database)
      (ReplicatedAction Action DetailRequest))}
    {tr : Transition (Replicated World Database) (ReplicatedAction Action DetailRequest)}
    (hrun : service.Run s₀ (before ++ tr :: later) s)
    (haction : tr.action =
      .write (.create connected utcNow orderId messageId outboxId request))
    (hcreate : createOrder (tr.pre.primary.redisPrecheck connected request.sku) utcNow orderId
      messageId outboxId request tr.pre.primary.db = .ok (order, db)) :
    ∀ tr' ∈ later,
      (detail toRfc3339 ⟨true, order.id⟩ tr'.pre.replica = .error (.new "Order not found" 404) ∧
        tr'.pre.behind ≠ []) ∨
      ∃ response, detail toRfc3339 ⟨true, order.id⟩ tr'.pre.replica = .ok response ∧
        response.Tells ∧ response.id = order.id ∧ response.sku = order.sku ∧
        response.quantity = order.quantity := by
  obtain ⟨hbefore, hstep, hafter⟩ := hrun.before_after rfl
  have hfollows := ((follows_init hinit).run (moves_later _) (fun _ h => h.tells) hbefore).1
  have hfollows' := (hfollows.step (moves_later _) (fun _ h => h.tells) hstep).1
  obtain ⟨action, hwrite, hprimary, -, hcopies⟩ : ∃ a, tr.action = .write a ∧
      saga.step tr.pre.primary a = some tr.post.primary ∧ tr.post.replica = tr.pre.replica ∧
      tr.post.copies = tr.pre.copies ++ [tr.post.primary.db] := by
    rcases Replicated.step_cases hstep with hmoved | ⟨hreplay, -⟩ | ⟨_, hread, -⟩
    · exact hmoved
    · rw [haction] at hreplay
      cases hreplay
    · rw [haction] at hread
      cases hread
  rw [haction] at hwrite
  cases hwrite
  obtain ⟨hnew, hdb⟩ := create_fresh hprimary hcreate
  -- the id was new, so no copy has the order
  obtain ⟨hnone, hunseen⟩ := order_of_fresh hfollows hnew
  obtain ⟨rfl, row, hrow, hsku, hquantity⟩ := order_created hnone hcreate
  have hgot : db.Later tr.post.primary.db := hdb ▸ .refl _
  have hreads := hfollows'.after (K := fun d => d.order order.id ≠ none) (moves_later _)
    (fun _ h => h.tells) ?_ hgot hafter
  · intro tr' htr'
    obtain ⟨htells, hknown, hcaught⟩ := hreads tr' htr'
    rw [← hsku, ← hquantity]
    by_cases hseen : tr'.pre.replica.order order.id = none
    · by_cases hbehind : tr'.pre.behind = []
      · exact .inr (detail_later toRfc3339 hrow htells (hcaught hbehind))
      · exact .inl ⟨detail_missing hseen, hbehind⟩
    · exact .inr (detail_later toRfc3339 hrow htells (hknown hseen))
  · rw [hcopies, hdb]
    refine List.forall_mem_append.mpr ⟨?_, List.forall_mem_singleton.mpr fun _ => .refl _⟩
    intro d hd hseen
    exact absurd (hunseen d hd) hseen

/-- The replica has not replayed the create yet. -/
theorem read_after_create_oneOrder : ∃ before tr later s order db,
    service.Run ⟨oneSku, oneSku.db, []⟩ (before ++ tr :: later) s ∧ later.length = 1 ∧
    createOrder (tr.pre.primary.redisPrecheck false "sku-1") 1 ⟨1⟩ ⟨2⟩ 1 ⟨"sku-1", 2⟩
      tr.pre.primary.db = .ok (order, db) ∧
    ∀ tr' ∈ later,
      (detail epochRfc3339 ⟨true, order.id⟩ tr'.pre.replica =
          .error (.new "Order not found" 404) ∧ tr'.pre.behind ≠ []) ∨
      ∃ response, detail epochRfc3339 ⟨true, order.id⟩ tr'.pre.replica = .ok response ∧
        response.Tells ∧ response.id = order.id ∧ response.sku = order.sku ∧
        response.quantity = order.quantity := by
  obtain ⟨s, hcreate⟩ : ∃ s, service.step ⟨oneSku, oneSku.db, []⟩
      (.write (.create false 1 ⟨1⟩ ⟨2⟩ 1 ⟨"sku-1", 2⟩)) = some s := ⟨_, rfl⟩
  obtain ⟨order, db, hcreated⟩ : ∃ order db, createOrder (oneSku.redisPrecheck false "sku-1") 1
      ⟨1⟩ ⟨2⟩ 1 ⟨"sku-1", 2⟩ oneSku.db = .ok (order, db) := ⟨_, _, rfl⟩
  have hrun : service.Run ⟨oneSku, oneSku.db, []⟩
      ([] ++ ⟨_, _, s⟩ :: [⟨s, .read ⟨true, ⟨1⟩⟩, s⟩]) s := .step (.step .refl hcreate) rfl
  exact ⟨[], _, _, s, order, db, hrun, rfl, hcreated,
    read_after_create epochRfc3339 service_oneSku hrun rfl hcreated⟩

end World

end Axes.Orders
