import Axes.Http.Orders

/-!
# The service with its workers

Requests over HTTP and the steps of the workers, in any order, on one database, one Redis and
two topics. The world of the saga goes through a run of the saga, and its orders are those that
clients asked for: one for each request that is answered 201, at most one for each that is never
answered or whose commit was not heard of, and none for the others. So are the units that are
gone from the stock (`service_orders`).
-/

namespace Axes.Http

open Axes.Lib Axes.Lib.Web Axes.Lib.Redis Axes.Orders

variable {τ : Type}

inductive ServiceAction
  | request (req : HttpRequest)
  | worker (action : Action)

/-- The steps of the saga that are requests. -/
def isCreate : Action → Bool
  | .create .. => true
  | _ => false

section Service

variable (lib : Libraries) (lua : Stat.Lua) (toRfc3339 : DateTime → String) (rest : Others τ)

def serviceStep (w : HttpWorld (World × τ)) : ServiceAction → Option (HttpWorld (World × τ))
  | .request req =>
      let draw := req.ext.outside.order
      let issued := w.state.others.1.issued
      -- `Uuid::new_v4` draws an id that was not drawn before.
      if draw.orderId ∈ issued ∨ draw.messageId ∈ issued ∨ draw.orderId = draw.messageId then none
      else step lib (withOrders lua toRfc3339 rest) w req
  | .worker action =>
      if isCreate action then none
      else (w.state.others.1.step action).map fun world =>
        { w with state := { w.state with others := (world, w.state.others.2) } }

def service : TSys (HttpWorld (World × τ)) ServiceAction where
  init w := w.state.others.1.Init ∧ w.replies = []
  step := serviceStep lib lua toRfc3339 rest

end Service

/-! ## Orders and what was asked for -/

def orderKey (row : OrderRow) : Uuid × String × Int := (row.id, row.sku, row.quantity)

/-- The order a request asks for, under the id that it draws. -/
def askedKey (reply : HttpRequest × Option Response) : Option (Uuid × String × Int) :=
  (extractJson Orders.createOrderRequest reply.1).toOption.map fun payload =>
    (reply.1.ext.outside.order.orderId, payload.sku, payload.quantity)

instance : DecidablePred acknowledged := fun _ => inferInstanceAs (Decidable (_ ∧ _ ∧ _))

/-- A request for an order whose client does not know whether it was placed. -/
def unheard (reply : HttpRequest × Option Response) : Prop :=
  reply.1.method = .post ∧ reply.1.path = ordersPath ∧ (reply.2 = none ∨
    reply.1.ext.outside.sql = .lost ∧ reply.2 = some (intoResponse internalServerError))

/-- A new order is reported, or its client does not know. -/
theorem Places.heard {toRfc3339 : DateTime → String} {world world' : World}
    {payload : CreateOrderRequest} {order : OrderRecord} {db : Database} {response : Response}
    {reply : HttpRequest × Option Response}
    (h : Places toRfc3339 reply.1 world payload order db response world')
    (hreply : reply.2 = reply.1.ext.outside.ending.reply response) :
    acknowledged reply ∨ unheard reply := by
  cases hending : reply.1.ext.outside.ending with
  | dropped executed =>
      rw [hending] at hreply
      exact .inr ⟨h.method, h.path, .inl hreply⟩
  | answered =>
      rw [hending] at hreply
      rcases h.answer with ⟨-, hresponse⟩ | ⟨hlost, hresponse⟩
      · refine .inl ⟨h.method, h.path, ?_⟩
        rw [hreply, hresponse]
        rfl
      · refine .inr ⟨h.method, h.path, .inr ⟨hlost, ?_⟩⟩
        rw [hreply, hresponse]
        rfl

/-- The workers place no orders. -/
theorem orders_worker {initial : List StockRow} {world world' : World} {action : Action}
    (h : world.Sound initial) (hstep : world.step action = some world')
    (hworker : isCreate action = false) :
    world'.db.orders.map orderKey = world.db.orders.map orderKey := by
  have hhandle : ∀ {utcNow messageId outboxId event refresh db},
      handleOrderCreatedMessage utcNow messageId outboxId event world.db = .ok (refresh, db) →
      db.orders = world.db.orders := by
    intro utcNow messageId outboxId event refresh db hhandle
    rcases handleOrderCreatedMessage_ok h.stock_skus h.consistent.placed.simulate hhandle with
      ⟨-, rfl, -⟩ | ⟨-, -, -, stocks, outcome, -, rfl⟩
    · rfl
    · rfl
  have happly : ∀ {utcNow event applied db},
      applyInventoryResultMessage utcNow event world.db = .ok (applied, db) →
      db.orders.map orderKey = world.db.orders.map orderKey := by
    intro utcNow event applied db happly
    rcases applyInventoryResultMessage_ok happly with ⟨-, rfl, -⟩ | ⟨-, -, rfl⟩
    · rfl
    · exact Table.map_updateWhere fun _ => rfl
  cases World.step_cases hstep with
  | refused | placed => cases hworker
  | ticked | created | results | handleFailed | stockLoaded | stockCached | applyFailed
  | redeliveryFailed | resultRedeliveryFailed | crashedOrders | crashedInventory | cacheWritten =>
      rfl
  | handled _ _ hok | redelivered _ _ hok =>
      exact congrArg (List.map orderKey) (hhandle hok)
  | applied _ hok | resultRedelivered _ hok => exact happly hok

/-! ## Runs -/

variable {lib : Libraries} {lua : Stat.Lua} {toRfc3339 : DateTime → String} {rest : Others τ}
  {w₀ w w' : HttpWorld (World × τ)} {ts : List (Transition (HttpWorld (World × τ)) ServiceAction)}

/-- The requests whose orders are there. -/
structure Accounts (w₀ w : HttpWorld (World × τ)) (moves : List (Transition World Action))
    (placed : List (HttpRequest × Option Response)) : Prop where
  run : saga.Run w₀.state.others.1 moves w.state.others.1
  told : (w.replies.filter fun reply => acknowledged reply).Sublist placed
  sent : placed.Sublist w.replies
  heard : ∀ reply ∈ placed, acknowledged reply ∨ unheard reply
  orders : placed.map askedKey = w.state.others.1.db.orders.map fun row => some (orderKey row)

variable {moves : List (Transition World Action)}
  {placed : List (HttpRequest × Option Response)} {reply : HttpRequest × Option Response}

theorem Accounts.worker (h : Accounts w₀ w moves placed) (hinit : w₀.state.others.1.Init)
    {action : Action} (hworker : isCreate action = false)
    (hstep : w.state.others.1.step action = some w'.state.others.1)
    (hreplies : w'.replies = w.replies) :
    Accounts w₀ w' (moves ++ [⟨w.state.others.1, action, w'.state.others.1⟩]) placed where
  run := h.run.step hstep
  told := hreplies ▸ h.told
  sent := hreplies ▸ h.sent
  heard := h.heard
  orders := by
    have hkept := orders_worker (hinit.run h.run).1 hstep hworker
    have hkeys := congrArg (List.map some) hkept
    rw [List.map_map, List.map_map] at hkeys
    exact h.orders.trans hkeys.symm

/-- A request that places no order. -/
theorem Accounts.other (h : Accounts w₀ w moves placed)
    (hreplies : w'.replies = w.replies ++ [reply]) (hquiet : ¬acknowledged reply)
    {cache : Keyspace}
    (hworld : w'.state.others.1 = { w.state.others.1 with cache := cache }) :
    Accounts w₀ w' (moves ++ [⟨w.state.others.1, .writeCache cache, w'.state.others.1⟩])
      placed where
  run := h.run.step (hworld ▸ rfl)
  told := by
    rw [hreplies, List.filter_append, List.filter_cons_of_neg (by simpa using hquiet)]
    simpa using h.told
  sent := by
    rw [hreplies]
    exact h.sent.trans (List.sublist_append_left _ _)
  heard := h.heard
  orders := by
    rw [hworld]
    exact h.orders

/-- A request that places an order. -/
theorem Accounts.place (h : Accounts w₀ w moves placed)
    (hreplies : w'.replies = w.replies ++ [reply]) {req : HttpRequest} (hreq : reply.1 = req)
    {response : Response} (hreply : reply.2 = req.ext.outside.ending.reply response)
    {payload : CreateOrderRequest} {order : OrderRecord} {db : Database}
    (horder : req.ext.outside.order.orderId ∉ w.state.others.1.issued)
    (hmessage : req.ext.outside.order.messageId ∉ w.state.others.1.issued)
    (hdistinct : req.ext.outside.order.orderId ≠ req.ext.outside.order.messageId)
    (hplaces : Places toRfc3339 req w.state.others.1 payload order db response
      w'.state.others.1) :
    ∃ action, Accounts w₀ w' (moves ++ [⟨w.state.others.1, action, w'.state.others.1⟩])
      (placed ++ [reply]) := by
  let draw := req.ext.outside.order
  let action := Action.create (decide (req.ext.outside.redis = .answered)) draw.utcNow
    draw.orderId draw.messageId draw.outboxId payload
  have hstep : w.state.others.1.step action = some w'.state.others.1 := by
    have hfresh : ¬(draw.orderId ∈ w.state.others.1.issued ∨
        draw.messageId ∈ w.state.others.1.issued ∨ draw.orderId = draw.messageId) := by
      simp only [not_or]
      exact ⟨horder, hmessage, hdistinct⟩
    simp only [World.step, action, if_neg hfresh]
    rw [hplaces.create]
    exact congrArg some hplaces.world.symm
  refine ⟨action, ?_⟩
  constructor
  case run => exact h.run.step hstep
  case told =>
    rw [hreplies, List.filter_append]
    exact h.told.append List.filter_sublist
  case sent =>
    rw [hreplies]
    exact h.sent.append (List.Sublist.refl _)
  case heard =>
    intro other hother
    rcases List.mem_append.mp hother with hold | hnew
    · exact h.heard other hold
    · obtain rfl := List.mem_singleton.mp hnew
      subst hreq
      exact hplaces.heard hreply
  case orders =>
    obtain ⟨-, hinsert⟩ := createOrder_ok hplaces.create
    obtain ⟨-, hdb⟩ := insertOrderWithOutbox_ok hinsert
    have horders : w'.state.others.1.db.orders =
        w.state.others.1.db.orders ++ [payload.row draw.utcNow draw.orderId] := by
      rw [hplaces.world]
      show db.orders = _
      rw [hdb]
    have hasked : askedKey reply = some (orderKey (payload.row draw.utcNow draw.orderId)) := by
      unfold askedKey
      rw [hreq, hplaces.read]
      rfl
    rw [horders, List.map_append, List.map_append, h.orders]
    exact congrArg (_ ++ [·]) hasked

theorem accounts_run (hinit : (service lib lua toRfc3339 rest).init w₀)
    (hrun : (service lib lua toRfc3339 rest).Run w₀ ts w) :
    ∃ moves placed, Accounts w₀ w moves placed := by
  obtain ⟨hworld, hnew⟩ := hinit
  induction hrun with
  | refl =>
      refine ⟨[], [], .refl, ?_, ?_, ?_, ?_⟩
      · rw [hnew]
        exact .slnil
      · exact List.nil_sublist _
      · intro reply hreply
        cases hreply
      · rw [hworld.orders]
        rfl
  | @step ts w action w' _ hstep ih =>
      obtain ⟨moves, placed, h⟩ := ih
      have htaken : serviceStep lib lua toRfc3339 rest w action = some w' := hstep
      cases action with
      | worker action =>
          unfold serviceStep at htaken
          dsimp only at htaken
          split at htaken
          · cases htaken
          · next hworker =>
              obtain ⟨world, hmove, rfl⟩ := Option.map_eq_some_iff.mp htaken
              exact ⟨_, placed, h.worker hworld (Bool.eq_false_of_not_eq_true hworker) hmove rfl⟩
      | request req =>
          unfold serviceStep at htaken
          dsimp only at htaken
          split at htaken
          · cases htaken
          · next hfresh =>
              push Not at hfresh
              obtain ⟨reply, hreq, hreplies, hcases⟩ := step_orders htaken
              rcases hcases with ⟨hquiet, cache, hcache⟩ |
                ⟨payload, order, db, response, hreply, hplaces⟩
              · exact ⟨_, placed, h.other hreplies hquiet hcache⟩
              · obtain ⟨action, hplaced⟩ :=
                  h.place hreplies hreq hreply hfresh.1 hfresh.2.1 hfresh.2.2 hplaces
                exact ⟨_, _, hplaced⟩

/-- **The orders and the stock are what clients were told.** -/
theorem service_orders (hinit : (service lib lua toRfc3339 rest).init w₀)
    (hrun : (service lib lua toRfc3339 rest).Run w₀ ts w) :
    ∃ moves placed, saga.Run w₀.state.others.1 moves w.state.others.1 ∧
      (w.replies.filter fun reply => acknowledged reply).Sublist placed ∧
      placed.Sublist w.replies ∧
      (∀ reply ∈ placed, acknowledged reply ∨ unheard reply) ∧
      (placed.map askedKey = w.state.others.1.db.orders.map fun row => some (orderKey row)) ∧
      let results := w.state.others.1.db.inventoryOutbox.map (·.payload)
      (∀ row ∈ w.state.others.1.db.stocks, 0 ≤ row.availableQuantity ∧
        ∀ row₀ ∈ w₀.state.others.1.db.stocks, row₀.sku = row.sku →
          row₀.availableQuantity =
            row.availableQuantity + Books.reservedQuantity results row.sku) ∧
      (results.map (·.orderId)).Nodup ∧
      ∀ result ∈ results,
        some (result.orderId, result.sku, result.quantity) ∈ placed.map askedKey := by
  obtain ⟨moves, placed, h⟩ := accounts_run hinit hrun
  have hsound := (hinit.1.run h.run).1
  refine ⟨moves, placed, h.run, h.told, h.sent, h.heard, h.orders, ?_, ?_, ?_⟩
  · intro row hrow
    exact ⟨hsound.stocked.nonneg row hrow, hsound.stocked.conserved row hrow⟩
  · exact hsound.consistent.resolved.result_orders
  · intro result hresult
    obtain ⟨event, hevent, hanswers⟩ :=
      hsound.consistent.resolved.result_created result hresult
    obtain ⟨row, hrow, hmatches⟩ := hsound.consistent.placed.created_order event hevent
    rw [h.orders]
    refine List.mem_map.mpr ⟨row, hrow, congrArg some ?_⟩
    unfold orderKey
    rw [hmatches.id, hmatches.sku, hmatches.quantity, hanswers.id, hanswers.sku,
      hanswers.quantity]

def orderRequest : HttpRequest :=
  let req := plainRequest .post ordersPath none
    [("sku", text "sku-1"), ("quantity", .num (.ofInt 2))] 0
  { req with ext := { req.ext with outside := { req.ext.outside with
    order := ⟨1, ⟨1⟩, ⟨2⟩, 1⟩ } } }

def oneSkuService : HttpWorld (World × Unit) := ⟨⟨noBakeries, [], [], (oneSku, ())⟩, []⟩

/-- A second order, whose client is gone before it is answered. -/
def droppedOrder : HttpRequest :=
  { orderRequest with ext := { orderRequest.ext with outside := { orderRequest.ext.outside with
    order := ⟨8, ⟨11⟩, ⟨12⟩, 2⟩, ending := .dropped true } } }

/-- An order over HTTP, the steps of the workers that take it over, and an order that nobody is
told of. -/
theorem service_orders_oneOrder : ∃ ts w,
    (service plainLibraries plainLua World.epochRfc3339 noOthers).Run oneSkuService ts w ∧
      w.replies.map (fun reply => reply.2.map (·.status)) = [some 201, none] ∧
      w.state.others.1.db.stocks.map (·.availableQuantity) = [3] ∧
      ∃ placed, (w.replies.filter fun reply => acknowledged reply).Sublist placed ∧
        placed.map askedKey = [some (⟨1⟩, "sku-1", 2), some (⟨11⟩, "sku-1", 2)] := by
  have htaken : ((service plainLibraries plainLua World.epochRfc3339 noOthers).exec [] oneSkuService
      (.request orderRequest :: oneOrder.tail.map .worker ++ [.request droppedOrder])).any (fun r =>
        r.2.replies.map (fun reply => reply.2.map (·.status)) = [some 201, none] ∧
        r.2.state.others.1.db.stocks.map (·.availableQuantity) = [3] ∧
        r.2.state.others.1.db.orders.map (fun row => some (orderKey row)) =
          [some (⟨1⟩, "sku-1", 2), some (⟨11⟩, "sku-1", 2)]) = true := by
    decide +kernel
  obtain ⟨ts, w, hrun, htaken⟩ := TSys.exists_run htaken
  obtain ⟨hreplies, hstocks, hkeys⟩ := of_decide_eq_true htaken
  obtain ⟨-, placed, -, htold, -, -, horders, -⟩ :=
    service_orders ⟨oneSku_init, rfl⟩ hrun
  exact ⟨ts, w, hrun, hreplies, hstocks, placed, htold, horders.trans hkeys⟩

end Axes.Http
