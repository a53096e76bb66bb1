import Axes.Http.Stock
import Axes.Orders.Reads

/-!
# Orders over HTTP (`handlers/orders/mod.rs`)

The handlers of orders, and that of stock claims, on the world of the saga. What a request does
to that world is nothing, or a write to the cache, or a new order, and an order is answered 201
only when it is there (`step_orders`).
-/

namespace Axes.Http

open Axes.Lib Axes.Lib.Web Axes.Lib.Redis Axes.Orders

variable {τ : Type}

namespace Orders

def createOrderRequest (json : Json) : Option CreateOrderRequest := do
  let get ← members ["sku", "quantity"] json
  let sku ← Serde.field Serde.string (get "sku")
  let quantity ← (get "quantity").bind readInt4
  pure ⟨sku, quantity⟩

/-- `Json(OrderResponse)` -/
def orderJson (order : OrderResponse) : Json :=
  .obj [(some "id", text (String.ofList (Serde.printUuid (BitVec.ofNat 128 order.id.value)))),
    (some "sku", text order.sku), (some "quantity", .num (.ofInt order.quantity)),
    (some "status", .obj [(some "code", .num (.ofInt order.status.code)),
      (some "label", text order.status.label)]),
    (some "failure_reason", Serde.writeOptional Serde.string order.failureReason),
    (some "created_at_utc", text order.createdAtUtc),
    (some "updated_at_utc", text order.updatedAtUtc)]

/-- `Path<Uuid>` -/
def extractUuid (req : HttpRequest) : Except Response Uuid :=
  match ((req.params.lookup "id").bind percentDecode).bind fun id => Serde.parseUuid id.toList with
  | some id => .ok ⟨id.toNat⟩
  | none => .error ⟨400, .rejection⟩

variable (toRfc3339 : DateTime → String)

/-- `create` -/
def create : Handler Extras (World × τ) := fun req s =>
  match extractJson createOrderRequest req with
  | .error response => (some response, s)
  | .ok payload =>
      let outside := req.ext.outside
      let draw := outside.order
      let precheck := s.1.redisPrecheck (decide (outside.redis = .answered)) payload.sku
      match createOrder precheck draw.utcNow draw.orderId draw.messageId draw.outboxId payload
        s.1.db with
      | .error error => (some (intoResponse error), s)
      | .ok (order, db) =>
          let placed := { s.1 with
            issued := draw.orderId :: draw.messageId :: s.1.issued
            db := db }
          match outside.writeConn, outside.sql with
          | .ok (), .answered =>
              (some ⟨201, .json (orderJson (toOrderResponse toRfc3339 order))⟩, (placed, s.2))
          | .ok (), .lost => (some (intoResponse internalServerError), (placed, s.2))
          | _, _ => (some (intoResponse internalServerError), s)

def detail : Handler Extras (World × τ) := fun req s =>
  match extractUuid req with
  | .error response => (some response, s)
  | .ok orderId =>
      let outside := req.ext.outside
      let request := ⟨outside.readConn.isOk && decide (outside.sql = .answered), orderId⟩
      match Axes.Orders.detail toRfc3339 request outside.shownOrders with
      | .error error => (some (intoResponse error), s)
      | .ok order => (some ⟨200, .json (orderJson order)⟩, s)

end Orders

/-! ## On the world of the saga -/

/-- A handler on Redis is one on the cache of the world. -/
def onCache (handler : Handler Extras (Keyspace × τ)) : Handler Extras (World × τ) := fun req s =>
  let (response, after) := handler req (s.1.cache, s.2)
  (response, ({ s.1 with cache := after.1 }, after.2))

def onRest (handler : Handler Extras τ) : Handler Extras (World × τ) := fun req s =>
  let (response, rest) := handler req s.2
  (response, (s.1, rest))

variable (lib : Libraries) (lua : Stat.Lua) (toRfc3339 : DateTime → String) (rest : Others τ)

/-- The handlers of orders and of stock claims, with the others on a state of their own. -/
def withOrders : Others (World × τ) where
  createOrder := Orders.create toRfc3339
  orderDetail := Orders.detail toRfc3339
  incrHotScore := onRest rest.incrHotScore
  hotTop := onRest rest.hotTop
  claimStock := onCache (Hot.claimStock lua)
  connect := onRest rest.connect

def ordersPath : List String := ["api", "orders"]

variable {lib} {lua} {toRfc3339} {rest}

/-- The handlers of the templates that work on the other state. -/
theorem holds_elsewhere (others : Others (World × τ)) :
    (routes lib others).Holds fun template? handler => ∀ template ∈ template?,
      template ∈ elsewhere → template = exactly ordersPath ∧
          handler = on .post (onOthers others.createOrder) ∨
        template ≠ exactly ordersPath ∧
          ∃ method, ∃ inner ∈ [others.orderDetail, others.incrHotScore, others.hotTop,
            others.claimStock, others.connect], handler = on method (onOthers inner) := by
  have hroute : ∀ i (route : Route Extras (AppState (World × τ))),
      (routes lib others).routes[i]? = some route →
        (routes lib others).Holds fun template? handler =>
          template? = some route.template → handler = route.endpoint :=
    fun i route h => Router.holds_endpoint route nodup_templates (List.mem_of_getElem? h)
  have hall := (((((hroute 11 _ rfl).and (hroute 12 _ rfl)).and (hroute 13 _ rfl)).and
    (hroute 14 _ rfl)).and (hroute 15 _ rfl)).and (hroute 16 _ rfl)
  refine hall.mono ?_
  intro template? handler h template htemplate helsewhere
  obtain ⟨⟨⟨⟨⟨hcreate, hdetail⟩, hincr⟩, htop⟩, hclaim⟩, hconnect⟩ := h
  simp only [elsewhere, List.mem_cons, List.not_mem_nil, or_false] at helsewhere
  rcases helsewhere with rfl | rfl | rfl | rfl | rfl | rfl
  · exact .inl ⟨rfl, hcreate htemplate⟩
  · exact .inr ⟨by decide, .get, others.orderDetail, by simp, hdetail htemplate⟩
  · exact .inr ⟨by decide, .post, others.incrHotScore, by simp, hincr htemplate⟩
  · exact .inr ⟨by decide, .get, others.hotTop, by simp, htop htemplate⟩
  · exact .inr ⟨by decide, .post, others.claimStock, by simp, hclaim htemplate⟩
  · exact .inr ⟨by decide, .get, others.connect, by simp, hconnect htemplate⟩

/-! ## One request -/

/-- An answer that tells of a new order. -/
def acknowledged (reply : HttpRequest × Option Response) : Prop :=
  reply.1.method = .post ∧ reply.1.path = ordersPath ∧ reply.2.map (·.status) = some 201

/-- A request that places an order. -/
structure Places (toRfc3339 : DateTime → String) (req : HttpRequest) (world : World)
    (payload : CreateOrderRequest) (order : OrderRecord) (db : Database) (response : Response)
    (world' : World) : Prop where
  method : req.method = .post
  path : req.path = ordersPath
  read : extractJson Orders.createOrderRequest req = .ok payload
  create : createOrder
    (world.redisPrecheck (decide (req.ext.outside.redis = .answered)) payload.sku)
    req.ext.outside.order.utcNow req.ext.outside.order.orderId req.ext.outside.order.messageId
    req.ext.outside.order.outboxId payload world.db = .ok (order, db)
  world : world' = { world with
    issued := req.ext.outside.order.orderId :: req.ext.outside.order.messageId :: world.issued
    db := db }
  answer : req.ext.outside.sql = .answered ∧
      response = ⟨201, .json (Orders.orderJson (toOrderResponse toRfc3339 order))⟩ ∨
    req.ext.outside.sql = .lost ∧ response = intoResponse internalServerError

theorem createOrder_failed {precheck : RedisPrecheckOutcome} {utcNow : DateTime}
    {orderId messageId : Uuid} {outboxId : Int} {request : CreateOrderRequest} {db : Database}
    {error : AppError}
    (h : createOrder precheck utcNow orderId messageId outboxId request db = .error error) :
    400 ≤ error.status := by
  unfold createOrder at h
  cases hvalid : request.validate with
  | error invalid =>
      rw [hvalid] at h
      obtain rfl : invalid = error := Except.error.inj h
      unfold CreateOrderRequest.validate at hvalid
      split at hvalid
      · cases hvalid
        show 400 ≤ 400
        omega
      · split at hvalid
        · cases hvalid
          show 400 ≤ 400
          omega
        · cases hvalid
  | ok payload =>
      rw [hvalid] at h
      simp only [bind, Except.bind] at h
      split at h
      · next status reason hreject =>
          obtain rfl := Except.error.inj h
          unfold decideOrderCreation at hreject
          split at hreject
          · split at hreject
            · cases hreject
              show 400 ≤ 409
              omega
            · cases hreject
          · cases hreject
          · cases hreject
      · split at h
        · obtain rfl := Except.error.inj h
          show 400 ≤ 500
          omega
        · cases h

/-- What the handler does with a request. -/
theorem create_cases (toRfc3339 : DateTime → String) (req : HttpRequest) (s : World × τ) :
    ((Orders.create toRfc3339 req s).2 = s ∧
      ∀ response ∈ (Orders.create toRfc3339 req s).1, 400 ≤ response.status) ∨
    ∃ payload order db response world',
      (req.method = .post → req.path = ordersPath →
        Places toRfc3339 req s.1 payload order db response world') ∧
      Orders.create toRfc3339 req s = (some response, (world', s.2)) := by
  unfold Orders.create
  cases hpayload : extractJson Orders.createOrderRequest req with
  | error response =>
      refine .inl ⟨rfl, ?_⟩
      intro other hother
      obtain rfl := Option.some.inj hother
      exact (extractJson_failed hpayload).1
  | ok payload =>
      dsimp only
      split
      · next error hcreate =>
          refine .inl ⟨rfl, ?_⟩
          intro other hother
          obtain rfl := Option.some.inj hother
          exact createOrder_failed hcreate
      · next order db hcreate =>
          split
          · next hsql =>
              exact .inr ⟨payload, order, db, _, _, fun hmethod hpath =>
                ⟨hmethod, hpath, hpayload, hcreate, rfl, .inl ⟨hsql, rfl⟩⟩, rfl⟩
          · next hsql =>
              exact .inr ⟨payload, order, db, _, _, fun hmethod hpath =>
                ⟨hmethod, hpath, hpayload, hcreate, rfl, .inr ⟨hsql, rfl⟩⟩, rfl⟩
          · refine .inl ⟨rfl, ?_⟩
            intro other hother
            obtain rfl := Option.some.inj hother
            exact failed_internal.1

theorem Places.withUser {req req' : HttpRequest} {world world' : World}
    {payload : CreateOrderRequest} {order : OrderRecord} {db : Database} {response : Response}
    (hmethod : req'.method = req.method) (hpath : req'.path = req.path) (hext : req'.ext = req.ext)
    (h : Places toRfc3339 (withUser req') world payload order db response world') :
    Places toRfc3339 req world payload order db response world' := by
  have houtside : (Http.withUser req').ext.outside = req.ext.outside := congrArg (·.outside) hext
  obtain ⟨hpost, horders, hread, hcreate, hworld, hanswer⟩ := h
  rw [houtside] at hcreate hworld hanswer
  rw [extractJson_withUser _ hext] at hread
  exact ⟨hmethod ▸ hpost, hpath ▸ horders, hread, hcreate, hworld, hanswer⟩

/-- The other handlers do no more to the world than write to the cache. -/
theorem others_spare {inner : Handler Extras (World × τ)}
    (hinner : inner ∈ [(withOrders lua toRfc3339 rest).orderDetail,
      (withOrders lua toRfc3339 rest).incrHotScore, (withOrders lua toRfc3339 rest).hotTop,
      (withOrders lua toRfc3339 rest).claimStock, (withOrders lua toRfc3339 rest).connect])
    (req : HttpRequest) (s : World × τ) :
    ∃ cache, (inner req s).2.1 = { s.1 with cache := cache } := by
  simp only [List.mem_cons, List.not_mem_nil, or_false] at hinner
  rcases hinner with rfl | rfl | rfl | rfl | rfl
  · refine ⟨s.1.cache, ?_⟩
    have hstill : ((withOrders lua toRfc3339 rest).orderDetail req s).2 = s := by
      show (Orders.detail toRfc3339 req s).2 = s
      unfold Orders.detail
      split
      · rfl
      · dsimp only
        split <;> rfl
    rw [hstill]
  · exact ⟨s.1.cache, rfl⟩
  · exact ⟨s.1.cache, rfl⟩
  · exact ⟨_, rfl⟩
  · exact ⟨s.1.cache, rfl⟩

theorem on_state {σ : Type} (method : Method) (handler : HttpHandler σ) (req : HttpRequest)
    (s : AppState σ) : (on method handler req s).2 = (handler req s).2 ∨
      (on method handler req s).2 = s := by
  unfold Web.on
  split
  · exact .inl rfl
  split
  · exact .inl rfl
  · exact .inr rfl

variable {w w' : HttpWorld (World × τ)} {req req' : HttpRequest} {response : Response}
  {s s' : AppState (World × τ)} {P : Option Template → HttpHandler (World × τ) → Prop}
  {template? : Option Template} {handler : HttpHandler (World × τ)}

variable (toRfc3339) in
/-- What a request may do to the world of the saga. -/
inductive OrderStep (req : HttpRequest) (response : Response) (world world' : World) : Prop
  | other (hquiet : ¬acknowledged (req, some response)) {cache : Keyspace}
      (hworld : world' = { world with cache := cache })
  | places {payload : CreateOrderRequest} {order : OrderRecord} {db : Database}
      (hplaces : Places toRfc3339 req world payload order db response world')

/-- A request that leaves the world alone. -/
theorem OrderStep.same {world world' : World} (hquiet : ¬acknowledged (req, some response))
    (hworld : world' = world) : OrderStep toRfc3339 req response world world' := by
  have hcache : world' = { world with cache := world.cache } := hworld
  exact .other hquiet hcache

/-- What the handler of new orders does. -/
theorem Served.create {others : Others (World × τ)}
    (h : Served P lib others s req template? (on .post (onOthers (Orders.create toRfc3339))) req'
      response s')
    (hoptions : req.method ≠ .options) (hpath : req.path = ordersPath) :
    OrderStep toRfc3339 req response s.others.1 s'.others.1 := by
  obtain ⟨hresponse, hstate⟩ := h.handled hoptions
  have hanswers := h.answers
  by_cases hpost : req.method = .post
  · have hon : on .post (onOthers (Orders.create toRfc3339)) (withUser req') s =
        onOthers (Orders.create toRfc3339) (withUser req') s :=
      if_pos (hanswers.method.trans hpost)
    rw [hon] at hresponse hstate
    have hworld : s'.others = (Orders.create toRfc3339 (withUser req') s.others).2 := by
      rw [hstate]
      rfl
    have hdressed : response = dressed (Orders.create toRfc3339 (withUser req') s.others).1 :=
      hresponse
    rcases create_cases toRfc3339 (withUser req') s.others with
      ⟨hsame, hfailed⟩ | ⟨payload, order, db, placed, world', hplaces, hdone⟩
    · refine .same ?_ (by rw [hworld, hsame])
      intro hacknowledged
      have hcreated := Option.some.inj hacknowledged.2.2
      rw [hdressed] at hcreated
      obtain ⟨body, hbody⟩ := dressed_success (by decide) hcreated
      have hlarge : 400 ≤ 201 := hfailed ⟨201, body⟩ hbody
      omega
    · have hplaced := (hplaces (hanswers.method.trans hpost)
        (hanswers.path.trans hpath)).withUser hanswers.method hanswers.path hanswers.ext
      have hstatus : placed.status ≠ 405 := by
        rcases hplaced.answer with ⟨-, hanswer⟩ | ⟨-, hanswer⟩
        · rw [hanswer]
          show 201 ≠ 405
          omega
        · rw [hanswer]
          show 500 ≠ 405
          omega
      have hplain : response = placed := by
        rw [hdressed, hdone]
        exact if_neg hstatus
      rw [hplain, hworld, hdone]
      exact .places hplaced
  · refine .same (fun hacknowledged => hpost hacknowledged.1) ?_
    have hon := (on_post (onOthers (Orders.create toRfc3339)) (withUser req') s).resolve_left
      fun hright => hpost (hanswers.method.symm.trans hright.1)
    rw [hstate, hon]

/-- What the other handlers of the other state do. -/
theorem Served.spare {others : Others (World × τ)} {method : Method}
    {inner : Handler Extras (World × τ)}
    (h : Served P lib others s req template? (on method (onOthers inner)) req' response s')
    (hoptions : req.method ≠ .options)
    (hinner : inner ∈ [(withOrders lua toRfc3339 rest).orderDetail,
      (withOrders lua toRfc3339 rest).incrHotScore, (withOrders lua toRfc3339 rest).hotTop,
      (withOrders lua toRfc3339 rest).claimStock, (withOrders lua toRfc3339 rest).connect]) :
    ∃ cache, s'.others.1 = { s.others.1 with cache := cache } := by
  rw [(h.handled hoptions).2]
  show ∃ cache, (on method (onOthers inner) (withUser req') s).2.others.1 = _
  rcases on_state method (onOthers inner) (withUser req') s with hon | hon
  · rw [hon]
    exact others_spare hinner (withUser req') s.others
  · rw [hon]
    exact ⟨s.others.1.cache, rfl⟩

/-- **What a request does to the world of the saga**, if its handler comes to an end. -/
theorem served_orders (hstep : step lib (withOrders lua toRfc3339 rest) w req = some w') :
    ∃ response s', w' = w.next req response s' ∧
      OrderStep toRfc3339 req response w.state.others.1 s'.others.1 := by
  obtain ⟨template?, handler, req', response, s', rfl, hserved⟩ := served_of_step
    ((holds_routes lib (withOrders lua toRfc3339 rest)).and (holds_elsewhere _)) hstep
  obtain ⟨hlawful, helsewhere⟩ := hserved.holds
  have horders : acknowledged (req, some response) → template? = some (exactly ordersPath) := by
    intro h
    refine answers_best hserved.answers (by decide) (by decide) ?_
    rw [h.2.1]
    decide
  refine ⟨response, s', rfl, ?_⟩
  by_cases hoptions : req.method = .options
  · refine .same (fun h => Method.noConfusion (hoptions.symm.trans h.1)) ?_
    rw [(hserved.options hoptions).2]
  by_cases hhere : ∀ template ∈ template?, template ∉ elsewhere
  · -- a handler that does not know of the other state
    refine .same (fun h => hhere _ (horders h) (by decide)) ?_
    rw [(hserved.handled hoptions).2]
    exact congrArg Prod.fst (hlawful.others hhere (withUser req') w.state)
  push Not at hhere
  obtain ⟨template, htemplate, hmem⟩ := hhere
  rcases helsewhere template htemplate hmem with
    ⟨rfl, hcreate⟩ | ⟨hother, method, inner, hinner, honly⟩
  · subst hcreate
    exact hserved.create hoptions (capture_exactly (hserved.answers.matching _ htemplate).2)
  · subst honly
    obtain ⟨cache, hcache⟩ := hserved.spare hoptions hinner
    exact .other (fun h => hother (Option.some.inj (htemplate.symm.trans (horders h)))) hcache

/-- **What a request does to the world of the saga**, and what is heard of it. -/
theorem step_orders (hstep : step lib (withOrders lua toRfc3339 rest) w req = some w') :
    ∃ reply, reply.1 = req ∧ w'.replies = w.replies ++ [reply] ∧
      ((¬acknowledged reply ∧
          ∃ cache, w'.state.others.1 = { w.state.others.1 with cache := cache }) ∨
        ∃ payload order db response, reply.2 = req.ext.outside.ending.reply response ∧
          Places toRfc3339 req w.state.others.1 payload order db response w'.state.others.1) := by
  obtain ⟨response, s', rfl, horders⟩ := served_orders hstep
  refine ⟨_, rfl, w.replies_next req response s', ?_⟩
  have hunheard : ∀ executed, ¬acknowledged (req, (Ending.dropped executed).reply response) :=
    fun _ h => Option.some_ne_none _ h.2.2.symm
  rw [w.others_next]
  by_cases hending : req.ext.outside.ending = .dropped false
  · rw [if_pos hending, hending]
    exact .inl ⟨hunheard false, w.state.others.1.cache, rfl⟩
  rw [if_neg hending]
  cases horders with
  | other hquiet hworld =>
      refine .inl ⟨?_, _, hworld⟩
      cases hdropped : req.ext.outside.ending with
      | answered => exact hquiet
      | dropped executed => exact hunheard executed
  | places hplaces => exact .inr ⟨_, _, _, response, rfl, hplaces⟩

end Axes.Http
