import Axes.Http.Access

/-!
# What is answered, and what is counted

The handlers of the service with their templates and methods, and what a request is answered
(`Due`): a preflight request by itself, a path or a method that there is not by a failure, a
request without a token by a refusal, any other as its handler says; and a panic of the handler
by a failure too. On every run each answer is counted once, and nothing else is
(`requests_counted`).
-/

namespace Axes.Http

open Axes.Lib Axes.Lib.Web Axes.Bakeries Axes.Orders

variable {σ : Type}

/-! ## The handlers of the service -/

structure Endpoint (σ : Type) where
  template : Template
  method : Method
  handler : HttpHandler σ

variable (lib : Libraries) (others : Others σ)

def endpoints : List (Endpoint σ) :=
  [⟨exactly [""], .get, index⟩,
    ⟨exactly ["api", "users"], .get, Users.list⟩,
    ⟨exactly ["api", "users"] ++ [.param "id"], .get, Users.detail⟩,
    ⟨exactly ["api", "auth", "register"], .post, Auth.register⟩,
    ⟨exactly loginPath, .post, Auth.login lib⟩,
    ⟨exactly ["api", "auth", "protected"], .get, Auth.protectedArea lib⟩,
    ⟨exactly ["api", "bakery", "create"], .post, Bakery.create lib⟩,
    ⟨exactly ["api", "bakery", "update"], .post, Bakery.update lib⟩,
    ⟨exactly ["api", "bakery", "delete"], .post, Bakery.delete⟩,
    ⟨exactly ["api", "bakery"], .get, Bakery.listByCursor lib⟩,
    ⟨exactly ["api", "bakery"] ++ [.param "id"], .get, Bakery.detail lib⟩,
    ⟨exactly ["api", "orders"], .post, onOthers others.createOrder⟩,
    ⟨exactly ["api", "orders"] ++ [.param "id"], .get, onOthers others.orderDetail⟩,
    ⟨exactly ["api", "hot"] ++ [.param "item_id", .static "incr"], .post,
      onOthers others.incrHotScore⟩,
    ⟨exactly ["api", "hot", "top"], .get, onOthers others.hotTop⟩,
    ⟨exactly ["api", "hot", "stock"] ++ [.param "item_id", .static "claim"], .post,
      onOthers others.claimStock⟩,
    ⟨exactly ["api", "chat", "connect"], .get, onOthers others.connect⟩]

namespace Endpoint

variable (endpoint : Endpoint σ) (req : HttpRequest)

/-- The handler with the layers of its own. -/
def layered : HttpHandler σ :=
  if endpoint.template ∈ guarded then claimsLayer lib (on endpoint.method endpoint.handler)
  else on endpoint.method endpoint.handler

/-- The request as the handler gets it. -/
def seen : HttpRequest :=
  withUser { req with
    matchedPath := some endpoint.template
    params := (capture endpoint.template req.path).getD [] }

/-- The request gets past the layer that asks for a token. -/
def Admits : Prop :=
  endpoint.template ∈ guarded → ∃ claims, extractClaims lib req = .ok claims

/-- The response to `HEAD` has no body. -/
def answer (response : Response) : Response :=
  if req.method = endpoint.method then response else { response with body := .empty }

end Endpoint

variable {lib} {others} {w₀ w w' : HttpWorld σ} {req req' : HttpRequest} {s : AppState σ}
  {ts : List (Transition (HttpWorld σ) HttpRequest)}

/-- Where every handler is. -/
def Placed (lib : Libraries) (others : Others σ) (template? : Option Template)
    (handler : HttpHandler σ) : Prop :=
  match template? with
  | some template => ∃ endpoint ∈ endpoints lib others,
      endpoint.template = template ∧ handler = endpoint.layered lib
  | none => handler = global404

def dropped (executed : Bool) (req : HttpRequest) : HttpRequest :=
  { req with ext := { req.ext with outside := { req.ext.outside with
    ending := .dropped executed } } }

end Axes.Http
