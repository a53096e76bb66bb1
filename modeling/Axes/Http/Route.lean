import Axes.Bakeries.Basic
import Axes.Lib.Router
import Axes.Lib.Serde
import Axes.Lib.Text
import Axes.Orders.Store

/-!
# The HTTP service (`route.rs`, `utils/jwt_auth.rs`, `handlers`)

The router with its layers, and the handlers of users, tokens and bakeries. The handlers of
orders, of the leaderboard and of the chat come in as `Others`: they work on a state of their
own. What a request meets outside (the clock, the pools, the database) is part of the request.
-/

namespace Axes.Http

open Axes.Lib Axes.Lib.Web Axes.Bakeries Axes.Orders

/-! ## Tokens -/

structure Claims where
  sub : String
  company : String
  exp : Nat
  deriving DecidableEq

/-- `Display` -/
def Claims.text (claims : Claims) : String :=
  s!"Sub: {claims.sub}\nCompany: {claims.company}\nExpiration: {claims.exp}"

structure AuthPayload where
  clientId : String
  clientSecret : String

/-- The libraries: tokens under the keys of the service, and `f64`s in JSON. -/
structure Libraries where
  /-- `jsonwebtoken::encode` -/
  encode : Claims → Option String
  /-- The claims of a token with the right form and signature. -/
  verify : String → Option Claims
  f64 : Json.Number → Option Float
  f64Json : Float → Json

/-- `Validation::default`: a token counts for a minute longer than it says. -/
def leeway : Nat := 60

/-- `jsonwebtoken::decode` -/
def Libraries.decode (lib : Libraries) (now : Nat) (token : String) : Option Claims :=
  (lib.verify token).filter fun claims => now ≤ claims.exp + leeway

/-! ## Requests and the state -/

structure CurrentUser where
  id : Nat
  username : String
  email : String

/-- What becomes of a statement or a command that is sent out. -/
inductive Fate
  | answered
  | unreachable
  /-- It is executed, and the reply is lost. -/
  | lost
  deriving DecidableEq

/-- What the transaction of an order draws. -/
structure OrderDraw where
  utcNow : DateTime
  orderId : Uuid
  messageId : Uuid
  outboxId : Int

/-- How a request ends. -/
inductive Ending
  | answered
  /-- Its client is gone or the server is killed, before or after what it does outside. -/
  | dropped (executed : Bool)
  deriving DecidableEq

/-- What a request meets outside of the service. -/
structure Outside where
  now : Nat
  readConn : Except String Unit
  writeConn : Except String Unit
  /-- The fate of the statement, or of the `COMMIT` of a transaction. -/
  sql : Fate
  /-- The id the database draws for a row. -/
  drawn : Int
  /-- The table as the database that is read shows it. -/
  shown : Table
  redis : Fate
  order : OrderDraw
  /-- The orders as the database that is read shows them. -/
  shownOrders : Database
  ending : Ending

/-- `JsonRejection`, of a body that cannot be deserialized. -/
inductive JsonRejection
  | dataError | syntaxError | missingContentType | lengthLimit | unknownBody

def JsonRejection.status : JsonRejection → Nat
  | .dataError => 422
  | .syntaxError => 400
  | .missingContentType => 415
  | .lengthLimit => 413
  | .unknownBody => 400

structure Extras where
  /-- The token of the `Authorization` header. -/
  bearer : Option String
  currentUser : Option CurrentUser
  body : Except JsonRejection Json
  /-- The query of a listing, when it can be deserialized. -/
  query : Option CursorParams
  outside : Outside

structure HttpMetric where
  method : String
  route : String
  statusCode : Nat
  deriving DecidableEq

structure AppState (σ : Type) where
  bakeries : Table
  /-- The tokens that have been handed out. -/
  signed : List (Claims × String)
  metrics : List HttpMetric
  others : σ

abbrev HttpRequest := Request Extras

abbrev HttpHandler (σ : Type) := Handler Extras (AppState σ)

abbrev HttpLayer (σ : Type) := Layer Extras (AppState σ)

/-! ## Responses -/

inductive AuthError
  | invalidToken | wrongCredential | missingCredential | tokenCreation
  | userDoesNotExist | userAlreadyExits

/-- `AppError::from` -/
def AuthError.toAppError : AuthError → AppError
  | .invalidToken => .new "Invalid token" 401
  | .missingCredential => .new "Missing credential" 400
  | .tokenCreation => .new "Failed to create token" 500
  | .wrongCredential => .new "Wrong credentials" 401
  | .userDoesNotExist => .new "User does not exist" 401
  | .userAlreadyExits => .new "User already exists" 400

def text (text : String) : Json := .str (some text)

/-- `AppError::into_response` -/
def intoResponse (error : AppError) : Response :=
  let details := error.reason.toList.map fun reason =>
    (some "error_details", Json.obj [(some "reason", text reason)])
  ⟨error.status, .json (.obj ((some "error", text error.error) :: details))⟩

def internalServerError : AppError := .new "Internal server error" 500

/-! ## Extractors -/

/-- `Json<T>` -/
def extractJson {α : Type} (read : Json → Option α) (req : HttpRequest) : Except Response α :=
  match req.ext.body with
  | .error rejection => .error ⟨rejection.status, .rejection⟩
  | .ok json =>
      match read json with
      | some payload => .ok payload
      | none => .error ⟨JsonRejection.dataError.status, .rejection⟩

/-- `Path<i32>` -/
def extractId (req : HttpRequest) : Except Response Int :=
  match ((req.params.lookup "id").bind percentDecode).bind fun id =>
      (Text.parseInt id).bind int4 with
  | some id => .ok id
  | none => .error ⟨400, .rejection⟩

/-- `acquire_db_conn` -/
def acquireDbConn (conn : Except String Unit) : Except Response Unit :=
  match conn with
  | .ok () => .ok ()
  | .error error => .error ⟨500, .text error⟩

variable {σ : Type} (lib : Libraries)

/-- `Claims::from_request_parts` -/
def extractClaims (req : HttpRequest) : Except Response Claims :=
  match req.ext.bearer.bind (lib.decode req.ext.outside.now) with
  | some claims => .ok claims
  | none => .error (intoResponse AuthError.invalidToken.toAppError)

/-- The members of a struct. -/
def members (names : List String) (json : Json) : Option (String → Option Json) :=
  (Serde.fieldMembers names json).map fun ms name => ms.lookup name

def readF64 : Json → Option Float
  | .num number => lib.f64 number
  | _ => none

def readInt4 (json : Json) : Option Int := (Serde.readInt json).bind int4

def AuthPayload.ofJson (json : Json) : Option AuthPayload := do
  let get ← members ["client_id", "client_secret"] json
  let clientId ← Serde.field Serde.string (get "client_id")
  let clientSecret ← Serde.field Serde.string (get "client_secret")
  pure ⟨clientId, clientSecret⟩

def createDto (json : Json) : Option CreateDto := do
  let get ← members ["name", "profit_margin"] json
  let name ← Serde.field Serde.string (get "name")
  let profitMargin ← (get "profit_margin").bind (readF64 lib)
  pure ⟨name, profitMargin⟩

def updateDto (json : Json) : Option UpdateDto := do
  let get ← members ["id", "name", "profit_margin"] json
  let id ← (get "id").bind readInt4
  let name ← Serde.field Serde.string (get "name")
  let profitMargin ← (get "profit_margin").bind (readF64 lib)
  pure ⟨id, name, profitMargin⟩

def deleteDto (json : Json) : Option DeleteDto := do
  let get ← members ["id"] json
  let id ← (get "id").bind readInt4
  pure ⟨id⟩

/-! ## Handlers -/

def index : HttpHandler σ := fun _ s => (some ⟨200, .text "Index from Axum"⟩, s)

def global404 : HttpHandler σ := fun _ s => (some ⟨404, .text "Nothing flourished here."⟩, s)

namespace Users

def list : HttpHandler σ := fun _ s => (some ⟨200, .text "Users List"⟩, s)

def detail : HttpHandler σ := fun req s =>
  match extractId req with
  | .error response => (some response, s)
  | .ok id => (some ⟨200, .text s!"Hello, user-{id}"⟩, s)

end Users

namespace Auth

/-- `unimplemented!()` -/
def register : HttpHandler σ := fun _ s => (none, s)

def getTimestampXDaysFromNow (now days : Nat) : Nat := now + days * 86400

def claims (now : Nat) : Claims :=
  ⟨"rc@me.com", "raincloud", getTimestampXDaysFromNow now 15⟩

/-- `Json(AuthBody::new(token))` -/
def authBody (token : String) : Json :=
  .obj [(some "access_token", text token), (some "token_type", text "Bearer")]

def login : HttpHandler σ := fun req s =>
  match extractJson AuthPayload.ofJson req with
  | .error response => (some response, s)
  | .ok payload =>
      if payload.clientId = "" ∨ payload.clientSecret = "" then
        (some (intoResponse AuthError.missingCredential.toAppError), s)
      else if payload.clientId ≠ "Foo" ∨ payload.clientSecret ≠ "bar" then
        (some (intoResponse AuthError.wrongCredential.toAppError), s)
      else
        let claims := claims req.ext.outside.now
        match lib.encode claims with
        | none => (some (intoResponse AuthError.tokenCreation.toAppError), s)
        | some token =>
            (some ⟨200, .json (authBody token)⟩, { s with signed := s.signed ++ [(claims, token)] })

/-- `protected` -/
def protectedArea : HttpHandler σ := fun req s =>
  match extractClaims lib req with
  | .error response => (some response, s)
  | .ok claims =>
      match req.ext.currentUser with
      | none => (some ⟨500, .rejection⟩, s)
      | some user =>
          let greeting := s!"Hello, {user.username}. Welcome to the protected area :)"
          (some ⟨200, .text s!"{greeting}\nYour data:\n{claims.text}"⟩, s)

end Auth

namespace Bakery

def json (bakery : Bakeries.Bakery) : Json :=
  .obj [(some "id", .num (.ofInt bakery.id)), (some "name", text bakery.name),
    (some "profit_margin", lib.f64Json bakery.profitMargin)]

def optionalInt : Option Int → Json
  | some n => .num (.ofInt n)
  | none => .null

def pageJson (page : CursorPage) : Json :=
  .obj [(some "data", .arr (page.data.map (json lib))), (some "after", optionalInt page.after),
    (some "size", .num (.ofInt page.size)), (some "next_cursor", optionalInt page.nextCursor),
    (some "has_more", .bool page.hasMore)]

def listByCursor : HttpHandler σ := fun req s =>
  match acquireDbConn req.ext.outside.readConn with
  | .error response => (some response, s)
  | .ok () =>
      match req.ext.query with
      | none => (some ⟨400, .rejection⟩, s)
      | some params =>
          if req.ext.outside.sql = .answered then
            let page := Bakeries.listByCursor (2 ^ 64 - 1) params req.ext.outside.shown
            (some ⟨200, .json (pageJson lib page)⟩, s)
          else (some (intoResponse internalServerError), s)

def detail : HttpHandler σ := fun req s =>
  match acquireDbConn req.ext.outside.readConn with
  | .error response => (some response, s)
  | .ok () =>
      match extractId req with
      | .error response => (some response, s)
      | .ok bid =>
          if req.ext.outside.sql = .answered then
            match req.ext.outside.shown.rows.find? fun row => row.id = bid with
            | some bakery => (some ⟨200, .json (json lib bakery)⟩, s)
            | none => (some ⟨404, .json (json lib ⟨0, "Not found", 0.0⟩)⟩, s)
          else (some (intoResponse internalServerError), s)

/-- A handler that writes the table: the connection, the payload, the statement. -/
def write {α : Type} (read : Json → Option α) (statement : Outside → α → Table → Option Table)
    (status : Nat) : HttpHandler σ := fun req s =>
  match acquireDbConn req.ext.outside.writeConn with
  | .error response => (some response, s)
  | .ok () =>
      match extractJson read req with
      | .error response => (some response, s)
      | .ok payload =>
          match statement req.ext.outside payload s.bakeries with
          | none => (some (intoResponse internalServerError), s)
          | some bakeries =>
              match req.ext.outside.sql with
              | .answered => (some ⟨status, .empty⟩, { s with bakeries := bakeries })
              | .unreachable => (some (intoResponse internalServerError), s)
              | .lost => (some (intoResponse internalServerError), { s with bakeries := bakeries })

def create : HttpHandler σ :=
  write (createDto lib) (fun outside payload table => table.create outside.drawn payload) 201

def update : HttpHandler σ :=
  write (updateDto lib) (fun _ payload table => some (table.update payload)) 200

def delete : HttpHandler σ :=
  write deleteDto (fun _ payload table => some (table.delete payload)) 200

end Bakery

/-- The handlers that work on the other state. -/
structure Others (σ : Type) where
  createOrder : Handler Extras σ
  orderDetail : Handler Extras σ
  incrHotScore : Handler Extras σ
  hotTop : Handler Extras σ
  claimStock : Handler Extras σ
  connect : Handler Extras σ

def onOthers (handler : Handler Extras σ) : HttpHandler σ := fun req s =>
  let (response, others) := handler req s.others
  (response, { s with others := others })

/-! ## Layers -/

/-- `middleware::from_extractor::<Claims>` -/
def claimsLayer : HttpLayer σ := fun next req s =>
  match extractClaims lib req with
  | .error response => (some response, s)
  | .ok _ => next req s

def global405 : HttpLayer σ := fun next req s =>
  let (response, s) := next req s
  (response.map fun response =>
    if response.status = 405 then
      ⟨405, .json (.obj [(some "msg", text "Method Not Allowed"),
        (some "code", .num (.ofInt 1005))])⟩
    else response, s)

/-- `CatchPanicLayer::custom` -/
def catchPanic : HttpLayer σ := fun next req s =>
  let (response, s) := next req s
  (some (response.getD ⟨500, .json (.obj [(some "code", text "panic"),
    (some "message", text "internal server error")])⟩), s)

/-- `CorsLayer`, which answers a preflight request itself. -/
def cors : HttpLayer σ := fun next req s =>
  if req.method = .options then (some ⟨200, .empty⟩, s) else next req s

def auth : HttpLayer σ := fun next req s =>
  next { req with ext := { req.ext with currentUser := some ⟨1, "rc", "rc@axes.com"⟩ } } s

/-- `http_observability` -/
def httpObservability : HttpLayer σ := fun next req s =>
  let route := (req.matchedPath.map templateText).getD (pathText req.path)
  match next req s with
  | (some response, s) =>
      (some response, { s with
        metrics := s.metrics ++ [⟨req.method.text, route, response.status⟩] })
  | (none, s) => (none, s)

/-! ## The router -/

def userRouter : Router Extras (AppState σ) :=
  Router.new
    |>.route [.static ""] (on .get Users.list)
    |>.route [.param "id"] (on .get Users.detail)
    |>.layer (claimsLayer lib)

def authRouter : Router Extras (AppState σ) :=
  Router.new
    |>.route [.static "register"] (on .post Auth.register)
    |>.route [.static "login"] (on .post (Auth.login lib))
    |>.route [.static "protected"] (on .get (Auth.protectedArea lib))

def bakeryRouter : Router Extras (AppState σ) :=
  Router.new
    |>.route [.static "create"] (on .post (Bakery.create lib))
    |>.route [.static "update"] (on .post (Bakery.update lib))
    |>.route [.static "delete"] (on .post Bakery.delete)
    |>.layer (claimsLayer lib)
    |>.route [.static ""] (on .get (Bakery.listByCursor lib))
    |>.route [.param "id"] (on .get (Bakery.detail lib))

variable (others : Others σ)

def hotRouter : Router Extras (AppState σ) :=
  Router.new
    |>.route [.param "item_id", .static "incr"] (on .post (onOthers others.incrHotScore))
    |>.route [.static "top"] (on .get (onOthers others.hotTop))
    |>.route [.static "stock", .param "item_id", .static "claim"]
      (on .post (onOthers others.claimStock))

def ordersRouter : Router Extras (AppState σ) :=
  Router.new
    |>.route [.static ""] (on .post (onOthers others.createOrder))
    |>.route [.param "id"] (on .get (onOthers others.orderDetail))

def chatRouter : Router Extras (AppState σ) :=
  Router.new.route [.static "connect"] (on .get (onOthers others.connect))

/-- The router inside of the layers. -/
def routes : Router Extras (AppState σ) :=
  Router.new
    |>.route [.static ""] (on .get index)
    |>.nest [.static "api", .static "users"] (userRouter lib)
    |>.nest [.static "api", .static "auth"] (authRouter lib)
    |>.nest [.static "api", .static "bakery"] (bakeryRouter lib)
    |>.nest [.static "api", .static "orders"] (ordersRouter others)
    |>.nest [.static "api", .static "hot"] (hotRouter others)
    |>.nest [.static "api", .static "chat"] (chatRouter others)
    |>.withFallback global404

def route : Router Extras (AppState σ) :=
  (routes lib others)
    |>.layer global405
    |>.layer catchPanic
    |>.layer cors
    |>.layer auth
    |>.layer httpObservability

end Axes.Http
