import Axes.Http.Route

/-!
# What the handlers may do

The layer that asks for a token is around the routes that were there when it was added.
`Lawful` says what a handler may do under its template: the table changes only by the three
handlers that write, for a request with a token that counts; tokens are made only by the login;
and under a template that asks for a token there is nothing to see without one. Every handler of
the service is lawful (`holds_routes`), and what is around them all is `served`.
-/

namespace Axes.Http

open Axes.Lib Axes.Lib.Web Axes.Bakeries Axes.Orders

variable {σ : Type} (lib : Libraries) (others : Others σ)

def loginPath : List String := ["api", "auth", "login"]

/-- The templates that ask for a token. -/
def guarded : List Template :=
  [exactly ["api", "users"], exactly ["api", "users"] ++ [.param "id"],
    exactly ["api", "bakery", "create"], exactly ["api", "bakery", "update"],
    exactly ["api", "bakery", "delete"]]

/-- The templates of the handlers that work on the other state. -/
def elsewhere : List Template :=
  [exactly ["api", "orders"], exactly ["api", "orders"] ++ [.param "id"],
    exactly ["api", "hot"] ++ [.param "item_id", .static "incr"], exactly ["api", "hot", "top"],
    exactly ["api", "hot", "stock"] ++ [.param "item_id", .static "claim"],
    exactly ["api", "chat", "connect"]]

def unauthorized : Response := intoResponse AuthError.invalidToken.toAppError

/-- A change of the table by the handler of a path. -/
inductive Wrote (req : HttpRequest) (table : Table) : List String → Table → Prop
  | create {payload : CreateDto} {table' : Table}
      (hread : extractJson (createDto lib) req = .ok payload)
      (hwrite : table.create req.ext.outside.drawn payload = some table') :
      Wrote req table ["api", "bakery", "create"] table'
  | update {payload : UpdateDto} (hread : extractJson (updateDto lib) req = .ok payload) :
      Wrote req table ["api", "bakery", "update"] (table.update payload)
  | delete {payload : DeleteDto} (hread : extractJson deleteDto req = .ok payload) :
      Wrote req table ["api", "bakery", "delete"] (table.delete payload)

/-- A login with the right credentials. -/
structure LogsIn (req : HttpRequest) (token : String) : Prop where
  method : req.method = .post
  credentials : extractJson AuthPayload.ofJson req = .ok ⟨"Foo", "bar"⟩
  token : lib.encode (Auth.claims req.ext.outside.now) = some token

/-- The status a change is reported with, by the path of the handler. -/
def success : List String → Option Nat
  | ["api", "bakery", "create"] => some 201
  | ["api", "bakery", "update"] => some 200
  | ["api", "bakery", "delete"] => some 200
  | _ => none

/-- A response that reports a change of the table. -/
def Reports (template? : Option Template) (req : HttpRequest) (response? : Option Response) :
    Prop :=
  req.method = .post ∧ ∃ path done body, template? = some (exactly path) ∧
    success path = some done ∧ response? = some ⟨done, body⟩

/-- A response that says nothing, for want of the reply to the statement. -/
def ReplyLost (req : HttpRequest) (response? : Option Response) : Prop :=
  req.method = .post ∧ req.ext.outside.sql = .lost ∧
    response? = some (intoResponse internalServerError)

/-- What a handler under a template may do. -/
structure Lawful (template? : Option Template) (handler : HttpHandler σ) : Prop where
  table : ∀ req s,
    ¬Reports template? req (handler req s).1 ∧ (handler req s).2.bakeries = s.bakeries ∨
    (Reports template? req (handler req s).1 ∨
        ¬Reports template? req (handler req s).1 ∧ ReplyLost req (handler req s).1) ∧
      (∃ claims, extractClaims lib req = .ok claims) ∧ ∃ path, template? = some (exactly path) ∧
        Wrote lib req s.bakeries path (handler req s).2.bakeries
  signed : ∀ req s, (handler req s).2.signed = s.signed ∨
    template? = some (exactly loginPath) ∧ ∃ token, LogsIn lib req token ∧
      (handler req s).2.signed = s.signed ++ [(Auth.claims req.ext.outside.now, token)] ∧
      (handler req s).1 = some ⟨200, .json (Auth.authBody token)⟩
  metrics : ∀ req s, (handler req s).2.metrics = s.metrics
  others : (∀ template ∈ template?, template ∉ elsewhere) → ∀ req s,
    (handler req s).2.others = s.others
  refuses : ∀ template ∈ template?, template ∈ guarded → ∀ req s,
    (∀ claims, extractClaims lib req ≠ .ok claims) → handler req s = (some unauthorized, s)
  admits : ∀ template ∈ template?, template ∈ guarded → ∀ req s claims,
    extractClaims lib req = .ok claims → ∀ response ∈ (handler req s).1, response.status ≠ 401

variable {lib} {template? : Option Template} {handler : HttpHandler σ}

theorem success_guarded {path : List String} {done : Nat} (h : success path = some done) :
    exactly path ∈ guarded := by
  unfold success at h
  split at h
  · decide
  · decide
  · decide
  · cases h

theorem success_lt {path : List String} {done : Nat} (h : success path = some done) :
    done < 400 := by
  unfold success at h
  split at h <;> cases h <;> decide

theorem not_reports_of_open {req : HttpRequest} {response? : Option Response}
    (hopen : ∀ template ∈ template?, template ∉ guarded) : ¬Reports template? req response? := by
  intro h
  obtain ⟨-, path, done, body, htemplate, hsuccess, -⟩ := h
  exact hopen _ htemplate (success_guarded hsuccess)

theorem not_reports_of_failed {req : HttpRequest} {response? : Option Response}
    (hfailed : ∀ response ∈ response?, 400 ≤ response.status) :
    ¬Reports template? req response? := by
  intro h
  obtain ⟨-, path, done, body, -, hsuccess, hresponse⟩ := h
  have hdone := success_lt hsuccess
  have hstatus : 400 ≤ done := hfailed _ hresponse
  omega

/-! ## Handlers that read -/

/-- A handler that leaves the table, the tokens and the metrics alone. -/
def Quiet (handler : HttpHandler σ) : Prop :=
  ∀ req s, (handler req s).2.bakeries = s.bakeries ∧ (handler req s).2.signed = s.signed ∧
    (handler req s).2.metrics = s.metrics

theorem Quiet.lawful (h : Quiet handler) (hopen : ∀ template ∈ template?, template ∉ guarded)
    (hothers : (∀ template ∈ template?, template ∉ elsewhere) →
      ∀ req s, (handler req s).2.others = s.others) : Lawful lib template? handler where
  table req s := .inl ⟨not_reports_of_open hopen, (h req s).1⟩
  signed req s := .inl (h req s).2.1
  metrics req s := (h req s).2.2
  others := hothers
  refuses template htemplate hguarded := absurd hguarded (hopen template htemplate)
  admits template htemplate hguarded := absurd hguarded (hopen template htemplate)

theorem Quiet.on (h : Quiet handler) (method : Method) : Quiet (on method handler) := by
  intro req s
  unfold Web.on
  split
  · exact h req s
  split
  · exact h req s
  · exact ⟨rfl, rfl, rfl⟩

theorem quiet_onOthers (handler : Handler Extras σ) : Quiet (onOthers handler) :=
  fun _ _ => ⟨rfl, rfl, rfl⟩

/-- A handler that leaves everything alone. -/
def Still (handler : HttpHandler σ) : Prop := ∀ req s, (handler req s).2 = s

theorem Still.quiet (h : Still handler) : Quiet handler := by
  intro req s
  rw [h req s]
  exact ⟨rfl, rfl, rfl⟩

theorem Still.lawful (h : Still handler) (hopen : ∀ template ∈ template?, template ∉ guarded) :
    Lawful lib template? handler := by
  refine h.quiet.lawful hopen ?_
  intro _ req s
  rw [h req s]

theorem Still.on (h : Still handler) (method : Method) : Still (on method handler) := by
  intro req s
  unfold Web.on
  split
  · exact h req s
  split
  · exact h req s
  · rfl

theorem still_notFound : Still (fun _ s => (some ⟨404, .empty⟩, s) : HttpHandler σ) :=
  fun _ _ => rfl

/-- The fallback is under no template. -/
theorem Still.fallback (h : Still handler) : Lawful lib none handler := by
  refine h.lawful ?_
  intro template htemplate
  cases htemplate

theorem still_index : Still (index : HttpHandler σ) := fun _ _ => rfl

theorem still_global404 : Still (global404 : HttpHandler σ) := fun _ _ => rfl

theorem still_list : Still (Users.list : HttpHandler σ) := fun _ _ => rfl

theorem still_register : Still (Auth.register : HttpHandler σ) := fun _ _ => rfl

theorem still_userDetail : Still (Users.detail : HttpHandler σ) := by
  intro req s
  unfold Users.detail
  split <;> rfl

theorem still_protectedArea : Still (Auth.protectedArea lib : HttpHandler σ) := by
  intro req s
  unfold Auth.protectedArea
  split
  · rfl
  split <;> rfl

theorem still_listByCursor : Still (Bakery.listByCursor lib : HttpHandler σ) := by
  intro req s
  unfold Bakery.listByCursor
  split
  · rfl
  split
  · rfl
  split <;> rfl

theorem still_bakeryDetail : Still (Bakery.detail lib : HttpHandler σ) := by
  intro req s
  unfold Bakery.detail
  split
  · rfl
  split
  · rfl
  split
  · split <;> rfl
  · rfl

/-! ## Handlers that write -/

theorem on_post (handler : HttpHandler σ) (req : HttpRequest) (s : AppState σ) :
    req.method = .post ∧ on .post handler req s = handler req s ∨
      on .post handler req s = (some ⟨405, .empty⟩, s) := by
  unfold on
  by_cases hpost : req.method = .post
  · exact .inl ⟨hpost, if_pos hpost⟩
  · rw [if_neg hpost, if_neg fun h => absurd h.2 (by decide)]
    exact .inr rfl

/-- What a login does. -/
theorem login_cases (lib : Libraries) (req : HttpRequest) (s : AppState σ) :
    (Auth.login lib req s).2 = s ∨
      ∃ token, extractJson AuthPayload.ofJson req = .ok ⟨"Foo", "bar"⟩ ∧
        lib.encode (Auth.claims req.ext.outside.now) = some token ∧
        Auth.login lib req s = (some ⟨200, .json (Auth.authBody token)⟩,
          { s with signed := s.signed ++ [(Auth.claims req.ext.outside.now, token)] }) := by
  unfold Auth.login
  cases hread : extractJson AuthPayload.ofJson req with
  | error response => exact .inl rfl
  | ok payload =>
      dsimp only
      split
      · exact .inl rfl
      split
      · exact .inl rfl
      next hright =>
        obtain ⟨clientId, clientSecret⟩ := payload
        obtain ⟨rfl, rfl⟩ : clientId = "Foo" ∧ clientSecret = "bar" := by
          simpa only [ne_eq, not_or, not_not] using hright
        cases htoken : lib.encode (Auth.claims req.ext.outside.now) with
        | none => exact .inl rfl
        | some token => exact .inr ⟨token, rfl, rfl, rfl⟩

theorem lawful_login :
    Lawful lib (some (exactly loginPath)) (on .post (Auth.login lib) : HttpHandler σ) := by
  have hcases : ∀ (req : HttpRequest) (s : AppState σ),
      (on .post (Auth.login lib) req s).2 = s ∨ ∃ token, LogsIn lib req token ∧
        on .post (Auth.login lib) req s = (some ⟨200, .json (Auth.authBody token)⟩,
          { s with signed := s.signed ++ [(Auth.claims req.ext.outside.now, token)] }) := by
    intro req s
    rcases on_post (Auth.login lib) req s with ⟨hpost, hon⟩ | hon
    · rw [hon]
      rcases login_cases lib req s with hsame | ⟨token, hcredentials, htoken, hlogin⟩
      · exact .inl hsame
      · exact .inr ⟨token, ⟨hpost, hcredentials, htoken⟩, hlogin⟩
    · rw [hon]
      exact .inl rfl
  have hopen : exactly loginPath ∉ guarded := by decide
  refine ⟨?_, ?_, ?_, ?_, ?_, ?_⟩
  · intro req s
    refine .inl ⟨not_reports_of_open fun template htemplate => ?_, ?_⟩
    · cases htemplate
      exact hopen
    rcases hcases req s with hsame | ⟨token, -, hlogin⟩
    · rw [hsame]
    · rw [hlogin]
  · intro req s
    rcases hcases req s with hsame | ⟨token, hlogs, hlogin⟩
    · exact .inl (by rw [hsame])
    · rw [hlogin]
      exact .inr ⟨rfl, token, hlogs, rfl, rfl⟩
  · intro req s
    rcases hcases req s with hsame | ⟨token, -, hlogin⟩
    · rw [hsame]
    · rw [hlogin]
  · intro _ req s
    rcases hcases req s with hsame | ⟨token, -, hlogin⟩
    · rw [hsame]
    · rw [hlogin]
  · intro template htemplate hguarded
    cases htemplate
    exact absurd hguarded hopen
  · intro template htemplate hguarded
    cases htemplate
    exact absurd hguarded hopen

/-- A response of failure, and not for want of a token. -/
def Failed (response : Response) : Prop := 400 ≤ response.status ∧ response.status ≠ 401

theorem failed_internal : Failed (intoResponse internalServerError) := by
  show 400 ≤ 500 ∧ 500 ≠ 401
  omega

theorem extractJson_failed {α : Type} {read : Json → Option α} {req : HttpRequest}
    {response : Response} (h : extractJson read req = .error response) : Failed response := by
  have hrejection : ∀ rejection : JsonRejection,
      400 ≤ rejection.status ∧ rejection.status ≠ 401 := by
    intro rejection
    cases rejection <;> decide
  unfold extractJson at h
  split at h
  · next rejection _ =>
      cases h
      exact hrejection rejection
  · split at h
    · cases h
    · cases h
      exact hrejection .dataError

theorem acquireDbConn_failed {conn : Except String Unit} {response : Response}
    (h : acquireDbConn conn = .error response) : Failed response := by
  unfold acquireDbConn at h
  split at h
  · cases h
  · cases h
    show 400 ≤ 500 ∧ 500 ≠ 401
    omega

theorem extractId_failed {req : HttpRequest} {response : Response}
    (h : extractId req = .error response) : Failed response := by
  unfold extractId at h
  split at h
  · cases h
  · cases h
    show 400 ≤ 400 ∧ 400 ≠ 401
    omega

/-! ## Behind the layer that asks for a token -/

/-- A handler with nothing to say about tokens. -/
def Tokenless (handler : HttpHandler σ) : Prop :=
  ∀ req s, ∀ response ∈ (handler req s).1, response.status ≠ 401

theorem Tokenless.on (h : Tokenless handler) (method : Method) :
    Tokenless (on method handler) := by
  intro req s response hresponse
  unfold Web.on at hresponse
  split at hresponse
  · exact h req s response hresponse
  split at hresponse
  · obtain ⟨full, hfull, rfl⟩ := Option.map_eq_some_iff.mp hresponse
    exact h req s full hfull
  · cases hresponse
    show (405 : Nat) ≠ 401
    decide

theorem tokenless_notFound :
    Tokenless (fun _ s => (some ⟨404, .empty⟩, s) : HttpHandler σ) := by
  intro req s response hresponse
  cases hresponse
  show (404 : Nat) ≠ 401
  decide

theorem tokenless_list : Tokenless (Users.list : HttpHandler σ) := by
  intro req s response hresponse
  cases hresponse
  show (200 : Nat) ≠ 401
  decide

theorem tokenless_userDetail : Tokenless (Users.detail : HttpHandler σ) := by
  intro req s response hresponse
  unfold Users.detail at hresponse
  split at hresponse
  · next hid =>
      cases hresponse
      exact (extractId_failed hid).2
  · cases hresponse
    show (200 : Nat) ≠ 401
    decide

section Write

variable {α : Type} {read : Json → Option α} {statement : Outside → α → Table → Option Table}
  {status : Nat}

/-- **What a handler that writes does.** -/
theorem write_cases (req : HttpRequest) (s : AppState σ) :
    (∃ response, Failed response ∧
      Bakery.write read statement status req s = (some response, s)) ∨
      ∃ payload table, extractJson read req = .ok payload ∧
        statement req.ext.outside payload s.bakeries = some table ∧
        (Bakery.write read statement status req s =
            (some ⟨status, .empty⟩, { s with bakeries := table }) ∨
          req.ext.outside.sql = .lost ∧ Bakery.write read statement status req s =
            (some (intoResponse internalServerError), { s with bakeries := table })) := by
  unfold Bakery.write
  split
  · next response hconn => exact .inl ⟨response, acquireDbConn_failed hconn, rfl⟩
  split
  · next response hread => exact .inl ⟨response, extractJson_failed hread, rfl⟩
  next payload hread =>
    split
    · exact .inl ⟨_, failed_internal, rfl⟩
    next table hstatement =>
      split
      · exact .inr ⟨payload, table, hread, hstatement, .inl rfl⟩
      · exact .inl ⟨_, failed_internal, rfl⟩
      · next hlost => exact .inr ⟨payload, table, hread, hstatement, .inr ⟨hlost, rfl⟩⟩

theorem tokenless_write (hstatus : status ≠ 401) :
    Tokenless (Bakery.write read statement status : HttpHandler σ) := by
  intro req s response hresponse
  rcases write_cases req s with
    ⟨failure, hfailed, hwrite⟩ | ⟨payload, table, -, -, hwrite | ⟨-, hwrite⟩⟩
  · rw [hwrite] at hresponse
    obtain rfl := Option.some.inj hresponse
    exact hfailed.2
  · rw [hwrite] at hresponse
    obtain rfl := Option.some.inj hresponse
    exact hstatus
  · rw [hwrite] at hresponse
    obtain rfl := Option.some.inj hresponse
    exact failed_internal.2

end Write

/-- The layer, with a token that counts and without one. -/
theorem claimsLayer_cases (handler : HttpHandler σ) (req : HttpRequest) (s : AppState σ) :
    (∃ claims, extractClaims lib req = .ok claims) ∧
        claimsLayer lib handler req s = handler req s ∨
      (∀ claims, extractClaims lib req ≠ .ok claims) ∧
        claimsLayer lib handler req s = (some unauthorized, s) := by
  unfold claimsLayer
  cases hclaims : extractClaims lib req with
  | ok claims => exact .inl ⟨⟨claims, rfl⟩, rfl⟩
  | error response =>
      refine .inr ⟨fun claims hok => (by cases hok), ?_⟩
      unfold extractClaims at hclaims
      split at hclaims
      · cases hclaims
      · cases hclaims
        rfl

theorem claimsLayer_admits {req : HttpRequest} {s : AppState σ} {claims : Claims}
    (hclaims : extractClaims lib req = .ok claims) :
    claimsLayer lib handler req s = handler req s := by
  rcases claimsLayer_cases handler req s with ⟨-, hlayer⟩ | ⟨hnone, -⟩
  · exact hlayer
  · exact absurd hclaims (hnone claims)

theorem claimsLayer_refuses {req : HttpRequest} {s : AppState σ}
    (hnone : ∀ claims, extractClaims lib req ≠ .ok claims) :
    claimsLayer lib handler req s = (some unauthorized, s) := by
  rcases claimsLayer_cases handler req s with ⟨⟨claims, hclaims⟩, -⟩ | ⟨-, hlayer⟩
  · exact absurd hclaims (hnone claims)
  · exact hlayer

variable (lib) in
/-- What a handler may do to the state: nothing that it reports, or a change of the table. -/
def Writes (template? : Option Template) (req : HttpRequest) (s : AppState σ)
    (outcome : Option Response × AppState σ) : Prop :=
  ¬Reports template? req outcome.1 ∧ outcome.2 = s ∨
    (Reports template? req outcome.1 ∨
        ¬Reports template? req outcome.1 ∧ ReplyLost req outcome.1) ∧
      ∃ path table, template? = some (exactly path) ∧ Wrote lib req s.bakeries path table ∧
        outcome.2 = { s with bakeries := table }

theorem Writes.only {req : HttpRequest} {s : AppState σ}
    {outcome : Option Response × AppState σ} (h : Writes lib template? req s outcome) :
    ∃ table, outcome.2 = { s with bakeries := table } := by
  rcases h with ⟨-, hsame⟩ | ⟨-, path, table, -, -, hwrite⟩
  · exact ⟨s.bakeries, hsame⟩
  · exact ⟨table, hwrite⟩

theorem Writes.failed {req : HttpRequest} {s : AppState σ} {response : Response}
    (h : 400 ≤ response.status) : Writes lib template? req s (some response, s) := by
  refine .inl ⟨not_reports_of_failed fun other hother => ?_, rfl⟩
  obtain rfl := Option.some.inj hother
  exact h

/-- **The layer in front of a handler.** -/
theorem lawful_claimsLayer (htokenless : Tokenless handler)
    (hwrites : ∀ req s, Writes lib template? req s (handler req s)) :
    Lawful lib template? (claimsLayer lib handler) := by
  have honly : ∀ req s, ∃ table,
      (claimsLayer lib handler req s).2 = { s with bakeries := table } := by
    intro req s
    rcases claimsLayer_cases handler req s with ⟨-, hlayer⟩ | ⟨-, hlayer⟩
    · rw [hlayer]
      exact (hwrites req s).only
    · rw [hlayer]
      exact ⟨s.bakeries, rfl⟩
  refine ⟨?_, ?_, ?_, ?_, fun _ _ _ req s => claimsLayer_refuses, ?_⟩
  · intro req s
    rcases claimsLayer_cases handler req s with ⟨hclaims, hlayer⟩ | ⟨-, hlayer⟩
    · rw [hlayer]
      rcases hwrites req s with ⟨hsilent, hsame⟩ |
        ⟨hanswer, path, table, htemplate, hwrote, hwrite⟩
      · exact .inl ⟨hsilent, by rw [hsame]⟩
      · refine .inr ⟨hanswer, hclaims, path, htemplate, ?_⟩
        rw [hwrite]
        exact hwrote
    · rw [hlayer]
      refine .inl ⟨not_reports_of_failed fun response hresponse => ?_, rfl⟩
      obtain rfl := Option.some.inj hresponse
      show 400 ≤ 401
      omega
  · intro req s
    obtain ⟨table, hstate⟩ := honly req s
    exact .inl (by rw [hstate])
  · intro req s
    obtain ⟨table, hstate⟩ := honly req s
    rw [hstate]
  · intro _ req s
    obtain ⟨table, hstate⟩ := honly req s
    rw [hstate]
  · intro _ _ _ req s claims hclaims response hresponse
    rw [claimsLayer_admits hclaims] at hresponse
    exact htokenless req s response hresponse

theorem lawful_write {α : Type} {read : Json → Option α}
    {statement : Outside → α → Table → Option Table} {status : Nat} (path : List String)
    (hsuccess : success path = some status)
    (hwrote : ∀ req payload table table', extractJson read req = .ok payload →
      statement req.ext.outside payload table = some table' → Wrote lib req table path table') :
    Lawful lib (some (exactly path))
      (claimsLayer lib (on .post (Bakery.write read statement status)) : HttpHandler σ) := by
  have hsmall := success_lt hsuccess
  refine lawful_claimsLayer ((tokenless_write (by omega)).on .post) ?_
  intro req s
  rcases on_post (Bakery.write read statement status) req s with ⟨hpost, hon⟩ | hon
  · rw [hon]
    rcases write_cases req s with ⟨failure, hfailed, hwrite⟩ |
      ⟨payload, table, hread, hstatement, hwrite | ⟨hlost, hwrite⟩⟩
    · rw [hwrite]
      exact .failed hfailed.1
    · rw [hwrite]
      exact .inr ⟨.inl ⟨hpost, path, status, .empty, rfl, hsuccess, rfl⟩, path, table, rfl,
        hwrote req payload _ table hread hstatement, rfl⟩
    · rw [hwrite]
      refine .inr ⟨.inr ⟨not_reports_of_failed fun response hresponse => ?_, hpost, hlost, rfl⟩,
        path, table, rfl, hwrote req payload _ table hread hstatement, rfl⟩
      obtain rfl := Option.some.inj hresponse
      exact failed_internal.1
  · rw [hon]
    refine .failed ?_
    show 400 ≤ 405
    omega

/-- A handler that leaves everything alone, behind the layer. -/
theorem lawful_still (htokenless : Tokenless handler) (hstill : Still handler)
    (hsilent : ∀ path, template? = some (exactly path) → success path = none) :
    Lawful lib template? (claimsLayer lib handler) := by
  refine lawful_claimsLayer htokenless fun req s => .inl ⟨?_, hstill req s⟩
  intro h
  obtain ⟨-, path, done, body, htemplate, hsuccess, -⟩ := h
  rw [hsilent path htemplate] at hsuccess
  cases hsuccess

/-! ## The router -/

section Router

variable (lib) {front : Template}

/-- What is lawful under a template that is going to stand behind a front. -/
def Under (front : Template) (template? : Option Template) (handler : HttpHandler σ) : Prop :=
  Lawful lib (template?.map (Router.nested front)) handler

variable {lib}

theorem Still.under (h : Still handler)
    (hopen : ∀ template ∈ template?, Router.nested front template ∉ guarded) :
    Under lib front template? handler := by
  refine h.lawful ?_
  intro template htemplate
  obtain ⟨bare, hbare, rfl⟩ := Option.map_eq_some_iff.mp htemplate
  exact hopen bare hbare

/-- A handler that works on the other state. -/
theorem under_onOthers (method : Method) (handler : Handler Extras σ) {template : Template}
    (hopen : Router.nested front template ∉ guarded)
    (helsewhere : Router.nested front template ∈ elsewhere) :
    Under lib front (some template) (on method (onOthers handler)) := by
  refine ((quiet_onOthers handler).on method).lawful ?_ ?_
  · intro other hother
    cases hother
    exact hopen
  · intro hnone
    exact absurd helsewhere (hnone _ rfl)

theorem holds_new : Router.Holds (Under lib front) (Router.new : Router Extras (AppState σ)) :=
  .new still_notFound.fallback

theorem holds_claimed : Router.Holds
    (fun template? handler => Under lib front template? (claimsLayer lib handler))
    (Router.new : Router Extras (AppState σ)) :=
  .new (lawful_still tokenless_notFound still_notFound fun _ h => by cases h)

theorem holds_userRouter : Router.Holds (Under lib [.static "api", .static "users"])
    (userRouter lib : Router Extras (AppState σ)) := by
  refine Router.Holds.layer (P := fun template? handler =>
    Under lib [.static "api", .static "users"] template? (claimsLayer lib handler)) ?_
    fun _ _ h => h
  refine (holds_claimed.route ?_).route ?_
  · refine lawful_still (tokenless_list.on .get) (still_list.on .get) ?_
    intro path htemplate
    have hpath : exactly path = exactly ["api", "users"] := (Option.some.inj htemplate).symm
    rw [exactly_injective hpath]
    rfl
  · refine lawful_still (tokenless_userDetail.on .get) (still_userDetail.on .get) ?_
    intro path htemplate
    have hparam : Segment.param "id" ∈ exactly path := by
      rw [← Option.some.inj htemplate]
      exact List.mem_append_right _ List.mem_cons_self
    obtain ⟨text, -, htext⟩ := List.mem_map.mp hparam
    cases htext

theorem holds_authRouter : Router.Holds (Under lib [.static "api", .static "auth"])
    (authRouter lib : Router Extras (AppState σ)) := by
  refine ((holds_new.route ?_).route ?_).route ?_
  · exact (still_register.on .post).under (by decide)
  · exact lawful_login
  · exact (still_protectedArea.on .get).under (by decide)

theorem holds_bakeryRouter : Router.Holds (Under lib [.static "api", .static "bakery"])
    (bakeryRouter lib : Router Extras (AppState σ)) := by
  refine ((Router.Holds.layer (P := fun template? handler =>
    Under lib [.static "api", .static "bakery"] template? (claimsLayer lib handler)) ?_
    fun _ _ h => h).route ?_).route ?_
  · refine ((holds_claimed.route ?_).route ?_).route ?_
    · exact lawful_write ["api", "bakery", "create"] rfl
        fun _ _ _ _ hread hwrite => .create hread hwrite
    · refine lawful_write ["api", "bakery", "update"] rfl ?_
      intro req payload table table' hread hwrite
      obtain rfl := Option.some.inj hwrite
      exact .update hread
    · refine lawful_write ["api", "bakery", "delete"] rfl ?_
      intro req payload table table' hread hwrite
      obtain rfl := Option.some.inj hwrite
      exact .delete hread
  · exact (still_listByCursor.on .get).under (by decide)
  · exact (still_bakeryDetail.on .get).under (by decide)

theorem holds_ordersRouter :
    Router.Holds (Under lib [.static "api", .static "orders"]) (ordersRouter others) := by
  refine (holds_new.route ?_).route ?_
  · exact under_onOthers .post _ (by decide) (by decide)
  · exact under_onOthers .get _ (by decide) (by decide)

theorem holds_hotRouter :
    Router.Holds (Under lib [.static "api", .static "hot"]) (hotRouter others) := by
  refine ((holds_new.route ?_).route ?_).route ?_
  · exact under_onOthers .post _ (by decide) (by decide)
  · exact under_onOthers .get _ (by decide) (by decide)
  · exact under_onOthers .post _ (by decide) (by decide)

theorem holds_chatRouter :
    Router.Holds (Under lib [.static "api", .static "chat"]) (chatRouter others) :=
  holds_new.route (under_onOthers .get _ (by decide) (by decide))

/-- **Every handler of the service is lawful.** -/
theorem holds_routes (lib : Libraries) (others : Others σ) :
    (routes lib others).Holds (Lawful lib) := by
  have hindex := (still_index (σ := σ)).on .get
  exact (((((((Router.Holds.new still_notFound.fallback).route
    (hindex.lawful (by decide))).nest holds_userRouter).nest holds_authRouter).nest
    holds_bakeryRouter).nest (holds_ordersRouter others)).nest (holds_hotRouter others)).nest
    (holds_chatRouter others) |>.withFallback still_global404.fallback

end Router

/-! ## Around the routes -/

/-- A handler inside of the layers of the service. -/
def served (handler : HttpHandler σ) : HttpHandler σ :=
  httpObservability (auth (cors (catchPanic (global405 handler))))

def methodNotAllowed : Response :=
  ⟨405, .json (.obj [(some "msg", text "Method Not Allowed"), (some "code", .num (.ofInt 1005))])⟩

def panicked : Response :=
  ⟨500, .json (.obj [(some "code", text "panic"),
    (some "message", text "internal server error")])⟩

/-- What the layers make of the response of a handler. -/
def dressed : Option Response → Response
  | some response => if response.status = 405 then methodNotAllowed else response
  | none => panicked

theorem dressed_success {response? : Option Response} {done : Nat} (hdone : done < 400)
    (h : (dressed response?).status = done) : ∃ body, response? = some ⟨done, body⟩ := by
  cases response? with
  | none =>
      have hpanic : 500 = done := h
      omega
  | some response =>
      unfold dressed at h
      dsimp only at h
      split at h
      · have hdenied : 405 = done := h
        omega
      · exact ⟨response.body, h ▸ rfl⟩

/-- The request as a handler gets it. -/
def withUser (req : HttpRequest) : HttpRequest :=
  { req with ext := { req.ext with currentUser := some ⟨1, "rc", "rc@axes.com"⟩ } }

def metricOf (req : HttpRequest) (response : Response) : HttpMetric :=
  ⟨req.method.text, (req.matchedPath.map templateText).getD (pathText req.path), response.status⟩

/-- **What the layers do**: a preflight request gets an answer of its own, a panic and a wrong
method become responses, and the response is counted. -/
theorem served_eq (handler : HttpHandler σ) (req : HttpRequest) (s : AppState σ) :
    served handler req s =
      if req.method = .options then
        (some ⟨200, .empty⟩, { s with metrics := s.metrics ++ [metricOf req ⟨200, .empty⟩] })
      else
        (some (dressed (handler (withUser req) s).1), { (handler (withUser req) s).2 with
          metrics := (handler (withUser req) s).2.metrics ++
            [metricOf req (dressed (handler (withUser req) s).1)] }) := by
  have hinner : auth (cors (catchPanic (global405 handler))) req s =
      if req.method = .options then (some ⟨200, .empty⟩, s)
      else catchPanic (global405 handler) (withUser req) s := rfl
  show httpObservability (auth (cors (catchPanic (global405 handler)))) req s = _
  unfold httpObservability
  rw [hinner]
  by_cases hoptions : req.method = .options
  · rw [if_pos hoptions, if_pos hoptions]
    rfl
  · rw [if_neg hoptions, if_neg hoptions]
    unfold catchPanic global405
    rcases handler (withUser req) s with ⟨_ | response, s'⟩
    · rfl
    · rfl

theorem route_eq : route lib others = (routes lib others).layer served := by
  unfold route
  rw [Router.layer_layer, Router.layer_layer, Router.layer_layer, Router.layer_layer]
  rfl

/-- **Every answer of the service is that of one of its handlers**, inside of the layers. -/
theorem dispatch_served {others : Others σ} {P : Option Template → HttpHandler σ → Prop}
    (hroutes : (routes lib others).Holds P) (req : HttpRequest) :
    ∃ template? handler req', P template? handler ∧
      Router.Answers (route lib others) req template? (served handler) req' := by
  have hserved : (route lib others).Holds fun template? handler =>
      ∃ inner, P template? inner ∧ handler = served inner := by
    rw [route_eq]
    exact hroutes.layer fun _ handler h => ⟨handler, h, rfl⟩
  obtain ⟨template?, handler, req', ⟨inner, hinner, rfl⟩, hanswers⟩ := hserved.dispatch req
  exact ⟨template?, inner, req', hinner, hanswers⟩

end Axes.Http
