import Axes.Http.Access
import Axes.Stat.KeySpace
import Axes.Stat.Leaderboard

/-!
# Stock claims over HTTP (`handlers/stat/hot.rs`)

The handler of `claim_stock` behind the router, on a Redis whose replies may be lost. A claim
that is answered 200 has been granted; one whose reply is lost, or that is never answered, may
have been, and its user is answered 409 from then on. Over every run the users that are answered
200 are different, and no more than the stock (`stock_claims_run`).
-/

namespace Axes.Http

open Axes.Lib Axes.Lib.Web Axes.Lib.Redis Axes.Orders Axes.Stat

namespace Hot

def claimStockRequest (json : Json) : Option ClaimStockRequest := do
  let get ← members ["user_key", "initial_stock"] json
  let userKey ← Serde.field Serde.string (get "user_key")
  let initialStock ← Serde.optionalField Serde.int64 (get "initial_stock")
  pure ⟨userKey, initialStock⟩

/-- `Path<i64>` -/
def extractItemId (req : HttpRequest) : Except Response Int64 :=
  match ((req.params.lookup "item_id").bind percentDecode).bind parseI64 with
  | some itemId => .ok itemId
  | none => .error ⟨400, .rejection⟩

def claimResponse (itemId : Int64) (payload : ClaimStockRequest) :
    Except Redis.Error ClaimStockResult → Response
  | .error _ => intoResponse redisCommandError
  | .ok result => ⟨claimStatusCode result, .json (.obj [
      (some "item_id", .num (.ofInt itemId.toInt)), (some "user_key", text payload.userKey),
      (some "applied", .bool result.applied), (some "duplicate", .bool result.duplicate),
      (some "remaining_stock", .num (.ofInt result.remainingStock))])⟩

/-- The `EVAL` of `claim_stock`, and what is answered. -/
def evalClaim (lua : Lua) (fate : Fate) (itemId : Int64) (payload : ClaimStockRequest)
    (ks : Keyspace) : Response × Keyspace :=
  let (result, after) := exec (Stat.claimStock lua itemId payload) ks
  match fate with
  | .answered => (claimResponse itemId payload result, after)
  | .unreachable => (intoResponse redisCommandError, ks)
  | .lost => (intoResponse redisCommandError, after)

/-- `claim_stock`, on Redis and whatever other state there is. -/
def claimStock {τ : Type} (lua : Lua) : Handler Extras (Keyspace × τ) := fun req s =>
  match extractItemId req with
  | .error response => (some response, s)
  | .ok itemId =>
      match extractJson claimStockRequest req with
      | .error response => (some response, s)
      | .ok payload =>
          let (response, ks) := evalClaim lua req.ext.outside.redis itemId payload s.1
          (some response, (ks, s.2))

end Hot

variable {τ : Type} (lib : Libraries) (lua : Lua) (rest : Others (Keyspace × τ))

/-- The other handlers, with that of `claim_stock`. -/
def withStock : Others (Keyspace × τ) := { rest with claimStock := Hot.claimStock lua }

def claimTemplate : Template :=
  exactly ["api", "hot", "stock"] ++ [.param "item_id", .static "claim"]

/-- The claim that a request makes. -/
def claimOf (req : HttpRequest) : Option (Int64 × ClaimStockRequest) := do
  guard (req.method = .post)
  let params ← capture claimTemplate req.path
  let itemId ← ((params.lookup "item_id").bind percentDecode).bind parseI64
  let payload ← (extractJson Hot.claimStockRequest req).toOption
  pure (itemId, payload)

/-! ## One request -/

variable {lib} {lua} {rest} {w₀ w w' : HttpWorld (Keyspace × τ)} {req req' : HttpRequest}
  {ts : List (Transition (HttpWorld (Keyspace × τ)) HttpRequest)}

/-- Under the template of claims there is the handler of claims. -/
theorem holds_claimStock (others : Others (Keyspace × τ)) :
    (routes lib others).Holds fun template? handler => template? = some claimTemplate →
      handler = on .post (onOthers others.claimStock) :=
  Router.holds_endpoint ⟨claimTemplate, on .post (onOthers others.claimStock)⟩ nodup_templates
    (List.mem_of_getElem? (i := 15) rfl)

theorem answers_claimTemplate {others : Others (Keyspace × τ)} {template? : Option Template}
    {handler : HttpHandler (Keyspace × τ)}
    (h : Router.Answers (route lib others) req template? handler req')
    (hcapture : (capture claimTemplate req.path).isSome) : template? = some claimTemplate :=
  answers_best h (by decide) (by decide) hcapture

theorem claimOf_withUser (hmethod : req'.method = req.method) (hpath : req'.path = req.path)
    (hext : req'.ext = req.ext) : claimOf (withUser req') = claimOf req := by
  have hjson := extractJson_withUser Hot.claimStockRequest hext
  have hmethod' : (withUser req').method = req.method := hmethod
  have hpath' : (withUser req').path = req.path := hpath
  unfold claimOf
  rw [hjson, hmethod', hpath']

theorem claimOf_eq_some {itemId : Int64} {payload : ClaimStockRequest} :
    claimOf req = some (itemId, payload) ↔ req.method = .post ∧ ∃ params,
      capture claimTemplate req.path = some params ∧
      ((params.lookup "item_id").bind percentDecode).bind parseI64 = some itemId ∧
      extractJson Hot.claimStockRequest req = .ok payload := by
  have hok : (extractJson Hot.claimStockRequest req).toOption = some payload ↔
      extractJson Hot.claimStockRequest req = .ok payload := by
    cases extractJson Hot.claimStockRequest req with
    | error response => simp [Except.toOption]
    | ok other => simp [Except.toOption]
  unfold claimOf
  rw [← hok]
  by_cases hpost : req.method = .post
  · simp [hpost, guard, Option.bind_eq_some_iff]
  · simp [hpost, guard]

/-- What the handler does with a request. -/
theorem claimStock_cases (lua : Lua)
    (hparams : capture claimTemplate req.path = some req.params) (s : AppState (Keyspace × τ)) :
    (claimOf req = none ∧
      (on .post (onOthers (Hot.claimStock lua)) req s).2 = s) ∨
    ∃ itemId payload, claimOf req = some (itemId, payload) ∧
      on .post (onOthers (Hot.claimStock lua)) req s =
        (some (Hot.evalClaim lua req.ext.outside.redis itemId payload s.others.1).1,
          { s with others :=
            ((Hot.evalClaim lua req.ext.outside.redis itemId payload s.others.1).2,
              s.others.2) }) := by
  by_cases hpost : req.method = .post
  · have hon : on .post (onOthers (Hot.claimStock lua)) req s =
        onOthers (Hot.claimStock lua) req s := if_pos hpost
    rw [hon]
    unfold onOthers Hot.claimStock Hot.extractItemId
    cases hitem : ((req.params.lookup "item_id").bind percentDecode).bind parseI64 with
    | none =>
        refine .inl ⟨?_, rfl⟩
        refine Option.eq_none_iff_forall_ne_some.mpr fun claim hclaim => ?_
        obtain ⟨-, params, hcapture, hother, -⟩ := claimOf_eq_some.mp hclaim
        obtain rfl := Option.some.inj (hcapture.symm.trans hparams)
        rw [hitem] at hother
        cases hother
    | some itemId =>
        cases hpayload : extractJson Hot.claimStockRequest req with
        | error response =>
            refine .inl ⟨?_, rfl⟩
            refine Option.eq_none_iff_forall_ne_some.mpr fun claim hclaim => ?_
            obtain ⟨-, -, -, -, hother⟩ := claimOf_eq_some.mp hclaim
            rw [hpayload] at hother
            cases hother
        | ok payload =>
            exact .inr ⟨itemId, payload, claimOf_eq_some.mpr ⟨hpost, req.params, hparams, hitem,
              hpayload⟩, rfl⟩
  · have hon := (on_post (onOthers (Hot.claimStock lua)) req s).resolve_left fun h => hpost h.1
    rw [hon]
    refine .inl ⟨?_, rfl⟩
    refine Option.eq_none_iff_forall_ne_some.mpr fun claim hclaim => ?_
    exact hpost (claimOf_eq_some.mp hclaim).1

theorem evalClaim_status (lua : Lua) (fate : Fate) (itemId : Int64)
    (payload : ClaimStockRequest) (ks : Keyspace) :
    (Hot.evalClaim lua fate itemId payload ks).1.status ≠ 405 := by
  have hfailed : (intoResponse redisCommandError).status ≠ 405 := by decide
  have hresponse : ∀ result, (Hot.claimResponse itemId payload result).status ≠ 405 := by
    intro result
    cases result with
    | error e => exact hfailed
    | ok result =>
        show claimStatusCode result ≠ 405
        unfold claimStatusCode
        split
        · decide
        · split <;> decide
  cases fate with
  | answered => exact hresponse _
  | unreachable => exact hfailed
  | lost => exact hfailed

/-- **A request under the template of claims** is one claim, if it is well-formed, and nothing
else. -/
theorem Served.claim {template? : Option Template} {handler : HttpHandler (Keyspace × τ)}
    {response : Response} {s s' : AppState (Keyspace × τ)}
    (h : Served (fun template? handler => template? = some claimTemplate →
      handler = on .post (onOthers (Hot.claimStock lua))) lib (withStock lua rest) s req template?
      handler req' response s')
    (hcapture : (capture claimTemplate req.path).isSome) :
    (claimOf req = none ∧ s'.others = s.others) ∨
      ∃ itemId payload, claimOf req = some (itemId, payload) ∧
        (response, s'.others.1) =
          Hot.evalClaim lua req.ext.outside.redis itemId payload s.others.1 := by
  have hanswers := h.answers
  have htemplate := answers_claimTemplate hanswers hcapture
  obtain rfl : handler = on .post (onOthers (Hot.claimStock lua)) := h.holds htemplate
  have hparams : capture claimTemplate (withUser req').path = some (withUser req').params := by
    have hpath : (withUser req').path = req.path := hanswers.path
    rw [hpath]
    exact hanswers.params claimTemplate htemplate
  have hclaim := claimOf_withUser hanswers.method hanswers.path hanswers.ext
  by_cases hoptions : req.method = .options
  · obtain ⟨-, hstate⟩ := h.options hoptions
    refine .inl ⟨?_, by rw [hstate]⟩
    refine Option.eq_none_iff_forall_ne_some.mpr fun claim hsome => ?_
    have hpost := (claimOf_eq_some.mp hsome).1
    rw [hoptions] at hpost
    cases hpost
  · obtain ⟨hresponse, hstate⟩ := h.handled hoptions
    rcases claimStock_cases lua hparams s with ⟨hnone, hsame⟩ | ⟨itemId, payload, hsome, heval⟩
    · refine .inl ⟨hclaim ▸ hnone, ?_⟩
      rw [hstate]
      have hothers := congrArg AppState.others hsame
      exact hothers
    · refine .inr ⟨itemId, payload, hclaim ▸ hsome, ?_⟩
      have hext : (withUser req').ext.outside = req.ext.outside :=
        congrArg (·.outside) hanswers.ext
      have hplain := evalClaim_status lua req.ext.outside.redis itemId payload s.others.1
      rw [hext] at heval
      rw [hresponse, hstate, heval]
      unfold dressed
      dsimp only
      rw [if_neg hplain]

/-! ## The claims on one item -/

section Item

variable (itemId : Int64)

def claimOn (req : HttpRequest) : Option ClaimStockRequest :=
  (claimOf req).bind fun claim => if claim.1 = itemId then some claim.2 else none

def userAnswered (status : Nat) (answer : HttpRequest × Response) : Option String :=
  ((claimOn itemId answer.1).filter fun _ => answer.2.status = status).map (·.userKey)

/-- The users whose claims on the item are answered with a status, one entry for each answer. -/
def usersAnswered (status : Nat) (answers : List (HttpRequest × Response)) : List String :=
  answers.filterMap (userAnswered itemId status)

def claimReached (req : HttpRequest) : Option ClaimStockRequest :=
  (claimOn itemId req).filter fun _ =>
    req.ext.outside.redis ≠ .unreachable ∧ req.ext.outside.ending ≠ .dropped false

/-- The claims on the item that Redis executes. -/
def claimsReached (ts : List (Transition (HttpWorld (Keyspace × τ)) HttpRequest)) :
    List ClaimStockRequest :=
  ts.filterMap fun t => claimReached itemId t.action

def userLost (req : HttpRequest) : Option String :=
  ((claimReached itemId req).filter fun _ =>
    req.ext.outside.redis = .lost ∨ req.ext.outside.ending ≠ .answered).map (·.userKey)

/-- The users whose claims on the item are executed without them hearing of it: the reply of Redis
is lost, or the request is never answered. -/
def usersLost (ts : List (Transition (HttpWorld (Keyspace × τ)) HttpRequest)) : List String :=
  ts.filterMap fun t => userLost itemId t.action

/-- What the ledger behind the keys of the item is after a run. -/
structure Sold (ts : List (Transition (HttpWorld (Keyspace × τ)) HttpRequest))
    (w : HttpWorld (Keyspace × τ)) (l : ClaimLedger) : Prop where
  represents : Represents itemId w.state.others.1 l
  initial : l.initial = firstInitialStock (claimsReached itemId ts)
  once : (usersAnswered itemId 200 w.answered).Nodup
  admitted : ∀ user ∈ usersAnswered itemId 200 w.answered, user ∈ l.granted
  refused : ∀ user ∈ usersAnswered itemId 409 w.answered, user ∈ l.granted
  accounted : ∀ user ∈ l.granted,
    user ∈ usersAnswered itemId 200 w.answered ∨ user ∈ usersLost itemId ts

variable {itemId} {l : ClaimLedger} {response? : Option Response} {payload : ClaimStockRequest}
  {t : Transition (HttpWorld (Keyspace × τ)) HttpRequest}

theorem filterMap_concat {α β : Type*} (f : α → Option β) (as : List α) (a : α) :
    (as ++ [a]).filterMap f = as.filterMap f ++ (f a).toList := by
  rw [List.filterMap_append]
  cases h : f a <;> simp [h]

theorem usersAnswered_step (hreplies : w'.replies = w.replies ++ [(req, response?)])
    (status : Nat) : usersAnswered itemId status w'.answered =
      usersAnswered itemId status w.answered ++
        (response?.bind fun response => userAnswered itemId status (req, response)).toList := by
  have hanswered : w'.answered = w.answered ++ response?.toList.map (req, ·) := by
    unfold HttpWorld.answered
    rw [hreplies, answers_append]
  rw [hanswered]
  cases response? with
  | none => simp
  | some response => exact filterMap_concat _ _ _

theorem claimsReached_concat : claimsReached itemId (ts ++ [t]) =
    claimsReached itemId ts ++ (claimReached itemId t.action).toList :=
  filterMap_concat _ _ _

theorem usersLost_concat : usersLost itemId (ts ++ [t]) =
    usersLost itemId ts ++ (userLost itemId t.action).toList :=
  filterMap_concat _ _ _

/-- The keys of an item are those of no other. -/
theorem keys_of_other {otherId : Int64} (h : itemId ≠ otherId) :
    redisStockKey itemId ∉ ({redisStockKey otherId, redisStockUsersKey otherId} : Set String) ∧
      redisStockUsersKey itemId ∉
        ({redisStockKey otherId, redisStockUsersKey otherId} : Set String) := by
  constructor
  · rintro (hkey | hkey)
    · rw [redisStockKey_eq, redisStockKey_eq, String.append_right_inj, Int.repr_inj] at hkey
      exact h (Int64.toInt_inj.mp hkey)
    · exact redisStockKey_ne_users itemId otherId hkey
  · rintro (hkey | hkey)
    · exact redisStockKey_ne_users otherId itemId hkey.symm
    · exact h (redisStockUsersKey_injective hkey)

theorem claimOn_eq_some : claimOn itemId req = some payload ↔
    claimOf req = some (itemId, payload) := by
  unfold claimOn
  cases claimOf req with
  | none => simp
  | some claim =>
      obtain ⟨otherId, other⟩ := claim
      by_cases hid : otherId = itemId <;> simp [hid]

/-- The keys of the item are the same before and after. -/
def SameKeys (itemId : Int64) (s s' : Keyspace × τ) : Prop :=
  ∀ key ∈ [redisStockKey itemId, redisStockUsersKey itemId], s'.1 key = s.1 key

/-- A claim on another item, or one that is not executed, leaves the keys of the item alone. -/
theorem evalClaim_keys (lua : Lua) {fate : Fate} {otherId : Int64} {payload : ClaimStockRequest}
    {ks : Keyspace} (h : itemId ≠ otherId ∨ fate = .unreachable) :
    ∀ key ∈ [redisStockKey itemId, redisStockUsersKey itemId],
      (Hot.evalClaim lua fate otherId payload ks).2 key = ks key := by
  intro key hkey
  rcases h with hid | rfl
  · have hkept : (exec (Stat.claimStock lua otherId payload) ks).2 key = ks key := by
      have hother := keys_of_other hid
      refine (local_claimStock lua otherId payload).writes _ _ ?_
      simp only [List.mem_cons, List.not_mem_nil, or_false] at hkey
      rcases hkey with rfl | rfl
      · exact hother.1
      · exact hother.2
    cases fate with
    | answered => exact hkept
    | unreachable => rfl
    | lost => exact hkept
  · rfl

/-- What a request does to the keys of an item, and what is heard of it. -/
inductive ClaimStep (itemId : Int64) (lua : Lua) (req : HttpRequest) (ks ks' : Keyspace) :
    Option Response → Prop
  | idle {response? : Option Response} (hreached : claimReached itemId req = none)
      (hkeys : ∀ key ∈ [redisStockKey itemId, redisStockUsersKey itemId], ks' key = ks key)
      (hquiet : ∀ response ∈ response?, claimOn itemId req = none ∨ response.status = 500) :
      ClaimStep itemId lua req ks ks' response?
  | heard {payload : ClaimStockRequest} (hreached : claimReached itemId req = some payload)
      (hlost : userLost itemId req = none)
      (hks : ks' = (exec (Stat.claimStock lua itemId payload) ks).2) :
      ClaimStep itemId lua req ks ks'
        (some (Hot.claimResponse itemId payload (exec (Stat.claimStock lua itemId payload) ks).1))
  | unheard {payload : ClaimStockRequest} {response? : Option Response}
      (hreached : claimReached itemId req = some payload)
      (hlost : userLost itemId req = some payload.userKey)
      (hks : ks' = (exec (Stat.claimStock lua itemId payload) ks).2)
      (hquiet : ∀ response ∈ response?, response.status = 500) :
      ClaimStep itemId lua req ks ks' response?

theorem claimOn_eq_none (h : ∀ payload, claimOf req ≠ some (itemId, payload)) :
    claimOn itemId req = none :=
  Option.eq_none_iff_forall_ne_some.mpr fun payload hclaim => h payload (claimOn_eq_some.mp hclaim)

/-- A request without a claim on the item. -/
theorem ClaimStep.other {ks ks' : Keyspace} (h : claimOn itemId req = none)
    (hkeys : ∀ key ∈ [redisStockKey itemId, redisStockUsersKey itemId], ks' key = ks key) :
    ClaimStep itemId lua req ks ks' response? := by
  refine .idle ?_ hkeys fun _ _ => .inl h
  unfold claimReached
  rw [h]
  rfl

/-- **A claim on the item**, by what becomes of its command and of the request. -/
theorem claimStep_claim (hclaim : claimOn itemId req = some payload) {ks ks' : Keyspace}
    {response : Response}
    (heval : (response, ks') = Hot.evalClaim lua req.ext.outside.redis itemId payload ks) :
    ClaimStep itemId lua req ks
      (if req.ext.outside.ending = .dropped false then ks else ks')
      (req.ext.outside.ending.reply response) := by
  obtain ⟨hresponse, hks⟩ := Prod.mk.inj heval
  have hfailed : ∀ fate ≠ Fate.answered, req.ext.outside.redis = fate → response.status = 500 := by
    intro fate hfate hredis
    rw [hredis] at hresponse
    rw [hresponse]
    cases fate with
    | answered => exact absurd rfl hfate
    | unreachable | lost => rfl
  by_cases hreach : req.ext.outside.redis ≠ .unreachable ∧ req.ext.outside.ending ≠ .dropped false
  · have hreached : claimReached itemId req = some payload := by
      simp [claimReached, hclaim, hreach]
    have hafter : ks' = (exec (Stat.claimStock lua itemId payload) ks).2 := by
      rw [hks]
      cases hredis : req.ext.outside.redis with
      | unreachable => exact absurd hredis hreach.1
      | answered | lost => rfl
    rw [if_neg hreach.2]
    by_cases hlost : req.ext.outside.redis = .lost ∨ req.ext.outside.ending ≠ .answered
    · refine .unheard hreached (by simp [userLost, hreached, hlost]) hafter ?_
      intro told htold
      cases hending : req.ext.outside.ending with
      | answered =>
          rw [hending] at htold
          obtain rfl := Option.some.inj htold
          exact hfailed .lost (by decide) (hlost.resolve_right fun h => h hending)
      | dropped executed =>
          rw [hending] at htold
          cases htold
    · push Not at hlost
      have hredis : req.ext.outside.redis = .answered := by
        cases hredis : req.ext.outside.redis with
        | answered => rfl
        | unreachable => exact absurd hredis hreach.1
        | lost => exact absurd hredis hlost.1
      rw [hredis] at hresponse
      rw [hlost.2, hresponse]
      exact .heard hreached (by simp [userLost, hreached, hlost]) hafter
  · refine .idle (by simp [claimReached, hclaim, hreach]) ?_ ?_
    · intro key hkey
      split
      · rfl
      · next hending =>
          rw [hks]
          exact evalClaim_keys lua (.inr (by_contra fun h => hreach ⟨h, hending⟩)) key hkey
    · intro told htold
      refine .inr ?_
      cases hending : req.ext.outside.ending with
      | answered =>
          rw [hending] at htold
          obtain rfl := Option.some.inj htold
          refine hfailed .unreachable (by decide) (by_contra fun h => hreach ⟨h, ?_⟩)
          rw [hending]
          exact Ending.noConfusion
      | dropped executed =>
          rw [hending] at htold
          cases htold

/-- **What a request does to the keys of an item**, when nobody but the claims writes to them. -/
theorem step_item (hstep : step lib (withStock lua rest) w req = some w')
    (hapart : capture claimTemplate req.path = none →
      SameKeys itemId w.state.others w'.state.others) :
    ∃ response?, w'.replies = w.replies ++ [(req, response?)] ∧
      ClaimStep itemId lua req w.state.others.1 w'.state.others.1 response? := by
  obtain ⟨template?, handler, req', response, s', rfl, hserved⟩ :=
    served_of_step (holds_claimStock (withStock lua rest)) hstep
  refine ⟨_, w.replies_next req response s', ?_⟩
  cases hcapture : capture claimTemplate req.path with
  | none =>
      refine .other (claimOn_eq_none fun payload hclaim => ?_) (hapart hcapture)
      obtain ⟨-, params, hparams, -⟩ := claimOf_eq_some.mp hclaim
      rw [hcapture] at hparams
      cases hparams
  | some params =>
      have hothers := w.others_next req response s'
      rw [hothers]
      rcases hserved.claim (hcapture ▸ rfl) with ⟨hnone, hsame⟩ | ⟨otherId, payload, hclaim, heval⟩
      · refine .other (claimOn_eq_none fun payload hclaim => ?_) ?_
        · rw [hnone] at hclaim
          cases hclaim
        · intro key _
          rw [hsame, ite_self]
      · by_cases hid : itemId = otherId
        · subst hid
          have hstep := claimStep_claim (claimOn_eq_some.mpr hclaim) heval
          rw [← apply_ite Prod.fst] at hstep
          exact hstep
        · refine .other (claimOn_eq_none fun other hother => ?_) ?_
          · rw [hclaim] at hother
            exact hid (congrArg Prod.fst (Option.some.inj hother)).symm
          · intro key hkey
            have hafter : s'.others.1 = _ := congrArg Prod.snd heval
            split
            · rfl
            · rw [hafter]
              exact evalClaim_keys lua (.inl hid) key hkey

theorem claimStatusCode_ok (result : ClaimStockResult) :
    claimStatusCode result = 200 ↔ result.applied = true := by
  unfold claimStatusCode
  cases result.applied <;> cases result.duplicate <;> decide

theorem claimStatusCode_conflict (result : ClaimStockResult)
    (h : claimStatusCode result = 409) : result.duplicate = true := by
  unfold claimStatusCode at h
  cases hduplicate : result.duplicate with
  | true => rfl
  | false =>
      rw [hduplicate] at h
      split at h <;> cases h

theorem duplicate_granted {hexact : Exact payload.offer}
    (h : (l.claim payload hexact).1.duplicate = true) : payload.userKey ∈ l.granted := by
  cases hopen : (l.offered payload.offer hexact).initial with
  | none =>
      rw [l.claim_of_closed payload hexact hopen] at h
      cases h
  | some s₀ => exact (l.claim_answers payload hexact hopen).2.1.mp h

/-- Answers of failure tell nobody that he is granted, or was before. -/
theorem usersAnswered_quiet (hreplies : w'.replies = w.replies ++ [(req, response?)])
    (hquiet : ∀ response ∈ response?, claimOn itemId req = none ∨ response.status = 500)
    {status : Nat} (hstatus : status ≠ 500) :
    usersAnswered itemId status w'.answered = usersAnswered itemId status w.answered := by
  have hnone : (response?.bind fun response => userAnswered itemId status (req, response)) =
      none := by
    cases response? with
    | none => rfl
    | some response =>
        show userAnswered itemId status (req, response) = none
        unfold userAnswered
        rcases hquiet response rfl with hclaim | hfailed
        · rw [hclaim]
          rfl
        · cases hclaim : claimOn itemId req <;> simp [hfailed, hstatus.symm]
  rw [usersAnswered_step hreplies, hnone]
  exact List.append_nil _

/-- The user of an answered claim, by the status. -/
theorem usersAnswered_claim {response : Response}
    (hreplies : w'.replies = w.replies ++ [(req, some response)])
    (hclaim : claimOn itemId req = some payload) (status : Nat) :
    usersAnswered itemId status w'.answered = usersAnswered itemId status w.answered ++
      if response.status = status then [payload.userKey] else [] := by
  rw [usersAnswered_step hreplies]
  congr 1
  show (userAnswered itemId status (req, response)).toList = _
  unfold userAnswered
  rw [hclaim]
  by_cases hstatus : response.status = status <;> simp [hstatus]

theorem claimOn_of_reached (h : claimReached itemId req = some payload) :
    claimOn itemId req = some payload :=
  (Option.filter_eq_some_iff.mp h).1

theorem granted_claim_of_mem (l : ClaimLedger) (payload : ClaimStockRequest)
    (hexact : Exact payload.offer) {user : String} (h : user ∈ l.granted) :
    user ∈ (l.claim payload hexact).2.granted := by
  rw [l.claim_granted payload hexact]
  split
  · exact Finset.mem_insert_of_mem h
  · exact h

theorem Sold.initial_claim (h : Sold itemId ts w l) (hexact : Exact payload.offer)
    (hreached : claimReached itemId req = some payload) :
    (l.claim payload hexact).2.initial =
      firstInitialStock (claimsReached itemId (ts ++ [⟨w, req, w'⟩])) := by
  rw [l.claim_initial payload hexact, claimsReached_concat, hreached, h.initial]
  exact (firstInitialStock_snoc _ _).symm

/-- A request without a claim on the item that Redis executes. -/
theorem Sold.idle (h : Sold itemId ts w l)
    (hreplies : w'.replies = w.replies ++ [(req, response?)])
    (hreached : claimReached itemId req = none)
    (hkeys : SameKeys itemId w.state.others w'.state.others)
    (hquiet : ∀ response ∈ response?, claimOn itemId req = none ∨ response.status = 500) :
    Sold itemId (ts ++ [⟨w, req, w'⟩]) w' l := by
  have hlost : userLost itemId req = none := by
    unfold userLost
    rw [hreached]
    rfl
  constructor
  · constructor
    · rw [hkeys _ List.mem_cons_self]
      exact h.represents.stock
    · rw [hkeys _ (List.mem_cons_of_mem _ List.mem_cons_self)]
      exact h.represents.users
  · rw [claimsReached_concat, hreached, h.initial]
    simp
  · rw [usersAnswered_quiet hreplies hquiet (by decide)]
    exact h.once
  · rw [usersAnswered_quiet hreplies hquiet (by decide)]
    exact h.admitted
  · rw [usersAnswered_quiet hreplies hquiet (by decide)]
    exact h.refused
  · rw [usersAnswered_quiet hreplies hquiet (by decide), usersLost_concat, hlost]
    simpa using h.accounted

/-- A claim that Redis executes without its user hearing of it. -/
theorem Sold.unheard (h : Sold itemId ts w l)
    (hreplies : w'.replies = w.replies ++ [(req, response?)])
    (hreached : claimReached itemId req = some payload) (hexact : Exact payload.offer)
    (hlost : userLost itemId req = some payload.userKey)
    (hquiet : ∀ response ∈ response?, response.status = 500)
    (hafter : Represents itemId w'.state.others.1 (l.claim payload hexact).2) :
    Sold itemId (ts ++ [⟨w, req, w'⟩]) w' (l.claim payload hexact).2 := by
  have hquiet' : ∀ response ∈ response?, claimOn itemId req = none ∨ response.status = 500 :=
    fun response hresponse => .inr (hquiet response hresponse)
  have hgranted := l.claim_granted payload hexact
  refine ⟨hafter, h.initial_claim hexact hreached, ?_, ?_, ?_, ?_⟩
  · rw [usersAnswered_quiet hreplies hquiet' (by decide)]
    exact h.once
  · rw [usersAnswered_quiet hreplies hquiet' (by decide)]
    exact fun user hmem => granted_claim_of_mem l payload hexact (h.admitted user hmem)
  · rw [usersAnswered_quiet hreplies hquiet' (by decide)]
    exact fun user hmem => granted_claim_of_mem l payload hexact (h.refused user hmem)
  · rw [usersAnswered_quiet hreplies hquiet' (by decide), usersLost_concat, hlost, hgranted]
    intro user hmem
    have hcases : user = payload.userKey ∨ user ∈ l.granted := by
      split at hmem
      · exact Finset.mem_insert.mp hmem
      · exact .inr hmem
    rcases hcases with rfl | hold
    · exact .inr (List.mem_append_right _ List.mem_cons_self)
    · exact (h.accounted user hold).imp_right fun hmem => List.mem_append_left _ hmem

/-- A claim that is granted, with the answer. -/
theorem Sold.admit (h : Sold itemId ts w l) (hexact : Exact payload.offer)
    (happlied : (l.claim payload hexact).1.applied = true)
    (hreached : claimReached itemId req = some payload) (hlost : userLost itemId req = none)
    (hok : usersAnswered itemId 200 w'.answered =
      usersAnswered itemId 200 w.answered ++ [payload.userKey])
    (hconflict : usersAnswered itemId 409 w'.answered = usersAnswered itemId 409 w.answered)
    (hafter : Represents itemId w'.state.others.1 (l.claim payload hexact).2) :
    Sold itemId (ts ++ [⟨w, req, w'⟩]) w' (l.claim payload hexact).2 := by
  have hgranted := l.claim_granted payload hexact
  rw [if_pos happlied] at hgranted
  refine ⟨hafter, h.initial_claim hexact hreached, ?_, ?_, ?_, ?_⟩
  · rw [hok]
    refine h.once.append (List.nodup_singleton _) ?_
    intro user hmem hsingle
    obtain rfl := List.mem_singleton.mp hsingle
    exact l.claim_applied_fresh payload hexact happlied (h.admitted _ hmem)
  · rw [hok, hgranted]
    intro user hmem
    rcases List.mem_append.mp hmem with hold | hnew
    · exact Finset.mem_insert_of_mem (h.admitted user hold)
    · obtain rfl := List.mem_singleton.mp hnew
      exact Finset.mem_insert_self _ _
  · rw [hconflict]
    exact fun user hmem => granted_claim_of_mem l payload hexact (h.refused user hmem)
  · rw [hok, usersLost_concat, hlost, hgranted]
    intro user hmem
    rcases Finset.mem_insert.mp hmem with rfl | hold
    · exact .inl (List.mem_append_right _ List.mem_cons_self)
    · exact (h.accounted user hold).imp (fun hmem => List.mem_append_left _ hmem)
        fun hmem => List.mem_append_left _ hmem

/-- A claim that is not granted, with the answer. -/
theorem Sold.refuse (h : Sold itemId ts w l) (hexact : Exact payload.offer)
    (happlied : (l.claim payload hexact).1.applied ≠ true)
    (hreached : claimReached itemId req = some payload) (hlost : userLost itemId req = none)
    (hok : usersAnswered itemId 200 w'.answered = usersAnswered itemId 200 w.answered)
    (hconflict : ∀ user ∈ usersAnswered itemId 409 w'.answered,
      user ∈ usersAnswered itemId 409 w.answered ∨
        user = payload.userKey ∧ (l.claim payload hexact).1.duplicate = true)
    (hafter : Represents itemId w'.state.others.1 (l.claim payload hexact).2) :
    Sold itemId (ts ++ [⟨w, req, w'⟩]) w' (l.claim payload hexact).2 := by
  have hgranted := l.claim_granted payload hexact
  rw [if_neg happlied] at hgranted
  refine ⟨hafter, h.initial_claim hexact hreached, ?_, ?_, ?_, ?_⟩
  · rw [hok]
    exact h.once
  · rw [hok, hgranted]
    exact h.admitted
  · rw [hgranted]
    intro user hmem
    rcases hconflict user hmem with hold | ⟨rfl, hduplicate⟩
    · exact h.refused user hold
    · exact duplicate_granted hduplicate
  · rw [hok, usersLost_concat, hlost, hgranted]
    exact fun user hmem => (h.accounted user hmem).imp_right fun hmem =>
      List.mem_append_left _ hmem

/-- **What a request does to the ledger.** -/
theorem Sold.step (h : Sold itemId ts w l)
    (hreplies : w'.replies = w.replies ++ [(req, response?)])
    (hexact : ∀ payload, claimOn itemId req = some payload → Exact payload.offer)
    (hclaim : ClaimStep itemId lua req w.state.others.1 w'.state.others.1 response?) :
    ∃ l', Sold itemId (ts ++ [⟨w, req, w'⟩]) w' l' := by
  cases hclaim with
  | idle hreached hkeys hquiet => exact ⟨l, h.idle hreplies hreached hkeys hquiet⟩
  | @unheard payload _ hreached hlost hks hquiet =>
      have hoffer := hexact payload (claimOn_of_reached hreached)
      obtain ⟨after, hexec, hafter⟩ := claimStock_represents lua h.represents payload hoffer
      rw [hexec] at hks
      exact ⟨_, h.unheard hreplies hreached hoffer hlost hquiet (hks ▸ hafter)⟩
  | @heard payload hreached hlost hks =>
      have hon := claimOn_of_reached hreached
      have hoffer := hexact payload hon
      obtain ⟨after, hexec, hafter⟩ := claimStock_represents lua h.represents payload hoffer
      rw [hexec] at hks hreplies
      have hstatus : (Hot.claimResponse itemId payload (.ok (l.claim payload hoffer).1)).status =
          claimStatusCode (l.claim payload hoffer).1 := rfl
      have hanswers := usersAnswered_claim hreplies hon
      rw [hstatus] at hanswers
      by_cases happlied : (l.claim payload hoffer).1.applied = true
      · have hcode := (claimStatusCode_ok _).mpr happlied
        refine ⟨_, h.admit hoffer happlied hreached hlost ?_ ?_ (hks ▸ hafter)⟩
        · rw [hanswers, if_pos hcode]
        · rw [hanswers, if_neg (by omega), List.append_nil]
      · have hcode : claimStatusCode (l.claim payload hoffer).1 ≠ 200 :=
          fun hok => happlied ((claimStatusCode_ok _).mp hok)
        refine ⟨_, h.refuse hoffer happlied hreached hlost ?_ ?_ (hks ▸ hafter)⟩
        · rw [hanswers, if_neg hcode, List.append_nil]
        · rw [hanswers]
          intro user hmem
          refine (List.mem_append.mp hmem).imp_right fun hnew => ?_
          split at hnew
          · next hconflict =>
              exact ⟨List.mem_singleton.mp hnew, claimStatusCode_conflict _ hconflict⟩
          · cases hnew

/-- **Claims over HTTP never oversell and never grant a user twice.** From absent keys, on any
run of requests in which nobody but the claims writes to the keys of the item: the keys hold the
first nonnegative stock that reached Redis, less the users granted, and these users; the users
that are answered 200 are different, and granted; and who is granted without an answer 200 has
not heard of it. Who is answered 409 is granted. -/
theorem stock_claims_run (hrun : (system lib (withStock lua rest)).Run w₀ ts w)
    (hnew : w₀.answered = [])
    (hkeys : ∀ key ∈ [redisStockKey itemId, redisStockUsersKey itemId],
      w₀.state.others.1 key = none)
    (hexact : ∀ t ∈ ts, ∀ payload ∈ claimOn itemId t.action, ∀ n, payload.initialStock = some n →
      Exact n.toInt)
    (hapart : ∀ t ∈ ts, capture claimTemplate t.action.path = none →
      SameKeys itemId t.pre.state.others t.post.state.others) :
    ∃ granted : Finset String,
      w.state.others.1 (redisStockUsersKey itemId) = setValue granted ∧
      w.state.others.1 (redisStockKey itemId) =
        ((firstInitialStock (claimsReached itemId ts)).map fun s₀ : Int =>
          Value.string (s₀ - (granted.card : Int)).repr) ∧
      (granted.card : Int) ≤ (firstInitialStock (claimsReached itemId ts)).getD 0 ∧
      (usersAnswered itemId 200 w.answered).length ≤ granted.card ∧
      (usersAnswered itemId 200 w.answered).Nodup ∧
      (∀ user ∈ usersAnswered itemId 200 w.answered, user ∈ granted) ∧
      (∀ user ∈ usersAnswered itemId 409 w.answered, user ∈ granted) ∧
      ∀ user ∈ granted,
        user ∈ usersAnswered itemId 200 w.answered ∨ user ∈ usersLost itemId ts := by
  have hsold : ∃ l, Sold itemId ts w l := by
    induction hrun with
    | refl =>
        refine ⟨.closed, represents_closed (hkeys _ List.mem_cons_self)
          (hkeys _ (List.mem_cons_of_mem _ List.mem_cons_self)), rfl, ?_, ?_, ?_, ?_⟩
        · rw [hnew]
          exact List.nodup_nil
        · rw [hnew]
          intro user hmem
          cases hmem
        · rw [hnew]
          intro user hmem
          cases hmem
        · intro user hmem
          cases hmem
    | @step ts w req w' _ hstep ih =>
        obtain ⟨l, hl⟩ := ih (fun t ht => hexact t (List.mem_append_left _ ht))
          fun t ht => hapart t (List.mem_append_left _ ht)
        rw [system_step] at hstep
        have hlast : ⟨w, req, w'⟩ ∈ ts ++ [⟨w, req, w'⟩] :=
          List.mem_append_right _ List.mem_cons_self
        obtain ⟨response?, hreplies, hclaim⟩ := step_item hstep (hapart _ hlast)
        exact hl.step hreplies (fun payload hon => offer_exact (hexact _ hlast payload hon)) hclaim
  obtain ⟨l, hl⟩ := hsold
  refine ⟨l.granted, hl.represents.users, ?_, ?_, ?_, hl.once, hl.admitted, hl.refused,
    hl.accounted⟩
  · rw [hl.represents.stock, ← hl.initial]
    unfold ClaimLedger.remaining
    cases l.initial <;> rfl
  · rw [← hl.initial]
    exact l.fits
  · rw [← List.toFinset_card_of_nodup hl.once]
    refine Finset.card_le_card ?_
    intro user huser
    exact hl.admitted user (List.mem_toFinset.mp huser)

end Item

def claimRequest (fate : Fate) (segment user : String) : HttpRequest :=
  let req := plainRequest .post ["api", "hot", "stock", segment, "claim"] none
    [("user_key", text user), ("initial_stock", .num (.ofInt 1))] 0
  { req with ext := { req.ext with outside := { req.ext.outside with redis := fate } } }

def noStock : HttpWorld (Keyspace × Unit) :=
  ⟨⟨noBakeries, [], [], (fun _ => none, ())⟩, []⟩

def plainLua : Lua := ⟨fun _ => none, Int.repr, Int.repr, id⟩

/-- A claim whose reply is lost has been granted: its user is answered 409, and nothing is left
for another. -/
theorem stock_claims_run_lost : ∃ ts w,
    (system plainLibraries (withStock plainLua noOthers)).Run noStock ts w ∧
      usersAnswered 7 200 w.answered = [] ∧ usersAnswered 7 409 w.answered = ["alice"] ∧
      usersAnswered 7 400 w.answered = ["bob"] ∧
      ∃ granted : Finset String, "alice" ∈ granted ∧ granted.card ≤ 1 := by
  obtain ⟨w₁, w₂, w₃, hlost, hagain, hlate, hok, hconflict, hsold, hnew⟩ : ∃ w₁ w₂ w₃,
      step plainLibraries (withStock plainLua noOthers) noStock
          (claimRequest .lost "7" "alice") = some w₁ ∧
        step plainLibraries (withStock plainLua noOthers) w₁
          (claimRequest .answered "%37" "alice") = some w₂ ∧
        step plainLibraries (withStock plainLua noOthers) w₂
          (claimRequest .answered "07" "bob") = some w₃ ∧
        usersAnswered 7 200 w₃.answered = [] ∧ usersAnswered 7 409 w₃.answered = ["alice"] ∧
        usersAnswered 7 400 w₃.answered = ["bob"] ∧ noStock.answered = [] :=
    ⟨_, _, _, rfl, rfl, rfl, by decide, by decide, by decide, rfl⟩
  rw [← system_step] at hlost hagain hlate
  have hrun := ((TSys.Run.refl.step hlost).step hagain).step hlate
  obtain ⟨ts, hrun, hactions⟩ : ∃ ts,
      (system plainLibraries (withStock plainLua noOthers)).Run noStock ts w₃ ∧
        ts.map (·.action) = [claimRequest .lost "7" "alice", claimRequest .answered "%37" "alice",
          claimRequest .answered "07" "bob"] := ⟨_, hrun, rfl⟩
  have hclaims : ∀ t ∈ ts, (∃ user, claimOn 7 t.action = some ⟨user, some 1⟩) ∧
      capture claimTemplate t.action.path ≠ none := by
    intro t ht
    have haction : t.action ∈ ts.map (·.action) := List.mem_map_of_mem ht
    rw [hactions] at haction
    simp only [List.mem_cons, List.not_mem_nil, or_false] at haction
    rcases haction with h | h | h <;> rw [h] <;> exact ⟨⟨_, rfl⟩, Option.some_ne_none _⟩
  have hreached : claimsReached 7 ts =
      [⟨"alice", some 1⟩, ⟨"alice", some 1⟩, ⟨"bob", some 1⟩] := by
    have hmap : claimsReached 7 ts = (ts.map (·.action)).filterMap (claimReached 7) := by
      rw [List.filterMap_map]
      rfl
    rw [hmap, hactions]
    rfl
  have hkeys : ∀ key ∈ [redisStockKey 7, redisStockUsersKey 7],
      noStock.state.others.1 key = none := fun _ _ => rfl
  have hrun' := stock_claims_run hrun hnew hkeys ?_ ?_
  · obtain ⟨granted, -, -, hfits, -, -, -, hrefused, -⟩ := hrun'
    refine ⟨ts, w₃, hrun, hok, hconflict, hsold, granted, ?_, ?_⟩
    · refine hrefused "alice" ?_
      rw [hconflict]
      exact List.mem_cons_self
    · rw [hreached] at hfits
      have hone : (granted.card : Int) ≤ 1 := hfits
      omega
  · intro t ht payload hpayload n hn
    obtain ⟨⟨user, hclaim⟩, -⟩ := hclaims t ht
    obtain rfl := Option.some.inj (hclaim.symm.trans hpayload)
    obtain rfl : (1 : Int64) = n := Option.some.inj hn
    decide
  · intro t ht hcapture
    exact absurd hcapture (hclaims t ht).2

end Axes.Http
