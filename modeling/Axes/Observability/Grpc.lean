import Axes.Lib.HttpBody

/-!
# Counting gRPC responses (`utils/observability/grpc.rs`)

The service layer wraps the body of each response, and the wrapper calls
`record_completion` when it has seen how the response ends. `Code::from_bytes` is a
parameter; an `Instant` is a `Nat`.
-/

namespace Axes.Observability

open Axes.Lib.HttpBody

/-- `tonic::Code` -/
inductive Code
  | ok | cancelled | unknown | invalidArgument | deadlineExceeded | notFound | alreadyExists
  | permissionDenied | resourceExhausted | failedPrecondition | aborted | outOfRange
  | unimplemented | internal | unavailable | dataLoss | unauthenticated
  deriving DecidableEq

def grpcStatus : String := "grpc-status"

structure Response (β : Type*) where
  headers : HeaderMap
  body : β

/-- A call of `record_completion`. -/
structure Completion where
  service : String
  method : String
  code : Code
  elapsed : Nat
  deriving DecidableEq

/-- The service and the method of a path. -/
def parseGrpcPath (path : String) : String × String :=
  let trimmed := path.toList.dropWhile (· == '/')
  match trimmed.span (· != '/') with
  | (service, _ :: method) => (String.ofList service, String.ofList method)
  | (method, []) => ("unknown", String.ofList method)

variable {σ δ ε η : Type*} (fromBytes : List UInt8 → Code)

def grpcStatusFromHeaders (headers : HeaderMap) : Option Code :=
  (headers.get grpcStatus).map fromBytes

def grpcStatusFromParts (headers trailers : Option HeaderMap) : Option Code :=
  (trailers.bind (grpcStatusFromHeaders fromBytes)).or
    (headers.bind (grpcStatusFromHeaders fromBytes))

structure GrpcObservabilityBody (σ : Type*) where
  inner : σ
  service : String
  method : String
  startedAt : Nat
  fallbackCode : Option Code
  completed : Bool

/-- A body with the completions recorded so far. -/
structure Observed (σ : Type*) where
  body : GrpcObservabilityBody σ
  recorded : List Completion

/-- `GrpcObservabilityService::call` for the result of the inner service, which is there at
`now`. -/
def GrpcObservabilityService.call (path : String) (startedAt now : Nat)
    (result : Except η (Response σ)) :
    Except η (Response (GrpcObservabilityBody σ)) × List Completion :=
  let (service, method) := parseGrpcPath path
  match result with
  | .ok response =>
      let fallbackCode := grpcStatusFromParts fromBytes (some response.headers) none
      (.ok ⟨response.headers, ⟨response.body, service, method, startedAt, fallbackCode, false⟩⟩, [])
  | .error error => (.error error, [⟨service, method, .unknown, now - startedAt⟩])

namespace Observed

def withInner (inner : σ) (this : Observed σ) : Observed σ :=
  { this with body := { this.body with inner := inner } }

def complete (now : Nat) (code : Code) (this : Observed σ) : Observed σ :=
  if this.body.completed then this
  else {
    body := { this.body with completed := true }
    recorded := this.recorded ++
      [⟨this.body.service, this.body.method, code, now - this.body.startedAt⟩] }

def pollFrame (inner : Body σ δ ε) (now : Nat) (this : Observed σ) :
    Poll (Option (Except ε (Frame δ))) × Observed σ :=
  let (poll, rest) := inner.pollFrame now this.body.inner
  let this := this.withInner rest
  match poll with
  | .ready (some (.ok frame)) =>
      match (grpcStatusFromParts fromBytes none frame.trailersRef).or this.body.fallbackCode with
      | some code => (.ready (some (.ok frame)), this.complete now code)
      | none => (.ready (some (.ok frame)), this)
  | .ready (some (.error error)) => (.ready (some (.error error)), this.complete now .unknown)
  | .ready none => (.ready none, this.complete now (this.body.fallbackCode.getD .ok))
  | .pending => (.pending, this)

/-- `impl Body for GrpcObservabilityBody` -/
def observe (inner : Body σ δ ε) : Body (Observed σ) δ ε where
  pollFrame := pollFrame fromBytes inner
  isEndStream this := inner.isEndStream this.body.inner

/-! ## What the wrapper passes on -/

@[simp] theorem withInner_inner (inner : σ) (this : Observed σ) :
    (this.withInner inner).body.inner = inner := rfl

@[simp] theorem complete_inner (now : Nat) (code : Code) (this : Observed σ) :
    (this.complete now code).body.inner = this.body.inner := by
  unfold complete
  split <;> rfl

theorem pollFrame_fst (inner : Body σ δ ε) (now : Nat) (this : Observed σ) :
    (this.pollFrame fromBytes inner now).1 = (inner.pollFrame now this.body.inner).1 := by
  unfold pollFrame
  rcases inner.pollFrame now this.body.inner with ⟨poll, rest⟩
  dsimp only
  split
  · split <;> rfl
  · rfl
  · rfl
  · rfl

theorem pollFrame_inner (inner : Body σ δ ε) (now : Nat) (this : Observed σ) :
    (this.pollFrame fromBytes inner now).2.body.inner =
      (inner.pollFrame now this.body.inner).2 := by
  unfold pollFrame
  rcases inner.pollFrame now this.body.inner with ⟨poll, rest⟩
  dsimp only
  split
  · split <;> simp
  · simp
  · simp
  · simp

/-- **The wrapper is transparent.** -/
theorem tap (script : Script δ ε) :
    Tap script (observe fromBytes script.body) (fun this => this.body.inner) where
  poll := pollFrame_fst fromBytes script.body
  rest := pollFrame_inner fromBytes script.body
  isEndStream _ := rfl

end Observed

end Axes.Observability
