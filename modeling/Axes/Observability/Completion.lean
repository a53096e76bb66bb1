import Axes.Observability.Grpc

/-!
# What is recorded of a gRPC response

The wrapper records the first code it comes across: of a frame, a code its trailers carry or
else the one of the response headers (`firstCode`); at the end, `endCode`. `recorded_run`
says so of every reader. A reader that leaves when it is told that the stream has ended
never gets to the end, and the headers come before what the end says.
-/

namespace Axes.Observability

open Axes.Lib Axes.Lib.HttpBody

variable {σ δ ε η : Type*} (fromBytes : List UInt8 → Code)

/-- The status that trailers carry. -/
def frameStatus (frame : Frame δ) : Option Code :=
  frame.trailersRef.bind (grpcStatusFromHeaders fromBytes)

/-- The first code a list of frames brings. -/
def firstCode (fallback : Option Code) (frames : List (Frame δ)) : Option Code :=
  frames.findSome? fun frame => (frameStatus fromBytes frame).or fallback

/-- The code the end of a body brings. -/
def endCode (fallback : Option Code) : Option ε → Code
  | some _ => .unknown
  | none => fallback.getD .ok

/-- The status of a response as its end tells it: what the trailers say, unless they say
nothing; then that the body failed, or what the headers say. -/
def finalStatus (headers : HeaderMap) (script : Script δ ε) : Code :=
  match (Script.frames script.polls).findSome? (frameStatus fromBytes), script.failure with
  | some status, _ => status
  | none, some _ => .unknown
  | none, none => (grpcStatusFromHeaders fromBytes headers).getD .ok

variable {fromBytes} {fallback code? : Option Code} {code : Code} {now : Nat} {this : Observed σ}

theorem grpcStatusFromParts_trailers (frame : Frame δ) :
    grpcStatusFromParts fromBytes none frame.trailersRef = frameStatus fromBytes frame :=
  Option.or_none

theorem firstCode_concat (frames : List (Frame δ)) (frame : Frame δ) :
    firstCode fromBytes fallback (frames ++ [frame]) =
      (firstCode fromBytes fallback frames).or ((frameStatus fromBytes frame).or fallback) := by
  unfold firstCode
  rw [List.findSome?_append, List.findSome?_singleton]

theorem firstCode_isSome (frames : List (Frame δ)) :
    (firstCode fromBytes fallback frames).isSome = true ↔
      (∃ frame ∈ frames, (frameStatus fromBytes frame).isSome = true) ∨
        fallback.isSome = true ∧ frames ≠ [] := by
  unfold firstCode
  rw [List.findSome?_isSome_iff]
  simp only [Option.isSome_or, Bool.or_eq_true]
  constructor
  · rintro ⟨frame, hframe, hstatus | hfallback⟩
    · exact .inl ⟨frame, hframe, hstatus⟩
    · exact .inr ⟨hfallback, List.ne_nil_of_mem hframe⟩
  · rintro (⟨frame, hframe, hstatus⟩ | ⟨hfallback, hne⟩)
    · exact ⟨frame, hframe, .inl hstatus⟩
    · obtain ⟨frame, hframe⟩ := List.exists_mem_of_ne_nil _ hne
      exact ⟨frame, hframe, .inr hfallback⟩

/-! ## One completion, with the first code -/

/-- A body that has come across `code?` so far. -/
structure Recorded (fallback code? : Option Code) (this : Observed σ) : Prop where
  fallback : this.body.fallbackCode = fallback
  completed : this.body.completed = code?.isSome
  codes : this.recorded.map (·.code) = code?.toList

theorem Recorded.complete (h : Recorded fallback code? this) (now : Nat) (code : Code) :
    Recorded fallback (code?.or (some code)) (this.complete now code) := by
  unfold Observed.complete
  rw [h.completed]
  cases code? with
  | some first => exact h
  | none =>
      refine ⟨h.fallback, rfl, ?_⟩
      show (this.recorded ++ [(_ : Completion)]).map (·.code) = [code]
      rw [List.map_append, h.codes]
      rfl

/-- What is left of the body is of no concern to what is recorded. -/
theorem Recorded.withInner (h : Recorded fallback code? this) (inner : σ) :
    Recorded fallback code? (this.withInner inner) :=
  ⟨h.fallback, h.completed, h.codes⟩

section Polls

variable {script : Script δ ε} {this : Observed (List (Poll (Frame δ)))}
  {rest : List (Poll (Frame δ))} {frame : Frame δ}

theorem Recorded.pending (h : Recorded fallback code? this)
    (hinner : this.body.inner = .pending :: rest) :
    Recorded fallback code? (this.pollFrame fromBytes script.body now).2 := by
  simp only [Observed.pollFrame, Script.body, hinner]
  exact h.withInner rest

theorem Recorded.ready (h : Recorded fallback code? this)
    (hinner : this.body.inner = .ready frame :: rest) :
    Recorded fallback (code?.or ((frameStatus fromBytes frame).or fallback))
      (this.pollFrame fromBytes script.body now).2 := by
  have hfallback := (h.withInner rest).fallback
  simp only [Observed.pollFrame, Script.body, hinner, grpcStatusFromParts_trailers, hfallback]
  cases (frameStatus fromBytes frame).or fallback with
  | none =>
      rw [Option.or_none]
      exact h.withInner rest
  | some code => exact (h.withInner rest).complete now code

theorem Recorded.done (h : Recorded fallback code? this) (hinner : this.body.inner = []) :
    Recorded fallback (code?.or (some (endCode fallback script.failure)))
      (this.pollFrame fromBytes script.body now).2 := by
  have hfallback := (h.withInner []).fallback
  simp only [Observed.pollFrame, Script.body, hinner]
  cases script.failure with
  | some error => exact (h.withInner []).complete now .unknown
  | none =>
      simp only [Option.map_none, hfallback]
      exact (h.withInner []).complete now (fallback.getD .ok)

end Polls

/-- **The first code is recorded, and no other.** -/
theorem recorded_run {script : Script δ ε} {headers : HeaderMap} {path : String}
    {startedAt finishedAt : Nat} {response : Response (GrpcObservabilityBody _)}
    {recorded : List Completion} {reader : Reader (Observed (List (Poll (Frame δ))))}
    {ts : List (Transition (Reader (Observed (List (Poll (Frame δ))))) ReaderAction)}
    (hcall : GrpcObservabilityService.call fromBytes path startedAt finishedAt
      (.ok ⟨headers, script.polls⟩ : Except η _) = (.ok response, recorded))
    (hrun : (Reader.system (Observed.observe fromBytes script.body)).Run
      ⟨⟨response.body, recorded⟩, .running⟩ ts reader) :
    Tap.Stands script (fun this => this.body.inner)
      (fun seen => Recorded (grpcStatusFromHeaders fromBytes headers)
        (firstCode fromBytes (grpcStatusFromHeaders fromBytes headers) seen))
      (Recorded (grpcStatusFromHeaders fromBytes headers)
        ((firstCode fromBytes (grpcStatusFromHeaders fromBytes headers)
          (Script.frames script.polls)).or
            (some (endCode (grpcStatusFromHeaders fromBytes headers) script.failure))))
      reader := by
  obtain ⟨hresponse, rfl⟩ := Prod.mk.inj hcall
  obtain rfl := Except.ok.inj hresponse
  refine (Observed.tap fromBytes script).run ?_ ?_ ?_ rfl ⟨rfl, rfl, rfl⟩ hrun
  · intro seen now this rest hinner h
    exact h.pending hinner
  · intro seen now this frame rest hinner h
    rw [firstCode_concat]
    exact h.ready hinner
  · intro now this hinner h
    exact h.done hinner

theorem Recorded.length_eq_one_iff (h : Recorded fallback code? this) :
    this.recorded.length = 1 ↔ code?.isSome = true := by
  rw [← List.length_map (f := Completion.code), h.codes]
  cases code? <;> simp

/-! ## Every response is counted once, unless its reader leaves too early -/

/-- **A response is counted once** by the time its reader stops if and only if the
reader was never told that the stream had ended, or the frames brought a code: trailers
with a status, or any frame when the headers have one. -/
theorem counted_once_iff {script : Script δ ε} {headers : HeaderMap} {path : String}
    {startedAt finishedAt : Nat} {response : Response (GrpcObservabilityBody _)}
    {recorded : List Completion} {reader : Reader (Observed (List (Poll (Frame δ))))}
    {ts : List (Transition (Reader (Observed (List (Poll (Frame δ))))) ReaderAction)}
    (hcall : GrpcObservabilityService.call fromBytes path startedAt finishedAt
      (.ok ⟨headers, script.polls⟩ : Except η _) = (.ok response, recorded))
    (hrun : (Reader.system (Observed.observe fromBytes script.body)).Run
      ⟨⟨response.body, recorded⟩, .running⟩ ts reader)
    (hstopped : reader.stage ≠ .running) :
    reader.body.recorded.length = 1 ↔
      (∀ tr ∈ ts, tr.action = .isEndStream →
        script.isEndStream tr.pre.body.body.inner = false) ∨
      (∃ frame ∈ Script.frames script.polls, (frameStatus fromBytes frame).isSome = true) ∨
      (grpcStatusFromHeaders fromBytes headers).isSome = true ∧
        Script.frames script.polls ≠ [] := by
  have htold : (∀ tr ∈ ts, tr.action = .isEndStream →
      script.isEndStream tr.pre.body.body.inner = false) ↔ reader.stage ≠ .left := by
    rw [ne_eq, Reader.left_iff rfl hrun]
    simp [Observed.observe, Script.body]
  rw [htold, ← firstCode_isSome]
  cases recorded_run hcall hrun with
  | running _ _ => exact absurd rfl hstopped
  | left h =>
      rw [h.length_eq_one_iff]
      simp
  | ended h =>
      rw [h.length_eq_one_iff]
      simp

/-- `Code::from_bytes`, as it is documented. -/
def codeFromBytes : List UInt8 → Code
  | [48] => .ok
  | [49] => .cancelled
  | [51] => .invalidArgument
  | [52] => .deadlineExceeded
  | [53] => .notFound
  | [54] => .alreadyExists
  | [55] => .permissionDenied
  | [56] => .resourceExhausted
  | [57] => .failedPrecondition
  | [49, 48] => .aborted
  | [49, 49] => .outOfRange
  | [49, 50] => .unimplemented
  | [49, 51] => .internal
  | [49, 52] => .unavailable
  | [49, 53] => .dataLoss
  | [49, 54] => .unauthenticated
  | _ => .unknown

/-- A body that says that it is at its end when nothing is left of it. -/
def unary (polls : List (Poll (Frame Unit))) (failure : Option Unit) : Script Unit Unit where
  polls := polls
  failure := failure
  isEndStream := List.isEmpty
  no_frame rest hempty frame := by
    rw [List.isEmpty_iff.mp hempty]
    exact List.not_mem_nil

/-- The headers of an answer without a body. -/
def notFound : HeaderMap := ⟨[("grpc-status", [53])]⟩

def noHeaders : HeaderMap := ⟨[]⟩

/-- A reply, with its status in the trailers. -/
def reply : Script Unit Unit :=
  unary [.pending, .ready (.data ()), .ready (.trailers notFound)] none

/-- A reader that has been handed a response of the greeter. -/
def greeted (headers : HeaderMap) (script : Script Unit Unit) :
    Reader (Observed (List (Poll (Frame Unit)))) where
  body := {
    body := {
      inner := script.polls
      service := (parseGrpcPath "/Greeter/SayHello").1
      method := (parseGrpcPath "/Greeter/SayHello").2
      startedAt := 0
      fallbackCode := grpcStatusFromHeaders codeFromBytes headers
      completed := false }
    recorded := [] }
  stage := .running

theorem call_greeted (headers : HeaderMap) (script : Script Unit Unit) :
    GrpcObservabilityService.call codeFromBytes "/Greeter/SayHello" 0 1
      (.ok ⟨headers, script.polls⟩ : Except Unit _) =
        (.ok ⟨headers, (greeted headers script).body.body⟩, []) := rfl

theorem counted_once_reply : ∃ ts reader,
    (Reader.system (Observed.observe codeFromBytes reply.body)).Run
      (greeted noHeaders reply) ts reader ∧ reader.body.recorded.length = 1 := by
  have hchecked : ((Reader.system (Observed.observe codeFromBytes reply.body)).exec []
      (greeted noHeaders reply)
      [.isEndStream, .pollFrame 1, .pollFrame 2, .pollFrame 3, .isEndStream]).any
      (fun r => decide (r.2.stage ≠ .running)) = true := by
    decide
  obtain ⟨ts, reader, hrun, hstopped⟩ := TSys.exists_run hchecked
  refine ⟨ts, reader, hrun, ?_⟩
  refine (counted_once_iff (call_greeted noHeaders reply) hrun (of_decide_eq_true hstopped)).mpr
    (.inr (.inl ?_))
  exact ⟨.trailers notFound, by decide, by decide⟩

/-- A server asks whether an answer without a body is at its end, and never polls it. -/
theorem not_counted_once : ∃ ts reader,
    (Reader.system (Observed.observe codeFromBytes (unary [] none).body)).Run
      (greeted notFound (unary [] none)) ts reader ∧
    reader.stage = .left ∧ reader.body.recorded = [] := by
  have hchecked : ((Reader.system (Observed.observe codeFromBytes (unary [] none).body)).exec []
      (greeted notFound (unary [] none)) [.isEndStream]).any
      (fun r => decide (r.2.stage = .left ∧ r.2.body.recorded = [])) = true := by
    decide
  obtain ⟨ts, reader, hrun, hleft⟩ := TSys.exists_run hchecked
  exact ⟨ts, reader, hrun, of_decide_eq_true hleft⟩

/-! ## The status that is recorded -/

/-- **The final status is recorded** of a body that is polled to its end if and only if the
first frame cannot be mistaken for the end: when the headers have a status and the first
frame brings none of its own, later trailers bring no other, and a body that fails without
one had `Unknown` in its headers. -/
theorem recorded_status_iff {script : Script δ ε} {headers : HeaderMap} {path : String}
    {startedAt finishedAt : Nat} {response : Response (GrpcObservabilityBody _)}
    {recorded : List Completion} {reader : Reader (Observed (List (Poll (Frame δ))))}
    {ts : List (Transition (Reader (Observed (List (Poll (Frame δ))))) ReaderAction)}
    (hcall : GrpcObservabilityService.call fromBytes path startedAt finishedAt
      (.ok ⟨headers, script.polls⟩ : Except η _) = (.ok response, recorded))
    (hrun : (Reader.system (Observed.observe fromBytes script.body)).Run
      ⟨⟨response.body, recorded⟩, .running⟩ ts reader)
    (hended : reader.stage = .ended) :
    reader.body.recorded.map (·.code) = [finalStatus fromBytes headers script] ↔
      ∀ code first later, grpcStatusFromHeaders fromBytes headers = some code →
        Script.frames script.polls = first :: later → frameStatus fromBytes first = none →
        (∀ status, later.findSome? (frameStatus fromBytes) = some status → status = code) ∧
        (later.findSome? (frameStatus fromBytes) = none → script.failure.isSome = true →
          code = .unknown) := by
  have hrecorded := recorded_run hcall hrun
  rcases reader with ⟨this, stage⟩
  obtain rfl : stage = .ended := hended
  cases hrecorded with
  | ended h =>
      rw [h.codes]
      unfold finalStatus firstCode
      cases hheaders : grpcStatusFromHeaders fromBytes headers with
      | none =>
          -- without a header the first code is that of the trailers
          simp only [Option.or_none]
          cases (Script.frames script.polls).findSome? (frameStatus fromBytes) <;>
            cases script.failure <;> simp [endCode]
      | some code =>
          cases hframes : Script.frames script.polls with
          | nil => cases script.failure <;> simp [endCode]
          | cons first later =>
              cases hfirst : frameStatus fromBytes first with
              | some status => simp [hfirst]
              | none =>
                  cases hlater : later.findSome? (frameStatus fromBytes) <;>
                    cases hfailure : script.failure <;> simp [hfirst, hlater, eq_comm]

theorem recorded_status_reply : ∃ ts reader,
    (Reader.system (Observed.observe codeFromBytes reply.body)).Run
      (greeted noHeaders reply) ts reader ∧
    reader.body.recorded.map (·.code) = [finalStatus codeFromBytes noHeaders reply] := by
  have hchecked : ((Reader.system (Observed.observe codeFromBytes reply.body)).exec []
      (greeted noHeaders reply) [.pollFrame 1, .pollFrame 2, .pollFrame 3, .pollFrame 4]).any
      (fun r => decide (r.2.stage = .ended)) = true := by
    decide
  obtain ⟨ts, reader, hrun, hended⟩ := TSys.exists_run hchecked
  refine ⟨ts, reader, hrun, ?_⟩
  refine (recorded_status_iff (call_greeted noHeaders reply) hrun (of_decide_eq_true hended)).mpr ?_
  intro code first later hheaders
  cases hheaders

def okHeaders : HeaderMap := ⟨[("grpc-status", [48])]⟩

/-- The headers say `Ok` and the trailers `NotFound`. -/
theorem not_final_status : ∃ ts reader,
    (Reader.system (Observed.observe codeFromBytes reply.body)).Run
      (greeted okHeaders reply) ts reader ∧
    reader.stage = .ended ∧ reader.body.recorded.map (·.code) = [.ok] ∧
    finalStatus codeFromBytes okHeaders reply = .notFound := by
  have hchecked : ((Reader.system (Observed.observe codeFromBytes reply.body)).exec []
      (greeted okHeaders reply) [.pollFrame 1, .pollFrame 2, .pollFrame 3, .pollFrame 4]).any
      (fun r => decide (r.2.stage = .ended ∧ r.2.body.recorded.map (·.code) = [.ok])) = true := by
    decide
  obtain ⟨ts, reader, hrun, hrecorded⟩ := TSys.exists_run hchecked
  obtain ⟨hended, hcodes⟩ := of_decide_eq_true hrecorded
  exact ⟨ts, reader, hrun, hended, hcodes, by decide⟩

end Axes.Observability
