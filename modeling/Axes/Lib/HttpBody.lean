import Axes.Lib.Run

/-!
# Streaming bodies and who reads them

A body is polled for frames until it ends or fails, and may be asked in between whether it
has ended; a reader that is told so stops. A `Script` is a body that goes through a list of
polls, and a `Tap` of it is a body around it that passes every answer on. What a tap makes
of the frames it passes is proved by `Tap.run`: frame by frame, over every reader.
-/

namespace Axes.Lib.HttpBody

inductive Poll (α : Type*)
  | pending
  | ready (value : α)
  deriving DecidableEq

/-- Header names are in lower case. -/
structure HeaderMap where
  entries : List (String × List UInt8)
  deriving DecidableEq

/-- The first value of a name. -/
def HeaderMap.get (headers : HeaderMap) (name : String) : Option (List UInt8) :=
  headers.entries.lookup name

inductive Frame (δ : Type*)
  | data (bytes : δ)
  | trailers (headers : HeaderMap)
  deriving DecidableEq

def Frame.trailersRef {δ : Type*} : Frame δ → Option HeaderMap
  | .data _ => none
  | .trailers headers => some headers

/-- A body over its state; `now` is what a clock reads during the poll. -/
structure Body (σ δ ε : Type*) where
  pollFrame : Nat → σ → Poll (Option (Except ε (Frame δ))) × σ
  isEndStream : σ → Bool

/-! ## Readers -/

inductive Stage
  | running
  /-- The body has returned its end or its error. -/
  | ended
  /-- The body has said that it is at its end. -/
  | left
  deriving DecidableEq

structure Reader (σ : Type*) where
  body : σ
  stage : Stage

inductive ReaderAction
  | pollFrame (now : Nat)
  | isEndStream
  deriving DecidableEq

namespace Reader

variable {σ δ ε : Type*}

def step (body : Body σ δ ε) (reader : Reader σ) : ReaderAction → Option (Reader σ)
  | .pollFrame now =>
      if reader.stage = .running then
        match body.pollFrame now reader.body with
        | (.pending, rest) | (.ready (some (.ok _)), rest) => some ⟨rest, .running⟩
        | (.ready (some (.error _)), rest) | (.ready none, rest) => some ⟨rest, .ended⟩
      else none
  | .isEndStream =>
      if reader.stage = .running then
        some ⟨reader.body, if body.isEndStream reader.body then .left else .running⟩
      else none

/-- Readers from their first call on: each asks as often and as late as it likes. -/
def system (body : Body σ δ ε) : TSys (Reader σ) ReaderAction where
  init reader := reader.stage = .running
  step := step body

variable {body : Body σ δ ε} {start reader reader' : Reader σ} {action : ReaderAction}
  {ts : List (Transition (Reader σ) ReaderAction)}

theorem running_of_step (h : reader.step body action = some reader') :
    reader.stage = .running := by
  cases action with
  | pollFrame now | isEndStream =>
      simp only [step] at h
      split at h
      · assumption
      · cases h

/-- The step on which a reader leaves. -/
theorem left_of_step (hstep : reader.step body action = some reader') :
    reader'.stage = .left ↔ action = .isEndStream ∧ body.isEndStream reader.body = true := by
  have hrunning := running_of_step hstep
  cases action with
  | pollFrame now =>
      simp only [step, if_pos hrunning] at hstep
      split at hstep <;> obtain rfl := Option.some.inj hstep <;> simp
  | isEndStream =>
      simp only [step, if_pos hrunning] at hstep
      obtain rfl := Option.some.inj hstep
      cases body.isEndStream reader.body <;> simp

/-- A reader has left when it has been told that it may. -/
theorem left_iff (hstart : start.stage = .running) (hrun : (system body).Run start ts reader) :
    reader.stage = .left ↔
      ∃ tr ∈ ts, tr.action = .isEndStream ∧ body.isEndStream tr.pre.body = true := by
  induction hrun with
  | refl => simp [hstart]
  | @step ts reader action reader' _ hstep ih =>
      -- the steps before left the reader running, so none of them told it
      have hnone : ¬∃ tr ∈ ts, tr.action = .isEndStream ∧ body.isEndStream tr.pre.body = true := by
        rw [← ih, running_of_step hstep]
        decide
      rw [left_of_step hstep]
      constructor
      · intro htold
        exact ⟨_, List.mem_append_right _ List.mem_cons_self, htold⟩
      · rintro ⟨tr, htr, htold⟩
        rcases List.mem_append.mp htr with hearlier | hself
        · exact absurd ⟨tr, hearlier, htold⟩ hnone
        · obtain rfl := List.mem_singleton.mp hself
          exact htold

end Reader

/-! ## Scripted bodies -/

/-- A body that returns `polls` one after another, and then its end or its failure. It may
say that it is at its end as soon as no frame is left. -/
structure Script (δ ε : Type*) where
  polls : List (Poll (Frame δ))
  failure : Option ε
  isEndStream : List (Poll (Frame δ)) → Bool
  no_frame : ∀ rest, isEndStream rest = true → ∀ frame, .ready frame ∉ rest

namespace Script

variable {δ ε : Type*}

/-- The frames of a list of polls. -/
def frames (polls : List (Poll (Frame δ))) : List (Frame δ) :=
  polls.filterMap fun
    | .pending => none
    | .ready frame => some frame

@[simp] theorem frames_nil : frames ([] : List (Poll (Frame δ))) = [] := rfl

/-- The state of a scripted body is what it has still to return. -/
def body (script : Script δ ε) : Body (List (Poll (Frame δ))) δ ε where
  pollFrame _ rest :=
    match rest with
    | [] => (.ready (script.failure.map .error), [])
    | .pending :: rest => (.pending, rest)
    | .ready frame :: rest => (.ready (some (.ok frame)), rest)
  isEndStream := script.isEndStream

theorem frames_of_isEndStream (script : Script δ ε) {rest : List (Poll (Frame δ))}
    (h : script.isEndStream rest = true) : frames rest = [] := by
  refine List.filterMap_eq_nil_iff.mpr ?_
  intro poll hpoll
  cases poll with
  | pending => rfl
  | ready frame => exact absurd hpoll (script.no_frame rest h frame)

end Script

/-! ## Taps -/

/-- A body around a scripted one that passes on every answer it gives. -/
structure Tap {τ δ ε : Type*} (script : Script δ ε) (body : Body τ δ ε)
    (inner : τ → List (Poll (Frame δ))) : Prop where
  poll : ∀ now t, (body.pollFrame now t).1 = (script.body.pollFrame now (inner t)).1
  rest : ∀ now t, inner (body.pollFrame now t).2 = (script.body.pollFrame now (inner t)).2
  isEndStream : ∀ t, body.isEndStream t = script.isEndStream (inner t)

namespace Tap

variable {τ δ ε : Type*} {script : Script δ ε} {body : Body τ δ ε}
  {inner : τ → List (Poll (Frame δ))} {t : τ} {reader : Reader τ}
  {ts : List (Transition (Reader τ) ReaderAction)}

/-- Where a reader stands, when `Seen` says what the tap makes of the frames it has passed
and `Done` what it makes of the end. -/
inductive Stands (script : Script δ ε) (inner : τ → List (Poll (Frame δ)))
    (Seen : List (Frame δ) → τ → Prop) (Done : τ → Prop) : Reader τ → Prop
  | running {seen : List (Frame δ)} {t : τ}
      (passed : seen ++ Script.frames (inner t) = Script.frames script.polls) (h : Seen seen t) :
      Stands script inner Seen Done ⟨t, .running⟩
  | left {t : τ} (h : Seen (Script.frames script.polls) t) :
      Stands script inner Seen Done ⟨t, .left⟩
  | ended {t : τ} (h : Done t) : Stands script inner Seen Done ⟨t, .ended⟩

section

variable {Seen : List (Frame δ) → τ → Prop} {Done : τ → Prop} (h : Tap script body inner)
  (pending : ∀ seen now t rest, inner t = .pending :: rest → Seen seen t →
    Seen seen (body.pollFrame now t).2)
  (ready : ∀ seen now t frame rest, inner t = .ready frame :: rest → Seen seen t →
    Seen (seen ++ [frame]) (body.pollFrame now t).2)
  (done : ∀ now t, inner t = [] → Seen (Script.frames script.polls) t →
    Done (body.pollFrame now t).2)

include h pending ready done

theorem Stands.poll {seen : List (Frame δ)} {now : Nat}
    (passed : seen ++ Script.frames (inner t) = Script.frames script.polls) (hseen : Seen seen t)
    (hstep : (⟨t, .running⟩ : Reader τ).step body (.pollFrame now) = some reader) :
    Stands script inner Seen Done reader := by
  have hpoll := h.poll now t
  have hrest := h.rest now t
  simp only [Reader.step, if_true] at hstep
  rcases hresult : body.pollFrame now t with ⟨result, after⟩
  rw [hresult] at hpoll hrest hstep
  cases hleft : inner t with
  | nil =>
      have hdone := done now t hleft
      rw [hleft, Script.frames_nil, List.append_nil] at passed
      rw [hleft] at hpoll
      obtain rfl : result = .ready (script.failure.map .error) := hpoll
      rw [hresult] at hdone
      obtain rfl : (⟨after, .ended⟩ : Reader τ) = reader := by
        cases hfailure : script.failure <;> rw [hfailure] at hstep <;>
          exact Option.some.inj hstep
      exact .ended (hdone (passed ▸ hseen))
  | cons poll rest =>
      rw [hleft] at hpoll hrest passed
      cases poll with
      | pending =>
          obtain rfl : result = .pending := hpoll
          obtain rfl := Option.some.inj hstep
          have hkept := pending seen now t rest hleft hseen
          rw [hresult] at hkept
          refine .running ?_ hkept
          rw [show inner after = rest from hrest]
          exact passed
      | ready frame =>
          obtain rfl : result = .ready (some (.ok frame)) := hpoll
          obtain rfl := Option.some.inj hstep
          have hkept := ready seen now t frame rest hleft hseen
          rw [hresult] at hkept
          refine .running ?_ hkept
          rw [show inner after = rest from hrest, List.append_assoc]
          exact passed

theorem Stands.step {action : ReaderAction} {reader' : Reader τ}
    (hstands : Stands script inner Seen Done reader)
    (hstep : reader.step body action = some reader') : Stands script inner Seen Done reader' := by
  have hrunning := Reader.running_of_step hstep
  cases hstands with
  | left _ | ended _ => cases hrunning
  | @running seen t passed hseen =>
      cases action with
      | pollFrame now => exact Stands.poll h pending ready done passed hseen hstep
      | isEndStream =>
          simp only [Reader.step, if_true, h.isEndStream] at hstep
          obtain rfl := Option.some.inj hstep
          cases hend : script.isEndStream (inner t) with
          | false => exact .running passed hseen
          | true =>
              rw [script.frames_of_isEndStream hend, List.append_nil] at passed
              exact .left (passed ▸ hseen)

/-- **Induction over what a tap passes.** What holds before the first poll, and is kept by a
poll that is pending and by one that brings a frame, holds of all frames passed; what
follows from it at the end holds when the body has ended. -/
theorem run (hinner : inner t = script.polls) (start : Seen [] t)
    (hrun : (Reader.system body).Run ⟨t, .running⟩ ts reader) :
    Stands script inner Seen Done reader := by
  induction hrun with
  | refl => exact .running (by rw [hinner, List.nil_append]) start
  | step _ hstep ih => exact Stands.step h pending ready done ih hstep

end

end Tap

end Axes.Lib.HttpBody
