import Mathlib.Data.List.Basic
import Mathlib.Logic.Function.Basic

/-!
# Events that each act on one part of a keyed state

An event reads and writes only the part of the state its key names, and has an outcome.
Processing a list of events is then one processing for each key: what a key ends with and
what its events come out as depend on the events of that key alone. Two lists that agree
key by key are processed alike, however their keys are interleaved.
-/

namespace Axes.Lib.Keyed

variable {κ σ ε ω : Type*} [DecidableEq κ] (key : ε → κ) (act : ε → σ → σ × ω)

/-- Process some events in order, keeping what each came out as. -/
def process : List ε → (κ → σ) → (κ → σ) × List (ε × ω)
  | [], state => (state, [])
  | event :: events, state =>
      let (part, outcome) := act event (state (key event))
      let (state, outcomes) := process events (Function.update state (key event) part)
      (state, (event, outcome) :: outcomes)

/-- Process the events of one key. -/
def processOne : List ε → σ → σ × List (ε × ω)
  | [], part => (part, [])
  | event :: events, part =>
      let (part, outcome) := act event part
      let (part, outcomes) := processOne events part
      (part, (event, outcome) :: outcomes)

variable {key act} {events events' : List ε} {state : κ → σ} {k : κ}

/-- **One processing for each key.** -/
theorem process_key (k : κ) : ∀ {events : List ε} {state : κ → σ},
    ((process key act events state).1 k,
      (process key act events state).2.filter fun entry => decide (key entry.1 = k)) =
    processOne act (events.filter fun event => decide (key event = k)) (state k) := by
  intro events
  induction events with
  | nil =>
      intro state
      rfl
  | cons event events ih =>
      intro state
      have hrest := @ih (Function.update state (key event) (act event (state (key event))).1)
      by_cases hkey : key event = k
      · subst hkey
        rw [Function.update_self] at hrest
        simp only [process, List.filter_cons, decide_true, if_true, processOne, ← hrest]
      · rw [Function.update_of_ne (Ne.symm hkey)] at hrest
        simp only [process, List.filter_cons, hkey, decide_false, Bool.false_eq_true, if_false,
          ← hrest]

/-- What a list that agrees key by key leaves and what its events come out as. -/
theorem process_congr (h : ∀ k, (events.filter fun event => decide (key event = k)) =
      events'.filter fun event => decide (key event = k)) :
    (process key act events state).1 = (process key act events' state).1 ∧
      ∀ entry, entry ∈ (process key act events state).2 ↔
        entry ∈ (process key act events' state).2 := by
  have hkey : ∀ k, ((process key act events state).1 k,
      (process key act events state).2.filter fun entry => decide (key entry.1 = k)) =
      ((process key act events' state).1 k,
        (process key act events' state).2.filter fun entry => decide (key entry.1 = k)) := by
    intro k
    rw [process_key, process_key, h k]
  constructor
  · funext k
    exact congrArg Prod.fst (hkey k)
  · intro entry
    -- An outcome is among those of its own key.
    have hfilter : ∀ outcomes : List (ε × ω), entry ∈ outcomes ↔
        entry ∈ outcomes.filter fun other => decide (key other.1 = key entry.1) := by
      intro outcomes
      simp
    have houtcomes := (Prod.mk.inj (hkey (key entry.1))).2
    rw [hfilter, houtcomes, ← hfilter]

/-- One event more. -/
theorem process_concat {event : ε} :
    ∀ {events : List ε} {state : κ → σ}, process key act (events ++ [event]) state =
      (Function.update (process key act events state).1 (key event)
          (act event ((process key act events state).1 (key event))).1,
        (process key act events state).2 ++
          [(event, (act event ((process key act events state).1 (key event))).2)]) := by
  intro events
  induction events with
  | nil =>
      intro state
      rfl
  | cons first events ih =>
      intro state
      simp only [List.cons_append, process, ih]

/-- Each event comes out as something, and nothing else does. -/
theorem map_fst_process : ∀ {events : List ε} {state : κ → σ},
    (process key act events state).2.map (·.1) = events := by
  intro events
  induction events with
  | nil =>
      intro state
      rfl
  | cons event events ih =>
      intro state
      simp only [process, List.map_cons, ih]

end Axes.Lib.Keyed
