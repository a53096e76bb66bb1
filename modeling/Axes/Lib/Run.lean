import Mathlib.Data.List.Basic
import Mathlib.Tactic.TypeStar

/-!
# Labelled transition systems and their runs

A system takes one labelled step at a time; every choice the environment has
(which party moves, which message is delivered, what the clock reads) is part
of the label, so `step` is a partial function. A run records the transitions
it took, oldest first, so that a property of the past ("at most once", "the
first time") is a property of a list.
-/

namespace Axes.Lib

/-- A labelled transition system; `step s a = none` when `a` is not enabled. -/
structure TSys (σ α : Type*) where
  init : σ → Prop
  step : σ → α → Option σ

/-- One taken step, as an observer of the run sees it. -/
structure Transition (σ α : Type*) where
  pre : σ
  action : α
  post : σ

namespace TSys

variable {σ α : Type*} (M : TSys σ α)

/-- `M.Run s₀ ts s`: the transitions `ts` lead from `s₀` to `s`. -/
inductive Run (s₀ : σ) : List (Transition σ α) → σ → Prop
  | refl : Run s₀ [] s₀
  | step {ts s a t} : Run s₀ ts s → M.step s a = some t →
      Run s₀ (ts ++ [⟨s, a, t⟩]) t

/-- The states some run from an initial state ends in. -/
def Reachable (s : σ) : Prop := ∃ s₀ ts, M.init s₀ ∧ M.Run s₀ ts s

/-- `P` holds where runs start, and one step preserves it. -/
structure Inductive (P : σ → Prop) : Prop where
  init : ∀ s, M.init s → P s
  step : ∀ s a t, P s → M.step s a = some t → P t

variable {M}

/-- What is inductive holds at the end of every run. -/
theorem Inductive.run {P : σ → Prop} (h : M.Inductive P) {s₀ s : σ}
    {ts : List (Transition σ α)} (hinit : M.init s₀) (hrun : M.Run s₀ ts s) : P s := by
  induction hrun with
  | refl => exact h.init s₀ hinit
  | step _ hstep ih => exact h.step _ _ _ ih hstep

/-- Strengthening: a property preserved under an invariant is an invariant. -/
theorem Inductive.strengthen {P Q : σ → Prop} (hP : M.Inductive P)
    (init : ∀ s, M.init s → Q s)
    (step : ∀ s a t, P s → P t → Q s → M.step s a = some t → Q t) :
    M.Inductive (fun s => P s ∧ Q s) where
  init s hs := ⟨hP.init s hs, init s hs⟩
  step s a t hs hstep :=
    have ht := hP.step s a t hs.1 hstep
    ⟨ht, step s a t hs.1 ht hs.2 hstep⟩

/-- Every transition of a run was enabled, and was taken from the end of an
earlier part of it. -/
theorem Run.split {s₀ s : σ} {ts : List (Transition σ α)} (hrun : M.Run s₀ ts s)
    {tr : Transition σ α} (htr : tr ∈ ts) :
    ∃ before later, ts = before ++ tr :: later ∧ M.Run s₀ before tr.pre ∧
      M.step tr.pre tr.action = some tr.post := by
  induction hrun with
  | refl => exact absurd htr List.not_mem_nil
  | @step ts s a t hrun hstep ih =>
      rcases List.mem_append.mp htr with h | h
      · obtain ⟨before, later, hts, hpre, hstep'⟩ := ih h
        exact ⟨before, later ++ [⟨s, a, t⟩], by simp [hts], hpre, hstep'⟩
      · obtain rfl := List.mem_singleton.mp h
        exact ⟨ts, [], rfl, hrun, hstep⟩

theorem Run.step_of_mem {s₀ s : σ} {ts : List (Transition σ α)} (hrun : M.Run s₀ ts s)
    {tr : Transition σ α} (htr : tr ∈ ts) : M.step tr.pre tr.action = some tr.post := by
  obtain ⟨_, _, _, _, hstep⟩ := hrun.split htr
  exact hstep

/-- The earlier part of a run is a run. -/
theorem Run.front {s₀ s : σ} {ts before : List (Transition σ α)} (hrun : M.Run s₀ ts s)
    (hfront : before <+: ts) : ∃ t, M.Run s₀ before t := by
  induction hrun with
  | refl =>
      obtain rfl := List.prefix_nil.mp hfront
      exact ⟨s₀, .refl⟩
  | step hrun hstep ih =>
      rcases List.prefix_concat_iff.mp hfront with rfl | hearlier
      · exact ⟨_, hrun.step hstep⟩
      · exact ih hearlier

/-- A property that every step of a given kind preserves holds throughout the runs
made of such steps. -/
theorem Run.always {P : σ → Prop} {Q : Transition σ α → Prop} {s₀ s : σ}
    {ts : List (Transition σ α)} (hrun : M.Run s₀ ts s) (init : P s₀)
    (step : ∀ s a t, P s → Q ⟨s, a, t⟩ → M.step s a = some t → P t)
    (hts : ∀ tr ∈ ts, Q tr) : P s ∧ ∀ tr ∈ ts, P tr.pre := by
  induction hrun with
  | refl => exact ⟨init, fun _ htr => absurd htr List.not_mem_nil⟩
  | @step ts s a t _ hstep ih =>
      obtain ⟨hs, hpre⟩ := ih fun tr htr => hts tr (List.mem_append_left _ htr)
      have hlast := hts ⟨s, a, t⟩ (List.mem_append_right _ List.mem_cons_self)
      refine ⟨step s a t hs hlast hstep, ?_⟩
      intro tr htr
      rcases List.mem_append.mp htr with h | h
      · exact hpre tr h
      · obtain rfl := List.mem_singleton.mp h
        exact hs

/-- A transition as a step of another system, if it is one. -/
def seen {τ β : Type*} (f : σ → τ) (label : α → Option β) (tr : Transition σ α) :
    Option (Transition τ β) :=
  (label tr.action).map fun b => ⟨f tr.pre, b, f tr.post⟩

/-- A run, seen as a run of another system that takes the labelled steps and stands still at
all others. -/
theorem Run.seen {τ β : Type*} {N : TSys τ β} (f : σ → τ) (label : α → Option β)
    (still : ∀ s a t, M.step s a = some t → label a = none → f t = f s)
    (moves : ∀ s a t b, M.step s a = some t → label a = some b → N.step (f s) b = some (f t))
    {s₀ s : σ} {ts : List (Transition σ α)} (hrun : M.Run s₀ ts s) :
    N.Run (f s₀) (ts.filterMap (TSys.seen f label)) (f s) := by
  induction hrun with
  | refl => exact .refl
  | @step ts s a t _ hstep ih =>
      rw [List.filterMap_append]
      cases hlabel : label a with
      | none =>
          rw [still s a t hstep hlabel]
          simpa [TSys.seen, hlabel] using ih
      | some b => simpa [TSys.seen, hlabel] using ih.step (moves s a t b hstep hlabel)

variable (M)

/-- Take the listed actions in order, recording the transitions. -/
def exec : List (Transition σ α) → σ → List α → Option (List (Transition σ α) × σ)
  | ts, s, [] => some (ts, s)
  | ts, s, a :: rest =>
      match M.step s a with
      | none => none
      | some t => exec (ts ++ [⟨s, a, t⟩]) t rest

variable {M}

/-- What `exec` computes is a run. -/
theorem run_of_exec {s₀ : σ} {actions : List α} :
    ∀ {ts s ts' s'}, M.Run s₀ ts s → M.exec ts s actions = some (ts', s') →
      M.Run s₀ ts' s' := by
  induction actions with
  | nil =>
      intro ts s ts' s' hrun h
      simp only [exec, Option.some.injEq, Prod.mk.injEq] at h
      obtain ⟨rfl, rfl⟩ := h
      exact hrun
  | cons a rest ih =>
      intro ts s ts' s' hrun h
      simp only [exec] at h
      split at h
      · cases h
      · next t hstep => exact ih (hrun.step hstep) h

/-- A run of the listed actions that passes a check. -/
theorem exists_run {s₀ : σ} {actions : List α} {p : List (Transition σ α) × σ → Bool}
    (h : (M.exec [] s₀ actions).any p = true) :
    ∃ ts s, M.Run s₀ ts s ∧ p (ts, s) = true := by
  obtain ⟨⟨ts, s⟩, hexec, hcheck⟩ := (Option.any_eq_true _ _).mp h
  exact ⟨ts, s, run_of_exec .refl hexec, hcheck⟩

theorem actions_of_exec {actions : List α} : ∀ {ts s ts' s'},
    M.exec ts s actions = some (ts', s') →
      ts'.map (·.action) = ts.map (·.action) ++ actions := by
  induction actions with
  | nil =>
      intro ts s ts' s' h
      simp only [exec, Option.some.injEq, Prod.mk.injEq] at h
      obtain ⟨rfl, -⟩ := h
      exact (List.append_nil _).symm
  | cons a rest ih =>
      intro ts s ts' s' h
      simp only [exec] at h
      split at h
      · cases h
      · rw [ih h, List.map_append, List.append_assoc]
        rfl

/-- A run that takes an action and passes a check. -/
theorem exists_run_through {s₀ : σ} {actions : List α}
    {p : List (Transition σ α) × σ → Bool} {a : α} (ha : a ∈ actions)
    (h : (M.exec [] s₀ actions).any p = true) :
    ∃ ts s, M.Run s₀ ts s ∧ p (ts, s) = true ∧ ∃ tr ∈ ts, tr.action = a := by
  obtain ⟨⟨ts, s⟩, hexec, hcheck⟩ := (Option.any_eq_true _ _).mp h
  have hactions : ts.map (·.action) = actions := actions_of_exec hexec
  rw [← hactions] at ha
  exact ⟨ts, s, run_of_exec .refl hexec, hcheck, List.mem_map.mp ha⟩

end TSys
end Axes.Lib
