import Axes.Lib.Run
import Axes.Lib.Topic

/-!
# What a system can still do

`M.CanReach A Q s` says that from `s` some run of allowed steps ends in `Q`. Such runs are
put together from single steps (`step`), one after another (`trans`), until a measure runs
out (`variant`) and goal by goal (`forall_mem`). `Reads.upto` is the rule for a consumer of a
topic: when it can handle whatever message it takes, it can get past any offset of the log.
-/

namespace Axes.Lib

namespace TSys

variable {σ α : Type*} {M : TSys σ α} {A : σ → α → Prop} {P Q I : σ → Prop} {s : σ}

variable (M A Q) in
/-- Some run of actions that `A` allows where they are taken leads from `s` to a state in
`Q`. -/
def CanReach (s : σ) : Prop :=
  ∃ ts t, M.Run s ts t ∧ (∀ tr ∈ ts, A tr.pre tr.action) ∧ Q t

theorem Run.append {s t u : σ} {ts us : List (Transition σ α)} (hfirst : M.Run s ts t)
    (hlater : M.Run t us u) : M.Run s (ts ++ us) u := by
  induction hlater with
  | refl => rwa [List.append_nil]
  | step _ hstep ih =>
      rw [← List.append_assoc]
      exact ih.step hstep

/-- A run of a part of a system is one of the system. -/
theorem Run.map {τ β : Type*} {N : TSys τ β} {n n' : τ} {ts : List (Transition τ β)} (f : τ → σ)
    (g : β → α) (hstep : ∀ n b n', N.step n b = some n' → M.step (f n) (g b) = some (f n'))
    (hrun : N.Run n ts n') :
    M.Run (f n) (ts.map fun tr => ⟨f tr.pre, g tr.action, f tr.post⟩) (f n') := by
  induction hrun with
  | refl => exact .refl
  | step _ hlast ih =>
      rw [List.map_append]
      exact ih.step (hstep _ _ _ hlast)

namespace CanReach

theorem here (h : Q s) : M.CanReach A Q s :=
  ⟨[], s, .refl, fun _ htr => absurd htr List.not_mem_nil, h⟩

theorem trans (h : M.CanReach A P s) (hlater : ∀ t, P t → M.CanReach A Q t) :
    M.CanReach A Q s := by
  obtain ⟨ts, t, hrun, hts, ht⟩ := h
  obtain ⟨us, u, hrun', hus, hu⟩ := hlater t ht
  exact ⟨ts ++ us, u, hrun.append hrun', List.forall_mem_append.mpr ⟨hts, hus⟩, hu⟩

theorem one {a : α} {t : σ} (ha : A s a) (hstep : M.step s a = some t) (ht : Q t) :
    M.CanReach A Q s := by
  refine ⟨[⟨s, a, t⟩], t, Run.step .refl hstep, ?_, ht⟩
  intro tr htr
  obtain rfl := List.mem_singleton.mp htr
  exact ha

/-- One step more. -/
theorem step {a : α} {t : σ} (ha : A s a) (hstep : M.step s a = some t)
    (h : M.CanReach A Q t) : M.CanReach A Q s :=
  (one (Q := (· = t)) ha hstep rfl).trans fun _ ht => ht ▸ h

theorem mono (h : M.CanReach A P s) (hPQ : ∀ t, P t → Q t) : M.CanReach A Q s :=
  h.trans fun t ht => here (hPQ t ht)

/-- What every allowed step keeps still holds at the end. -/
theorem keep (h : M.CanReach A Q s)
    (hkeep : ∀ s a t, A s a → I s → M.step s a = some t → I t) (hs : I s) :
    M.CanReach A (fun t => Q t ∧ I t) s := by
  obtain ⟨ts, t, hrun, hts, ht⟩ := h
  have hI : I t := by
    refine (hrun.always (Q := fun tr => A tr.pre tr.action) hs ?_ hts).1
    intro s a t hs ha hstep
    exact hkeep s a t ha hs hstep
  exact ⟨ts, t, hrun, hts, ht, hI⟩

/-- **The variant rule.** As long as `Q` is not reached, some run keeps `P` and makes the
measure smaller. -/
theorem variant (measure : σ → Nat)
    (hdecrease : ∀ s, P s → Q s ∨ M.CanReach A (fun t => P t ∧ measure t < measure s) s)
    (hs : P s) : M.CanReach A Q s := by
  induction hn : measure s using Nat.strongRecOn generalizing s with
  | _ n ih =>
      rcases hdecrease s hs with hQ | hless
      · exact here hQ
      · refine hless.trans ?_
        rintro t ⟨ht, hlt⟩
        exact ih (measure t) (hn ▸ hlt) ht rfl

/-- **Goal by goal.** Goals that are kept once reached can be reached all together. -/
theorem forall_mem {γ : Type*} {G : γ → σ → Prop} (goals : List γ)
    (hkeep : ∀ g s a t, A s a → G g s → M.step s a = some t → G g t)
    (hgoal : ∀ g ∈ goals, ∀ s, I s → M.CanReach A (fun t => G g t ∧ I t) s) (hs : I s) :
    M.CanReach A (fun t => (∀ g ∈ goals, G g t) ∧ I t) s := by
  induction goals generalizing s with
  | nil => exact here ⟨fun g hg => absurd hg List.not_mem_nil, hs⟩
  | cons g goals ih =>
      refine (hgoal g List.mem_cons_self s hs).trans ?_
      rintro t ⟨hg, ht⟩
      have hrest := ih (fun g' hg' => hgoal g' (List.mem_cons_of_mem _ hg')) ht
      refine (hrest.keep (hkeep g) hg).mono ?_
      rintro u ⟨⟨hgoals, hu⟩, hgu⟩
      exact ⟨List.forall_mem_cons.mpr ⟨hgu, hgoals⟩, hu⟩

/-- What a part of a system can reach, the system can reach. -/
theorem lift {τ β : Type*} {N : TSys τ β} {B : τ → β → Prop} {R : τ → Prop} {n : τ}
    (h : N.CanReach B R n) (f : τ → σ) (g : β → α) (hg : ∀ n b, B n b → A (f n) (g b))
    (hstep : ∀ n b n', N.step n b = some n' → M.step (f n) (g b) = some (f n')) :
    M.CanReach A (fun s => ∃ n', R n' ∧ s = f n') (f n) := by
  obtain ⟨ts, n', hrun, hts, hn'⟩ := h
  refine ⟨_, f n', hrun.map f g hstep, ?_, n', hn', rfl⟩
  intro tr htr
  obtain ⟨part, hpart, rfl⟩ := List.mem_map.mp htr
  exact hg _ _ (hts part hpart)

end CanReach

end TSys

/-! ## Reading a topic -/

variable {σ α μ ω : Type*}

/-- In states with `I`, a consumer of the system can take its steps, but for a partition that
it holds already, and can handle what it takes; nothing of that writes to the log. -/
structure Reads (M : TSys σ α) (A : σ → α → Prop) (I : σ → Prop) (topic : σ → Topic μ)
    (consumer : σ → Consumer μ ω) : Prop where
  consume : ∀ s action c t, I s → (consumer s).step (topic s) action = some (c, t) →
    (∀ p, action = .assign p → (consumer s).positions p = none) →
    M.CanReach A (fun s' => I s' ∧ consumer s' = c ∧ topic s' = t) s
  handle : ∀ s p offset m, I s → (consumer s).phase = .received p offset m →
    M.CanReach A (fun s' => I s' ∧ (consumer s').phase = .handled p offset none ∧
      (consumer s').positions = (consumer s).positions ∧ (topic s').log = (topic s).log) s

namespace Reads

variable {M : TSys σ α} {A : σ → α → Prop} {I : σ → Prop} {topic : σ → Topic μ}
  {consumer : σ → Consumer μ ω} {s : σ} {p n : Nat}

/-- One message further. -/
theorem next (h : Reads M A I topic consumer) {k : Nat} (hs : I s)
    (hpolling : (consumer s).phase = .polling) (hposition : (consumer s).positions p = some k)
    (hlt : k < ((topic s).log p).length) :
    M.CanReach A (fun t => I t ∧ (consumer t).phase = .polling ∧
      (consumer t).positions p = some (k + 1) ∧ (topic t).log = (topic s).log) s := by
  have hreceive : (consumer s).step (topic s) (.receive p) = some ({
      positions := Function.update (consumer s).positions p (some (k + 1))
      phase := .received p k ((topic s).log p)[k] }, topic s) := by
    simp only [Consumer.step, hpolling, hposition, List.getElem?_eq_getElem hlt]
  refine (h.consume s _ _ _ hs hreceive fun _ hassign => by cases hassign).trans ?_
  rintro t ⟨ht, hconsumer, htopic⟩
  refine (h.handle t p k _ ht (by rw [hconsumer])).trans ?_
  rintro u ⟨hu, hphase, hpositions, hlog⟩
  have hcommit : (consumer u).step (topic u) (.commit true) =
      some ({ consumer u with phase := .polling }, (topic u).commit p k) := by
    simp only [Consumer.step, hphase, if_true]
  refine (h.consume u _ _ _ hu hcommit fun _ hassign => by cases hassign).mono ?_
  rintro v ⟨hv, hconsumer', htopic'⟩
  refine ⟨hv, by rw [hconsumer'], ?_, ?_⟩
  · rw [hconsumer', hpositions, hconsumer]
    exact Function.update_self ..
  · rw [htopic', ← htopic, ← hlog]
    rfl

/-- A consumer that holds a partition gets past any offset of it, one message after another. -/
theorem onward (h : Reads M A I topic consumer) {k : Nat} (hs : I s)
    (hpolling : (consumer s).phase = .polling) (hposition : (consumer s).positions p = some k)
    (hn : n ≤ ((topic s).log p).length) :
    M.CanReach A (fun t => I t ∧ (consumer t).phase = .polling ∧ (topic t).log = (topic s).log ∧
      ∃ k, n ≤ k ∧ (consumer t).positions p = some k) s := by
  refine TSys.CanReach.variant
    (P := fun u => I u ∧ (consumer u).phase = .polling ∧ (topic u).log = (topic s).log ∧
      ∃ k, (consumer u).positions p = some k)
    (fun u => n - ((consumer u).positions p).getD 0) ?_ ⟨hs, hpolling, rfl, k, hposition⟩
  rintro u ⟨hu, hpolling, hlog, k, hposition⟩
  by_cases hk : n ≤ k
  · exact .inl ⟨hu, hpolling, hlog, k, hk, hposition⟩
  · refine .inr ((h.next hu hpolling hposition (by rw [hlog]; omega)).mono ?_)
    rintro v ⟨hv, hpolling', hposition', hlog'⟩
    refine ⟨⟨hv, hpolling', hlog'.trans hlog, k + 1, hposition'⟩, ?_⟩
    rw [hposition, hposition', Option.getD_some, Option.getD_some]
    omega

/-- **A consumer gets past any offset** of a partition, which it takes from the committed
offset on if it does not hold it. -/
theorem upto (h : Reads M A I topic consumer) (hs : I s)
    (hpolling : (consumer s).phase = .polling) (hn : n ≤ ((topic s).log p).length) :
    M.CanReach A (fun t => I t ∧ (consumer t).phase = .polling ∧ (topic t).log = (topic s).log ∧
      ∃ k, n ≤ k ∧ (consumer t).positions p = some k) s := by
  cases hheld : (consumer s).positions p with
  | some k => exact h.onward hs hpolling hheld hn
  | none =>
      refine (h.consume s (.assign p) _ _ hs rfl ?_).trans ?_
      · intro q hassign
        obtain rfl := ConsumerAction.assign.inj hassign
        exact hheld
      · rintro t ⟨ht, hconsumer, htopic⟩
        have hposition : (consumer t).positions p = some ((topic s).committed p) := by
          rw [hconsumer]
          exact Function.update_self ..
        have hpolling' : (consumer t).phase = .polling := by
          rw [hconsumer]
          exact hpolling
        rw [← htopic] at hn ⊢
        exact h.onward ht hpolling' hposition hn

end Reads

end Axes.Lib
