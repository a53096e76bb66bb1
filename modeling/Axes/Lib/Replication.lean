import Axes.Lib.Run

/-!
# Reads from a replica

A system whose data is copied to a replica: each step of the primary ships what its data are
then, the replica replays what was shipped in order and at its own pace, and reads are answered
by the replica. So the replica has, at any time, the data of some time before.

The rule is `reads_pairwise`: when every step of the primary moves its data along a preorder, so
do the answers of two reads, in the order they were made. `Follows.after` is the rule for what
a client was told by the primary.
-/

namespace Axes.Lib

variable {σ α δ ρ : Type*}

/-- Where what a step moves moves along a preorder, it does so from any step to any later. -/
theorem TSys.Run.pairwise {M : TSys σ α} {R : δ → δ → Prop}
    (htrans : ∀ d d' d'', R d d' → R d' d'' → R d d'') {f : σ → δ} {s₀ s : σ}
    {ts : List (Transition σ α)} (hrun : M.Run s₀ ts s)
    (hstep : ∀ tr ∈ ts, R (f tr.pre) (f tr.post)) :
    ts.Pairwise (fun tr tr' => R (f tr.pre) (f tr'.pre)) ∧ ∀ tr ∈ ts, R (f tr.pre) (f s) := by
  induction hrun with
  | refl => exact ⟨.nil, fun _ htr => absurd htr List.not_mem_nil⟩
  | @step ts s a t _ _ ih =>
      obtain ⟨hpairwise, hlast⟩ := ih fun tr htr => hstep tr (List.mem_append_left _ htr)
      have hmove := hstep ⟨s, a, t⟩ (List.mem_append_right _ List.mem_cons_self)
      refine ⟨List.pairwise_append.mpr ⟨hpairwise, List.pairwise_singleton _ _, ?_⟩, ?_⟩
      · intro tr htr tr' htr'
        obtain rfl := List.mem_singleton.mp htr'
        exact hlast tr htr
      · intro tr htr
        rcases List.mem_append.mp htr with hold | hnew
        · exact htrans _ _ _ (hlast tr hold) hmove
        · obtain rfl := List.mem_singleton.mp hnew
          exact hmove

/-- A run before one of its transitions, and after it. -/
theorem TSys.Run.before_after {M : TSys σ α} {s₀ s : σ} {before ts : List (Transition σ α)}
    {tr : Transition σ α} (hrun : M.Run s₀ ts s) :
    ∀ {later}, ts = before ++ tr :: later →
      M.Run s₀ before tr.pre ∧ M.step tr.pre tr.action = some tr.post ∧ M.Run tr.post later s := by
  induction hrun with
  | refl =>
      intro later hts
      simp at hts
  | @step ts s a t hrun hstep ih =>
      intro later hts
      rcases List.eq_nil_or_concat later with rfl | ⟨middle, last, rfl⟩
      · obtain ⟨rfl, htr⟩ := List.append_inj' hts rfl
        obtain rfl := (List.cons.inj htr).1
        exact ⟨hrun, hstep, .refl⟩
      · rw [List.concat_eq_append, ← List.cons_append, ← List.append_assoc] at hts
        obtain ⟨rfl, hlast⟩ := List.append_inj' hts rfl
        obtain rfl := (List.cons.inj hlast).1
        obtain ⟨hbefore, htaken, hafter⟩ := ih rfl
        rw [List.concat_eq_append]
        exact ⟨hbefore, htaken, hafter.step hstep⟩

/-- `behind` is what the replica has still to replay, oldest first. -/
structure Replicated (σ δ : Type*) where
  primary : σ
  replica : δ
  behind : List δ

inductive ReplicatedAction (α ρ : Type*)
  | write (action : α)
  | replay
  | read (request : ρ)

namespace Replicated

/-- What the replica has, and will have. -/
def copies (s : Replicated σ δ) : List δ := s.replica :: s.behind

def step (M : TSys σ α) (view : σ → δ) (s : Replicated σ δ) :
    ReplicatedAction α ρ → Option (Replicated σ δ)
  | .write action =>
      match M.step s.primary action with
      | none => none
      | some t => some { s with primary := t, behind := s.behind ++ [view t] }
  | .replay =>
      match s.behind with
      | [] => none
      | d :: rest => some { s with replica := d, behind := rest }
  | .read _ => some s

/-- The replica starts out with what the primary has. -/
def system (M : TSys σ α) (view : σ → δ) (ρ : Type*) :
    TSys (Replicated σ δ) (ReplicatedAction α ρ) where
  init s := M.init s.primary ∧ s.replica = view s.primary ∧ s.behind = []
  step s action := s.step M view action

/-- In states with `I`, the steps of the primary move its data along the preorder `R`. -/
structure Moves (M : TSys σ α) (view : σ → δ) (I : σ → Prop) (R : δ → δ → Prop) : Prop where
  refl : ∀ d, R d d
  trans : ∀ d d' d'', R d d' → R d' d'' → R d d''
  step : ∀ s a t, I s → M.step s a = some t → I t ∧ R (view s) (view t)

/-- The copies are in order, none ahead of the primary, and each with what `I` says of data. -/
structure Follows (view : σ → δ) (I : σ → Prop) (P : δ → Prop) (R : δ → δ → Prop)
    (s : Replicated σ δ) : Prop where
  primary : I s.primary
  copies : ∀ d ∈ s.copies, P d
  ordered : s.copies.Pairwise R
  older : ∀ d ∈ s.copies, R d (view s.primary)
  newest : s.copies.getLast? = some (view s.primary)

variable {M : TSys σ α} {view : σ → δ} {I : σ → Prop} {P : δ → Prop} {R : δ → δ → Prop}
  {s s₀ t : Replicated σ δ} {action : ReplicatedAction α ρ}

theorem Moves.init (h : Moves M view I R) (hP : ∀ s, I s → P (view s)) (hs : I s.primary)
    (hreplica : s.replica = view s.primary) (hbehind : s.behind = []) :
    Follows view I P R s := by
  have hcopies : s.copies = [view s.primary] := by
    rw [Replicated.copies, hreplica, hbehind]
  refine ⟨hs, ?_, ?_, ?_, ?_⟩
  · rw [hcopies]
    exact List.forall_mem_singleton.mpr (hP _ hs)
  · rw [hcopies]
    exact List.pairwise_singleton _ _
  · rw [hcopies]
    exact List.forall_mem_singleton.mpr (h.refl _)
  · rw [hcopies]
    rfl

/-- What a step does to the copies: a write adds one, and the replica takes the next. -/
theorem step_cases (hstep : s.step M view action = some t) :
    (∃ a, action = .write a ∧ M.step s.primary a = some t.primary ∧ t.replica = s.replica ∧
      t.copies = s.copies ++ [view t.primary]) ∨
    (action = .replay ∧ t.primary = s.primary ∧ s.copies = s.replica :: t.copies) ∨
    (∃ request, action = .read request ∧ t = s) := by
  cases action with
  | write a =>
      simp only [step] at hstep
      split at hstep
      · cases hstep
      · next t' hprimary =>
          cases hstep
          exact .inl ⟨a, rfl, hprimary, rfl, rfl⟩
  | replay =>
      simp only [step] at hstep
      split at hstep
      · cases hstep
      · next d rest hbehind =>
          cases hstep
          exact .inr (.inl ⟨rfl, rfl, congrArg (s.replica :: ·) hbehind⟩)
  | read request =>
      cases hstep
      exact .inr (.inr ⟨request, rfl, rfl⟩)

/-- **One step** keeps the copies in order, and moves what is read along it. -/
theorem Follows.step (h : Follows view I P R s) (hmoves : Moves M view I R)
    (hP : ∀ s, I s → P (view s)) (hstep : s.step M view action = some t) :
    Follows view I P R t ∧ R s.replica t.replica := by
  rcases step_cases hstep with ⟨a, -, hprimary, hreplica, hcopies⟩ | ⟨-, hprimary, hcopies⟩ |
    ⟨request, -, rfl⟩
  · obtain ⟨ht, hmove⟩ := hmoves.step _ _ _ h.primary hprimary
    refine ⟨⟨ht, ?_, ?_, ?_, ?_⟩, hreplica ▸ hmoves.refl _⟩
    · rw [hcopies]
      exact List.forall_mem_append.mpr ⟨h.copies, List.forall_mem_singleton.mpr (hP _ ht)⟩
    · rw [hcopies]
      refine List.pairwise_append.mpr ⟨h.ordered, List.pairwise_singleton _ _, ?_⟩
      intro d hd d' hd'
      obtain rfl := List.mem_singleton.mp hd'
      exact hmoves.trans _ _ _ (h.older d hd) hmove
    · rw [hcopies]
      refine List.forall_mem_append.mpr ⟨?_, List.forall_mem_singleton.mpr (hmoves.refl _)⟩
      exact fun d hd => hmoves.trans _ _ _ (h.older d hd) hmove
    · rw [hcopies]
      exact List.getLast?_concat
  · have hmem : ∀ d ∈ t.copies, d ∈ s.copies := fun d hd => hcopies ▸ List.mem_cons_of_mem _ hd
    have hordered := h.ordered
    rw [hcopies, List.pairwise_cons] at hordered
    refine ⟨⟨hprimary ▸ h.primary, fun d hd => h.copies d (hmem d hd), hordered.2, ?_, ?_⟩,
      hordered.1 _ List.mem_cons_self⟩
    · intro d hd
      rw [hprimary]
      exact h.older d (hmem d hd)
    · have hnewest := h.newest
      rw [hcopies, Replicated.copies, List.getLast?_cons_cons] at hnewest
      rw [hprimary]
      exact hnewest
  · exact ⟨h, hmoves.refl _⟩

variable {ts : List (Transition (Replicated σ δ) (ReplicatedAction α ρ))}

theorem Follows.run (h : Follows view I P R s₀) (hmoves : Moves M view I R)
    (hP : ∀ s, I s → P (view s)) (hrun : (system M view ρ).Run s₀ ts s) :
    Follows view I P R s ∧ ∀ tr ∈ ts, Follows view I P R tr.pre ∧
      R tr.pre.replica tr.post.replica := by
  obtain ⟨hs, hpre⟩ := hrun.always (Q := fun _ => True) h
    (fun _ _ _ h _ hstep => (h.step hmoves hP hstep).1) fun _ _ => trivial
  refine ⟨hs, fun tr htr => ⟨hpre tr htr, ?_⟩⟩
  exact ((hpre tr htr).step hmoves hP (hrun.step_of_mem htr)).2

/-- **What is read later is not older.** -/
theorem reads_pairwise (h : Follows view I P R s₀) (hmoves : Moves M view I R)
    (hP : ∀ s, I s → P (view s)) (hrun : (system M view ρ).Run s₀ ts s) :
    (∀ tr ∈ ts, P tr.pre.replica) ∧
      ts.Pairwise fun tr tr' => R tr.pre.replica tr'.pre.replica := by
  have hpre := (h.run hmoves hP hrun).2
  refine ⟨fun tr htr => (hpre tr htr).1.copies _ List.mem_cons_self, ?_⟩
  exact (hrun.pairwise hmoves.trans fun tr htr => (hpre tr htr).2).1

/-- A replica that is not behind has what the primary has. -/
theorem Follows.caught_up (h : Follows view I P R s) (hbehind : s.behind = []) :
    s.replica = view s.primary := by
  have hnewest := h.newest
  rw [Replicated.copies, hbehind] at hnewest
  exact Option.some.inj hnewest

/-- **What a client was told.** When the primary has got to `d₀`, and no copy has `K` that is
not that far, then whatever is read later does not have `K`, or is that far; and it is that far
once the replica is not behind. -/
theorem Follows.after {K : δ → Prop} {d₀ : δ} (h : Follows view I P R s₀)
    (hmoves : Moves M view I R) (hP : ∀ s, I s → P (view s))
    (hcopies : ∀ d ∈ s₀.copies, K d → R d₀ d) (hprimary : R d₀ (view s₀.primary))
    (hrun : (system M view ρ).Run s₀ ts s) : ∀ tr ∈ ts, P tr.pre.replica ∧
      (K tr.pre.replica → R d₀ tr.pre.replica) ∧ (tr.pre.behind = [] → R d₀ tr.pre.replica) := by
  have hall := (hrun.always (P := fun s => Follows view I P R s ∧
    (∀ d ∈ s.copies, K d → R d₀ d) ∧ R d₀ (view s.primary)) (Q := fun _ => True)
    ⟨h, hcopies, hprimary⟩ ?_ fun _ _ => trivial).2
  · intro tr htr
    obtain ⟨hs, hknown, hfar⟩ := hall tr htr
    refine ⟨hs.copies _ List.mem_cons_self, hknown _ List.mem_cons_self, ?_⟩
    intro hbehind
    rw [hs.caught_up hbehind]
    exact hfar
  · rintro s action t ⟨hs, hknown, hfar⟩ - hstep
    refine ⟨(hs.step hmoves hP hstep).1, ?_⟩
    rcases step_cases hstep with ⟨a, -, hmoved, -, hcopies⟩ | ⟨-, hsame, hcopies⟩ |
      ⟨request, -, rfl⟩
    · have hmove := hmoves.trans _ _ _ hfar (hmoves.step _ _ _ hs.primary hmoved).2
      refine ⟨?_, hmove⟩
      rw [hcopies]
      exact List.forall_mem_append.mpr ⟨hknown, List.forall_mem_singleton.mpr fun _ => hmove⟩
    · refine ⟨fun d hd => hknown d (hcopies ▸ List.mem_cons_of_mem _ hd), ?_⟩
      rw [hsame]
      exact hfar
    · exact ⟨hknown, hfar⟩

end Replicated

end Axes.Lib
