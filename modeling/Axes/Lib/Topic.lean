import Mathlib.Data.List.Basic
import Mathlib.Logic.Function.Basic

/-!
# Partitioned logs and at-least-once consumers

A topic is one append-only log per partition, with the offset its consumer group
has committed. A consumer takes the messages of its partitions in order, handles
them, and commits each after it was handled; partitions may be assigned and revoked
at any time, and a commit may be lost.

The main rule: when messages are only handed on once they are `done`, no committed
offset passes a message that is not done.
-/

namespace Axes.Lib

variable {μ ω : Type*}

structure Topic (μ : Type*) where
  log : Nat → List μ
  committed : Nat → Nat

namespace Topic

def empty : Topic μ where
  log _ := []
  committed _ := 0

def append (t : Topic μ) (p : Nat) (m : μ) : Topic μ :=
  { t with log := Function.update t.log p (t.log p ++ [m]) }

/-- Commit the offset after `offset`. -/
def commit (t : Topic μ) (p offset : Nat) : Topic μ :=
  { t with committed := Function.update t.committed p (offset + 1) }

/-- The topic has `m` at an offset of partition `p`. -/
def At (t : Topic μ) (p offset : Nat) (m : μ) : Prop := (t.log p)[offset]? = some m

/-- The topic has `m` somewhere. -/
def Holds (t : Topic μ) (m : μ) : Prop := ∃ p offset, t.At p offset m

/-- The first `n` messages of partition `p` are there, and all done. -/
structure Done (done : μ → Prop) (t : Topic μ) (p n : Nat) : Prop where
  le : n ≤ (t.log p).length
  all : ∀ offset m, offset < n → t.At p offset m → done m

variable {done done' : μ → Prop} {t : Topic μ} {p n : Nat}

theorem At.lt_length {offset : Nat} {m : μ} (h : t.At p offset m) :
    offset < (t.log p).length := by
  unfold At at h
  exact (List.getElem?_eq_some_iff.mp h).1

theorem at_append {q offset : Nat} {m m' : μ} : (t.append q m').At p offset m ↔
    t.At p offset m ∨ (p = q ∧ offset = (t.log p).length ∧ m = m') := by
  unfold At append
  by_cases hpq : p = q
  · subst hpq
    simp only [Function.update_self, List.getElem?_append, true_and]
    split
    · next hlt => exact ⟨.inl, fun h => h.resolve_right fun h => by omega⟩
    · next hge =>
        have hnone : (t.log p)[offset]? = none := List.getElem?_eq_none (by omega)
        simp only [hnone, List.getElem?_singleton, reduceCtorEq, false_or]
        split
        · next hzero =>
            simp only [Option.some.injEq]
            exact ⟨fun h => ⟨by omega, h.symm⟩, fun h => h.2.symm⟩
        · next hpos => exact ⟨fun h => (by cases h), fun h => (by omega)⟩
  · simp [hpq]

theorem At.append {offset q : Nat} {m m' : μ} (h : t.At p offset m) :
    (t.append q m').At p offset m :=
  at_append.mpr (.inl h)

theorem Holds.append {m m' : μ} (h : t.Holds m) (q : Nat) : (t.append q m').Holds m := by
  obtain ⟨p, offset, h⟩ := h
  exact ⟨p, offset, h.append⟩

theorem holds_append_self (q : Nat) (m : μ) : (t.append q m).Holds m :=
  ⟨q, (t.log q).length, at_append.mpr (.inr ⟨rfl, rfl, rfl⟩)⟩

theorem holds_append {q : Nat} {m m' : μ} (h : (t.append q m').Holds m) :
    t.Holds m ∨ m = m' := by
  obtain ⟨p, offset, h⟩ := h
  rcases at_append.mp h with h | ⟨-, -, h⟩
  · exact .inl ⟨p, offset, h⟩
  · exact .inr h

theorem length_append_le (q : Nat) (m : μ) :
    (t.log p).length ≤ ((t.append q m).log p).length := by
  unfold append
  by_cases hpq : p = q
  · subst hpq
    simp
  · simp [Function.update_of_ne hpq]

/-! ## The done part of a log -/

theorem Done.zero : Done done t p 0 :=
  ⟨Nat.zero_le _, fun _ _ h => absurd h (Nat.not_lt_zero _)⟩

theorem Done.mono (h : Done done t p n) (hdone : ∀ m, done m → done' m) :
    Done done' t p n :=
  ⟨h.le, fun offset m hlt hat => hdone m (h.all offset m hlt hat)⟩

theorem Done.append (h : Done done t p n) (q : Nat) (m : μ) :
    Done done (t.append q m) p n where
  le := Nat.le_trans h.le (length_append_le q m)
  all offset m' hlt hat := by
    rcases at_append.mp hat with hold | ⟨-, hend, -⟩
    · exact h.all offset m' hlt hold
    · have := h.le
      omega

theorem Done.succ {m : μ} (h : Done done t p n) (hat : t.At p n m) (hm : done m) :
    Done done t p (n + 1) where
  le := hat.lt_length
  all offset m' hlt hat' := by
    rcases Nat.lt_succ_iff_lt_or_eq.mp hlt with hlt | rfl
    · exact h.all offset m' hlt hat'
    · unfold At at hat hat'
      rw [hat] at hat'
      cases hat'
      exact hm

theorem Done.commit (h : Done done t p n) (q offset : Nat) :
    Done done (t.commit q offset) p n := ⟨h.le, h.all⟩

end Topic

/-! ## Consumers -/

/-- Where a consumer is with the message it took last. `work` is what is left to do
before the offset may be committed. -/
inductive Consumer.Phase (μ ω : Type*)
  | polling
  | received (p offset : Nat) (m : μ)
  | handled (p offset : Nat) (work : Option ω)

/-- The next offset of each assigned partition, and the phase of the loop. -/
structure Consumer (μ ω : Type*) where
  positions : Nat → Option Nat
  phase : Consumer.Phase μ ω

inductive ConsumerAction
  | assign (p : Nat)
  | revoke (p : Nat)
  | receive (p : Nat)
  | commit (stored : Bool)

namespace Consumer

def start : Consumer μ ω where
  positions _ := none
  phase := .polling

/-- One consumer, whatever the others of its group do: the broker, which lets no two of them
hold a partition at once, is left out, so there are more runs than it allows. -/
def step (t : Topic μ) (c : Consumer μ ω) : ConsumerAction → Option (Consumer μ ω × Topic μ)
  | .assign p =>
      -- A consumer starts from what its group has committed.
      some ({ c with positions := Function.update c.positions p (some (t.committed p)) }, t)
  | .revoke p => some ({ c with positions := Function.update c.positions p none }, t)
  | .receive p =>
      match c.phase, c.positions p with
      | .polling, some offset =>
          match (t.log p)[offset]? with
          | some m =>
              some ({
                positions := Function.update c.positions p (some (offset + 1))
                phase := .received p offset m }, t)
          | none => none
      | _, _ => none
  | .commit stored =>
      match c.phase with
      | .handled p offset none =>
          some ({ c with phase := .polling }, if stored then t.commit p offset else t)
      | _ => none

/-- What the consumer has passed is done, up to the message it holds. -/
structure Settled (done : μ → Prop) (t : Topic μ) (c : Consumer μ ω) : Prop where
  position : ∀ p offset, c.positions p = some offset →
    Topic.Done done t p offset ∨
      ∃ held m, c.phase = .received p held m ∧ offset = held + 1
  received : ∀ p offset m, c.phase = .received p offset m →
    t.At p offset m ∧ Topic.Done done t p offset
  handled : ∀ p offset work, c.phase = .handled p offset work →
    Topic.Done done t p (offset + 1)

variable {done done' : μ → Prop} {t t' : Topic μ} {c c' : Consumer μ ω}

theorem settled_start : Settled done t (start : Consumer μ ω) := by
  constructor
  · intro p offset h
    cases h
  · intro p offset m h
    cases h
  · intro p offset work h
    cases h

theorem Settled.mono (h : Settled done t c) (hdone : ∀ m, done m → done' m) :
    Settled done' t c where
  position p offset hp := (h.position p offset hp).imp_left (·.mono hdone)
  received p offset m hp := ⟨(h.received p offset m hp).1, (h.received p offset m hp).2.mono hdone⟩
  handled p offset work hp := (h.handled p offset work hp).mono hdone

theorem Settled.append (h : Settled done t c) (q : Nat) (m : μ) :
    Settled done (t.append q m) c where
  position p offset hp := (h.position p offset hp).imp_left (·.append q m)
  received p offset m' hp :=
    ⟨(h.received p offset m' hp).1.append, (h.received p offset m' hp).2.append q m⟩
  handled p offset work hp := (h.handled p offset work hp).append q m

theorem Settled.commit (h : Settled done t c) (q offset : Nat) :
    Settled done (t.commit q offset) c :=
  ⟨fun p n hp => (h.position p n hp).imp_left (·.commit q offset),
    fun p n m hp => ⟨(h.received p n m hp).1, (h.received p n m hp).2.commit q offset⟩,
    fun p n work hp => (h.handled p n work hp).commit q offset⟩

/-- The held message is done. -/
theorem Settled.handle (h : Settled done t c) {p offset : Nat} {m : μ} (work : Option ω)
    (hphase : c.phase = .received p offset m) (hdone : ∀ m, done m → done' m)
    (hm : done' m) : Settled done' t { c with phase := .handled p offset work } := by
  obtain ⟨hat, hbelow⟩ := h.received p offset m hphase
  have hnext : Topic.Done done' t p (offset + 1) := (hbelow.mono hdone).succ hat hm
  constructor
  · intro q n hq
    rcases h.position q n hq with hn | ⟨held, m', hheld, rfl⟩
    · exact .inl (hn.mono hdone)
    · rw [hphase] at hheld
      cases hheld
      exact .inl hnext
  · intro q n m' hq
    cases hq
  · intro q n work' hq
    cases hq
    exact hnext

/-- What is left to do changes. -/
theorem Settled.work (h : Settled done t c) {p offset : Nat} {work : Option ω}
    (work' : Option ω) (hphase : c.phase = .handled p offset work) :
    Settled done t { c with phase := .handled p offset work' } := by
  constructor
  · intro q n hq
    refine (h.position q n hq).imp_right ?_
    rintro ⟨held, m, hheld, -⟩
    rw [hphase] at hheld
    cases hheld
  · intro q n m hq
    cases hq
  · intro q n other hq
    cases hq
    exact h.handled p offset work hphase

theorem Settled.assign (h : Settled done t c) (p : Nat)
    (hcommitted : Topic.Done done t p (t.committed p)) :
    Settled done t
      { c with positions := Function.update c.positions p (some (t.committed p)) } where
  position q n hq := by
    by_cases hqp : q = p
    · subst hqp
      dsimp only at hq
      rw [Function.update_self] at hq
      cases hq
      exact .inl hcommitted
    · dsimp only at hq
      rw [Function.update_of_ne hqp] at hq
      exact h.position q n hq
  received := h.received
  handled := h.handled

theorem Settled.revoke (h : Settled done t c) (p : Nat) :
    Settled done t { c with positions := Function.update c.positions p none } where
  position q n hq := by
    by_cases hqp : q = p
    · subst hqp
      dsimp only at hq
      rw [Function.update_self] at hq
      cases hq
    · dsimp only at hq
      rw [Function.update_of_ne hqp] at hq
      exact h.position q n hq
  received := h.received
  handled := h.handled

theorem Settled.receive (h : Settled done t c) {p offset : Nat} {m : μ}
    (hphase : c.phase = .polling) (hposition : c.positions p = some offset)
    (hat : t.At p offset m) :
    Settled done t ({
      positions := Function.update c.positions p (some (offset + 1))
      phase := .received p offset m } : Consumer μ ω) := by
  -- While polling, the consumer holds nothing that is not done.
  have hdone : ∀ q n, c.positions q = some n → Topic.Done done t q n := by
    intro q n hq
    rcases h.position q n hq with hn | ⟨held, m', hheld, -⟩
    · exact hn
    · rw [hphase] at hheld
      cases hheld
  constructor
  · intro q n hq
    by_cases hqp : q = p
    · subst hqp
      dsimp only at hq
      rw [Function.update_self] at hq
      cases hq
      exact .inr ⟨offset, m, rfl, rfl⟩
    · dsimp only at hq
      rw [Function.update_of_ne hqp] at hq
      exact .inl (hdone q n hq)
  · intro q n m' hq
    cases hq
    exact ⟨hat, hdone p offset hposition⟩
  · intro q n work hq
    cases hq

theorem Settled.committed (h : Settled done t c) {p offset : Nat}
    (hphase : c.phase = .handled p offset none) :
    Settled done t ({ c with phase := .polling } : Consumer μ ω) := by
  constructor
  · intro q n hq
    refine (h.position q n hq).imp_right ?_
    rintro ⟨held, m, hheld, -⟩
    rw [hphase] at hheld
    cases hheld
  · intro q n m hq
    cases hq
  · intro q n work hq
    cases hq

/-- **One consumer step.** The consumer and the group's committed offsets pass done
messages only. The log is not changed. -/
theorem Settled.step {action : ConsumerAction} (h : Settled done t c)
    (hcommitted : ∀ p, Topic.Done done t p (t.committed p))
    (hstep : c.step t action = some (c', t')) :
    Settled done t' c' ∧ (∀ p, Topic.Done done t' p (t'.committed p)) ∧ t'.log = t.log ∧
      ∀ c'' : Consumer μ ω, Settled done t c'' → Settled done t' c'' := by
  cases action with
  | assign p =>
      cases hstep
      exact ⟨h.assign p (hcommitted p), hcommitted, rfl, fun _ => id⟩
  | revoke p =>
      cases hstep
      exact ⟨h.revoke p, hcommitted, rfl, fun _ => id⟩
  | receive p =>
      simp only [Consumer.step] at hstep
      split at hstep
      · next offset hphase hposition =>
          split at hstep
          · next m hat =>
              cases hstep
              exact ⟨h.receive hphase hposition hat, hcommitted, rfl, fun _ => id⟩
          · cases hstep
      · cases hstep
  | commit stored =>
      simp only [Consumer.step] at hstep
      split at hstep
      · next p offset hphase =>
          cases hstep
          -- A commit is only made of what was handled, even by a consumer that lost the partition.
          cases stored with
          | false => exact ⟨h.committed hphase, hcommitted, rfl, fun _ => id⟩
          | true =>
              refine ⟨(h.committed hphase).commit p offset, fun q => ?_, rfl,
                fun _ h'' => h''.commit p offset⟩
              have hnext := (h.handled p offset none hphase).commit p offset
              by_cases hqp : q = p
              · subst hqp
                simpa [Topic.commit] using hnext
              · simpa [Topic.commit, Function.update_of_ne hqp] using
                  (hcommitted q).commit p offset
      · cases hstep

end Consumer

end Axes.Lib
