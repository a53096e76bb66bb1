import Mathlib.Algebra.Group.Nat.Defs
import Mathlib.Algebra.Ring.Int.Defs
import Mathlib.Data.Int.Order.Basic
import Mathlib.Order.Lattice

/-!
# 64-bit arithmetic as a build runs it

An operation whose exact result does not fit panics in a build that checks for overflow and
wraps in one that does not. A `Checked` computation notes either, so `faults = []` says that
every number it came across is the exact one, in any build: `faults_bind_iff` splits that along
the computation, and each operation has its own condition.
-/

namespace Axes.Lib

inductive Fault
  | underflow
  | overflow
  | dividedByZero
  /-- A cast has made a number negative. -/
  | negative
  deriving DecidableEq

/-- How a computation ends early. -/
inductive Abort (ε : Type*)
  | panic
  | failed (error : ε)
  deriving DecidableEq

structure Checked (ε α : Type) where
  faults : List Fault
  result : Except (Abort ε) α

namespace Checked

variable {ε α β : Type}

instance : Monad (Checked ε) where
  pure a := ⟨[], .ok a⟩
  bind c f :=
    match c.result with
    | .ok a => ⟨c.faults ++ (f a).faults, (f a).result⟩
    | .error abort => ⟨c.faults, .error abort⟩

/-- A failure that is not of the arithmetic. -/
def fail (error : ε) : Checked ε α := ⟨[], .error (.failed error)⟩

/-- An operation that goes wrong; `checks` says whether the build checks for overflow. -/
def faulty (checks : Bool) (fault : Fault) (wrapped : α) : Checked ε α :=
  ⟨[fault], if checks then .error .panic else .ok wrapped⟩

def add (checks : Bool) (n m : Nat) : Checked ε Nat :=
  if n + m < 2 ^ 64 then pure (n + m) else faulty checks .overflow ((n + m) % 2 ^ 64)

def sub (checks : Bool) (n m : Nat) : Checked ε Nat :=
  if m ≤ n then pure (n - m) else faulty checks .underflow (2 ^ 64 + n - m)

def mul (checks : Bool) (n m : Nat) : Checked ε Nat :=
  if n * m < 2 ^ 64 then pure (n * m) else faulty checks .overflow (n * m % 2 ^ 64)

/-- `u64::div_ceil` -/
def divCeil (n m : Nat) : Checked ε Nat :=
  if m = 0 then faulty true .dividedByZero 0 else pure ((n + m - 1) / m)

/-- `as i64`, which wraps in every build. -/
def asI64 (n : Nat) : Checked ε Int :=
  if n < 2 ^ 63 then pure n else faulty false .negative ((n : Int).bmod (2 ^ 64))

theorem pure_bind (a : α) (f : α → Checked ε β) : (pure a : Checked ε α) >>= f = f a := rfl

/-- A computation is exact when its parts are. -/
theorem faults_bind (c : Checked ε α) (f : α → Checked ε β) :
    (c >>= f).faults = [] ↔ c.faults = [] ∧ ∀ a, c.result = .ok a → (f a).faults = [] := by
  show (match c.result with
    | .ok a => (⟨c.faults ++ (f a).faults, (f a).result⟩ : Checked ε β)
    | .error abort => ⟨c.faults, .error abort⟩).faults = [] ↔ _
  cases c.result with
  | ok a => simp
  | error abort => simp

/-- A part that is exact under a condition, and then gives `a`. -/
theorem faults_bind_iff {p : Prop} {c : Checked ε α} {a : α} (f : α → Checked ε β)
    (hexact : p → c = pure a) (hfaults : c.faults = [] → p) :
    (c >>= f).faults = [] ↔ p ∧ (f a).faults = [] := by
  rw [faults_bind]
  constructor
  · rintro ⟨hnone, hrest⟩
    have hp := hfaults hnone
    exact ⟨hp, hrest a (by rw [hexact hp]; rfl)⟩
  · rintro ⟨hp, hrest⟩
    rw [hexact hp]
    refine ⟨rfl, ?_⟩
    intro b hb
    obtain rfl := Except.ok.inj hb
    exact hrest

section Operations

variable (checks : Bool) {n m : Nat}

theorem add_eq (h : n + m < 2 ^ 64) : (add checks n m : Checked ε Nat) = pure (n + m) := if_pos h

theorem sub_eq (h : m ≤ n) : (sub checks n m : Checked ε Nat) = pure (n - m) := if_pos h

theorem mul_eq (h : n * m < 2 ^ 64) : (mul checks n m : Checked ε Nat) = pure (n * m) := if_pos h

theorem divCeil_eq (h : m ≠ 0) : (divCeil n m : Checked ε Nat) = pure ((n + m - 1) / m) :=
  if_neg h

theorem asI64_eq (h : n < 2 ^ 63) : (asI64 n : Checked ε Int) = pure (n : Int) := if_pos h

theorem le_of_sub (h : (sub checks n m : Checked ε Nat).faults = []) : m ≤ n := by
  by_contra hlt
  rw [sub, if_neg hlt] at h
  cases h

theorem lt_of_mul (h : (mul checks n m : Checked ε Nat).faults = []) : n * m < 2 ^ 64 := by
  by_contra hlt
  rw [mul, if_neg hlt] at h
  cases h

theorem ne_zero_of_divCeil (h : (divCeil n m : Checked ε Nat).faults = []) : m ≠ 0 := by
  intro hzero
  rw [divCeil, if_pos hzero] at h
  cases h

theorem lt_of_asI64 (h : (asI64 n : Checked ε Int).faults = []) : n < 2 ^ 63 := by
  by_contra hlt
  rw [asI64, if_neg hlt] at h
  cases h

/-! What is exact about a computation that goes on with the operation's number. -/

variable (f : Nat → Checked ε β) (g : Int → Checked ε β)

theorem faults_sub_bind :
    (sub checks n m >>= f).faults = [] ↔ m ≤ n ∧ (f (n - m)).faults = [] :=
  faults_bind_iff f (sub_eq checks) (le_of_sub checks)

theorem faults_mul_bind :
    (mul checks n m >>= f).faults = [] ↔ n * m < 2 ^ 64 ∧ (f (n * m)).faults = [] :=
  faults_bind_iff f (mul_eq checks) (lt_of_mul checks)

theorem faults_asI64_bind :
    (asI64 n >>= g).faults = [] ↔ n < 2 ^ 63 ∧ (g n).faults = [] :=
  faults_bind_iff g asI64_eq lt_of_asI64

end Operations

/-- There are more than `k` pages of `size` when there is something behind the first `k`. -/
theorem lt_ceil_iff {k n size : Nat} (hsize : 0 < size) :
    k < (n + size - 1) / size ↔ k * size < n := by
  rw [Nat.lt_iff_add_one_le, Nat.le_div_iff_mul_le hsize, Nat.add_mul]
  omega

end Checked

end Axes.Lib
