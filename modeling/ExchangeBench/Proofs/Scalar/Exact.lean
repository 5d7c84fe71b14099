import Mathlib
import ExchangeBench.Duration
import ExchangeBench.Proofs.Scalar.Order

/-!
# Exact scalars

The computations of the library are written once, over any scalars. Exact scalars are those on which
nothing is rounded: every finite one is a real number, and each operation is that of the real numbers.
What holds of a computation on them is what its formula says, apart from the rounding.

- `Scalar.Exact`: one law for each operation.
- `instExactReal`: the real numbers themselves.
- `Duration.real_inSeconds`: the length of a duration in seconds.
-/

namespace ExchangeBench

/-- Nothing is rounded. Finite scalars stand for real numbers, and as long as the operands are finite
(a divisor not zero, a radicand not negative) so is the result, and it is the right one. -/
class Scalar.Exact (α : Type) [Scalar α] where
  /-- The number that a finite scalar stands for. -/
  real : α → ℝ
  ofNat : ∀ n : Nat, isFinite (Scalar.ofNat n : α) = true ∧ real (Scalar.ofNat n) = n
  ofCode : ∀ c, c < Binary64.infinityCode →
    isFinite (Scalar.ofCode c : α) = true ∧ real (Scalar.ofCode c) = (Binary64.magnitude c : ℝ)
  add : ∀ a b : α, isFinite a = true → isFinite b = true →
    isFinite (a + b) = true ∧ real (a + b) = real a + real b
  sub : ∀ a b : α, isFinite a = true → isFinite b = true →
    isFinite (a - b) = true ∧ real (a - b) = real a - real b
  mul : ∀ a b : α, isFinite a = true → isFinite b = true →
    isFinite (a * b) = true ∧ real (a * b) = real a * real b
  div : ∀ a b : α, isFinite a = true → isFinite b = true → real b ≠ 0 →
    isFinite (a / b) = true ∧ real (a / b) = real a / real b
  sqrt : ∀ a : α, isFinite a = true → 0 ≤ real a →
    isFinite (Scalar.sqrt a) = true ∧ real (Scalar.sqrt a) = √(real a)
  floor : ∀ a : α, isFinite a = true → 0 ≤ real a → Scalar.floor a = ⌊real a⌋₊
  less : ∀ a b : α, isFinite a = true → isFinite b = true →
    (Scalar.less a b = true ↔ real a < real b)
  atMost : ∀ a b : α, isFinite a = true → isFinite b = true →
    (Scalar.atMost a b = true ↔ real a ≤ real b)
  precedes : ∀ a b : α, isFinite a = true → isFinite b = true → Scalar.precedes a b = true →
    real a ≤ real b

/-! ## The real numbers -/

open Classical in
/-- The real numbers as scalars. -/
noncomputable instance instScalarReal : Scalar ℝ where
  ofNat n := n
  ofCode c := (Binary64.magnitude c : ℝ)
  floor x := ⌊x⌋₊
  sqrt := Real.sqrt
  isFinite _ := true
  less x y := decide (x < y)
  atMost x y := decide (x ≤ y)
  precedes x y := decide (x ≤ y)

noncomputable instance instExactReal : Scalar.Exact ℝ where
  real x := x
  ofNat _ := ⟨rfl, rfl⟩
  ofCode _ _ := ⟨rfl, rfl⟩
  add _ _ _ _ := ⟨rfl, rfl⟩
  sub _ _ _ _ := ⟨rfl, rfl⟩
  mul _ _ _ _ := ⟨rfl, rfl⟩
  div _ _ _ _ _ := ⟨rfl, rfl⟩
  sqrt _ _ _ := ⟨rfl, rfl⟩
  floor _ _ _ := rfl
  less _ _ _ _ := decide_eq_true_iff
  atMost _ _ _ _ := decide_eq_true_iff
  precedes _ _ _ _ := decide_eq_true_iff.mp

instance instOrderedReal : Scalar.Ordered ℝ where
  precedes_total a b := by
    rw [Bool.or_eq_true]
    exact (le_total a b).imp decide_eq_true decide_eq_true
  precedes_trans a b c hab hbc :=
    decide_eq_true ((of_decide_eq_true hab).trans (of_decide_eq_true hbc))
  precedes_antisymm a b hab hba := le_antisymm (of_decide_eq_true hab) (of_decide_eq_true hba)
  atMost_of_precedes a b _ _ hab := hab

/-! ## Durations -/

/-- The length of a duration in seconds is its nanoseconds divided by those of a second. -/
theorem Duration.real_inSeconds (α : Type) [Scalar α] [Scalar.Exact α] (d : Duration) :
    Scalar.isFinite (d.inSeconds : α) = true ∧
      Scalar.Exact.real (d.inSeconds : α) = d.nanos / nanosPerSecond := by
  obtain ⟨hsecs, hsecs'⟩ := Scalar.Exact.ofNat (α := α) d.secs
  obtain ⟨hsub, hsub'⟩ := Scalar.Exact.ofNat (α := α) d.subsecNanos
  obtain ⟨hper, hper'⟩ := Scalar.Exact.ofNat (α := α) nanosPerSecond
  have hne : ((nanosPerSecond : Nat) : ℝ) ≠ 0 := by
    rw [Nat.cast_ne_zero]
    decide
  obtain ⟨hdiv, hdiv'⟩ := Scalar.Exact.div _ _ hsub hper (hper' ▸ hne)
  obtain ⟨hadd, hadd'⟩ := Scalar.Exact.add _ _ hsecs hdiv
  refine ⟨hadd, ?_⟩
  -- whole seconds and the rest have the nanoseconds of a second as their common denominator
  have hnanos : (d.nanos : ℝ) = d.secs * nanosPerSecond + d.subsecNanos := by
    exact_mod_cast d.nanos_eq
  rw [inSeconds, hadd', hdiv', hsecs', hsub', hper', hnanos]
  field_simp

end ExchangeBench
