import ExchangeBench.Proofs.Scalar.Exact

/-!
# Rounded scalars

Real numbers on which every operation is the exact one with a rounding behind it. The rounding is any
function; what is proved of a computation on these scalars holds however doubles are rounded, to nearest
or in a direction, with as many bits as one likes. Only what overflows is outside of this: a rounding
leads from numbers to numbers.

- `Rounded`: real numbers with a rounding.
- `instScalarRounded`, `instOrderedRounded`: they are scalars, in the order of the numbers.
- `Rounded.Steady`: roundings that keep the order and some whole numbers. `Rounded.eighths` is one.
-/

namespace ExchangeBench

/-- A real number among those whose operations are rounded in some way. -/
@[ext]
structure Rounded (round : ℝ → ℝ) where
  real : ℝ

variable {round : ℝ → ℝ}

open Classical in
/-- Each operation is the exact one, rounded. The doubles that percentiles are need no rounding. -/
noncomputable instance instScalarRounded : Scalar (Rounded round) where
  add a b := ⟨round (a.real + b.real)⟩
  sub a b := ⟨round (a.real - b.real)⟩
  mul a b := ⟨round (a.real * b.real)⟩
  div a b := ⟨round (a.real / b.real)⟩
  ofNat n := ⟨round n⟩
  ofCode c := ⟨(Binary64.magnitude c : ℝ)⟩
  floor a := ⌊a.real⌋₊
  sqrt a := ⟨round √a.real⟩
  isFinite _ := true
  less a b := decide (a.real < b.real)
  atMost a b := decide (a.real ≤ b.real)
  precedes a b := decide (a.real ≤ b.real)

instance instOrderedRounded : Scalar.Ordered (Rounded round) where
  precedes_total a b := by
    rw [Bool.or_eq_true]
    exact (le_total a.real b.real).imp decide_eq_true decide_eq_true
  precedes_trans a b c hab hbc :=
    decide_eq_true ((of_decide_eq_true hab).trans (of_decide_eq_true hbc))
  precedes_antisymm a b hab hba :=
    Rounded.ext (le_antisymm (of_decide_eq_true hab) (of_decide_eq_true hba))
  atMost_of_precedes _ _ _ _ hab := hab

namespace Rounded

@[simp]
theorem real_mul (a b : Rounded round) : (a * b).real = round (a.real * b.real) := rfl

@[simp]
theorem real_ofNat (n : ℕ) : (Scalar.ofNat n : Rounded round).real = round n := rfl

theorem less_iff (a b : Rounded round) : Scalar.less a b = true ↔ a.real < b.real :=
  decide_eq_true_iff

theorem atMost_iff (a b : Rounded round) : Scalar.atMost a b = true ↔ a.real ≤ b.real :=
  decide_eq_true_iff

/-- The rounding keeps the order, and it leaves 0, 1 and the indices of `n` samples as they are. -/
structure Steady (round : ℝ → ℝ) (n : ℕ) : Prop where
  monotone : Monotone round
  zero : round 0 = 0
  one : round 1 = 1
  index : ∀ i < n, round i = i

theorem Steady.nonneg {n : ℕ} (h : Steady round n) {x : ℝ} (hx : 0 ≤ x) : 0 ≤ round x :=
  h.zero ▸ h.monotone hx

/-- Rounding down to eighths. -/
noncomputable def eighths (x : ℝ) : ℝ := ⌊8 * x⌋ / 8

/-- Whole numbers are eighths, too. -/
theorem steady_eighths (n : ℕ) : Steady eighths n := by
  have hwhole : ∀ i : ℕ, eighths i = i := by
    intro i
    have hfloor : ⌊8 * (i : ℝ)⌋ = 8 * i := by exact_mod_cast Int.floor_natCast (R := ℝ) (8 * i)
    rw [eighths, hfloor]
    push_cast
    ring
  refine ⟨fun x y hxy => ?_, by exact_mod_cast hwhole 0, by exact_mod_cast hwhole 1,
    fun i _ => hwhole i⟩
  unfold eighths
  gcongr

end Rounded
end ExchangeBench
