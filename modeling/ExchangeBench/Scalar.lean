import ExchangeBench.Decimal.Binary64

/-!
# Scalars

The numbers that latencies, throughputs and percentages are computed with. The computations of this
library are written once, over any `Scalar`; the program runs them on doubles (`instScalarFloat`),
and their laws can be stated on numbers whose arithmetic is exact, or rounded in some other way.
-/

namespace ExchangeBench

/-- A number system with the operations that the statistics use. -/
class Scalar (α : Type) extends Add α, Sub α, Mul α, Div α where
  /-- The scalar nearest to a natural number below `2 ^ 64`. -/
  ofNat : Nat → α
  /-- The scalar of the finite, non-negative double with a code. -/
  ofCode : Nat → α
  /-- The whole part of a scalar that is not negative. -/
  floor : α → Nat
  sqrt : α → α
  isFinite : α → Bool
  /-- Strictly smaller; nothing is smaller or larger than a scalar that is no number. -/
  less : α → α → Bool
  /-- Smaller or equal; false where either scalar is no number. -/
  atMost : α → α → Bool
  /-- The order in which samples are sorted: total, and finer than `less` on signed zeros. -/
  precedes : α → α → Bool

namespace Binary64

/-- The place of a double in the order of its bit patterns: negative ones descend with the code,
so negative zero stands just before zero. -/
def place (x : Binary64) : Int :=
  if x.negative then -(x.code : Int) - 1 else x.code

end Binary64

/-- Doubles, with arithmetic rounded to nearest. -/
instance instScalarFloat : Scalar Float where
  ofNat n := (UInt64.ofNat n).toFloat
  ofCode c := Binary64.toFloat ⟨false, c⟩
  floor x := x.toUInt64.toNat
  sqrt := Float.sqrt
  isFinite x := (Binary64.ofFloat x).isFinite
  less x y := decide (x < y)
  atMost x y := decide (x ≤ y)
  precedes x y := (Binary64.ofFloat x).place ≤ (Binary64.ofFloat y).place

end ExchangeBench
