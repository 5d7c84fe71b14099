import ExchangeBench.Scalar

/-!
# Quantiles

The quantile of sorted samples by linear interpolation. Quantile `q` of `n` samples has rank
`q * (n - 1)`, and lies between the two samples whose indices bracket the rank, as far along as the
rank's fraction says. The result is held between the two samples, whatever the rounding did; that
they are in order is checked, because nothing can be held between bounds that are not.
-/

namespace ExchangeBench.Quantile

variable {α : Type} [Scalar α]

/-- The two samples that bracket a rank are not in order, or one of them is no number. -/
inductive Disorder where
  | bounds
  deriving DecidableEq

/-- What a panic on disorder says. -/
def Disorder.message : Disorder → String
  | bounds => "min > max, or either was NaN"

/-- A value, or the bound that it lies beyond. A value that is no number stays as it is. -/
def clamp (lo hi x : α) : α :=
  if Scalar.less x lo then lo else if Scalar.less hi x then hi else x

/-- The value at a fraction of the way from `lo` to `hi`. -/
def between (lo hi weight : α) : Except Disorder α :=
  if Scalar.atMost lo hi then .ok (clamp lo hi (lo + (hi - lo) * weight)) else .error .bounds

/-- Quantile `q` of sorted samples, absent where there are none. A quantile below 0 or above 1 is
taken for 0 or 1. -/
def ofSorted (xs : Array α) (q : α) : Except Disorder (Option α) :=
  if h : xs.size = 0 then .ok none
  else
    let last := xs.size - 1
    let q := clamp (Scalar.ofNat 0) (Scalar.ofNat 1) q
    let rank := Scalar.ofNat last * q
    let lower := min (Scalar.floor rank) last
    let upper := min (lower + 1) last
    have hlower : lower < xs.size := by omega
    have hupper : upper < xs.size := by omega
    let weight := rank - Scalar.ofNat lower
    (between xs[lower] xs[upper] weight).map some

end ExchangeBench.Quantile
