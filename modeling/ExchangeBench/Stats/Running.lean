import ExchangeBench.Count
import ExchangeBench.Scalar

/-!
# Running statistics

Count, mean, sample standard deviation and maximum of a sequence, kept up value by value. Each value
moves the mean by its distance from it divided by the count, and adds the product of its distances
from the old and the new mean to the sum of squared deviations. Values that are not finite are
passed over.
-/

namespace ExchangeBench

/-- The statistics of the values seen so far. -/
structure Running (α : Type) where
  count : Count
  mean : α
  /-- The sum of the squared deviations from the mean. -/
  deviation : α
  max : α

namespace Running

variable {α : Type} [Scalar α]

/-- No value seen yet. -/
def empty : Running α :=
  ⟨0, Scalar.ofNat 0, Scalar.ofNat 0, Scalar.ofNat 0⟩

/-- Takes in one value. -/
def push (r : Running α) (x : α) : Running α :=
  if Scalar.isFinite x then
    let n := Count.add r.count 1
    let step := x - r.mean
    let mean := r.mean + step / Scalar.ofNat n.toNat
    { count := n
      mean
      deviation := r.deviation + step * (x - mean)
      max := if n = 1 || Scalar.less r.max x then x else r.max }
  else r

/-- The statistics of a list of values. -/
def ofList (xs : List α) : Running α :=
  xs.foldl push empty

/-- The mean, absent before the first value. -/
def mean? (r : Running α) : Option α :=
  if r.count = 0 then none else some r.mean

/-- The sample variance, absent before the second value. -/
def variance? (r : Running α) : Option α :=
  if r.count < 2 then none
  else some (r.deviation / (Scalar.ofNat r.count.toNat - Scalar.ofNat 1))

/-- The sample standard deviation, absent before the second value. -/
def stdev? (r : Running α) : Option α :=
  r.variance?.map Scalar.sqrt

/-- The maximum, absent before the first value. -/
def max? (r : Running α) : Option α :=
  if r.count = 0 then none else some r.max

end Running
end ExchangeBench
