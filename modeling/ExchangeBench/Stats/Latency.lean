import ExchangeBench.Percentile.Set
import ExchangeBench.Stats.Quantile

/-!
# Latency summaries

The percentiles and the maximum of the latencies of one phase. Samples that are not finite are left
out. Without samples every percentile is absent; the keys are there all the same.
-/

namespace ExchangeBench

/-- The latencies of one phase in milliseconds: how many there are, their percentiles under their
keys, and the largest. -/
structure LatencySummary (α : Type) where
  count : Nat
  percentiles : List (String × Option α)
  max : Option α
  deriving DecidableEq

namespace LatencySummary

variable {α : Type}

/-- The summary of no samples. -/
def empty (keys : List String) : LatencySummary α :=
  ⟨0, keys.map fun k => (k, none), none⟩

/-- The percentile under a key, if the key is there and the percentile is present. -/
def get? (s : LatencySummary α) (key : String) : Option α :=
  (s.percentiles.find? fun e => e.1 == key).bind Prod.snd

/-- The finite samples in ascending order. -/
def ascending [Scalar α] (samples : List α) : List α :=
  (samples.filter Scalar.isFinite).mergeSort Scalar.precedes

/-- The summary of some samples at some quantiles, each with its key. -/
def ofSamplesAt [Scalar α] (points : List (String × α)) (samples : List α) :
    Except Quantile.Disorder (LatencySummary α) :=
  let sorted := (ascending samples).toArray
  if sorted.isEmpty then .ok (empty (points.map Prod.fst))
  else
    match points.mapM fun p => (Quantile.ofSorted sorted p.2).map fun v => (p.1, v) with
    | .error e => .error e
    | .ok percentiles => .ok ⟨sorted.size, percentiles, sorted.back?⟩

/-- The keys and quantiles of the percentiles that a report holds. -/
def points [Scalar α] (set : PercentileSet) : List (String × α) :=
  set.effective.map fun p => (p.key, p.quantile)

/-- The summary of some samples at the effective percentiles of a set. -/
def ofSamples [Scalar α] (set : PercentileSet) (samples : List α) :
    Except Quantile.Disorder (LatencySummary α) :=
  ofSamplesAt (points set) samples

/-- The summary of no samples, with the keys of a set. -/
def emptyFor (set : PercentileSet) : LatencySummary α :=
  empty (set.effective.map Percentile.key)

end LatencySummary
end ExchangeBench
