import ExchangeBench.Repeat

/-!
# The summary across repeats

Means, deviation and maximum over the repeats of a run. A repeat that has no value does not count
where the value is asked for.
-/

namespace ExchangeBench

/-- What the repeats of a run have in common. -/
structure CrossRepeatSummary (α : Type) where
  throughputMean : Option α
  /-- The sample standard deviation, absent for a single repeat. -/
  throughputStdev : Option α
  p99Mean : Option α
  /-- Absent unless 99.9 was asked for. -/
  p999Mean : Option α
  maxLatencyMax : Option α

namespace CrossRepeatSummary

variable {α : Type}

/-- The summary of no run. -/
def absent : CrossRepeatSummary α := ⟨none, none, none, none, none⟩

/-- The statistics of a value over the repeats that have it. -/
def statistics [Scalar α] (f : RepeatResult α → Option α) (rs : List (RepeatResult α)) : Running α :=
  Running.ofList (rs.filterMap f)

/-- The summary of some repeats. -/
def ofRepeats [Scalar α] (set : PercentileSet) (rs : List (RepeatResult α)) :
    CrossRepeatSummary α :=
  let throughput := statistics (fun r => some r.throughput) rs
  { throughputMean := throughput.mean?
    throughputStdev := throughput.stdev?
    p99Mean := (statistics (fun r => r.latency.get? Percentile.p99.key) rs).mean?
    p999Mean :=
      if set.contains Percentile.p999 then
        (statistics (fun r => r.latency.get? Percentile.p999.key) rs).mean?
      else none
    maxLatencyMax := (statistics (fun r => r.latency.max) rs).max? }

end CrossRepeatSummary
end ExchangeBench
