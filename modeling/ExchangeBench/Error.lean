import ExchangeBench.Failure
import ExchangeBench.Text.Natural

/-!
# Errors

Why a configuration is refused, or a run does not complete.
-/

namespace ExchangeBench

/-- What went wrong outside of any attempt. -/
inductive BenchError where
  | io (reason : String)
  | invalidConcurrency
  | invalidDuration
  /-- The clock has no reading at the end of the named duration. -/
  | durationOutOfRange (field : String) (secs : Nat)
  | invalidRepeats
  | invalidCpuInterval (minMillis gotMillis : Nat)
  | invalidLatencyCapacity
  | invalidPercentile (text : String)
  | emptyPercentiles
  | spawn (reason : String)
  | workerPanicked (message : String)
  | serialize (reason : String)
  deriving DecidableEq

namespace BenchError

/-- The wording of an error. -/
def message : BenchError → String
  | io reason => "io error: " ++ reason
  | invalidConcurrency => "`concurrency` must be a positive integer"
  | invalidDuration => "`duration` must be a positive duration"
  | durationOutOfRange field secs =>
    "`" ++ field ++ "` of " ++ Text.ofNat secs ++ "s is too large to schedule"
  | invalidRepeats => "`repeats` must be a positive integer"
  | invalidCpuInterval minMillis gotMillis =>
    "`cpu_sample_interval` must be at least " ++ Text.ofNat minMillis ++ "ms (got " ++
      Text.ofNat gotMillis ++ "ms)"
  | invalidLatencyCapacity => "`latency_capacity` must be a positive integer"
  | invalidPercentile text =>
    "invalid percentile `" ++ text ++ "` (expected a number in [0, 100])"
  | emptyPercentiles => "percentile list must not be empty"
  | spawn reason => "failed to spawn worker thread: " ++ reason
  | workerPanicked m => "worker thread panicked: " ++ m
  | serialize reason => "failed to serialize report: " ++ reason

end BenchError

/-- Why a run does not complete. -/
inductive Interruption where
  | error (e : BenchError)
  | panic (payload : Payload)
  deriving DecidableEq

end ExchangeBench
