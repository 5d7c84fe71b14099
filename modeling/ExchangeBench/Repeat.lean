import ExchangeBench.Config
import ExchangeBench.Sampler
import ExchangeBench.Stats.Latency

/-!
# Repeats

One cycle of warmup and measurement. What happens in a repeat is decided by the clock, the operation
and the host; given that (`Happenings`), its result is a function of the configuration and the
repeat's index (`RepeatResult.ofHappenings`). Nothing of the warmup enters the result, except that
an error or a panic ends the run.
-/

namespace ExchangeBench

/-- The result of one repeat. -/
structure RepeatResult (α : Type) where
  /-- Counted from 1. -/
  index : Nat
  successCount : Count
  failureCount : Count
  /-- Attempts per second of the configured duration. -/
  throughput : α
  latency : LatencySummary α
  latencyTruncated : Bool
  cpu : CpuSummary α
  errors : Tally

/-- What became of the CPU samples of a repeat. -/
inductive SamplerState where
  | observed
  /-- The host does not sample CPU usage. -/
  | unavailable
  /-- The samples came too late or not at all. -/
  | unobserved
  deriving DecidableEq

/-- What the source of CPU samples answers when it is opened for a repeat. -/
inductive Opening where
  | unavailable
  | opened
  /-- The sampler's thread could not be started. -/
  | unspawned (reason : String)
  | panicked (payload : Payload)
  deriving DecidableEq

/-- What happens in a warmup. -/
structure Warmup where
  /-- When it begins. -/
  start : Clock.Reading
  /-- How its phase ends. -/
  phase : Except Interruption Unit

/-- What happens in a measurement. -/
structure Measurement (α : Type) where
  /-- When it begins. -/
  start : Clock.Reading
  opening : Opening
  /-- What the workers have recorded. -/
  metrics : Metrics α
  /-- How its phase ends. -/
  phase : Except Interruption Unit
  /-- How the sampler ends, if one was started. -/
  sampler : Sampler.Exit α
  load : Except Payload (Option (LoadAverage α))
  logicalCpus : Except Payload Nat

/-- What happens in one repeat. A configuration without warmup has none, whatever stands here. -/
structure Happenings (α : Type) where
  warmup : Warmup
  measurement : Measurement α

namespace RepeatResult

variable {α : Type} [Scalar α]

/-- The result of a repeat that never ran. -/
def zeroed (index : Nat) (cfg : Config) (logicalCpus : Nat) : RepeatResult α where
  index
  successCount := 0
  failureCount := 0
  throughput := Scalar.ofNat 0
  latency := LatencySummary.emptyFor cfg.percentiles
  latencyTruncated := false
  cpu := CpuSummary.unavailable cfg.cpuSampleInterval none logicalCpus
  errors := Tally.empty

/-- Attempts per second of a duration. -/
def throughputOf (attempts : Count) (d : Duration) : α :=
  Scalar.ofNat attempts.toNat / d.inSeconds

/-- An error ends the run. -/
def orInterrupt {β : Type} : Except BenchError β → Except Interruption β
  | .ok b => .ok b
  | .error e => .error (.error e)

/-- A panic ends the run. -/
def orPanic {β : Type} : Except Payload β → Except Interruption β
  | .ok b => .ok b
  | .error p => .error (.panic p)

/-- The samples of a repeat and what became of them, from how its sampler was opened and ended. -/
def samplesOf (exit : Sampler.Exit α) : Opening → Except Interruption (Option (CpuSamples α) × SamplerState)
  | .unavailable => .ok (none, .unavailable)
  | .unspawned reason => .error (.error (.spawn reason))
  | .panicked p => .error (.panic p)
  | .opened =>
    match exit with
    | .joined samples => .ok (some samples, .observed)
    | .timedOut | .lost => .ok (some CpuSamples.empty, .unobserved)

/-- The latency summary of a phase. Quantiles out of order would panic. -/
def latencyOf (set : PercentileSet) (latencies : Array α) :
    Except Interruption (LatencySummary α) :=
  match LatencySummary.ofSamples set latencies.toList with
  | .ok s => .ok s
  | .error d => .error (.panic (.text d.message))

/-- The result of a measurement, and what became of its CPU samples. -/
def measured (cfg : Config) (index : Nat) (m : Measurement α) :
    Except Interruption (RepeatResult α × SamplerState) := do
  let _ ← orInterrupt (Clock.deadline m.start cfg.duration "duration")
  let (samples, state) ← samplesOf m.sampler m.opening
  m.phase
  let load ← orPanic m.load
  let logicalCpus ← orPanic m.logicalCpus
  let latency ← latencyOf cfg.percentiles m.metrics.latencies
  return ({
    index
    successCount := m.metrics.successCount
    failureCount := m.metrics.failureCount
    throughput := throughputOf m.metrics.attempts cfg.duration
    latency
    latencyTruncated := m.metrics.truncated
    cpu := CpuSummary.ofSamples samples cfg.cpuSampleInterval load logicalCpus
    errors := m.metrics.errors }, state)

/-- Whether a warmup lets the run go on. -/
def warmedUp (cfg : Config) (w : Warmup) : Except Interruption Unit := do
  let _ ← orInterrupt (Clock.deadline w.start cfg.warmup "warmup")
  w.phase

/-- The result of a repeat, and what became of its CPU samples. -/
def ofHappenings (cfg : Config) (index : Nat) (h : Happenings α) :
    Except Interruption (RepeatResult α × SamplerState) := do
  if !cfg.warmup.isZero then warmedUp cfg h.warmup
  measured cfg index h.measurement

end RepeatResult
end ExchangeBench
