import ExchangeBench.Duration
import ExchangeBench.Error
import ExchangeBench.Metrics
import ExchangeBench.Percentile.Set

/-!
# Run configuration

How a benchmark is run, and when a configuration is accepted. `Config.validate` refuses for the
first reason that holds, in the order of the fields it looks at.
-/

namespace ExchangeBench

/-- The end of a phase of a configured duration, named for the message. -/
def Clock.deadline (start : Reading) (d : Duration) (field : String) : Except BenchError Reading :=
  match after? start d with
  | some t => .ok t
  | none => .error (.durationOutOfRange field d.secs)

/-- How a benchmark is run. -/
structure Config where
  /-- Workers per phase. -/
  concurrency : UInt64
  /-- The length of a measurement phase, which throughput is computed against. -/
  duration : Duration
  /-- The length of a warmup phase; there is none if it is zero. -/
  warmup : Duration
  repeats : UInt64
  percentiles : PercentileSet
  cpuSampleInterval : Duration
  /-- How many latencies a measurement phase retains. -/
  latencyCapacity : UInt64
  deriving DecidableEq

namespace Config

/-- The CPU sampling interval unless something else is configured. -/
def defaultCpuSampleInterval : Duration := Duration.ofMillis 500

/-- The shortest CPU sampling interval. -/
def minCpuSampleInterval : Duration := Duration.ofMillis 200

/-- What is used where nothing is configured. -/
def default : Config where
  concurrency := 1
  duration := Duration.ofSecs 1
  warmup := Duration.zero
  repeats := 1
  percentiles := PercentileSet.default
  cpuSampleInterval := defaultCpuSampleInterval
  latencyCapacity := UInt64.ofNat Metrics.defaultCapacity

instance : Inhabited Config := ⟨default⟩

/-- Accepts a configuration that can be run from a moment on, or says why it cannot. -/
def validate (c : Config) (now : Clock.Reading) : Except BenchError Unit :=
  if c.concurrency = 0 then .error .invalidConcurrency
  else if c.duration.isZero then .error .invalidDuration
  else do
    let _ ← Clock.deadline now c.duration "duration"
    let _ ← Clock.deadline now c.warmup "warmup"
    if c.repeats = 0 then .error .invalidRepeats
    else if c.cpuSampleInterval.nanos < minCpuSampleInterval.nanos then
      .error (.invalidCpuInterval minCpuSampleInterval.millis c.cpuSampleInterval.millis)
    else if c.latencyCapacity = 0 then .error .invalidLatencyCapacity
    else .ok ()

end Config
end ExchangeBench
