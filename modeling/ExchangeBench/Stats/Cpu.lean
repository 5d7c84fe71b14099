import ExchangeBench.Duration
import ExchangeBench.Stats.Running

/-!
# CPU summaries

What the CPU was doing during one phase: percentages of the whole system and of this process, as
averages and peaks over the samples taken, beside the load average and the number of logical CPUs.
-/

namespace ExchangeBench

/-- The load averages over one, five and fifteen minutes. -/
structure LoadAverage (α : Type) where
  one : α
  five : α
  fifteen : α

/-- One sample. Either side is missing where the host cannot tell. -/
structure CpuTick (α : Type) where
  system : Option α
  process : Option α

/-- The percentages sampled so far, those of each side in the order they were taken. -/
structure CpuSamples (α : Type) where
  system : List α
  process : List α

namespace CpuSamples

variable {α : Type} [Scalar α]

/-- No sample yet. -/
def empty : CpuSamples α := ⟨[], []⟩

/-- Takes in one tick: those of its sides that are present and finite. -/
def push (s : CpuSamples α) (t : CpuTick α) : CpuSamples α :=
  ⟨s.system ++ (t.system.filter Scalar.isFinite).toList,
   s.process ++ (t.process.filter Scalar.isFinite).toList⟩

/-- The samples of a list of ticks. -/
def ofTicks (ts : List (CpuTick α)) : CpuSamples α :=
  ts.foldl push empty

end CpuSamples

/-- The percentages of one phase. -/
inductive CpuUsage (α : Type) where
  | available (systemAvg systemPeak processAvg processPeak : Option α) (sampleCount : Nat)
  /-- The host does not sample CPU usage. -/
  | unavailable

/-- The CPU record of one phase. The load average is taken once, when the phase is over. -/
structure CpuSummary (α : Type) where
  usage : CpuUsage α
  sampleInterval : Duration
  loadAverage : Option (LoadAverage α)
  logicalCpus : Nat

namespace CpuSummary

variable {α : Type} [Scalar α]

/-- The record of a phase in which no sampler ran. -/
def unavailable (interval : Duration) (load : Option (LoadAverage α)) (logicalCpus : Nat) :
    CpuSummary α :=
  ⟨.unavailable, interval, load, logicalCpus⟩

/-- The usage that some samples show; the samples of the system are the ones counted. -/
def usageOf (s : CpuSamples α) : CpuUsage α :=
  let system := Running.ofList s.system
  let process := Running.ofList s.process
  .available system.mean? system.max? process.mean? process.max? s.system.length

/-- The record of a phase with the given samples, `none` where no sampler ran. -/
def ofSamples (samples : Option (CpuSamples α)) (interval : Duration)
    (load : Option (LoadAverage α)) (logicalCpus : Nat) : CpuSummary α :=
  match samples with
  | none => unavailable interval load logicalCpus
  | some s => ⟨usageOf s, interval, load, logicalCpus⟩

end CpuSummary
end ExchangeBench
