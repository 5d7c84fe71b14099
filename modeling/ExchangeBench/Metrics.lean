import ExchangeBench.Failure.Tally

/-!
# Metrics of a phase

What the workers of one measurement phase record: how many attempts succeeded and failed, the
latencies of the timed ones as far as they fit, and a tally of the failures.

Each attempt is one `Record`, and the metrics of a phase are a fold of `Metrics.record` over the
records in the order they arrive (`Metrics.ofRecords`).
-/

namespace ExchangeBench

/-- One attempt, as it is recorded. A failure whose attempt was not timed has no latency. -/
inductive Record (α : Type) where
  | success (latency : α)
  | failure (key : ErrorKey) (latency : Option α)
  deriving DecidableEq

/-- The counters and the latency buffer of one phase. -/
structure Metrics (α : Type) where
  successCount : Count
  failureCount : Count
  /-- Milliseconds, in the order of the records. -/
  latencies : Array α
  /-- Whether a latency was dropped because the buffer was full. -/
  truncated : Bool
  errors : Tally
  deriving DecidableEq

namespace Metrics

variable {α : Type}

/-- The latencies a phase retains unless something else is configured. -/
def defaultCapacity : Nat := 2000000

/-- Nothing recorded yet. -/
def empty : Metrics α := ⟨0, 0, #[], false, Tally.empty⟩

/-- The number of attempts recorded. -/
def attempts (m : Metrics α) : Count :=
  Count.add m.successCount m.failureCount

/-- Keeps a latency if the buffer has room, and notes that one was dropped otherwise. -/
def pushLatency (capacity : Nat) (m : Metrics α) (latency : α) : Metrics α :=
  if m.latencies.size < capacity then { m with latencies := m.latencies.push latency }
  else { m with truncated := true }

/-- Keeps the latency of an attempt that was timed. -/
def pushLatency? (capacity : Nat) (m : Metrics α) : Option α → Metrics α
  | none => m
  | some latency => m.pushLatency capacity latency

/-- Records one attempt. -/
def record (capacity : Nat) (m : Metrics α) : Record α → Metrics α
  | .success latency =>
    let m := m.pushLatency capacity latency
    { m with successCount := Count.add m.successCount 1 }
  | .failure key latency =>
    let m := m.pushLatency? capacity latency
    { m with
      failureCount := Count.add m.failureCount 1
      errors := m.errors.insert key 1 }

/-- The metrics after some records. -/
def ofRecords (capacity : Nat) (rs : List (Record α)) : Metrics α :=
  rs.foldl (record capacity) empty

end Metrics
end ExchangeBench
