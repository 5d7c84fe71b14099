import ExchangeBench.Repeat.Summary
import ExchangeBench.Run.Note

/-!
# Runs

A run is its repeats, one after another. `Run.outcome` is what a run of a configuration comes to, for
a world that decides what happens in each repeat: an error or a panic anywhere ends it, and otherwise
it has a result for every repeat, a summary across them, and notes.

`Progress.advance` takes in one repeat and `Progress.finish` closes the run, so that a program can
let the repeats happen one by one.
-/

namespace ExchangeBench

/-- What a completed run comes to. -/
structure RunOutcome (α : Type) where
  repeats : List (RepeatResult α)
  summary : CrossRepeatSummary α
  notes : List Note

namespace Run

variable {α : Type} [Scalar α]

/-- The size of one repeat's result in memory. -/
def resultBytes : Nat := 264

/-- Whether a buffer for the results of so many repeats can be reserved at all. -/
def canReserve (repeats : Nat) : Bool :=
  Buffer.fits repeats resultBytes

/-- The repeats of a run so far. -/
structure Progress (α : Type) where
  /-- The results, the last one first. -/
  results : List (RepeatResult α)
  /-- Whether the host did not sample CPU usage in some repeat. -/
  unavailable : Bool
  /-- The repeats whose CPU samples did not come in time, the last one first. -/
  unobserved : List Nat

namespace Progress

/-- Before the first repeat. The configuration is checked once more, and a buffer for all results is
reserved. -/
def start (cfg : Config) (now : Clock.Reading) : Except Interruption (Progress α) := do
  RepeatResult.orInterrupt (cfg.validate now)
  if canReserve cfg.repeats.toNat then .ok ⟨[], false, []⟩ else .error (.panic .capacityOverflow)

/-- Adds the result of one repeat, and what became of its CPU samples. -/
def add (p : Progress α) (r : RepeatResult α) (state : SamplerState) : Progress α where
  results := r :: p.results
  unavailable := p.unavailable || state == .unavailable
  unobserved := if state = .unobserved then r.index :: p.unobserved else p.unobserved

/-- Takes in one repeat. -/
def advance (cfg : Config) (p : Progress α) (index : Nat) (h : Happenings α) :
    Except Interruption (Progress α) := do
  let (r, state) ← RepeatResult.ofHappenings cfg index h
  return p.add r state

/-- The notes on a run: on its warmup, on missing CPU samples, on late ones, and on dropped
latencies, each where there is something to remark. -/
def notes (cfg : Config) (p : Progress α) : List Note :=
  let truncated := (p.results.reverse.filter RepeatResult.latencyTruncated).map RepeatResult.index
  (if cfg.warmup.isZero then [] else [.warmup cfg.repeats.toNat]) ++
  (if p.unavailable then [.cpuUnavailable] else []) ++
  (if p.unobserved.isEmpty then []
    else [.samplerUnobserved Sampler.joinTimeout.secs p.unobserved.reverse]) ++
  (if truncated.isEmpty then [] else [.latencyTruncated cfg.latencyCapacity.toNat truncated])

/-- The run that these repeats complete. -/
def finish (cfg : Config) (p : Progress α) : RunOutcome α where
  repeats := p.results.reverse
  summary := CrossRepeatSummary.ofRepeats cfg.percentiles p.results.reverse
  notes := p.notes cfg

end Progress

/-- The indices of the repeats of a run. -/
def indices (cfg : Config) : List Nat :=
  List.range' 1 cfg.repeats.toNat

/-- What a run comes to that begins at a moment, in a world that says what happens in the repeat of
each index. -/
def outcome (cfg : Config) (now : Clock.Reading) (world : Nat → Happenings α) :
    Except Interruption (RunOutcome α) := do
  let start ← Progress.start cfg now
  let last ← (indices cfg).foldlM (fun p i => p.advance cfg i (world i)) start
  return last.finish cfg

end Run
end ExchangeBench
