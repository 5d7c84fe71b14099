import ExchangeBench.Sampler

/-!
# Scripted samplers

A CPU sampler whose probe answers by a script, and that is stopped when the script is at its end.

* `Tick`: one answer of the probe.
* `samplerEvents`: the interleaving that a script stands for.
* `exit?`: how the sampler ends, by running that interleaving.
-/

namespace ExchangeBench.Simulation

variable {α : Type} [Scalar α]

/-- One answer of the probe. -/
inductive Tick (α : Type) where
  | sample (t : CpuTick α)
  /-- The probe panics. -/
  | panic
  /-- The probe takes its time, and then has nothing to say. -/
  | stuck

/-- How long a stuck probe takes. -/
def stuckTime : Duration := Duration.ofMillis 150

/-- The sample of a probe that has nothing to say. -/
def nothing : CpuTick α := ⟨none, none⟩

/-- What the sampler is doing when it is told to stop. -/
inductive Standing where
  | ready
  | dead
  /-- It waits for the probe for longer than it is waited for. -/
  | busy
  deriving DecidableEq

/-- The events of taking samples from the one on that is due at a moment, and how they leave the
sampler. -/
def samples (interval timeout : Duration) :
    Option Clock.Reading → List (Tick α) → List (Sampler.Event α) × Standing
  | none, _ => ([], .dead)
  | some _, [] => ([], .ready)
  | some due, tick :: ticks =>
    let on (t : CpuTick α) : List (Sampler.Event α) × Standing :=
      let (events, standing) := samples interval timeout (Sampler.nextTick? interval due due) ticks
      (.check :: .look due :: .probe (some t) :: events, standing)
    match tick with
    | .sample t => on t
    | .panic => ([.check, .look due, .probe none], .dead)
    | .stuck =>
      if ticks.isEmpty && timeout.nanos < stuckTime.nanos then ([.check, .look due], .busy)
      else on nothing

/-- The events of stopping a sampler. -/
def stopping : Standing → List (Sampler.Event α)
  | .ready => [.raise, .unpark, .check, .send, .receive]
  | .dead => [.raise, .unpark, .receive]
  | .busy => [.raise, .unpark, .giveUp]

/-- The interleaving of a sampler that is started at a moment. -/
def samplerEvents (interval timeout : Duration) (start : Clock.Reading) (ticks : List (Tick α)) :
    List (Sampler.Event α) :=
  let (events, standing) := samples interval timeout (Clock.after? start interval) ticks
  .begin start :: events ++ stopping standing

/-- How a sampler ends that is started at a moment and stopped when the script is at its end. -/
def exit? (interval timeout : Duration) (start : Clock.Reading) (ticks : List (Tick α)) :
    Option (Sampler.Exit α) := do
  let last ← Sampler.State.start.run? interval (samplerEvents interval timeout start ticks)
  last.exit?

end ExchangeBench.Simulation
