import ExchangeBench.Duration
import ExchangeBench.Stats.Cpu

/-!
# The CPU sampler

A thread beside the workers samples the CPU at a fixed pace until it is told to stop, and then hands
its samples over. Stopping takes two steps, a flag and a token: the sampler looks at the flag before
it looks at the clock, and a token ends a wait that has begun, or keeps one from beginning.

Sampler and orchestrator form a transition system of atomic steps (`State.step?`). Either may step at
any time, and a wait may end without a cause.

* `nextTick?`: the pace. A sample that comes late does not make the next ones come early.
* `State`, `Event`: where both sides stand, and what can happen.
* `State.exit?`: what the orchestrator learns.
-/

namespace ExchangeBench.Sampler

variable {α : Type}

/-- How long a stopped sampler may take to hand over its samples. -/
def joinTimeout : Duration := Duration.ofSecs 2

/-- How a sampler ends. -/
inductive Exit (α : Type) where
  | joined (samples : CpuSamples α)
  /-- The samples did not come in time. -/
  | timedOut
  /-- The thread died before it handed over its samples. -/
  | lost

/-- When the sample after one is due that was due at `due` and taken at `now`: an interval later,
or, if that has passed already, an interval from now. The clock may not reach that far. -/
def nextTick? (interval : Duration) (due now : Clock.Reading) : Option Clock.Reading :=
  match Clock.after? due interval with
  | none => none
  | some t => if t < now then Clock.after? now interval else some t

/-- What the sampler is about to do. -/
inductive Thread where
  /-- Read the clock for the first time. -/
  | starting
  /-- Look at the stop flag; the next sample is due at `due`. -/
  | checking (due : Clock.Reading)
  /-- Read the clock. -/
  | looking (due : Clock.Reading)
  /-- Wait, unless there is a token. -/
  | parking (due : Clock.Reading)
  /-- Come out of a wait. -/
  | parked (due : Clock.Reading)
  /-- Take the sample whose moment has come. -/
  | probing (due now : Clock.Reading)
  /-- Hand the samples over. -/
  | sending
  /-- Nothing: the samples are handed over. -/
  | finished
  /-- Nothing: a panic has ended it. -/
  | dead
  deriving DecidableEq

/-- What the orchestrator is about to do, or has learned. -/
inductive Orchestrator (α : Type) where
  /-- Set the stop flag, when the phase is over. -/
  | running
  /-- Give the token. -/
  | flagged
  /-- Receive the samples. -/
  | waiting
  | left (exit : Exit α)

/-- Both sides, and what they share. -/
structure State (α : Type) where
  thread : Thread
  samples : CpuSamples α
  stop : Bool
  token : Bool
  delivered : Option (CpuSamples α)
  orchestrator : Orchestrator α

/-- A step of either side, with what the clock or the probe answered. -/
inductive Event (α : Type) where
  | begin (now : Clock.Reading)
  | check
  | look (now : Clock.Reading)
  | park
  | wake
  /-- The probe answers, or panics. -/
  | probe (answer : Option (CpuTick α))
  | send
  | raise
  | unpark
  | receive
  | giveUp

namespace State

/-- The sampler has just been started. -/
def start : State α := ⟨.starting, ⟨[], []⟩, false, false, none, .running⟩

/-- The thread when the next sample is due at a moment, if the clock reaches that far. -/
def threadDue : Option Clock.Reading → Thread
  | some due => .checking due
  | none => .dead

/-- A step of the sampler. -/
def stepThread? [Scalar α] (interval : Duration) (s : State α) : Event α → Option (State α)
  | .begin now =>
    match s.thread with
    | .starting => some { s with thread := threadDue (Clock.after? now interval) }
    | _ => none
  | .check =>
    match s.thread with
    | .checking due => some { s with thread := if s.stop then .sending else .looking due }
    | _ => none
  | .look now =>
    match s.thread with
    | .looking due => some { s with thread := if now < due then .parking due else .probing due now }
    | _ => none
  | .park =>
    match s.thread with
    | .parking due =>
      some { s with thread := if s.token then .checking due else .parked due, token := false }
    | _ => none
  | .wake =>
    match s.thread with
    | .parked due => some { s with thread := .checking due, token := false }
    | _ => none
  | .probe answer =>
    match s.thread, answer with
    | .probing due now, some tick =>
      some { s with
        samples := s.samples.push tick
        thread := threadDue (nextTick? interval due now) }
    | .probing _ _, none => some { s with thread := .dead }
    | _, _ => none
  | .send =>
    match s.thread with
    | .sending => some { s with delivered := some s.samples, thread := .finished }
    | _ => none
  | _ => none

/-- A step of the orchestrator. It gives up only on a sampler that is alive and has not delivered. -/
def stepOrchestrator? (s : State α) : Event α → Option (State α)
  | .raise =>
    match s.orchestrator with
    | .running => some { s with stop := true, orchestrator := .flagged }
    | _ => none
  | .unpark =>
    match s.orchestrator with
    | .flagged => some { s with token := true, orchestrator := .waiting }
    | _ => none
  | .receive =>
    match s.orchestrator, s.delivered, s.thread with
    | .waiting, some samples, _ => some { s with orchestrator := .left (.joined samples) }
    | .waiting, none, .dead => some { s with orchestrator := .left .lost }
    | _, _, _ => none
  | .giveUp =>
    match s.orchestrator, s.delivered, s.thread with
    | .waiting, none, .dead => none
    | .waiting, none, _ => some { s with orchestrator := .left .timedOut }
    | _, _, _ => none
  | _ => none

/-- The state after an event; `none` for one that cannot happen. -/
def step? [Scalar α] (interval : Duration) (s : State α) (e : Event α) : Option (State α) :=
  match e with
  | .raise | .unpark | .receive | .giveUp => s.stepOrchestrator? e
  | _ => s.stepThread? interval e

/-- The state after an interleaving. -/
def run? [Scalar α] (interval : Duration) (s : State α) : List (Event α) → Option (State α)
  | [] => some s
  | e :: es =>
    match s.step? interval e with
    | none => none
    | some s => s.run? interval es

/-- What the orchestrator has learned. -/
def exit? (s : State α) : Option (Exit α) :=
  match s.orchestrator with
  | .left e => some e
  | _ => none

end State
end ExchangeBench.Sampler
