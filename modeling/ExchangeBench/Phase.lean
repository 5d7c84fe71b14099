import ExchangeBench.Attempt
import ExchangeBench.Duration
import ExchangeBench.Error

/-!
# Phases

A phase runs a number of workers side by side until its deadline. Every worker reads the clock; below
the deadline it runs one attempt and records it, and then reads the clock again. An attempt under way
at the deadline is finished. A measurement phase records its attempts, a warmup phase discards them.

The phase is a transition system. Its state is the metrics and the state of each worker; one
`Event` names a worker and what it does next, with whatever the clock or the operation answered. An
interleaving of the workers is a list of events, and `State.run?` is the state it leads to.

* `Worker.step?`: what a worker's move does to the worker, and what it records.
* `State.step?`, `State.run?`: an event, a list of events. No other worker moves.
* `accept`: what a phase does before it starts its workers.
* `State.outcome?`: how the phase ends once no worker is left.
-/

namespace ExchangeBench.Phase

variable {α : Type} {n : Nat}

/-- What a worker is about to do. -/
inductive Worker (α : Type) where
  /-- Read the clock. -/
  | looking
  /-- Build the input of an attempt. -/
  | preparing
  /-- Run the timed stage of an attempt. -/
  | executing
  /-- Record an attempt. -/
  | recording (r : Record α)
  /-- Nothing: it has seen the deadline. -/
  | finished
  /-- Nothing: a panic with this payload has ended it. -/
  | dead (payload : Payload)
  deriving DecidableEq

/-- A move of a worker, with what the clock or the operation answered. -/
inductive Move (α : Type) where
  | look (now : Clock.Reading)
  | prepare (result : Stage Unit)
  | execute (result : Stage Unit) (latency : α)
  | record
  deriving DecidableEq

/-- A move and the worker that makes it. -/
structure Event (α : Type) (n : Nat) where
  worker : Fin n
  move : Move α
  deriving DecidableEq

/-- The worker whose attempt has ended. -/
def Worker.ofAttempt : Attempt α → Worker α
  | .succeeded latency => recording (.success latency)
  | .failed f latency => recording (.failure f.key latency)
  | .escaped p => dead p

/-- The worker after a move and what the move records; `none` for a move it cannot make. -/
def Worker.step? (deadline : Clock.Reading) : Worker α → Move α → Option (Worker α × Option (Record α))
  | looking, .look now => some (if now < deadline then preparing else finished, none)
  | preparing, .prepare result =>
    match Attempt.ofPrepared result with
    | .ok () => some (executing, none)
    | .error a => some (ofAttempt a, none)
  | executing, .execute result latency => some (ofAttempt (Attempt.ofExecuted latency result), none)
  | recording r, .record => some (looking, some r)
  | _, _ => none

/-- Whether a worker is in an attempt that is not recorded yet. -/
def Worker.inFlight : Worker α → Bool
  | preparing | executing | recording _ => true
  | looking | finished | dead _ => false

/-- Whether a worker is done. -/
def Worker.isOver : Worker α → Bool
  | finished | dead _ => true
  | looking | preparing | executing | recording _ => false

/-- What stays the same during a phase. -/
structure Plan where
  deadline : Clock.Reading
  /-- How many latencies are retained. -/
  capacity : Nat
  /-- Whether attempts are recorded. -/
  measured : Bool
  deriving DecidableEq

/-- The metrics and the workers of a phase. -/
structure State (α : Type) (n : Nat) where
  metrics : Metrics α
  workers : Vector (Worker α) n

namespace State

/-- Every worker is about to read the clock for the first time. -/
def start : State α n := ⟨Metrics.empty, Vector.replicate n .looking⟩

/-- The metrics after a move that may record something. -/
def recorded (plan : Plan) (m : Metrics α) : Option (Record α) → Metrics α
  | none => m
  | some r => if plan.measured then m.record plan.capacity r else m

/-- The state after an event; `none` for one that cannot happen. -/
def step? (plan : Plan) (s : State α n) (e : Event α n) : Option (State α n) :=
  match s.workers[e.worker].step? plan.deadline e.move with
  | none => none
  | some (w, r) =>
    some ⟨recorded plan s.metrics r, s.workers.set e.worker w⟩

/-- The state after an interleaving. -/
def run? (plan : Plan) (s : State α n) : List (Event α n) → Option (State α n)
  | [] => some s
  | e :: es =>
    match s.step? plan e with
    | none => none
    | some s => s.run? plan es

/-- Whether every worker is done. -/
def isOver (s : State α n) : Bool :=
  s.workers.toList.all Worker.isOver

/-- The payloads of the workers that panics have ended, in the order of the workers. -/
def deaths (s : State α n) : List Payload :=
  s.workers.toList.filterMap fun
    | .dead p => some p
    | _ => none

/-- How the phase ends, once every worker is done. If a further worker could not be started, for the
given reason, that counts before any worker that a panic has ended. The payloads of these panics are
discarded one after another. If one of them panics in turn, that panic ends the phase, and a second one
of this kind would be discarded on the way: the process is aborted, and nothing follows. -/
def outcome? (s : State α n) (unstarted : Option String) : Option (Except Interruption Unit) :=
  if s.isOver then
    match s.deaths.filterMap Payload.next? with
    | [] =>
      some (match unstarted, s.deaths with
        | some reason, _ => .error (.error (.spawn reason))
        | none, p :: _ => .error (.error (.workerPanicked p.message))
        | none, [] => .ok ())
    | [p] => some (.error (.panic p))
    | _ :: _ :: _ => none
  else none

end State

/-- The size of a worker's handle in memory. -/
def handleBytes : Nat := 24

/-- What a phase does before it starts its workers: it is refused without any, and it reserves a buffer
for their handles. -/
def accept (concurrency : UInt64) : Except Interruption Unit :=
  if concurrency = 0 then .error (.error .invalidConcurrency)
  else if Buffer.fits concurrency.toNat handleBytes then .ok ()
  else .error (.panic .capacityOverflow)

end ExchangeBench.Phase
