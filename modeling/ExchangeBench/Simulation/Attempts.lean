import ExchangeBench.Exchange
import ExchangeBench.Phase

/-!
# Scripted phases

A phase whose attempts follow a script. Each attempt takes the next step of the script, whichever
worker makes it. As many of the last steps as there are workers are begun before the deadline and
ended after it, each by a worker of its own; the steps before them are taken one after another by the
first worker that is alive.

* `Step`: what one attempt does.
* `Phase.events`: the interleaving that a script stands for.
* `phase?`: what the phase has recorded and how it ends, by running that interleaving.
-/

namespace ExchangeBench.Simulation

variable {α : Type} [Scalar α] {n : Nat}

/-- What one attempt does. -/
inductive Step where
  | succeed
  /-- The timed stage fails. -/
  | fail (f : Failure)
  /-- The input cannot be built. -/
  | refuse (f : Failure)
  /-- The timed stage panics. -/
  | panic (p : Payload)
  /-- Building the input panics. -/
  | panicEarly (p : Payload)
  deriving DecidableEq

/-- What an attempt of the mock exchange does. -/
def Step.ofHandshake (template : Handshake) : Step :=
  match Exchange.prepare template with
  | .error f => refuse f
  | .ok h =>
    match Exchange.execute h with
    | .done () => succeed
    | .failed f => fail f
    | .panicked p => panic p

namespace Step

/-- Whether the attempt reaches its timed stage. -/
def isTimed : Step → Bool
  | succeed | fail _ | panic _ => true
  | refuse _ | panicEarly _ => false

/-- Whether the attempt takes its worker with it. -/
def isFatal : Step → Bool
  | panic (.volatile _) | panicEarly (.volatile _) => true
  | _ => false

/-- The moves up to the stage that the attempt ends in. -/
def opening (step : Step) (now : Clock.Reading) : List (Phase.Move α) :=
  .look now :: if step.isTimed then [.prepare (.done ())] else []

/-- How the stage ends that the attempt ends in. -/
def ending (latency : α) : Step → Phase.Move α
  | succeed => .execute (.done ()) latency
  | fail f => .execute (.failed f) latency
  | panic p => .execute (.panicked p) latency
  | refuse f => .prepare (.failed f)
  | panicEarly p => .prepare (.panicked p)

/-- The moves from the end of that stage on. -/
def closing (latency : α) (step : Step) : List (Phase.Move α) :=
  step.ending latency :: if step.isFatal then [] else [.record]

end Step

/-- The moves of one worker, as events. -/
def eventsOf (w : Fin n) (moves : List (Phase.Move α)) : List (Phase.Event α n) :=
  moves.map fun m => ⟨w, m⟩

/-- The latency of every attempt. -/
def latency : α := Scalar.ofNat 1

/-- The events of the steps that are not held, and the workers that are alive after them. -/
def freeEvents (now : Clock.Reading) :
    List (Fin n) → List Step → List (Phase.Event α n) × List (Fin n)
  | [], _ => ([], [])
  | ws, [] => ([], ws)
  | w :: ws, step :: steps =>
    let (events, alive) := freeEvents now (if step.isFatal then ws else w :: ws) steps
    (eventsOf w (step.opening now ++ step.closing latency) ++ events, alive)

/-- The events of the steps that are held until the deadline. -/
def heldEvents (now deadline : Clock.Reading) (ws : List (Fin n)) (steps : List Step) :
    List (Phase.Event α n) :=
  let held := ws.zip steps
  let idle := ws.drop steps.length
  held.flatMap (fun h => eventsOf h.1 (h.2.opening now)) ++
  held.flatMap (fun h => eventsOf h.1 (h.2.closing latency)) ++
  ((held.filter fun h => !h.2.isFatal).map Prod.fst ++ idle).flatMap fun w =>
    eventsOf w [.look deadline]

/-- The interleaving of a phase that begins at a moment. Where the deadline has passed already, all
that workers do is see it. -/
def phaseEvents (now deadline : Clock.Reading) (steps : List Step) : List (Phase.Event α n) :=
  if deadline ≤ now then (List.finRange n).flatMap fun w => eventsOf w [.look now]
  else
    let (events, alive) := freeEvents now (List.finRange n) (steps.take (steps.length - n))
    events ++ heldEvents now deadline alive (steps.drop (steps.length - n))

/-- What a phase has recorded, and how it ends. -/
def phase? (concurrency : UInt64) (now : Clock.Reading) (plan : Phase.Plan) (steps : List Step) :
    Option (Metrics α × Except Interruption Unit) :=
  match Phase.accept concurrency with
  | .error i => some (Metrics.empty, .error i)
  | .ok () => do
    let start : Phase.State α concurrency.toNat := .start
    let last ← start.run? plan (phaseEvents now plan.deadline steps)
    return (last.metrics, ← last.outcome? none)

end ExchangeBench.Simulation
