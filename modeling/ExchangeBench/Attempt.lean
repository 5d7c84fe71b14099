import ExchangeBench.Metrics

/-!
# Attempts

An attempt builds an input and then runs the operation on it; the second stage is timed. A stage can
succeed, return a failure, or panic. Panics are contained in the attempt, with one exception: a
payload that panics again when it is discarded takes its worker with it, and nothing is recorded.
-/

namespace ExchangeBench

/-- How a stage of an attempt ends. -/
inductive Stage (β : Type) where
  | done (result : β)
  | failed (failure : Failure)
  | panicked (payload : Payload)
  deriving DecidableEq

namespace Stage

/-- A stage that ends in a value or a failure. -/
def ofExcept {β : Type} : Except Failure β → Stage β
  | .ok b => done b
  | .error f => failed f

/-- One part of a stage after another: the first one that does not succeed ends the stage. -/
def bind {β γ : Type} : Stage β → (β → Stage γ) → Stage γ
  | done b, f => f b
  | failed e, _ => failed e
  | panicked p, _ => panicked p

instance : Monad Stage where
  pure := done
  bind := bind

instance : LawfulMonad Stage :=
  LawfulMonad.mk' Stage (fun x => by cases x <;> rfl) (fun _ _ => rfl)
    (fun x _ _ => by cases x <;> rfl)

end Stage

/-- How an attempt ends. -/
inductive Attempt (α : Type) where
  | succeeded (latency : α)
  /-- An attempt that failed before its timed stage has no latency. -/
  | failed (failure : Failure) (latency : Option α)
  /-- A panic's payload panicked in turn, with this one. -/
  | escaped (payload : Payload)
  deriving DecidableEq

namespace Attempt

variable {α β : Type}

/-- The attempt that a panic ends. -/
def ofPanic (latency : Option α) : Payload → Attempt α
  | .volatile p => escaped p
  | p => failed (Failure.ofPanic p) latency

/-- The attempt that ended before its timed stage, or the input for that stage. -/
def ofPrepared : Stage β → Except (Attempt α) β
  | .done input => .ok input
  | .failed f => .error (failed f none)
  | .panicked p => .error (ofPanic none p)

/-- The attempt whose timed stage ended. -/
def ofExecuted (latency : α) : Stage Unit → Attempt α
  | .done () => succeeded latency
  | .failed f => failed f (some latency)
  | .panicked p => ofPanic (some latency) p

/-- What is recorded of an attempt. -/
def record? : Attempt α → Option (Record α)
  | succeeded latency => some (.success latency)
  | failed f latency => some (.failure f.key latency)
  | escaped _ => none

end Attempt
end ExchangeBench
