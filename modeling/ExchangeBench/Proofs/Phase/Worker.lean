import Mathlib.Data.List.Induction
import ExchangeBench.Phase

/-!
# One worker's attempts

A worker's moves fall into attempts: a reading below the deadline, a stage or two, and the record.
What is due for an attempt is decided by the move that ends it, so the ledger of a worker can be kept
from its moves alone, and compared with what the worker has recorded.

- `Move.due?`: the record that is due for the attempt that a move ends.
- `Move.isFatal`: a panic whose payload panics again when it is discarded. Nothing contains it.
- `Worker.Step`: the moves of a worker, one constructor for each way a worker can go on.
- `Worker.Ledger`: moves, records and state of a worker agree. Every move keeps it
  (`Worker.Ledger.step`).
-/

namespace ExchangeBench.Phase

variable {α : Type} {deadline : Clock.Reading}

/-! ## What a move stands for -/

namespace Move

/-- Whether a move is a reading on which an attempt is begun. -/
def begins (deadline : Clock.Reading) : Move α → Bool
  | look now => decide (now < deadline)
  | prepare _ | execute _ _ | record => false

/-- The class of a panic: its text, or the fixed text that stands for a payload without one. -/
def panicKey (p : Payload) : ErrorKey := ⟨.panic, fingerprint p.message⟩

/-- The record that is due for the attempt that a move ends. An attempt is timed from its second
stage on. -/
def due? : Move α → Option (Record α)
  | prepare (.failed f) => some (.failure f.key none)
  | prepare (.panicked p) => some (.failure (panicKey p) none)
  | execute (.done ()) latency => some (.success latency)
  | execute (.failed f) latency => some (.failure f.key (some latency))
  | execute (.panicked p) latency => some (.failure (panicKey p) (some latency))
  | look _ | prepare (.done ()) | record => none

/-- Whether a move panics with a payload that panics again when it is discarded. -/
def isFatal : Move α → Bool
  | prepare (.panicked (.volatile _)) | execute (.panicked (.volatile _)) _ => true
  | look _ | prepare _ | execute _ _ | record => false

/-- The records that are due for the attempts ended by some moves, fatal ones left out. -/
def dues (ms : List (Move α)) : List (Record α) :=
  (ms.filter fun m => !m.isFatal).filterMap due?

theorem dues_append (ms ms' : List (Move α)) : dues (ms ++ ms') = dues ms ++ dues ms' := by
  rw [dues, List.filter_append, List.filterMap_append]
  rfl

end Move

namespace Worker

/-- The record that a worker is about to make. -/
def pending? : Worker α → Option (Record α)
  | recording r => some r
  | looking | preparing | executing | finished | dead _ => none

/-- Whether a panic has ended a worker. -/
def isDead : Worker α → Bool
  | dead _ => true
  | looking | preparing | executing | recording _ | finished => false

/-- **The ways of a worker**: how it goes on from where it is, and what it records. -/
inductive Step (deadline : Clock.Reading) :
    Worker α → Move α → Worker α → Option (Record α) → Prop
  | begin {now} (h : now < deadline) : Step deadline looking (.look now) preparing none
  | leave {now} (h : ¬ now < deadline) : Step deadline looking (.look now) finished none
  | prepared : Step deadline preparing (.prepare (.done ())) executing none
  | refused {result r} (hdue : (Move.prepare result : Move α).due? = some r)
      (hsafe : (Move.prepare result : Move α).isFatal = false) :
      Step deadline preparing (.prepare result) (recording r) none
  | executed {result latency r} (hdue : (Move.execute result latency).due? = some r)
      (hsafe : (Move.execute result latency).isFatal = false) :
      Step deadline executing (.execute result latency) (recording r) none
  | lostEarly {p} : Step deadline preparing (.prepare (.panicked (.volatile p))) (dead p) none
  | lost {p latency} :
      Step deadline executing (.execute (.panicked (.volatile p)) latency) (dead p) none
  | recorded {r} : Step deadline (recording r) .record looking (some r)

theorem Step.of_step? {w w' : Worker α} {m : Move α} {r : Option (Record α)}
    (h : w.step? deadline m = some (w', r)) : Step deadline w m w' r := by
  cases w with
  | looking =>
    cases m with
    | look now =>
      by_cases hnow : now < deadline
      · simp only [step?, if_pos hnow, Option.some.injEq, Prod.mk.injEq] at h
        obtain ⟨rfl, rfl⟩ := h
        exact .begin hnow
      · simp only [step?, if_neg hnow, Option.some.injEq, Prod.mk.injEq] at h
        obtain ⟨rfl, rfl⟩ := h
        exact .leave hnow
    | prepare | execute | record => cases h
  | preparing =>
    cases m with
    | prepare result =>
      -- of the three sorts of payloads only the volatile one is not contained
      rcases result with ⟨⟩ | f | (text | _ | p) <;> cases h
      · exact .prepared
      · exact .refused rfl rfl
      · exact .refused rfl rfl
      · exact .refused rfl rfl
      · exact .lostEarly
    | look | execute | record => cases h
  | executing =>
    cases m with
    | execute result latency =>
      rcases result with ⟨⟩ | f | (text | _ | p) <;> cases h
      · exact .executed rfl rfl
      · exact .executed rfl rfl
      · exact .executed rfl rfl
      · exact .executed rfl rfl
      · exact .lost
    | look | prepare | record => cases h
  | recording r' =>
    cases m with
    | record =>
      cases h
      exact .recorded
    | look | prepare | execute => cases h
  | finished | dead => cases m <;> cases h

/-! ## What one move changes -/

/-- How many attempts a worker has under way. -/
def underWay (w : Worker α) : Nat := if w.inFlight then 1 else 0

/-- How many attempts a worker has lost; the first is its last. -/
def losses (w : Worker α) : Nat := if w.isDead then 1 else 0

theorem losses_eq_zero_iff (w : Worker α) : w.losses = 0 ↔ w.isDead = false := by
  cases w <;> simp [losses, isDead]

theorem inFlight_of_isOver {w : Worker α} (h : w.isOver = true) : w.inFlight = false := by
  cases w with
  | finished | dead => rfl
  | looking | preparing | executing | recording => cases h

theorem pending?_of_isOver {w : Worker α} (h : w.isOver = true) : w.pending? = none := by
  cases w with
  | finished | dead => rfl
  | looking | preparing | executing | recording => cases h

namespace Step

variable {w w' : Worker α} {m : Move α} {r : Option (Record α)}

/-- An attempt comes under way when it begins, and leaves when it is recorded or lost. -/
theorem underWay_eq (h : Step deadline w m w' r) :
    [m].countP (Move.begins deadline) + w.underWay =
      r.toList.length + w'.underWay + [m].countP Move.isFatal := by
  cases h with
  | begin hnow => simp [Move.begins, Move.isFatal, underWay, inFlight, hnow]
  | leave hnow => simp [Move.begins, Move.isFatal, underWay, inFlight, hnow]
  | prepared | lostEarly | lost | recorded => rfl
  | refused hdue hsafe => simp [Move.begins, underWay, inFlight, hsafe]
  | executed hdue hsafe => simp [Move.begins, underWay, inFlight, hsafe]

/-- The move that ends an attempt makes its record pending, and the next one makes it. -/
theorem pending_append_dues (h : Step deadline w m w' r) :
    w.pending?.toList ++ Move.dues [m] = r.toList ++ w'.pending?.toList := by
  cases h with
  | begin | leave | prepared | lostEarly | lost | recorded => rfl
  | refused hdue hsafe => simp [Move.dues, pending?, hdue, hsafe]
  | executed hdue hsafe => simp [Move.dues, pending?, hdue, hsafe]

theorem losses_eq (h : Step deadline w m w' r) :
    w.losses + [m].countP Move.isFatal = w'.losses := by
  cases h with
  | begin | leave | prepared | lostEarly | lost | recorded => rfl
  | refused hdue hsafe => simp [losses, isDead, hsafe]
  | executed hdue hsafe => simp [losses, isDead, hsafe]

/-- Only a reading below the deadline leads to an attempt's first stage. -/
theorem begins_of_preparing (h : Step deadline w m .preparing r) :
    ∃ now, m = .look now ∧ now < deadline := by
  cases h with
  | begin hnow => exact ⟨_, rfl, hnow⟩

theorem preparing_of_prepare {result : Stage Unit} (h : Step deadline w (.prepare result) w' r) :
    w = .preparing := by
  cases h <;> rfl

end Step

/-! ## The ledger -/

/-- The last of some moves was a reading below the deadline. -/
def JustBegun (deadline : Clock.Reading) (ms : List (Move α)) : Prop :=
  ∃ ms' now, ms = ms' ++ [.look now] ∧ now < deadline

/-- The moves `ms` of a worker, the records `rs` it has made and the state `w` it is in agree. -/
structure Ledger (deadline : Clock.Reading) (ms : List (Move α)) (rs : List (Record α))
    (w : Worker α) : Prop where
  /-- An attempt that was begun is recorded, under way, or lost. -/
  begun : ms.countP (Move.begins deadline) = rs.length + w.underWay + ms.countP Move.isFatal
  /-- The records are those that are due, in order, up to the one that is about to be made. -/
  settled : Move.dues ms = rs ++ w.pending?.toList
  /-- A worker is lost once. -/
  lost : ms.countP Move.isFatal = w.losses
  /-- An attempt that is about to prepare has been begun just now. -/
  opened : w = .preparing → JustBegun deadline ms
  /-- An attempt that has prepared had been begun just then. -/
  prepared : ∀ ms₁ result ms₂, ms = ms₁ ++ .prepare result :: ms₂ → JustBegun deadline ms₁

namespace Ledger

variable {ms : List (Move α)} {rs : List (Record α)} {w w' : Worker α} {m : Move α}
  {r : Option (Record α)}

theorem start : Ledger deadline ([] : List (Move α)) [] .looking where
  begun := rfl
  settled := rfl
  lost := rfl
  opened h := nomatch h
  prepared _ _ _ h := absurd h (List.append_ne_nil_of_right_ne_nil _ (List.cons_ne_nil _ _)).symm

/-- The first stages stay where they are when a move follows, and one that follows has its reading
right before it. -/
theorem prepared_append_singleton (h : Ledger deadline ms rs w) (hstep : Step deadline w m w' r)
    (ms₁ : List (Move α)) (result : Stage Unit) (ms₂ : List (Move α))
    (heq : ms ++ [m] = ms₁ ++ .prepare result :: ms₂) : JustBegun deadline ms₁ := by
  rcases List.eq_nil_or_concat ms₂ with rfl | ⟨ms₂', m', rfl⟩
  · -- it is the move that follows
    obtain ⟨rfl, hlast⟩ := List.append_inj' heq rfl
    obtain rfl := List.singleton_inj.mp hlast
    exact h.opened hstep.preparing_of_prepare
  · have hsplit : ms ++ [m] = (ms₁ ++ .prepare result :: ms₂') ++ [m'] := by
      rw [heq, List.concat_eq_append, List.append_assoc]
      rfl
    obtain ⟨hms, -⟩ := List.append_inj' hsplit rfl
    exact h.prepared ms₁ result ms₂' hms

/-- **Every move keeps the ledger.** -/
theorem step (h : Ledger deadline ms rs w) (hstep : Step deadline w m w' r) :
    Ledger deadline (ms ++ [m]) (rs ++ r.toList) w' := by
  refine ⟨?_, ?_, ?_, ?_, h.prepared_append_singleton hstep⟩
  · have hbegun := h.begun
    have hunderWay := hstep.underWay_eq
    rw [List.countP_append, List.countP_append, List.length_append]
    omega
  · rw [Move.dues_append, h.settled, List.append_assoc, hstep.pending_append_dues,
      List.append_assoc]
  · rw [List.countP_append, h.lost, hstep.losses_eq]
  · rintro rfl
    obtain ⟨now, rfl, hnow⟩ := hstep.begins_of_preparing
    exact ⟨ms, now, rfl, hnow⟩

end Ledger
end Worker
end ExchangeBench.Phase
