import ExchangeBench.Proofs.Interleaving
import ExchangeBench.Proofs.Metrics.ClosedForm
import ExchangeBench.Proofs.Phase.Worker

/-!
# The attempts of a phase are accounted for

An event moves one worker and leaves the others alone, so an interleaving of a phase is an
interleaving of what its workers do one by one, each with a ledger of its own. Adding the ledgers up
gives the accounting of the phase.

- `State.log`: the records made in the course of an interleaving, each with its worker.
- `State.metrics_of_run`: the metrics are those of the log.
- `State.ledger_of_run`: every worker's moves, records and state agree.
- `State.Account`: where a phase stands after any interleaving (`State.account`). No attempt is counted
  twice, and the only attempts that are never counted are those whose panic takes the worker with it.
-/

namespace ExchangeBench.Phase

variable {α : Type} {n : Nat}

/-- The moves of one worker among some events. -/
def movesOf (w : Fin n) (es : List (Event α n)) : List (Move α) :=
  (es.filter fun e => e.worker = w).map Event.move

/-- The records of one worker in a log. -/
def recordsOf (w : Fin n) (log : List (Fin n × Record α)) : List (Record α) :=
  (log.filter fun r => r.1 = w).map Prod.snd

theorem movesOf_append_singleton (w : Fin n) (es : List (Event α n)) (e : Event α n) :
    movesOf w (es ++ [e]) = movesOf w es ++ if e.worker = w then [e.move] else [] := by
  rw [movesOf, List.filter_append, List.map_append]
  by_cases hw : e.worker = w <;> simp [movesOf, hw]

theorem movesOf_append_cons_self (w : Fin n) (es₁ : List (Event α n)) (m : Move α)
    (es₂ : List (Event α n)) :
    movesOf w (es₁ ++ ⟨w, m⟩ :: es₂) = movesOf w es₁ ++ m :: movesOf w es₂ := by
  simp [movesOf]

theorem recordsOf_append_toList (w w' : Fin n) (log : List (Fin n × Record α))
    (r : Option (Record α)) :
    recordsOf w (log ++ (r.map fun r => (w', r)).toList) =
      recordsOf w log ++ if w' = w then r.toList else [] := by
  rw [recordsOf, List.filter_append, List.map_append]
  cases r with
  | none => simp [recordsOf]
  | some r => by_cases hw : w' = w <;> simp [recordsOf, hw]

namespace State

/-! ## Steps and runs -/

variable {plan : Plan} {es : List (Event α n)} {s s' : State α n} {e : Event α n}

/-- What an event records, and the worker that records it. -/
def logged? (plan : Plan) (s : State α n) (e : Event α n) : Option (Fin n × Record α) :=
  (((s.workers.get e.worker).step? plan.deadline e.move).bind Prod.snd).map fun r => (e.worker, r)

/-- The records made in the course of an interleaving, in order. -/
def log (plan : Plan) (es : List (Event α n)) : List (Fin n × Record α) :=
  Interleaving.trace (step? plan) (logged? plan) start es

theorem run?_eq_foldlM (plan : Plan) (s : State α n) (es : List (Event α n)) :
    s.run? plan es = es.foldlM (step? plan) s := by
  induction es generalizing s with
  | nil => rfl
  | cons e es ih =>
    rw [run?, List.foldlM_cons]
    cases s.step? plan e with
    | none => rfl
    | some s' => exact ih s'

/-- **What an event does**: its worker goes one step, and what that records is recorded. -/
theorem exists_of_step? {worker : Fin n} {move : Move α}
    (h : s.step? plan ⟨worker, move⟩ = some s') :
    ∃ w r, Worker.Step plan.deadline s.workers[worker] move w r ∧
      s.logged? plan ⟨worker, move⟩ = r.map (fun r => (worker, r)) ∧
      s' = ⟨recorded plan s.metrics r, s.workers.set worker w⟩ := by
  rw [step?] at h
  cases hworker : s.workers[worker].step? plan.deadline move with
  | none =>
    rw [hworker] at h
    cases h
  | some wr =>
    obtain ⟨w, r⟩ := wr
    rw [hworker] at h
    cases h
    refine ⟨w, r, .of_step? hworker, ?_, rfl⟩
    show ((s.workers[worker].step? plan.deadline move).bind Prod.snd).map _ = _
    rw [hworker]
    rfl

/-- Metrics that hold some records hold what an event records, too. -/
theorem metrics_step (hm : plan.measured = true) {rs : List (Record α)}
    (hrs : s.metrics = Metrics.ofRecords plan.capacity rs) (hstep : s.step? plan e = some s') :
    s'.metrics =
      Metrics.ofRecords plan.capacity (rs ++ ((s.logged? plan e).map Prod.snd).toList) := by
  obtain ⟨w, r, -, hlogged, rfl⟩ := exists_of_step? hstep
  rw [hlogged, Option.map_map]
  cases r with
  | none =>
    rw [Option.map_none, Option.toList_none, List.append_nil]
    exact hrs
  | some r =>
    show (if plan.measured then s.metrics.record plan.capacity r else s.metrics) = _
    rw [if_pos hm, hrs]
    exact (Metrics.ofRecords_append_singleton ..).symm

/-- **The metrics of a measurement are those of its log.** -/
theorem metrics_of_run (hm : plan.measured = true) (h : start.run? plan es = some s) :
    s.metrics = Metrics.ofRecords plan.capacity ((log plan es).map Prod.snd) := by
  rw [run?_eq_foldlM] at h
  refine Interleaving.induction
    (P := fun es s => s.metrics = Metrics.ofRecords plan.capacity ((log plan es).map Prod.snd))
    rfl ?_ h
  intro es s e s' hrun ih hstep
  rw [log, Interleaving.trace_append_singleton _ hrun hstep, List.map_append, ← Option.toList_map]
  exact metrics_step hm ih hstep

/-- A warmup leaves no trace in the metrics. -/
theorem metrics_of_unmeasured (hm : plan.measured = false) (h : start.run? plan es = some s) :
    s.metrics = Metrics.empty := by
  rw [run?_eq_foldlM] at h
  refine Interleaving.induction (P := fun _ s => s.metrics = Metrics.empty) rfl ?_ h
  intro es s e s' _ ih hstep
  obtain ⟨w, r, -, -, rfl⟩ := exists_of_step? hstep
  cases r with
  | none => exact ih
  | some r =>
    show (if plan.measured then s.metrics.record plan.capacity r else s.metrics) = _
    rw [hm]
    exact ih

/-- **Every worker keeps its ledger**, whatever the others do in between. -/
theorem ledger_of_run (h : start.run? plan es = some s) (w : Fin n) :
    Worker.Ledger plan.deadline (movesOf w es) (recordsOf w (log plan es)) s.workers[w] := by
  rw [run?_eq_foldlM] at h
  refine Interleaving.induction (P := fun es s =>
    Worker.Ledger plan.deadline (movesOf w es) (recordsOf w (log plan es)) s.workers[w]) ?_ ?_ h
  · have hlooking : (start : State α n).workers[w] = .looking := Vector.getElem_replicate _
    rw [hlooking]
    exact .start
  · intro es s e s' hrun ih hstep
    obtain ⟨w', r, hworker, hlogged, rfl⟩ := exists_of_step? hstep
    rw [log, Interleaving.trace_append_singleton _ hrun hstep, hlogged, ← log,
      movesOf_append_singleton, recordsOf_append_toList]
    by_cases hw : e.worker = w
    · -- the event is one of this worker: one step in its ledger
      subst hw
      have hself : (s.workers.set e.worker w')[e.worker] = w' := Vector.getElem_set_self _
      rw [if_pos rfl, if_pos rfl]
      show Worker.Ledger _ _ _ (s.workers.set e.worker w')[e.worker]
      rw [hself]
      exact ih.step hworker
    · -- the event is one of another worker: nothing in this ledger changes
      have hother : (s.workers.set e.worker w')[w] = s.workers[w] :=
        Vector.getElem_set_ne _ _ (Fin.val_ne_of_ne hw)
      rw [if_neg hw, if_neg hw, List.append_nil, List.append_nil]
      show Worker.Ledger _ _ _ (s.workers.set e.worker w')[w]
      rw [hother]
      exact ih

/-! ## Adding up the ledgers -/

/-- The number of workers that have an attempt under way. -/
def underWay (s : State α n) : Nat :=
  (Finset.univ.filter fun w : Fin n => s.workers[w].inFlight).card

/-- The number of attempts begun in the course of an interleaving. -/
def begun (deadline : Clock.Reading) (es : List (Event α n)) : Nat :=
  es.countP fun e => e.move.begins deadline

/-- The number of panics that no attempt contains. -/
def fatalities (es : List (Event α n)) : Nat :=
  es.countP fun e => e.move.isFatal

theorem underWay_le (s : State α n) : s.underWay ≤ n := by
  have hle := Finset.card_filter_le (Finset.univ : Finset (Fin n))
    fun w => s.workers[w].inFlight = true
  rwa [Finset.card_univ, Fintype.card_fin] at hle

theorem underWay_eq_sum (s : State α n) : s.underWay = ∑ w : Fin n, s.workers[w].underWay :=
  Finset.card_filter ..

/-- What holds of how many elements of a list can be counted by their owners. -/
theorem countP_eq_sum {γ : Type} (owner : γ → Fin n) (p : γ → Bool) (l : List γ) :
    l.countP p = ∑ w : Fin n, (l.filter fun c => owner c = w).countP p := by
  induction l with
  | nil => simp
  | cons c l ih =>
    have hcons : ∀ w, ((c :: l).filter fun c => owner c = w).countP p =
        (l.filter fun c => owner c = w).countP p +
          if owner c = w then (if p c then 1 else 0) else 0 := by
      intro w
      by_cases hw : owner c = w
      · rw [List.filter_cons_of_pos (by simpa using hw), if_pos hw, List.countP_cons]
      · rw [List.filter_cons_of_neg (by simpa using hw), if_neg hw, Nat.add_zero]
    rw [Finset.sum_congr rfl fun w _ => hcons w, Finset.sum_add_distrib, ← ih,
      Finset.sum_ite_eq, if_pos (Finset.mem_univ _), List.countP_cons]

theorem countP_move_eq_sum (p : Move α → Bool) (es : List (Event α n)) :
    es.countP (fun e => p e.move) = ∑ w : Fin n, (movesOf w es).countP p := by
  rw [countP_eq_sum Event.worker]
  refine Finset.sum_congr rfl fun w _ => ?_
  rw [movesOf, List.countP_map]
  rfl

theorem length_log_eq_sum (log : List (Fin n × Record α)) :
    log.length = ∑ w : Fin n, (recordsOf w log).length := by
  have hcount : log.countP (fun _ => true) = log.length := congrFun List.countP_true log
  rw [← hcount, countP_eq_sum Prod.fst]
  refine Finset.sum_congr rfl fun w _ => ?_
  rw [recordsOf, List.length_map, List.countP_true]

/-- **The balance of a phase**: an attempt that was begun is recorded, under way, or lost. -/
theorem balance (h : start.run? plan es = some s) :
    begun plan.deadline es = (log plan es).length + s.underWay + fatalities es := by
  rw [begun, fatalities, countP_move_eq_sum, countP_move_eq_sum, length_log_eq_sum, underWay_eq_sum,
    ← Finset.sum_add_distrib, ← Finset.sum_add_distrib]
  exact Finset.sum_congr rfl fun w _ => (ledger_of_run h w).begun

theorem fatalities_eq_zero_iff (es : List (Event α n)) :
    fatalities es = 0 ↔ ∀ e ∈ es, e.move.isFatal = false := by
  rw [fatalities, List.countP_eq_zero]
  simp only [Bool.not_eq_true]

/-- A phase has seen a fatal panic just if it has lost a worker. -/
theorem fatal_free_iff (h : start.run? plan es = some s) :
    (∀ e ∈ es, e.move.isFatal = false) ↔ ∀ w : Fin n, s.workers[w].isDead = false := by
  -- each ledger counts the fatal panics of its worker, and a worker that is lost has had one
  have hsum : fatalities es = ∑ w : Fin n, s.workers[w].losses := by
    rw [fatalities, countP_move_eq_sum]
    exact Finset.sum_congr rfl fun w _ => (ledger_of_run h w).lost
  rw [← fatalities_eq_zero_iff, hsum, Finset.sum_eq_zero_iff]
  constructor
  · intro hall w
    exact (Worker.losses_eq_zero_iff _).mp (hall w (Finset.mem_univ w))
  · intro hall w _
    exact (Worker.losses_eq_zero_iff _).mpr (hall w)

/-! ## The end of a phase -/

theorem isOver_iff (s : State α n) :
    s.isOver = true ↔ ∀ w : Fin n, s.workers[w].isOver = true := by
  rw [isOver, List.all_eq_true]
  constructor
  · intro h w
    exact h _ (Vector.mem_toList_iff.mpr (Vector.getElem_mem w.isLt))
  · intro h w hw
    obtain ⟨i, hi, rfl⟩ := Vector.mem_iff_getElem.mp (Vector.mem_toList_iff.mp hw)
    exact h ⟨i, hi⟩

/-- Nobody is in an attempt once every worker is done. -/
theorem underWay_eq_zero (h : s.isOver = true) : s.underWay = 0 := by
  rw [underWay, Finset.card_eq_zero, Finset.filter_eq_empty_iff]
  intro w _
  rw [Worker.inFlight_of_isOver ((isOver_iff s).mp h w)]
  exact Bool.false_ne_true

theorem deaths_eq_nil_iff (s : State α n) :
    s.deaths = [] ↔ ∀ w : Fin n, s.workers[w].isDead = false := by
  rw [deaths, List.filterMap_eq_nil_iff]
  constructor
  · intro h w
    have hw := h s.workers[w] (Vector.mem_toList_iff.mpr (Vector.getElem_mem w.isLt))
    cases hworker : s.workers[w] with
    | dead p =>
      rw [hworker] at hw
      cases hw
    | looking | preparing | executing | recording | finished => rfl
  · intro h w hw
    obtain ⟨i, hi, rfl⟩ := Vector.mem_iff_getElem.mp (Vector.mem_toList_iff.mp hw)
    have hdead := h ⟨i, hi⟩
    cases hworker : s.workers[i] with
    | dead p =>
      rw [show s.workers[(⟨i, hi⟩ : Fin n)] = s.workers[i] from rfl, hworker] at hdead
      cases hdead
    | looking | preparing | executing | recording | finished => rfl

/-- How a phase ends, once it is over: well just if every worker was started and none was lost. -/
theorem isOver_of_outcome? {unstarted : Option String} {ending : Except Interruption Unit}
    (h : s.outcome? unstarted = some ending) :
    s.isOver = true ∧ (ending = .ok () ↔ unstarted = none ∧ s.deaths = []) := by
  unfold outcome? at h
  by_cases hover : s.isOver = true
  · rw [if_pos hover] at h
    refine ⟨hover, ?_⟩
    cases hnext : s.deaths.filterMap Payload.next? with
    | nil =>
      rw [hnext] at h
      cases unstarted with
      | some reason =>
        cases h
        simp
      | none =>
        cases hdeaths : s.deaths with
        | nil =>
          rw [hdeaths] at h
          cases h
          simp
        | cons p ps =>
          rw [hdeaths] at h
          cases h
          simp
    | cons p ps =>
      -- a payload that panics again is that of a worker
      have hdeaths : s.deaths ≠ [] := by
        intro hnil
        rw [hnil] at hnext
        cases hnext
      rw [hnext] at h
      cases ps with
      | nil =>
        cases h
        simp [hdeaths]
      | cons => cases h
  · rw [if_neg hover] at h
    cases h

/-! ## The account -/

/-- Where a measurement phase stands after the events `es`: what was begun, what is recorded and what
is still to come. -/
structure Account (plan : Plan) (es : List (Event α n)) (s : State α n) : Prop where
  /-- An attempt that was begun is recorded, under way, or lost with its worker. -/
  balance : begun plan.deadline es = (log plan es).length + s.underWay + fatalities es
  /-- A worker has at most one attempt under way. -/
  underWay_le : s.underWay ≤ n
  /-- The first stage of an attempt directly follows a reading of its worker below the deadline. -/
  below : ∀ es₁ w result es₂, es = es₁ ++ ⟨w, .prepare result⟩ :: es₂ →
    Worker.JustBegun plan.deadline (movesOf w es₁)
  /-- The metrics are those of the log. -/
  stored : s.metrics = Metrics.ofRecords plan.capacity ((log plan es).map Prod.snd)
  /-- What is due for the ended attempts of a worker stands in the log, each attempt once and in
  order, except for the one that it is about to record. -/
  settled : ∀ w : Fin n, Move.dues (movesOf w es) =
    recordsOf w (log plan es) ++ s.workers[w].pending?.toList
  /-- A worker loses one attempt at most: the one it dies in. -/
  lost : ∀ w : Fin n, (movesOf w es).countP Move.isFatal = s.workers[w].losses

theorem account (hm : plan.measured = true) (h : start.run? plan es = some s) :
    Account plan es s where
  balance := balance h
  underWay_le := s.underWay_le
  below es₁ w result es₂ heq := by
    refine (ledger_of_run h w).prepared _ result (movesOf w es₂) ?_
    rw [heq, movesOf_append_cons_self]
  stored := metrics_of_run hm h
  settled w := (ledger_of_run h w).settled
  lost w := (ledger_of_run h w).lost

/-- **Exactly-once accounting.** After any interleaving of a measurement phase its account holds.
The counters add up to the attempts recorded, and the tally holds each class as often as the log
does. What was begun is counted or under way, *unless* a payload panicked when it was discarded: that
is the one way for an attempt to get lost. When the phase is over, nothing is under way and the log
holds every attempt once that was begun and not lost; it ends well just if all workers were started
and nothing was lost. -/
theorem exactly_once {deadline : Clock.Reading} {capacity : Nat}
    (h : start.run? ⟨deadline, capacity, true⟩ es = some s) :
    let plan : Plan := ⟨deadline, capacity, true⟩
    let rs := (log plan es).map Prod.snd
    let counted := s.metrics.successCount.toNat + s.metrics.failureCount.toNat
    Account plan es s ∧
    (rs.length < UInt64.size →
      counted = rs.length ∧
      (∀ k, (s.metrics.errors.count k).toNat = (Record.keys rs).count k) ∧
      (begun deadline es = counted + s.underWay ↔ ∀ e ∈ es, e.move.isFatal = false)) ∧
    (∀ unstarted ending, s.outcome? unstarted = some ending →
      s.underWay = 0 ∧
      begun deadline es = rs.length + fatalities es ∧
      (∀ w, Move.dues (movesOf w es) = recordsOf w (log plan es)) ∧
      (ending = .ok () ↔ unstarted = none ∧ ∀ e ∈ es, e.move.isFatal = false)) := by
  intro plan rs counted
  have haccount : Account plan es s := account rfl h
  have hbalance := haccount.balance
  have hlength : rs.length = (log plan es).length := List.length_map ..
  refine ⟨haccount, ?_, ?_⟩
  · -- below the limit the counters are exact, and each record is a success or a failure
    intro hlt
    have hsplit := Record.countP_isSuccess_add_length_keys rs
    have hcounted : counted = rs.length := by
      show s.metrics.successCount.toNat + s.metrics.failureCount.toNat = rs.length
      rw [haccount.stored, Metrics.toNat_successCount_ofRecords capacity hlt,
        Metrics.toNat_failureCount_ofRecords capacity hlt, hsplit]
    refine ⟨hcounted, fun k => ?_, ?_⟩
    · rw [haccount.stored]
      exact Metrics.toNat_count_errors_ofRecords capacity hlt k
    · -- the balance leaves the fatal panics as the only difference
      rw [← fatalities_eq_zero_iff, hcounted]
      show begun plan.deadline es = _ ↔ _
      omega
  · -- at the end nobody is in an attempt, and nobody is about to record
    intro unstarted ending hending
    obtain ⟨hover, hwell⟩ := isOver_of_outcome? hending
    have hidle := underWay_eq_zero hover
    refine ⟨hidle, ?_, fun w => ?_, ?_⟩
    · show begun plan.deadline es = _
      omega
    · have hdone : s.workers[w].pending? = none :=
        Worker.pending?_of_isOver ((isOver_iff s).mp hover w)
      rw [haccount.settled w, hdone]
      exact List.append_nil _
    · rw [hwell, deaths_eq_nil_iff, fatal_free_iff h]

/-- Two workers: one attempt succeeds while a panic with text ends the other. -/
theorem exactly_once_of_two :
    let es : List (Event Nat 2) :=
      [⟨0, .look 1⟩, ⟨1, .look 2⟩, ⟨0, .prepare (.done ())⟩,
        ⟨1, .prepare (.panicked (.text "late"))⟩, ⟨0, .execute (.done ()) 8⟩, ⟨1, .record⟩,
        ⟨0, .record⟩, ⟨0, .look 11⟩, ⟨1, .look 10⟩]
    let s : State Nat 2 :=
      ⟨⟨1, 1, #[8], false, Tally.empty.insert (Move.panicKey (.text "late")) 1⟩,
        #v[.finished, .finished]⟩
    start.run? ⟨10, 5, true⟩ es = some s ∧ s.outcome? none = some (.ok ()) ∧ begun 10 es = 2 ∧
      s.metrics.successCount.toNat + s.metrics.failureCount.toNat = 2 ∧
      (s.metrics.errors.count (Move.panicKey (.text "late"))).toNat = 1 ∧ s.underWay = 0 := by
  intro es s
  have hrun : start.run? ⟨10, 5, true⟩ es = some s := rfl
  have hending : s.outcome? none = some (.ok ()) := rfl
  obtain ⟨-, hcounts, hend⟩ := exactly_once hrun
  obtain ⟨hcounted, hkeys, -⟩ := hcounts (by decide)
  obtain ⟨hidle, -⟩ := hend none _ hending
  exact ⟨hrun, hending, rfl, hcounted, (hkeys _).trans List.count_singleton_self, hidle⟩

/-- **A volatile payload loses its attempt**: it was begun, and is neither counted nor under way. -/
theorem uncounted_of_volatile :
    let es : List (Event Nat 1) :=
      [⟨0, .look 1⟩, ⟨0, .prepare (.done ())⟩, ⟨0, .execute (.panicked (.volatile (.text "x"))) 8⟩]
    let s : State Nat 1 := ⟨Metrics.empty, #v[.dead (.text "x")]⟩
    start.run? ⟨10, 5, true⟩ es = some s ∧
      s.outcome? none = some (.error (.error (.workerPanicked "x"))) ∧ begun 10 es = 1 ∧
      s.metrics.successCount.toNat + s.metrics.failureCount.toNat + s.underWay = 0 := by
  intro es s
  exact ⟨rfl, rfl, rfl, rfl⟩

end State
end ExchangeBench.Phase
