import ExchangeBench.Proofs.Interleaving
import ExchangeBench.Proofs.Phase.Accounting
import ExchangeBench.Proofs.Report.Internal
import ExchangeBench.Run.Course

/-!
# What failures say does not steer a run

Two runs are alike if they differ in nothing but the words of their failures and panics: attempts end
in the same record or are lost in both, and where one run is interrupted, so is the other. Alike runs
go in lockstep. Every event of one is possible just if the event of the other is, and it leaves them
alike, so that they come to the same outcome, or are interrupted both.

- `Payload.volatility`: what of a payload decides where its panic goes.
- `SameEnding`: the same result, or interruptions that differ in their words.
- `Phase.Move.Alike`, `Phase.Worker.Alike`, `Phase.State.Alike`: phases.
- `Run.Course.Event.Alike`, `Run.Course.Alike`: runs.
- `Run.Course.step?_alike`, `Run.Course.run?_alike`: one event, and an interleaving.
-/

namespace ExchangeBench

/-! ## Endings -/

/-- How many panics follow, one on the other, when a payload is discarded. -/
def Payload.volatility : Payload → Nat
  | volatile next => next.volatility + 1
  | text _ | nonText => 0

theorem Payload.inert_iff (p : Payload) : (Interruption.panic p).Inert ↔ p.volatility = 0 := by
  cases p with
  | text | nonText => exact iff_of_true nofun rfl
  | volatile next => exact iff_of_false (fun h => h next rfl) (Nat.succ_ne_zero _)

theorem Payload.next?_alike {p p' : Payload} (h : p.volatility = p'.volatility) :
    Option.Rel (fun q q' => q.volatility = q'.volatility) p.next? p'.next? := by
  cases p <;> cases p' <;> first | exact .none | exact .some (Nat.succ.inj h) | cases h

/-- Two errors, or two panics that can both be discarded or that neither can. -/
inductive Interruption.Alike : Interruption → Interruption → Prop
  | error (e e' : BenchError) : Alike (.error e) (.error e')
  | panic {p p' : Payload} (h : (Interruption.panic p).Inert ↔ (Interruption.panic p').Inert) :
      Alike (.panic p) (.panic p')

theorem Interruption.Alike.refl (i : Interruption) : i.Alike i := by
  cases i with
  | error e => exact .error e e
  | panic p => exact .panic Iff.rfl

theorem Interruption.Alike.inert_iff {i i' : Interruption} (h : i.Alike i') : i.Inert ↔ i'.Inert := by
  cases h with
  | error => exact iff_of_true nofun nofun
  | panic h => exact h

/-- Two endings that differ at most in what an interruption says. -/
inductive SameEnding {β : Type} : Except Interruption β → Except Interruption β → Prop
  | ok (b : β) : SameEnding (.ok b) (.ok b)
  | error {i i' : Interruption} (h : i.Alike i') : SameEnding (.error i) (.error i')

namespace SameEnding

variable {β γ : Type}

theorem refl (x : Except Interruption β) : SameEnding x x := by
  cases x with
  | error i => exact .error (.refl i)
  | ok b => exact .ok b

/-- What follows on two endings that are the same may again end in different words. -/
theorem bind {x x' : Except Interruption β} {f f' : β → Except Interruption γ}
    (hx : SameEnding x x') (hf : ∀ b, SameEnding (f b) (f' b)) :
    SameEnding (x >>= f) (x' >>= f') := by
  cases hx with
  | ok b => exact hf b
  | error h => exact .error h

end SameEnding

/-! ## Phases -/

namespace Phase

variable {α : Type} {n : Nat}

/-- How volatile the payload is that a move panics with. -/
def Move.volatility : Move α → Nat
  | prepare (.panicked p) | execute (.panicked p) _ => p.volatility
  | look _ | prepare _ | execute _ _ | record => 0

/-- Two moves that differ at most in what a failure or a panic says: they end their attempt in the same
record, or lose it. -/
inductive Move.Alike : Move α → Move α → Prop
  | look (now : Clock.Reading) : Alike (.look now) (.look now)
  | prepare {result result' : Stage Unit}
      (hdue : (Move.prepare result : Move α).due? = (Move.prepare result' : Move α).due?)
      (hvolatile : (Move.prepare result : Move α).volatility =
        (Move.prepare result' : Move α).volatility) :
      Alike (.prepare result) (.prepare result')
  | execute {result result' : Stage Unit} {latency : α}
      (hdue : (Move.execute result latency).due? = (Move.execute result' latency).due?)
      (hvolatile : (Move.execute result latency).volatility =
        (Move.execute result' latency).volatility) :
      Alike (.execute result latency) (.execute result' latency)
  | record : Alike .record .record

namespace Worker

/-- Two workers in the same state, or ended by panics that are equally volatile. -/
def Alike (w w' : Worker α) : Prop :=
  w = w' ∨ ∃ p p' : Payload, w = dead p ∧ w' = dead p' ∧ p.volatility = p'.volatility

/-- The worker that a first or a second stage leads to, by the record that is due. -/
def afterStage (due : Option (Record α)) : Worker α :=
  match due with
  | none => executing
  | some r => recording r

/-- A stage with a record that is due leads to this worker. A volatile panic ends the worker, and leaves
one panic less. -/
def EndsStage (due : Option (Record α)) (w : Worker α) : Nat → Prop
  | 0 => w = afterStage due
  | k + 1 => ∃ p : Payload, w = dead p ∧ p.volatility = k

theorem exists_step?_prepare (deadline : Clock.Reading) (result : Stage Unit) :
    ∃ w, (preparing : Worker α).step? deadline (.prepare result) = some (w, none) ∧
      EndsStage (Move.prepare result : Move α).due? w (Move.prepare result : Move α).volatility := by
  rcases result with ⟨⟩ | f | (text | _ | next)
  · exact ⟨_, rfl, rfl⟩
  · exact ⟨_, rfl, rfl⟩
  · exact ⟨_, rfl, rfl⟩
  · exact ⟨_, rfl, rfl⟩
  · exact ⟨_, rfl, next, rfl, rfl⟩

theorem exists_step?_execute (deadline : Clock.Reading) (result : Stage Unit) (latency : α) :
    ∃ w, executing.step? deadline (.execute result latency) = some (w, none) ∧
      EndsStage (Move.execute result latency).due? w (Move.execute result latency).volatility := by
  rcases result with ⟨⟩ | f | (text | _ | next)
  · exact ⟨_, rfl, rfl⟩
  · exact ⟨_, rfl, rfl⟩
  · exact ⟨_, rfl, rfl⟩
  · exact ⟨_, rfl, rfl⟩
  · exact ⟨_, rfl, next, rfl, rfl⟩

/-- Stages with the same record due, or equally volatile, lead to workers that are alike. -/
theorem EndsStage.alike {due : Option (Record α)} {w w' : Worker α} {volatility : Nat}
    (h : EndsStage due w volatility) (h' : EndsStage due w' volatility) : w.Alike w' := by
  cases volatility with
  | zero => exact .inl (h.trans h'.symm)
  | succ k =>
    obtain ⟨p, rfl, hp⟩ := h
    obtain ⟨p', rfl, hp'⟩ := h'
    exact .inr ⟨p, p', rfl, rfl, hp.trans hp'.symm⟩

/-- **Workers go in lockstep**, and what they record is the same. -/
theorem step?_alike (deadline : Clock.Reading) {w w' : Worker α} {m m' : Move α}
    (hw : w.Alike w') (hm : m.Alike m') :
    Option.Rel (fun x x' => x.1.Alike x'.1 ∧ x.2 = x'.2) (w.step? deadline m)
      (w'.step? deadline m') := by
  have hsame : ∀ x : Option (Worker α × Option (Record α)),
      Option.Rel (fun x x' => x.1.Alike x'.1 ∧ x.2 = x'.2) x x := by
    rintro (_ | x)
    · exact .none
    · exact .some ⟨.inl rfl, rfl⟩
  rcases hw with rfl | ⟨p, p', rfl, rfl, -⟩
  · cases hm with
    | look | record => exact hsame _
    | @prepare result result' hdue hvolatile =>
      cases w with
      | preparing =>
        obtain ⟨v, hv, hafter⟩ := exists_step?_prepare (α := α) deadline result
        obtain ⟨v', hv', hafter'⟩ := exists_step?_prepare (α := α) deadline result'
        rw [hv, hv']
        rw [hdue, hvolatile] at hafter
        exact .some ⟨hafter.alike hafter', rfl⟩
      | looking | executing | recording | finished | dead => exact .none
    | @execute result result' latency hdue hvolatile =>
      cases w with
      | executing =>
        obtain ⟨v, hv, hafter⟩ := exists_step?_execute deadline result latency
        obtain ⟨v', hv', hafter'⟩ := exists_step?_execute deadline result' latency
        rw [hv, hv']
        rw [hdue, hvolatile] at hafter
        exact .some ⟨hafter.alike hafter', rfl⟩
      | looking | preparing | recording | finished | dead => exact .none
  · -- a worker that a panic has ended does not move again
    cases hm <;> exact .none

theorem Alike.isOver_eq {w w' : Worker α} (h : w.Alike w') : w.isOver = w'.isOver := by
  rcases h with rfl | ⟨p, p', rfl, rfl, -⟩
  · rfl
  · rfl

end Worker

namespace State

/-- Two phases with the same metrics and with workers that are alike. -/
structure Alike (s s' : State α n) : Prop where
  metrics : s.metrics = s'.metrics
  workers : ∀ w : Fin n, (s.workers.get w).Alike (s'.workers.get w)

variable {s s' : State α n}

theorem Alike.refl (s : State α n) : s.Alike s :=
  ⟨rfl, fun _ => .inl rfl⟩

/-- **Phases go in lockstep.** -/
theorem step?_alike (plan : Plan) (w : Fin n) {m m' : Move α} (h : s.Alike s')
    (hm : m.Alike m') :
    Option.Rel Alike (s.step? plan ⟨w, m⟩) (s'.step? plan ⟨w, m'⟩) := by
  have hworker := Worker.step?_alike plan.deadline (h.workers w) hm
  dsimp only [step?]
  revert hworker
  generalize s.workers[w].step? plan.deadline m = x, s'.workers[w].step? plan.deadline m' = x'
  rintro (@⟨⟨v, r⟩, ⟨v', _⟩, halike, rfl⟩ | _)
  · refine .some ⟨?_, fun i => ?_⟩
    · show recorded plan s.metrics r = recorded plan s'.metrics r
      rw [h.metrics]
    · show Worker.Alike (s.workers.set w v)[i.val] (s'.workers.set w v')[i.val]
      by_cases hi : w.val = i.val
      · rw [Vector.getElem_set, if_pos hi, Vector.getElem_set, if_pos hi]
        exact halike
      · rw [Vector.getElem_set, if_neg hi, Vector.getElem_set, if_neg hi]
        exact h.workers i
  · exact .none

/-- The panics that have ended the workers of alike phases are equally volatile, one by one. -/
theorem Alike.deaths (h : s.Alike s') :
    List.Forall₂ (fun p p' => p.volatility = p'.volatility) s.deaths s'.deaths := by
  have hworkers : List.Forall₂ Worker.Alike s.workers.toList s'.workers.toList := by
    refine List.forall₂_iff_get.mpr ⟨by rw [Vector.length_toList, Vector.length_toList], fun i hi _ => ?_⟩
    rw [Vector.length_toList] at hi
    exact h.workers ⟨i, hi⟩
  refine List.rel_filterMap (fun {w w'} hw => ?_) hworkers
  rcases hw with rfl | ⟨p, p', rfl, rfl, hp⟩
  · cases w with
    | dead p => exact .some rfl
    | looking | preparing | executing | recording | finished => exact .none
  · exact .some hp

/-- Alike phases are over together, and end alike. -/
theorem outcome?_alike (h : s.Alike s') {unstarted unstarted' : Option String}
    (hunstarted : unstarted.isSome = unstarted'.isSome) :
    Option.Rel SameEnding (s.outcome? unstarted) (s'.outcome? unstarted') := by
  have hover : s.isOver = s'.isOver := by
    rw [Bool.eq_iff_iff, isOver_iff, isOver_iff]
    exact forall_congr' fun w => iff_of_eq (congrArg (· = true) (h.workers w).isOver_eq)
  have hdeaths := h.deaths
  have hnext := List.rel_filterMap (fun {p p'} hp => Payload.next?_alike hp) hdeaths
  unfold outcome?
  rw [hover]
  cases s'.isOver with
  | false => exact .none
  | true =>
    revert hdeaths hnext
    generalize s.deaths.filterMap Payload.next? = ps, s'.deaths.filterMap Payload.next? = ps'
    generalize s.deaths = ds, s'.deaths = ds'
    intro hdeaths hnext
    cases hnext with
    | nil =>
      -- no panic goes on: an unstarted worker ends both phases, and otherwise a death does
      refine .some ?_
      cases unstarted <;> cases unstarted' <;> cases hunstarted
      · cases hdeaths with
        | nil => exact .ok ()
        | cons => exact .error (.error ..)
      · exact .error (.error ..)
    | @cons p p' _ _ hp hrest =>
      cases hrest with
      | nil => exact .some (.error (.panic (by rw [p.inert_iff, p'.inert_iff, hp])))
      | cons => exact .none

end State
end Phase

/-! ## Repeats -/

section Repeats

variable {α : Type}

/-- Two measurements that differ at most in why their phases failed, and in what the panics say that the
host answered with. -/
structure Measurement.Alike (m m' : Measurement α) : Prop where
  start : m.start = m'.start
  opening : m.opening = m'.opening
  metrics : m.metrics = m'.metrics
  phase : SameEnding m.phase m'.phase
  sampler : m.sampler = m'.sampler
  load : SameEnding (RepeatResult.orPanic m.load) (RepeatResult.orPanic m'.load)
  logicalCpus :
    SameEnding (RepeatResult.orPanic m.logicalCpus) (RepeatResult.orPanic m'.logicalCpus)

/-- Two repeats with the same warmup and with measurements that are alike. -/
structure Happenings.Alike (h h' : Happenings α) : Prop where
  warmup : h.warmup = h'.warmup
  measurement : h.measurement.Alike h'.measurement

variable [Scalar α] (cfg : Config) (index : Nat)

theorem RepeatResult.measured_alike {m m' : Measurement α} (h : m.Alike m') :
    SameEnding (measured cfg index m) (measured cfg index m') := by
  unfold measured
  rw [h.start, h.opening, h.sampler]
  refine (SameEnding.refl _).bind fun _ => (SameEnding.refl _).bind fun samples => ?_
  refine h.phase.bind fun _ => h.load.bind fun load => ?_
  refine h.logicalCpus.bind fun logicalCpus => ?_
  rw [h.metrics]
  exact .refl _

/-- What is made of alike repeats is the same. -/
theorem Run.Progress.advance_alike (p : Run.Progress α) {h h' : Happenings α}
    (halike : h.Alike h') :
    SameEnding (p.advance cfg index h) (p.advance cfg index h') := by
  have hresult : SameEnding (RepeatResult.ofHappenings cfg index h)
      (RepeatResult.ofHappenings cfg index h') := by
    dsimp only [RepeatResult.ofHappenings]
    rw [halike.warmup]
    split
    · exact (SameEnding.refl _).bind fun _ => RepeatResult.measured_alike cfg index halike.measurement
    · exact RepeatResult.measured_alike cfg index halike.measurement
  exact hresult.bind fun rs => .refl _

end Repeats

/-! ## Runs -/

namespace Run

variable {α : Type}

/-- Two crews of the same size and with the same plan, whose phases are alike. -/
inductive Crew.Alike : Crew α → Crew α → Prop
  | mk {size : Nat} {unstarted unstarted' : Option String} {plan : Phase.Plan}
      {phase phase' : Phase.State α size} (hunstarted : unstarted.isSome = unstarted'.isSome)
      (hphase : phase.Alike phase') :
      Alike ⟨size, unstarted, plan, phase⟩ ⟨size, unstarted', plan, phase'⟩

/-- Two orchestrators at the same place. What they wait for is alike, and so are their endings. -/
inductive Position.Alike : Position α → Position α → Prop
  | refl (p : Position α) : Alike p p
  | waiting {index : Nat} {task : Task} {start : Clock.Reading} {crew crew' : Crew α}
      (hcrew : crew.Alike crew') :
      Alike (.waiting index task start crew) (.waiting index task start crew')
  | closing {index : Nat} {warmup : Option Warmup} {opening : Opening} {start : Clock.Reading}
      {metrics : Metrics α} {phase phase' : Except Interruption Unit}
      (hphase : SameEnding phase phase') :
      Alike (.closing index warmup opening start metrics phase)
        (.closing index warmup opening start metrics phase')
  | ended {result result' : Except Interruption (RunOutcome α)}
      (hresult : SameEnding result result') : Alike (.ended result) (.ended result')

theorem Position.Alike.isClosing_eq {p p' : Position α} (h : p.Alike p') :
    p.isClosing = p'.isClosing := by
  cases h <;> rfl

namespace Course

/-- Two runs that differ at most in what failures and panics say. -/
structure Alike (c c' : Course α) : Prop where
  progress : c.progress = c'.progress
  position : c.position.Alike c'.position
  sampler : c.sampler = c'.sampler
  strays : c.strays = c'.strays

/-- Two answers of a source of CPU samples that differ at most in why it could not be opened. -/
inductive Event.Opened : Opening → Opening → Prop
  | refl (answer : Opening) : Opened answer answer
  | unspawned (reason reason' : String) : Opened (.unspawned reason) (.unspawned reason')
  | panicked {p p' : Payload} (h : (Interruption.panic p).Inert ↔ (Interruption.panic p').Inert) :
      Opened (.panicked p) (.panicked p')

/-- Two events that differ at most in what failures and panics say. -/
inductive Event.Alike : Event α → Event α → Prop
  | look (now : Clock.Reading) : Alike (.look now) (.look now)
  | source {answer answer' : Opening} (h : Opened answer answer') :
      Alike (.source answer) (.source answer')
  | hire (size : Nat) {unstarted unstarted' : Option String}
      (h : unstarted.isSome = unstarted'.isSome) :
      Alike (.hire size unstarted) (.hire size unstarted')
  | work (worker : Nat) {move move' : Phase.Move α} (h : move.Alike move') :
      Alike (.work worker move) (.work worker move')
  | sample (e : Sampler.Event α) : Alike (.sample e) (.sample e)
  | linger (stray : Nat) (e : Sampler.Event α) : Alike (.linger stray e) (.linger stray e)
  | join : Alike .join .join
  | panic {p p' : Payload} (h : (Interruption.panic p).Inert ↔ (Interruption.panic p').Inert) :
      Alike (.panic p) (.panic p')
  | close {load load' : Except Payload (Option (LoadAverage α))}
      {logicalCpus logicalCpus' : Except Payload Nat}
      (hload : SameEnding (RepeatResult.orPanic load) (RepeatResult.orPanic load'))
      (hcpus : SameEnding (RepeatResult.orPanic logicalCpus) (RepeatResult.orPanic logicalCpus')) :
      Alike (.close load logicalCpus) (.close load' logicalCpus')

variable {cfg : Config} {c c' : Course α}

theorem Alike.refl (c : Course α) : c.Alike c :=
  ⟨rfl, .refl _, rfl, rfl⟩

/-- Moving alike orchestrators to places that are alike leaves the runs alike. -/
theorem at?_alike (h : c.Alike c') {p p' : Option (Position α)}
    (hp : Option.Rel Position.Alike p p') : Option.Rel Alike (c.at? p) (c'.at? p') := by
  cases hp with
  | some hp => exact .some ⟨h.progress, hp, h.sampler, h.strays⟩
  | none => exact .none

theorem look?_alike {p p' : Position α} (h : p.Alike p') (now : Clock.Reading) :
    Option.Rel Position.Alike (look? cfg now p) (look? cfg now p') := by
  cases h with
  | refl =>
    cases look? cfg now p with
    | none => exact .none
    | some q => exact .some (.refl q)
  | waiting | closing | ended => exact .none

theorem source?_alike (h : c.Alike c') {answer answer' : Opening}
    (hopened : Event.Opened answer answer') :
    Option.Rel Alike (c.source? answer) (c'.source? answer') := by
  obtain ⟨progress, position, sampler, strays⟩ := c
  obtain ⟨progress', position', sampler', strays'⟩ := c'
  obtain ⟨rfl, hposition, rfl, rfl⟩ := h
  dsimp only at hposition
  cases hposition with
  | refl =>
    cases position with
    | opening index warmup start deadline =>
      cases hopened with
      | refl =>
        cases answer with
        | unavailable | opened | unspawned | panicked => exact .some (.refl _)
      | unspawned =>
        exact .some ⟨rfl, .ended (.error (.error ..)), rfl, rfl⟩
      | panicked hinert => exact .some ⟨rfl, .ended (.error (.panic hinert)), rfl, rfl⟩
    | warming | measuring | hiring | waiting | closing | ended =>
      cases hopened <;> exact .none
  | waiting | closing | ended => cases hopened <;> exact .none

theorem hire?_alike {p p' : Position α} (h : p.Alike p') (size : Nat)
    {unstarted unstarted' : Option String} (hunstarted : unstarted.isSome = unstarted'.isSome) :
    Option.Rel Position.Alike (hire? cfg size unstarted p) (hire? cfg size unstarted' p') := by
  cases h with
  | refl =>
    cases p with
    | hiring index task start deadline =>
      have hnone : unstarted = none ↔ unstarted' = none := by
        rw [← Option.isNone_iff_eq_none, ← Option.isNone_iff_eq_none, ← Option.not_isSome,
          ← Option.not_isSome, hunstarted]
      dsimp only [hire?]
      simp only [hnone]
      cases Phase.accept cfg.concurrency with
      | error i =>
        dsimp only
        split
        · exact .some (.refl _)
        · exact .none
      | ok =>
        dsimp only
        split
        · exact .some (.waiting (.mk hunstarted (.refl _)))
        · exact .none
    | warming | measuring | opening | waiting | closing | ended => exact .none
  | waiting | closing | ended => exact .none

theorem work?_alike {p p' : Position α} (h : p.Alike p') (worker : Nat) {move move' : Phase.Move α}
    (hmove : move.Alike move') :
    Option.Rel Position.Alike (work? worker move p) (work? worker move' p') := by
  have hcrews : ∀ {index task start} {crew crew' : Crew α}, crew.Alike crew' →
      Option.Rel Position.Alike (work? worker move (.waiting index task start crew))
        (work? worker move' (.waiting index task start crew')) := by
    rintro index task start _ _ @⟨size, _, _, plan, _, _, hunstarted, hphase⟩
    dsimp only [work?, Crew.step?]
    by_cases hworker : worker < size
    · rw [dif_pos hworker, dif_pos hworker]
      have hstep := Phase.State.step?_alike plan ⟨worker, hworker⟩ hphase hmove
      revert hstep
      generalize Phase.State.step? _ _ _ = s, Phase.State.step? _ _ _ = s'
      rintro (⟨hs⟩ | _)
      · exact .some (.waiting (.mk hunstarted hs))
      · exact .none
    · rw [dif_neg hworker, dif_neg hworker]
      exact .none
  cases h with
  | refl =>
    cases p with
    | waiting index task start crew => exact hcrews (.mk rfl (.refl _))
    | warming | measuring | opening | hiring | closing | ended => exact .none
  | waiting hcrew => exact hcrews hcrew
  | closing | ended => exact .none

theorem join?_alike {p p' : Position α} (h : p.Alike p') :
    Option.Rel Position.Alike (join? p) (join? p') := by
  cases h with
  | refl =>
    cases join? p with
    | none => exact .none
    | some q => exact .some (.refl q)
  | @waiting index task start _ _ hcrew =>
    obtain ⟨hunstarted, hphase⟩ := hcrew
    have houtcome := Phase.State.outcome?_alike hphase hunstarted
    dsimp only [join?]
    rw [hphase.metrics]
    revert houtcome
    generalize Phase.State.outcome? _ _ = e, Phase.State.outcome? _ _ = e'
    rintro (⟨_ | @⟨i, i', halike⟩⟩ | _)
    · cases task with
      | warmup => exact .some (.refl _)
      | measurement warmup opening => exact .some (.refl _)
    · cases halike with
      | error e e' =>
        cases task with
        | warmup => exact .some (.ended (.error (.error e e')))
        | measurement warmup opening => exact .some (.closing (.error (.error e e')))
      | panic hinert => cases task <;> exact .some (.ended (.error (.panic hinert)))
    · exact .none
  | closing | ended => exact .none

theorem panic?_alike {p p' : Position α} (h : p.Alike p') {q q' : Payload}
    (hinert : (Interruption.panic q).Inert ↔ (Interruption.panic q').Inert) :
    Option.Rel Position.Alike (panic? q p) (panic? q' p') := by
  have hended : Option.Rel Position.Alike (some (.ended (.error (.panic q)) : Position α))
      (some (.ended (.error (.panic q')))) := .some (.ended (.error (.panic hinert)))
  cases h with
  | refl =>
    cases p with
    | warming | measuring | opening | hiring | closing => exact hended
    | waiting | ended => exact .none
  | closing => exact hended
  | waiting | ended => exact .none

/-- Alike runs make alike repeats, of the same index. -/
theorem happenings?_alike (h : c.Alike c') {load load' : Except Payload (Option (LoadAverage α))}
    {logicalCpus logicalCpus' : Except Payload Nat}
    (hload : SameEnding (RepeatResult.orPanic load) (RepeatResult.orPanic load'))
    (hcpus : SameEnding (RepeatResult.orPanic logicalCpus) (RepeatResult.orPanic logicalCpus')) :
    Option.Rel (fun x x' => x.1 = x'.1 ∧ x.2.Alike x'.2) (c.happenings? load logicalCpus)
      (c'.happenings? load' logicalCpus') := by
  have hexit : c.exit? = c'.exit? := by
    unfold exit?
    rw [h.sampler]
  have hposition := h.position
  unfold happenings?
  rw [hexit]
  revert hposition
  generalize c.position = p, c'.position = p', c'.exit? = exit
  intro hposition
  cases exit with
  | none =>
    cases hposition with
    | refl => cases p <;> exact .none
    | waiting | closing | ended => exact .none
  | some exit =>
    cases hposition with
    | refl =>
      cases p with
      | closing => exact .some ⟨rfl, rfl, rfl, rfl, rfl, .refl _, rfl, hload, hcpus⟩
      | warming | measuring | opening | hiring | waiting | ended => exact .none
    | closing hphase => exact .some ⟨rfl, rfl, rfl, rfl, rfl, hphase, rfl, hload, hcpus⟩
    | waiting | ended => exact .none

variable [Scalar α]

theorem sample?_alike (h : c.Alike c') (e : Sampler.Event α) :
    Option.Rel Alike (c.sample? cfg e) (c'.sample? cfg e) := by
  unfold sample?
  rw [h.sampler, h.position.isClosing_eq]
  cases c'.sampler with
  | none => exact .none
  | some s =>
    dsimp only
    generalize (if c'.position.isClosing then s.step? cfg.cpuSampleInterval e
      else s.stepThread? cfg.cpuSampleInterval e) = s'
    cases s' with
    | none => exact .none
    | some s' => exact .some ⟨h.progress, h.position, rfl, h.strays⟩

theorem linger?_alike (h : c.Alike c') (stray : Nat) (e : Sampler.Event α) :
    Option.Rel Alike (c.linger? cfg stray e) (c'.linger? cfg stray e) := by
  unfold linger?
  rw [h.strays]
  cases c'.strays[stray]? with
  | none => exact .none
  | some s =>
    dsimp only
    cases s.stepThread? cfg.cpuSampleInterval e with
    | none => exact .none
    | some s' => exact .some ⟨h.progress, h.position, h.sampler, rfl⟩

theorem close?_alike (h : c.Alike c') {load load' : Except Payload (Option (LoadAverage α))}
    {logicalCpus logicalCpus' : Except Payload Nat}
    (hload : SameEnding (RepeatResult.orPanic load) (RepeatResult.orPanic load'))
    (hcpus : SameEnding (RepeatResult.orPanic logicalCpus) (RepeatResult.orPanic logicalCpus')) :
    Option.Rel Alike (c.close? cfg load logicalCpus) (c'.close? cfg load' logicalCpus') := by
  have hhappenings := happenings?_alike h hload hcpus
  unfold close?
  revert hhappenings
  generalize c.happenings? load logicalCpus = x, c'.happenings? load' logicalCpus' = x'
  rintro (@⟨⟨index, hs⟩, ⟨_, hs'⟩, rfl, hhs⟩ | _)
  · have hadvance := c'.progress.advance_alike cfg index hhs
    dsimp only
    rw [h.progress, h.sampler, h.strays]
    revert hadvance
    generalize c'.progress.advance cfg index hs = r, c'.progress.advance cfg index hs' = r'
    rintro (_ | hinterrupted)
    · exact .some (.refl _)
    · exact .some ⟨rfl, .ended (.error hinterrupted), rfl, rfl⟩
  · exact .none

/-- **Runs go in lockstep.** -/
theorem step?_alike (h : c.Alike c') {e e' : Event α} (he : e.Alike e') :
    Option.Rel Alike (c.step? cfg e) (c'.step? cfg e') := by
  cases he with
  | look now => exact at?_alike h (look?_alike h.position now)
  | source hopened => exact source?_alike h hopened
  | hire size hunstarted => exact at?_alike h (hire?_alike h.position size hunstarted)
  | work worker hmove => exact at?_alike h (work?_alike h.position worker hmove)
  | sample e => exact sample?_alike h e
  | linger stray e => exact linger?_alike h stray e
  | join => exact at?_alike h (join?_alike h.position)
  | panic hinert => exact at?_alike h (panic?_alike h.position hinert)
  | close hload hcpus => exact close?_alike h hload hcpus

/-- Interleavings that differ at most in what failures and panics say go through together. -/
theorem run?_alike (cfg : Config) (h : c.Alike c') {es es' : List (Event α)}
    (hes : List.Forall₂ Event.Alike es es') :
    Option.Rel Alike (c.run? cfg es) (c'.run? cfg es') :=
  Interleaving.lockstep (fun hc he => step?_alike hc he) hes h

end Course
end Run
end ExchangeBench
