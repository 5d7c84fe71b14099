import ExchangeBench.Proofs.Interleaving
import ExchangeBench.Proofs.Phase.Accounting
import ExchangeBench.Proofs.Sampler.Samples
import ExchangeBench.Run.Course

/-!
# The order of a run

Whatever the workers and the samplers do in between, the orchestrator goes through the repeats one by
one: an event either leaves it in the repeat it is in, or completes that repeat and takes it to the
next one. So the results are those of the repeats completed, in order.

- `Course.Step`: what can happen in a run, one constructor for each way to go on.
- `Step.stays_or_completes`: the two sorts of steps, as far as the order is concerned.
- `Course.journal`: the repeats completed in the course of an interleaving, with what has happened in
  them.
- `Course.ordered_of_run`: the progress of a run is that of its journal.
-/

namespace ExchangeBench.Run

variable {α : Type}

/-- The repeat whose turn it is, unless the run is over. -/
def Position.index? : Position α → Option Nat
  | warming index | measuring index _ | opening index _ _ _ | hiring index _ _ _
  | waiting index _ _ _ | closing index _ _ _ _ _ => some index
  | ended _ => none

namespace Course

/-! ## Steps -/

variable [Scalar α] {cfg : Config} {first c c' : Course α} {es : List (Event α)} {e : Event α}

/-- **The steps of a run.** -/
inductive Step (cfg : Config) (c : Course α) : Event α → Course α → Prop
  /-- The clock does not reach the end of a phase, or the source cannot be opened. -/
  | refuse {now i} : Step cfg c (.look now) { c with position := .ended (.error i) }
  | unsourced {answer i} : Step cfg c (.source answer) { c with position := .ended (.error i) }
  /-- The workers find no room. -/
  | unhired {size unstarted i} :
      Step cfg c (.hire size unstarted) { c with position := .ended (.error i) }
  /-- Something that the orchestrator calls panics. -/
  | panic {payload} : Step cfg c (.panic payload) { c with position := .ended (.error (.panic payload)) }
  | warm {index now deadline} (hat : c.position = .warming index) :
      Step cfg c (.look now) { c with position := .hiring index .warmup now deadline }
  | measure {index warmup now deadline} (hat : c.position = .measuring index warmup) :
      Step cfg c (.look now) { c with position := .opening index warmup now deadline }
  | unsampled {index warmup start deadline}
      (hat : c.position = .opening index warmup start deadline) :
      Step cfg c (.source .unavailable) { c with
        position := .hiring index (.measurement warmup .unavailable) start deadline }
  | sampled {index warmup start deadline}
      (hat : c.position = .opening index warmup start deadline) :
      Step cfg c (.source .opened) { c with
        position := .hiring index (.measurement warmup .opened) start deadline
        sampler := some .start }
  | hire {index task start deadline size unstarted}
      (hat : c.position = .hiring index task start deadline) (hsize : size ≤ cfg.concurrency.toNat)
      (hall : unstarted = none ↔ size = cfg.concurrency.toNat)
      (haccepted : Phase.accept cfg.concurrency = .ok ()) :
      Step cfg c (.hire size unstarted) { c with
        position := .waiting index task start ⟨size, unstarted, task.plan cfg deadline, .start⟩ }
  | work {index task start crew crew' worker move}
      (hat : c.position = .waiting index task start crew)
      (hmove : crew.step? worker move = some crew') :
      Step cfg c (.work worker move) { c with position := .waiting index task start crew' }
  | sample {s s' e} (hsampler : c.sampler = some s)
      (hstep : Sampler.State.Step cfg.cpuSampleInterval s e s') :
      Step cfg c (.sample e) { c with sampler := some s' }
  | linger {stray e strays} : Step cfg c (.linger stray e) { c with strays }
  | warmed {index start crew} (hat : c.position = .waiting index .warmup start crew)
      (hover : crew.phase.outcome? crew.unstarted = some (.ok ())) :
      Step cfg c .join { c with position := .measuring index (some ⟨start, .ok ()⟩) }
  /-- A warmup ends in an error, or a phase in a panic. -/
  | unjoined {i} : Step cfg c .join { c with position := .ended (.error i) }
  | measured {index warmup opening start crew ending}
      (hat : c.position = .waiting index (.measurement warmup opening) start crew)
      (hover : crew.phase.outcome? crew.unstarted = some ending) :
      Step cfg c .join { c with
        position := .closing index warmup opening start crew.phase.metrics ending }
  | fail {load logicalCpus index h i}
      (hhappened : c.happenings? load logicalCpus = some (index, h))
      (hadvance : c.progress.advance cfg index h = .error i) :
      Step cfg c (.close load logicalCpus) { c with position := .ended (.error i) }
  | complete {load logicalCpus index h progress}
      (hhappened : c.happenings? load logicalCpus = some (index, h))
      (hadvance : c.progress.advance cfg index h = .ok progress) :
      Step cfg c (.close load logicalCpus)
        ⟨progress, .atRepeat cfg progress (index + 1), none, c.sampler.toList ++ c.strays⟩

theorem Step.of_look? {now : Clock.Reading}
    (hstep : c.at? (look? cfg now c.position) = some c') : Step cfg c (.look now) c' := by
  cases hat : c.position with
  | warming index =>
    simp only [hat, look?] at hstep
    cases hclock : Clock.deadline now cfg.warmup "warmup" with
    | ok deadline =>
      simp only [hclock, at?, Option.some.injEq] at hstep
      exact hstep ▸ .warm hat
    | error e =>
      simp only [hclock, at?, Option.some.injEq] at hstep
      exact hstep ▸ .refuse
  | measuring index warmup =>
    simp only [hat, look?] at hstep
    cases hclock : Clock.deadline now cfg.duration "duration" with
    | ok deadline =>
      simp only [hclock, at?, Option.some.injEq] at hstep
      exact hstep ▸ .measure hat
    | error e =>
      simp only [hclock, at?, Option.some.injEq] at hstep
      exact hstep ▸ .refuse
  | opening | hiring | waiting | closing | ended =>
    simp only [hat, look?, at?] at hstep
    cases hstep

theorem Step.of_source? {answer : Opening} (hstep : c.source? answer = some c') :
    Step cfg c (.source answer) c' := by
  cases hat : c.position with
  | opening index warmup start deadline =>
    cases answer with
    | unavailable =>
      simp only [source?, hat, Option.some.injEq] at hstep
      exact hstep ▸ .unsampled hat
    | opened =>
      simp only [source?, hat, Option.some.injEq] at hstep
      exact hstep ▸ .sampled hat
    | unspawned | panicked =>
      simp only [source?, hat, Option.some.injEq] at hstep
      exact hstep ▸ .unsourced
  | warming | measuring | hiring | waiting | closing | ended =>
    simp only [source?, hat] at hstep
    cases hstep

theorem Step.of_hire? {size : Nat} {unstarted : Option String}
    (hstep : c.at? (hire? cfg size unstarted c.position) = some c') :
    Step cfg c (.hire size unstarted) c' := by
  cases hat : c.position with
  | hiring index task start deadline =>
    simp only [hat, hire?] at hstep
    cases haccepted : Phase.accept cfg.concurrency with
    | error i =>
      simp only [haccepted] at hstep
      split at hstep
      · simp only [at?, Option.some.injEq] at hstep
        exact hstep ▸ .unhired
      · cases hstep
    | ok =>
      simp only [haccepted] at hstep
      split at hstep
      · next hsize =>
        simp only [at?, Option.some.injEq] at hstep
        exact hstep ▸ .hire hat hsize.1 hsize.2 haccepted
      · cases hstep
  | warming | measuring | opening | waiting | closing | ended =>
    simp only [hat, hire?, at?] at hstep
    cases hstep

theorem Step.of_work? {worker : Nat} {move : Phase.Move α}
    (hstep : c.at? (work? worker move c.position) = some c') :
    Step cfg c (.work worker move) c' := by
  cases hat : c.position with
  | waiting index task start crew =>
    simp only [hat, work?] at hstep
    cases hmove : crew.step? worker move with
    | none =>
      simp only [hmove, at?] at hstep
      cases hstep
    | some crew' =>
      simp only [hmove, at?, Option.some.injEq] at hstep
      exact hstep ▸ .work hat hmove
  | warming | measuring | opening | hiring | closing | ended =>
    simp only [hat, work?, at?] at hstep
    cases hstep

theorem Step.of_sample? {e : Sampler.Event α} (hstep : c.sample? cfg e = some c') :
    Step cfg c (.sample e) c' := by
  unfold sample? at hstep
  split at hstep
  · cases hstep
  · next s hsampler =>
    split at hstep
    · cases hstep
    · next s' hs' =>
      cases hstep
      refine .sample hsampler ?_
      split at hs'
      · exact .of_step? hs'
      · exact .of_stepThread? hs'

theorem Step.of_linger? {stray : Nat} {e : Sampler.Event α}
    (hstep : c.linger? cfg stray e = some c') : Step cfg c (.linger stray e) c' := by
  unfold linger? at hstep
  split at hstep
  · cases hstep
  · split at hstep
    · cases hstep
    · cases hstep
      exact .linger

theorem Step.of_join? (hstep : c.at? (join? c.position) = some c') : Step cfg c .join c' := by
  cases hat : c.position with
  | waiting index task start crew =>
    simp only [hat, join?] at hstep
    cases hover : crew.phase.outcome? crew.unstarted with
    | none =>
      simp only [hover, at?] at hstep
      cases hstep
    | some ending =>
      -- a panic ends the run whatever the phase is for
      rcases ending with (e | p) | ⟨⟩
      · cases task with
        | warmup =>
          simp only [hover, at?, Option.some.injEq] at hstep
          exact hstep ▸ .unjoined
        | measurement warmup opening =>
          simp only [hover, at?, Option.some.injEq] at hstep
          exact hstep ▸ .measured hat hover
      · simp only [hover, at?, Option.some.injEq] at hstep
        exact hstep ▸ .unjoined
      · cases task with
        | warmup =>
          simp only [hover, at?, Option.some.injEq] at hstep
          exact hstep ▸ .warmed hat hover
        | measurement warmup opening =>
          simp only [hover, at?, Option.some.injEq] at hstep
          exact hstep ▸ .measured hat hover
  | warming | measuring | opening | hiring | closing | ended =>
    simp only [hat, join?, at?] at hstep
    cases hstep

theorem Step.of_panic? {payload : Payload} (hstep : c.at? (panic? payload c.position) = some c') :
    Step cfg c (.panic payload) c' := by
  cases hat : c.position with
  | waiting | ended =>
    simp only [hat, panic?, at?] at hstep
    cases hstep
  | warming | measuring | opening | hiring | closing =>
    simp only [hat, panic?, at?, Option.some.injEq] at hstep
    exact hstep ▸ .panic

theorem Step.of_close? {load : Except Payload (Option (LoadAverage α))}
    {logicalCpus : Except Payload Nat} (hstep : c.close? cfg load logicalCpus = some c') :
    Step cfg c (.close load logicalCpus) c' := by
  unfold close? at hstep
  split at hstep
  · cases hstep
  · next index h hhappened =>
    split at hstep
    · next i hadvance =>
      cases hstep
      exact .fail hhappened hadvance
    · next progress hadvance =>
      cases hstep
      exact .complete hhappened hadvance

theorem Step.of_step? (hstep : c.step? cfg e = some c') : Step cfg c e c' := by
  cases e with
  | look now => exact .of_look? hstep
  | source answer => exact .of_source? hstep
  | hire size unstarted => exact .of_hire? hstep
  | work worker move => exact .of_work? hstep
  | sample e => exact .of_sample? hstep
  | linger stray e => exact .of_linger? hstep
  | join => exact .of_join? hstep
  | panic payload => exact .of_panic? hstep
  | close load logicalCpus => exact .of_close? hstep

/-! ## The order of the repeats -/

/-- The repeat that an event completes, with what has happened in it. -/
def completed? (cfg : Config) (c : Course α) : Event α → Option (Nat × Happenings α)
  | .close load logicalCpus => do
    let (index, h) ← c.happenings? load logicalCpus
    match c.progress.advance cfg index h with
    | .ok _ => return (index, h)
    | .error _ => none
  | .look _ | .source _ | .hire _ _ | .work _ _ | .sample _ | .linger _ _ | .join
  | .panic _ => none

/-- The repeats completed in the course of an interleaving, in order. -/
def journal (cfg : Config) (first : Course α) (es : List (Event α)) : List (Nat × Happenings α) :=
  Interleaving.trace (step? cfg) (completed? cfg) first es

omit [Scalar α] in
theorem index?_of_happenings? {load : Except Payload (Option (LoadAverage α))}
    {logicalCpus : Except Payload Nat} {index : Nat} {h : Happenings α}
    (hhappened : c.happenings? load logicalCpus = some (index, h)) :
    c.position.index? = some index := by
  unfold happenings? at hhappened
  split at hhappened
  · next hat hexit =>
    cases hhappened
    rw [hat]
    rfl
  · cases hhappened

/-- **Staying and completing.** A step that completes no repeat leaves the progress alone, and the
orchestrator in its repeat, unless it ends the run with an error. Any other step completes the repeat
whose turn it is, and leads to the head of the loop. -/
theorem Step.stays_or_completes (hstep : Step cfg c e c') :
    (completed? cfg c e = none ∧ c'.progress = c.progress ∧
      ((∃ i, c'.position = .ended (.error i)) ∨
        c'.position.index? = c.position.index? ∧
          ∀ r, c'.position = .ended r → c.position = .ended r)) ∨
    ∃ index h, completed? cfg c e = some (index, h) ∧ c.position.index? = some index ∧
      c.progress.advance cfg index h = .ok c'.progress ∧
      c'.position = .atRepeat cfg c'.progress (index + 1) ∧ c'.sampler = none := by
  cases hstep with
  | refuse | unsourced | unhired | unjoined | panic => exact .inl ⟨rfl, rfl, .inl ⟨_, rfl⟩⟩
  | fail hhappened hadvance =>
    refine .inl ⟨?_, rfl, .inl ⟨_, rfl⟩⟩
    simp [completed?, hhappened, hadvance]
  | warm hat | measure hat | unsampled hat | sampled hat | hire hat | work hat | warmed hat
  | measured hat =>
    refine .inl ⟨rfl, rfl, .inr ⟨?_, fun r hr => nomatch hr⟩⟩
    rw [hat]
    rfl
  | sample | linger => exact .inl ⟨rfl, rfl, .inr ⟨rfl, fun r hr => hr⟩⟩
  | complete hhappened hadvance =>
    refine .inr ⟨_, _, ?_, index?_of_happenings? hhappened, hadvance, rfl, rfl⟩
    simp [completed?, hhappened, hadvance]

theorem index?_atRepeat {p : Progress α} {index k : Nat}
    (h : (Position.atRepeat cfg p index).index? = some k) : k = index ∧ k ≤ cfg.repeats.toNat := by
  unfold Position.atRepeat at h
  split at h
  · cases h
  · next hle =>
    split at h
    all_goals
      cases h
      exact ⟨rfl, Nat.le_of_not_lt hle⟩

theorem atRepeat_eq_ended {p : Progress α} {index : Nat}
    {r : Except Interruption (RunOutcome α)} (h : Position.atRepeat cfg p index = .ended r) :
    r = .ok (p.finish cfg) ∧ cfg.repeats.toNat < index := by
  unfold Position.atRepeat at h
  split at h
  · next hlt =>
    cases h
    exact ⟨rfl, hlt⟩
  · split at h <;> cases h

/-- A run begins at the head of the loop, without a sampler. -/
theorem start_eq_ok {now : Clock.Reading} (hstart : start cfg now = .ok first) :
    Progress.start cfg now = .ok first.progress ∧
    first = ⟨first.progress, .atRepeat cfg first.progress 1, none, []⟩ := by
  unfold start at hstart
  cases hprogress : (Progress.start cfg now : Except Interruption (Progress α)) with
  | error i =>
    rw [hprogress] at hstart
    cases hstart
  | ok progress =>
    rw [hprogress] at hstart
    cases hstart
    exact ⟨rfl, rfl⟩

/-- The progress of a run is that of the repeats completed, the first ones in order; the one whose
turn it is comes next. -/
structure Ordered (cfg : Config) (first : Course α) (es : List (Event α)) (c : Course α) :
    Prop where
  advanced : (journal cfg first es).foldlM (fun p h => p.advance cfg h.1 h.2) first.progress =
    Except.ok c.progress
  numbered : (journal cfg first es).map Prod.fst = List.range' 1 (journal cfg first es).length
  current : ∀ k, c.position.index? = some k →
    k = (journal cfg first es).length + 1 ∧ k ≤ cfg.repeats.toNat
  finished : ∀ r, c.position = .ended (.ok r) →
    r = c.progress.finish cfg ∧ (journal cfg first es).length = cfg.repeats.toNat

/-- The journal is numbered from 1. -/
theorem Ordered.fst_getElem (h : Ordered cfg first es c) {i : Nat}
    (hi : i < (journal cfg first es).length) : (journal cfg first es)[i].1 = i + 1 := by
  have hnumbered := congrArg (fun l => l[i]?) h.numbered
  simp only [List.getElem?_map, List.getElem?_eq_getElem hi, Option.map_some] at hnumbered
  rw [List.getElem?_range' hi, Option.some.injEq] at hnumbered
  omega

/-- **The order of a run.** -/
theorem ordered_of_run {now : Clock.Reading} (hstart : start cfg now = .ok first)
    (hrun : first.run? cfg es = some c) : Ordered cfg first es c := by
  obtain ⟨-, hfirst⟩ := start_eq_ok hstart
  refine Interleaving.induction (P := Ordered cfg first) ?_ ?_ hrun
  · have hat : first.position = .atRepeat cfg first.progress 1 := congrArg position hfirst
    refine ⟨rfl, rfl, fun k hk => index?_atRepeat (hat ▸ hk), fun r hr => ?_⟩
    obtain ⟨hok, hlt⟩ := atRepeat_eq_ended (hat.symm.trans hr)
    exact ⟨Except.ok.inj hok, (Nat.lt_one_iff.mp hlt).symm⟩
  · intro es c e c' hes ih hstep
    have hjournal := Interleaving.trace_append_singleton (completed? cfg) hes hstep
    rcases (Step.of_step? hstep).stays_or_completes with
      ⟨hnone, hprogress, hposition⟩ | ⟨index, h, hsome, hindex, hadvance, hat, -⟩
    · -- the orchestrator stays where it is, or is through with an error
      rw [hnone, Option.toList_none, List.append_nil] at hjournal
      have hsame : journal cfg first (es ++ [e]) = journal cfg first es := hjournal
      refine ⟨?_, ?_, fun k hk => ?_, fun r hr => ?_⟩
      · rw [hsame, hprogress, ih.advanced]
      · rw [hsame, ih.numbered]
      · rcases hposition with ⟨i, hover⟩ | ⟨hstays, -⟩
        · rw [hover] at hk
          cases hk
        · rw [hsame]
          exact ih.current k (hstays ▸ hk)
      · rcases hposition with ⟨i, hover⟩ | ⟨-, hstays⟩
        · rw [hover] at hr
          cases hr
        · rw [hsame, hprogress]
          exact ih.finished r (hstays _ hr)
    · -- the next repeat of the journal is completed
      rw [hsome, Option.toList_some] at hjournal
      have hmore : journal cfg first (es ++ [e]) = journal cfg first es ++ [(index, h)] := hjournal
      obtain ⟨hnext, hle⟩ := ih.current index hindex
      have hlength : (journal cfg first (es ++ [e])).length = index := by
        rw [hmore, List.length_append, List.length_singleton, hnext]
      refine ⟨?_, ?_, fun k hk => ?_, fun r hr => ?_⟩
      · rw [hmore, List.foldlM_append, ih.advanced]
        show [(index, h)].foldlM (fun p h => p.advance cfg h.1 h.2) c.progress = _
        rw [List.foldlM_cons, hadvance]
        rfl
      · rw [hlength, hmore, List.map_append, ih.numbered, hnext, List.range'_concat]
        simp [Nat.add_comm]
      · rw [hlength]
        exact index?_atRepeat (hat ▸ hk)
      · obtain ⟨hok, hlt⟩ := atRepeat_eq_ended (hat.symm.trans hr)
        rw [hlength]
        exact ⟨Except.ok.inj hok, by omega⟩

end Course
end ExchangeBench.Run
