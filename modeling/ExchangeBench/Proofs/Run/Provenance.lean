import ExchangeBench.Proofs.Run.Turns

/-!
# Where the contents of a result come from

What enters the metrics of a repeat is what the workers of its measurement record, and what its sampler
hands over are the ticks that this sampler took. Warmups record nothing, and a sampler that was left to
itself in an earlier repeat takes its ticks for itself alone.

- `Course.recorded?`, `Course.sampled?`: what an event adds to the measurement of a repeat.
- `Course.records`, `Course.ticks`: what a run adds to it in all.
- `Course.Current`: what a run holds of the repeat whose turn it is. Every step keeps it
  (`Current.step`).
- `Course.provenance_of_run`: what a run has completed, it has completed with its own records and
  ticks.
-/

namespace ExchangeBench.Run

variable {α : Type}

/-! ## Crews -/

namespace Crew

variable {crew crew' : Crew α} {worker : Nat} {move : Phase.Move α}

/-- What a move of a worker records. -/
def logged? (crew : Crew α) (worker : Nat) (move : Phase.Move α) : Option (Record α) :=
  if h : worker < crew.size then
    (crew.phase.logged? crew.plan ⟨⟨worker, h⟩, move⟩).map Prod.snd
  else none

/-- The metrics of the crew of a measurement are those of some records. -/
structure Holds (capacity : Nat) (rs : List (Record α)) (crew : Crew α) : Prop where
  measured : crew.plan.measured = true
  room : crew.plan.capacity = capacity
  metrics : crew.phase.metrics = Metrics.ofRecords capacity rs

theorem Holds.step {capacity : Nat} {rs : List (Record α)} (h : Holds capacity rs crew)
    (hstep : crew.step? worker move = some crew') :
    Holds capacity (rs ++ (crew.logged? worker move).toList) crew' := by
  unfold step? at hstep
  by_cases hworker : worker < crew.size
  · rw [dif_pos hworker] at hstep
    cases hphase : crew.phase.step? crew.plan ⟨⟨worker, hworker⟩, move⟩ with
    | none =>
      rw [hphase] at hstep
      cases hstep
    | some phase =>
      rw [hphase] at hstep
      cases hstep
      refine ⟨h.measured, h.room, ?_⟩
      have hmetrics : crew.phase.metrics = Metrics.ofRecords crew.plan.capacity rs := by
        rw [h.room, h.metrics]
      have hnext := Phase.State.metrics_step h.measured hmetrics hphase
      rw [h.room] at hnext
      rw [logged?, dif_pos hworker]
      exact hnext
  · rw [dif_neg hworker] at hstep
    cases hstep

end Crew

namespace Course

/-! ## What an event adds to a repeat -/

/-- What a move of a worker records in the measurement of the repeat `k`. A warmup records nothing. -/
def loggedAt? (k worker : Nat) (move : Phase.Move α) : Position α → Option (Record α)
  | .waiting index (.measurement _ _) _ crew =>
    if index = k then crew.logged? worker move else none
  | .warming _ | .measuring _ _ | .opening .. | .hiring .. | .waiting _ .warmup _ _ | .closing ..
  | .ended _ => none

/-- What an event records in the measurement of the repeat `k`. -/
def recorded? (k : Nat) (c : Course α) : Event α → Option (Record α)
  | .work worker move => loggedAt? k worker move c.position
  | .look _ | .source _ | .hire _ _ | .sample _ | .linger _ _ | .join | .panic _ | .close _ _ => none

/-- What an event takes in for the sampler of the repeat `k`. -/
def sampled? (k : Nat) (c : Course α) : Event α → Option (CpuTick α)
  | .sample e => if c.position.index? = some k then e.tick? else none
  | .look _ | .source _ | .hire _ _ | .work _ _ | .linger _ _ | .join | .panic _ | .close _ _ => none

theorem recorded?_eq_none {k : Nat} {c : Course α} {e : Event α}
    (h : c.position.index? = some k → e.closes = true) : recorded? k c e = none := by
  cases e with
  | work worker move =>
    show loggedAt? k worker move c.position = none
    cases hat : c.position with
    | waiting index task start crew =>
      cases task with
      | warmup => rfl
      | measurement warmup opening =>
        refine if_neg ?_
        rintro rfl
        exact Bool.false_ne_true (h (congrArg Position.index? hat))
    | warming | measuring | opening | hiring | closing | ended => rfl
  | look | source | hire | sample | linger | join | panic | close => rfl

theorem sampled?_eq_none {k : Nat} {c : Course α} {e : Event α}
    (h : c.position.index? = some k → e.closes = true) : sampled? k c e = none := by
  cases e with
  | sample e => exact if_neg fun hk => Bool.false_ne_true (h hk)
  | look | source | hire | work | linger | join | panic | close => rfl

variable [Scalar α] {cfg : Config} {first c c' : Course α} {es : List (Event α)} {e : Event α}

/-- The records made in the measurement of the repeat `k`, in order. -/
def records (cfg : Config) (first : Course α) (es : List (Event α)) (k : Nat) : List (Record α) :=
  Interleaving.trace (step? cfg) (recorded? k) first es

/-- The ticks that the sampler of the repeat `k` has taken, in order. -/
def ticks (cfg : Config) (first : Course α) (es : List (Event α)) (k : Nat) : List (CpuTick α) :=
  Interleaving.trace (step? cfg) (sampled? k) first es

/-! ## The repeat under way -/

/-- Whether the measurement of the repeat has not got its sampler yet. -/
def isEarly : Position α → Bool
  | .warming _ | .measuring _ _ | .opening .. | .hiring _ .warmup _ _ | .waiting _ .warmup _ _ =>
    true
  | .hiring _ (.measurement _ _) _ _ | .waiting _ (.measurement _ _) _ _ | .closing .. | .ended _ =>
    false

/-- Where the records of a repeat's measurement are, while the repeat is under way. -/
def Keeps (capacity : Nat) (rs : List (Record α)) : Position α → Prop
  | .waiting _ (.measurement _ _) _ crew => crew.Holds capacity rs
  | .closing _ _ _ _ metrics _ => metrics = Metrics.ofRecords capacity rs
  | .warming _ | .measuring _ _ | .opening .. | .hiring .. | .waiting _ .warmup _ _ | .ended _ =>
    rs = []

/-- Where the ticks of a repeat's sampler are, while the repeat is under way. -/
def Samples (ts : List (CpuTick α)) : Option (Sampler.State α) → Prop
  | none => ts = []
  | some s => s.Sampled ts

/-- What a run holds of the repeat whose turn it is: its records and its ticks. -/
structure Current (cfg : Config) (rs : List (Record α)) (ts : List (CpuTick α)) (c : Course α) :
    Prop where
  keeps : Keeps cfg.latencyCapacity.toNat rs c.position
  samples : Samples ts c.sampler
  early : isEarly c.position = true → c.sampler = none

namespace Current

variable {rs : List (Record α)} {ts : List (CpuTick α)} {k : Nat}

/-- At the head of the loop a repeat holds nothing. -/
theorem atRepeat {p : Progress α} {index : Nat} (hat : c.position = .atRepeat cfg p index)
    (hsampler : c.sampler = none) : Current cfg [] [] c := by
  refine ⟨?_, ?_, fun _ => hsampler⟩
  · rw [hat]
    unfold Position.atRepeat
    split
    · rfl
    · split <;> rfl
  · rw [hsampler]
    rfl

/-- An event that adds nothing leaves the records and the ticks as they are. -/
theorem of_quiet (hrecorded : recorded? k c e = none) (hsampled : sampled? k c e = none)
    (h : Current cfg rs ts c') :
    Current cfg (rs ++ (recorded? k c e).toList) (ts ++ (sampled? k c e).toList) c' := by
  rw [hrecorded, hsampled, Option.toList_none, Option.toList_none, List.append_nil, List.append_nil]
  exact h

/-- **Every step in a repeat keeps its records and ticks.** -/
theorem step (h : Current cfg rs ts c) (hk : c.position.index? = some k)
    (hstep : Step cfg c e c') (hk' : c'.position.index? = some k) :
    Current cfg (rs ++ (recorded? k c e).toList) (ts ++ (sampled? k c e).toList) c' := by
  obtain ⟨hkeeps, hsamples, hearly⟩ := h
  cases hstep with
  | refuse | unsourced | unhired | unjoined | panic | fail => cases hk'
  | warm hat | measure hat =>
    rw [hat] at hkeeps hearly
    exact .of_quiet rfl rfl ⟨hkeeps, hsamples, fun _ => hearly rfl⟩
  | warmed hat hover =>
    rw [hat] at hkeeps hearly
    exact .of_quiet rfl rfl ⟨hkeeps, hsamples, fun _ => hearly rfl⟩
  | unsampled hat =>
    rw [hat] at hkeeps
    exact .of_quiet rfl rfl ⟨hkeeps, hsamples, fun hno => nomatch hno⟩
  | sampled hat =>
    rw [hat] at hkeeps hearly
    -- the new sampler has taken no ticks, and nobody has taken any for this repeat
    rw [hearly rfl] at hsamples
    obtain rfl : ts = [] := hsamples
    exact .of_quiet rfl rfl ⟨hkeeps, .start, fun hno => nomatch hno⟩
  | @hire index task start deadline size unstarted hat hsize hall =>
    rw [hat] at hkeeps hearly
    obtain rfl : rs = [] := hkeeps
    refine .of_quiet rfl rfl ?_
    cases task with
    | warmup => exact ⟨rfl, hsamples, fun _ => hearly rfl⟩
    | measurement => exact ⟨⟨rfl, rfl, rfl⟩, hsamples, fun hno => nomatch hno⟩
  | @work index task start crew crew' worker move hat hmove =>
    rw [hat] at hkeeps hearly hk
    have hquiet : sampled? k c (.work worker move) = none := rfl
    rw [hquiet, Option.toList_none, List.append_nil, recorded?, hat]
    cases task with
    | warmup =>
      rw [loggedAt?, Option.toList_none, List.append_nil]
      exact ⟨hkeeps, hsamples, fun _ => hearly rfl⟩
    | measurement warmup opening =>
      have hindex : index = k := Option.some.inj hk
      rw [loggedAt?, if_pos hindex]
      exact ⟨hkeeps.step hmove, hsamples, fun hno => nomatch hno⟩
  | measured hat hover =>
    rw [hat] at hkeeps
    exact .of_quiet rfl rfl ⟨hkeeps.metrics, hsamples, fun hno => nomatch hno⟩
  | @sample s s' e hsampler hs =>
    have hquiet : recorded? k c (.sample e) = none := rfl
    rw [hquiet, Option.toList_none, List.append_nil, sampled?, if_pos hk]
    rw [hsampler] at hsamples hearly
    exact ⟨hkeeps, hsamples.step hs, fun hno => nomatch hearly hno⟩
  | linger => exact .of_quiet rfl rfl ⟨hkeeps, hsamples, hearly⟩
  | @complete load logicalCpus index h progress hhappened hadvance =>
    -- the next repeat is another one
    have hindex := index?_of_happenings? hhappened
    obtain ⟨hnext, -⟩ := index?_atRepeat hk'
    rw [hk, Option.some.injEq] at hindex
    omega

end Current

/-! ## What is completed -/

/-- The metrics of a repeat are those of the records `rs`, and the samples that its sampler handed
over are those of the ticks `ts`. -/
structure Own (cfg : Config) (rs : List (Record α)) (ts : List (CpuTick α)) (h : Happenings α) :
    Prop where
  metrics : h.measurement.metrics = Metrics.ofRecords cfg.latencyCapacity.toNat rs
  samples : ∀ samples, h.measurement.sampler = .joined samples → samples = CpuSamples.ofTicks ts

/-- A repeat is closed with what the run holds of it. -/
theorem Current.own {rs : List (Record α)} {ts : List (CpuTick α)} (hc : Current cfg rs ts c)
    {load : Except Payload (Option (LoadAverage α))} {logicalCpus : Except Payload Nat} {k : Nat}
    {h : Happenings α} (hhappened : c.happenings? load logicalCpus = some (k, h)) :
    Own cfg rs ts h := by
  obtain ⟨hkeeps, hsamples, -⟩ := hc
  unfold happenings? at hhappened
  split at hhappened
  · next hat hexit =>
    cases hhappened
    rw [hat] at hkeeps
    refine ⟨hkeeps, fun samples hjoined => ?_⟩
    obtain rfl := hjoined
    unfold exit? at hexit
    cases hsampler : c.sampler with
    | none =>
      rw [hsampler] at hexit
      cases hexit
    | some s =>
      rw [hsampler] at hexit hsamples
      exact hsamples.exit hexit
  · cases hhappened

/-- Where everything in a run comes from: the repeat under way holds its own records and ticks, the
repeats to come have none yet, and the completed ones were completed with theirs. -/
structure Provenance (cfg : Config) (first : Course α) (es : List (Event α)) (c : Course α) :
    Prop where
  current : ∀ k, c.position.index? = some k →
    Current cfg (records cfg first es k) (ticks cfg first es k) c
  later : ∀ k, (journal cfg first es).length + 1 < k →
    records cfg first es k = [] ∧ ticks cfg first es k = []
  completed : ∀ k h, (k, h) ∈ journal cfg first es →
    Own cfg (records cfg first es k) (ticks cfg first es k) h

/-- **The provenance of a run.** -/
theorem provenance_of_run {now : Clock.Reading} (hstart : start cfg now = .ok first)
    (hrun : first.run? cfg es = some c) : Provenance cfg first es c := by
  have hrecords : Kept cfg first (records cfg first) [] := .trace recorded?_eq_none
  have hticks : Kept cfg first (ticks cfg first) [] := .trace sampled?_eq_none
  have hturns := turns_of_run (P := fun kept c => Current cfg kept.1 kept.2 c)
    (hrecords.prod hticks) (fun hat hsampler => .atRepeat hat hsampler) ?_ hstart hrun
  · refine ⟨hturns.current, fun k hlt => Prod.mk.inj (hturns.later k hlt), fun k h hmem => ?_⟩
    obtain ⟨c, load, logicalCpus, hcurrent, hhappened⟩ := hturns.completed k h hmem
    exact hcurrent.own hhappened
  · -- one step of the repeat under way adds what is recorded and what is sampled in it
    intro es c e c' k hes hstep hk hk' hcurrent
    have hadded : records cfg first (es ++ [e]) k =
          records cfg first es k ++ (recorded? k c e).toList ∧
        ticks cfg first (es ++ [e]) k = ticks cfg first es k ++ (sampled? k c e).toList :=
      ⟨Interleaving.trace_append_singleton _ hes hstep,
        Interleaving.trace_append_singleton _ hes hstep⟩
    rw [hadded.1, hadded.2]
    exact hcurrent.step hk (.of_step? hstep) hk'

end Course
end ExchangeBench.Run
