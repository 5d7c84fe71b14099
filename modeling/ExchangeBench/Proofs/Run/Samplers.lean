import ExchangeBench.Proofs.Run.Notes
import ExchangeBench.Proofs.Sampler.Pace

/-!
# The samplers of a run

Every measurement whose source of CPU samples was opened has a sampler of its own, and what this does in
the course of the run is an interleaving of a sampler by itself. So a run can rely on whatever is known
of samplers: how they stop, and how they end.

- `Course.samplings`: the steps of the sampler of a repeat.
- `Course.Observed`: a sampler has come to where its steps lead. Every step of the run keeps it
  (`Observed.step`).
- `Completed.exists_sampler`: the sampler of a repeat, and how it ended.
- `Completed.sampled_within_clock`: which repeats keep their samples.
- `Completed.unsampled_beyond_clock`: an accepted interval between samples that no clock can show.
-/

namespace ExchangeBench.Run

variable {α : Type}

namespace Course

/-! ## The steps of a sampler -/

/-- The step that an event is for the sampler of the repeat `k`. -/
def sampling? (k : Nat) (c : Course α) : Event α → Option (Sampler.Event α)
  | .sample e => if c.position.index? = some k then some e else none
  | .look _ | .source _ | .hire _ _ | .work _ _ | .linger _ _ | .join | .panic _ | .close _ _ => none

theorem sampling?_eq_none {k : Nat} {c : Course α} {e : Event α}
    (h : c.position.index? = some k → e.closes = true) : sampling? k c e = none := by
  cases e with
  | sample e => exact if_neg fun hk => Bool.false_ne_true (h hk)
  | look | source | hire | work | linger | join | panic | close => rfl

theorem sampled?_eq_bind (k : Nat) (c : Course α) (e : Event α) :
    sampled? k c e = (sampling? k c e).bind Sampler.Event.tick? := by
  cases e with
  | sample e => by_cases hk : c.position.index? = some k <;> simp [sampled?, sampling?, hk]
  | look | source | hire | work | linger | join | panic | close => rfl

/-- Whether the source of CPU samples was opened for the repeat under way. -/
def isObserved : Position α → Bool
  | .hiring _ (.measurement _ opening) _ _ | .waiting _ (.measurement _ opening) _ _
  | .closing _ _ opening _ _ _ => opening == .opened
  | .warming _ | .measuring _ _ | .opening .. | .hiring _ .warmup _ _ | .waiting _ .warmup _ _
  | .ended _ => false

variable [Scalar α] {cfg : Config} {first c c' : Course α} {es : List (Event α)} {e : Event α}

/-- The steps of the sampler of the repeat `k`, in order. -/
def samplings (cfg : Config) (first : Course α) (es : List (Event α)) (k : Nat) :
    List (Sampler.Event α) :=
  Interleaving.trace (step? cfg) (sampling? k) first es

theorem ticks_eq (cfg : Config) (first : Course α) (es : List (Event α)) (k : Nat) :
    ticks cfg first es k = (samplings cfg first es k).filterMap Sampler.Event.tick? := by
  rw [samplings, ← Interleaving.trace_bind, ticks]
  congr 1
  funext c e
  exact sampled?_eq_bind k c e

/-- The repeat under way has a sampler if its source was opened, and this has come to where the steps
`ss` lead. -/
structure Observed (cfg : Config) (ss : List (Sampler.Event α)) (c : Course α) : Prop where
  opened : isObserved c.position = c.sampler.isSome
  reached : ∀ s, c.sampler = some s → Sampler.State.start.run? cfg.cpuSampleInterval ss = some s
  idle : c.sampler = none → ss = []

namespace Observed

variable {ss : List (Sampler.Event α)} {k : Nat}

/-- At the head of the loop there is no sampler. -/
theorem atRepeat {p : Progress α} {index : Nat} (hat : c.position = .atRepeat cfg p index)
    (hsampler : c.sampler = none) : Observed cfg [] c := by
  refine ⟨?_, fun s hs => ?_, fun _ => rfl⟩
  · rw [hat, hsampler]
    unfold Position.atRepeat
    split
    · rfl
    · split <;> rfl
  · rw [hsampler] at hs
    cases hs

/-- The orchestrator goes on, and the sampler is not touched. -/
theorem move (h : Observed cfg ss c) (hsampler : c'.sampler = c.sampler)
    (hopened : isObserved c'.position = isObserved c.position) (hquiet : sampling? k c e = none) :
    Observed cfg (ss ++ (sampling? k c e).toList) c' := by
  rw [hquiet, Option.toList_none, List.append_nil]
  refine ⟨?_, ?_, ?_⟩
  · rw [hopened, hsampler, h.opened]
  · rw [hsampler]
    exact h.reached
  · rw [hsampler]
    exact h.idle

/-- **Every step in a repeat leads its sampler on, or leaves it alone.** -/
theorem step (h : Observed cfg ss c) (hk : c.position.index? = some k) (hstep : Step cfg c e c')
    (hk' : c'.position.index? = some k) :
    Observed cfg (ss ++ (sampling? k c e).toList) c' := by
  cases hstep with
  | refuse | unsourced | unhired | unjoined | panic | fail => cases hk'
  | warm hat | measure hat | unsampled hat | warmed hat | measured hat =>
    exact h.move rfl (by rw [hat]; rfl) rfl
  | @hire _ task _ _ _ _ hat | @work _ task _ _ _ _ _ hat =>
    refine h.move rfl ?_ rfl
    rw [hat]
    cases task <;> rfl
  | linger => exact h.move rfl rfl rfl
  | sampled hat =>
    -- there was no sampler before, so nobody has made steps for this repeat
    have hnone : c.sampler = none := by
      have hopened := h.opened
      rw [hat] at hopened
      exact Option.isNone_iff_eq_none.mp (Option.isSome_eq_false_iff.mp hopened.symm)
    rw [h.idle hnone]
    refine ⟨rfl, fun s hs => ?_, fun hno => nomatch hno⟩
    cases hs
    rfl
  | @sample s s' e hsampler hs =>
    have hreached := h.reached s hsampler
    rw [sampling?, if_pos hk, Option.toList_some]
    refine ⟨?_, fun s'' hs'' => ?_, fun hno => nomatch hno⟩
    · rw [h.opened, hsampler]
      rfl
    · cases hs''
      rw [Sampler.State.run?_eq_foldlM] at hreached ⊢
      exact Interleaving.foldlM_append_singleton hreached hs.step?_eq
  | complete hhappened hadvance =>
    -- the next repeat is another one
    have hindex := index?_of_happenings? hhappened
    obtain ⟨hnext, -⟩ := index?_atRepeat hk'
    rw [hk, Option.some.injEq] at hindex
    omega

/-- A repeat with an open source is closed with the exit of its sampler, and one without it has had
none. -/
theorem exit (h : Observed cfg ss c) {load : Except Payload (Option (LoadAverage α))}
    {logicalCpus : Except Payload Nat} {happenings : Happenings α}
    (hhappened : c.happenings? load logicalCpus = some (k, happenings)) :
    if happenings.measurement.opening = .opened then
      ∃ s, Sampler.State.start.run? cfg.cpuSampleInterval ss = some s ∧
        s.exit? = some happenings.measurement.sampler
    else ss = [] := by
  obtain ⟨hopened, hreached, hidle⟩ := h
  unfold happenings? at hhappened
  split at hhappened
  · next index warmup opening start metrics phase exit hat hexit =>
    cases hhappened
    rw [hat, isObserved] at hopened
    dsimp only
    cases hsampler : c.sampler with
    | none =>
      rw [hsampler] at hopened
      rw [if_neg (ne_of_beq_false hopened)]
      exact hidle hsampler
    | some s =>
      rw [hsampler] at hopened
      rw [if_pos (eq_of_beq hopened)]
      rw [exit?, hsampler] at hexit
      exact ⟨s, hreached s hsampler, hexit⟩
  · cases hhappened

end Observed

/-- The sampler of every completed repeat has made an interleaving of its own. -/
theorem observed_of_run {now : Clock.Reading} (hstart : start cfg now = .ok first)
    (hrun : first.run? cfg es = some c) :
    Turns cfg first (samplings cfg first) [] (fun ss c => Observed cfg ss c) es c := by
  refine turns_of_run (.trace sampling?_eq_none) (fun hat hsampler => .atRepeat hat hsampler) ?_
    hstart hrun
  intro es c e c' k hes hstep hk hk' hobserved
  rw [samplings, Interleaving.trace_append_singleton _ hes hstep]
  exact hobserved.step hk (.of_step? hstep) hk'

end Course

/-! ## Completed runs -/

namespace Completed

variable [Scalar α] {cfg : Config}

/-- The steps of the sampler of a repeat, in order. -/
def samplings (run : Completed cfg α) (k : Nat) : List (Sampler.Event α) :=
  Course.samplings cfg run.first run.events k

/-- The readings of the clock by the sampler of a repeat. -/
def readings (run : Completed cfg α) (k : Nat) : List Clock.Reading :=
  (run.samplings k).filterMap Sampler.Event.reading?

/-- The probe of a repeat answers without panicking, and soon enough for its sampler to be waited for. -/
def IsPrompt (run : Completed cfg α) (k : Nat) : Prop :=
  ∀ e ∈ run.samplings k, e.isHitch = false

/-- Whether the sampler of a repeat asks the clock for a moment that it cannot show. -/
def exceedsClock (run : Completed cfg α) (k : Nat) : Bool :=
  Sampler.exceedsClock cfg.cpuSampleInterval (run.samplings k)

/-- The sampler of a repeat, and how it ended. -/
theorem exists_sampler (run : Completed cfg α) {k : Nat} {h : Happenings α} (hk : k ∈ indices cfg)
    (hh : run.happenings? k = some h) :
    if h.measurement.opening = .opened then
      ∃ s, Sampler.State.start.run? cfg.cpuSampleInterval (run.samplings k) = some s ∧
        s.exit? = some h.measurement.sampler
    else run.samplings k = [] := by
  obtain ⟨c, load, logicalCpus, hobserved, hhappened⟩ :=
    (Course.observed_of_run run.started run.ran).completed k h
      (run.mem_of_happenings? (mem_indices.mp hk).1 hh)
  exact hobserved.exit hhappened

/-- How the sampler of a prompt repeat ends. -/
theorem sampler_eq (run : Completed cfg α) {k : Nat} {h : Happenings α} (hk : k ∈ indices cfg)
    (hprompt : run.IsPrompt k) (hh : run.happenings? k = some h)
    (hopened : h.measurement.opening = .opened) :
    h.measurement.sampler =
      if run.exceedsClock k then .lost else .joined (CpuSamples.ofTicks (run.ticks k)) := by
  have hsampler := run.exists_sampler hk hh
  rw [if_pos hopened] at hsampler
  obtain ⟨s, hrun, hexit⟩ := hsampler
  rw [ticks, Course.ticks_eq]
  exact Sampler.State.exit_of_run hrun hprompt hexit

/-- In a prompt repeat the samples do not come just if the clock was asked for too much. -/
theorem isUnobserved_eq (run : Completed cfg α) {k : Nat} (hk : k ∈ indices cfg)
    (hprompt : run.IsPrompt k) : run.isUnobserved k = run.exceedsClock k := by
  obtain ⟨hk1, hkn⟩ := mem_indices.mp hk
  obtain ⟨h, r, hh, -⟩ := run.exists_repeat hk1 hkn
  have hsampler := run.exists_sampler hk hh
  rw [isUnobserved, hh, Option.any_some]
  unfold Measurement.isUnobserved
  by_cases hopened : h.measurement.opening = .opened
  · rw [hopened, run.sampler_eq hk hprompt hh hopened]
    cases run.exceedsClock k <;> rfl
  · rw [if_neg hopened] at hsampler
    have hno : run.exceedsClock k = false := by
      rw [exceedsClock, hsampler]
      rfl
    rw [hno]
    cases hopening : h.measurement.opening with
    | opened => exact absurd hopening hopened
    | unavailable | unspawned | panicked => rfl

/-- The note on samplers lists the prompt repeats whose sampler asked the clock for too much. -/
theorem mem_notes_iff (run : Completed cfg α) (hprompt : ∀ k ∈ indices cfg, run.IsPrompt k)
    (secs : Nat) (ks : List Nat) :
    Note.samplerUnobserved secs ks ∈ run.outcome.notes ↔
      secs = Sampler.joinTimeout.secs ∧ ks = (indices cfg).filter run.exceedsClock ∧ ks ≠ [] := by
  have hfilter : (indices cfg).filter run.isUnobserved = (indices cfg).filter run.exceedsClock :=
    List.filter_congr fun k hk => run.isUnobserved_eq hk (hprompt k hk)
  simp only [run.notes_eq, hfilter, List.mem_append, List.mem_ite_nil_left, List.mem_ite_nil_right,
    List.mem_singleton, reduceCtorEq, and_false, false_or, or_false, Note.samplerUnobserved.injEq]
  constructor
  · rintro ⟨hsome, rfl, rfl⟩
    exact ⟨rfl, rfl, hsome⟩
  · rintro ⟨rfl, rfl, hsome⟩
    exact ⟨hsome, rfl, rfl⟩

/-! ## One tick, and an interval without end -/

namespace OneTick

/-- One repeat, with samples at some interval. -/
def config (interval : Duration) : Config := ⟨1, .ofSecs 1, .zero, 1, default, interval, 5⟩

def first : Course Float := ⟨⟨[], false, []⟩, .measuring 1 none, none, []⟩

/-- The sampler takes a sample before the phase ends, and hands it over. -/
def events : List (Course.Event Float) :=
  [.look 0, .source .opened, .hire 1 none, .sample (.begin 0), .sample .check,
    .sample (.look 500000000), .sample (.probe (some ⟨some 40, none⟩)), .work 0 (.look 1000000000),
    .join, .sample .raise, .sample .unpark, .sample .check, .sample .send, .sample .receive]

/-- The sampler asks the clock for its first sample, and dies. -/
def endless : List (Course.Event Float) :=
  [.look 0, .source .opened, .hire 1 none, .sample (.begin 0), .work 0 (.look 1000000000), .join,
    .sample .raise, .sample .unpark, .sample .receive]

/-- What has happened when the sampler has ended. -/
def happenings (exit : Sampler.Exit Float) : Happenings Float :=
  ⟨⟨0, .ok ()⟩, ⟨0, .opened, Metrics.ofRecords 5 [], .ok (), exit, .ok none, .ok 1⟩⟩

def samples : CpuSamples Float := CpuSamples.push ⟨[], []⟩ ⟨some 40, none⟩

theorem mem_indices {interval : Duration} {k : Nat} (hk : k ∈ indices (config interval)) : k = 1 :=
  List.mem_singleton.mp hk

/-- A run of one repeat, from its events and how its sampler has ended. -/
theorem exists_run {interval : Duration} {es : List (Course.Event Float)}
    (exit : Sampler.Exit Float) {state : SamplerState} {opened : Option (CpuSamples Float)}
    (hstart : Course.start (config interval) 0 = .ok first) {c : Course Float}
    (hrun : first.run? (config interval) es = some c)
    (hhappened : c.happenings? (.ok none) (.ok 1) = some (1, happenings exit))
    (hsampled : RepeatResult.samplesOf exit .opened = .ok (opened, state)) :
    ∃ run : Completed (config interval) Float, run.now = 0 ∧
      run.happenings? 1 = some (happenings exit) ∧
      run.samplings 1 = Course.samplings (config interval) first es 1 := by
  have hdeadline : Clock.deadline 0 (.ofSecs 1) "duration" = .ok 1000000000 := rfl
  obtain ⟨result, hresult⟩ :
      ∃ r, RepeatResult.ofHappenings (config interval) 1 (happenings exit) = .ok (r, state) :=
    RepeatResult.exists_of_happenings 1 (fun hno => nomatch hno) hdeadline hsampled rfl rfl rfl
  obtain ⟨run, hnow, hfirst, -, hhappened', hkept⟩ :=
    exists_run_of_close hstart hrun hhappened rfl hresult
  refine ⟨run, hnow, hhappened', ?_⟩
  rw [Completed.samplings, hfirst]
  exact hkept (.trace Course.sampling?_eq_none) 1

end OneTick

/-- **Which repeats keep their samples.** In a completed run whose probes answer promptly and without
panicking, every repeat with an open source of CPU samples has those of all ticks of its sampler, unless
this asked the clock for a moment beyond its end; then it has none. That depends on the interval between
samples: it is never so if the clock reaches an interval beyond each reading of the sampler, and it is
always so if it reaches an interval beyond none. The notes hold one on samplers just if that was so in
some repeat, and it lists these repeats. -/
theorem sampled_within_clock (run : Completed cfg α)
    (hprompt : ∀ k ∈ indices cfg, run.IsPrompt k) :
    (∀ k ∈ indices cfg, ∀ h r, run.happenings? k = some h →
      run.outcome.repeats[k - 1]? = some r → h.measurement.opening = .opened →
      let samples := CpuSamples.ofTicks (run.ticks k)
      h.measurement.sampler = (if run.exceedsClock k then .lost else .joined samples) ∧
      (∃ load logicalCpus, r.cpu = CpuSummary.ofSamples
        (some (if run.exceedsClock k then CpuSamples.empty else samples)) cfg.cpuSampleInterval
        load logicalCpus) ∧
      ((∀ now ∈ run.readings k, now + cfg.cpuSampleInterval.nanos < Clock.limit) →
        run.exceedsClock k = false) ∧
      ((∀ now ∈ run.readings k, Clock.limit ≤ now + cfg.cpuSampleInterval.nanos) →
        run.exceedsClock k = true)) ∧
    ∀ secs ks, Note.samplerUnobserved secs ks ∈ run.outcome.notes ↔
      secs = Sampler.joinTimeout.secs ∧ ks = (indices cfg).filter run.exceedsClock ∧ ks ≠ [] := by
  refine ⟨fun k hk h r hh hr hopened => ?_, run.mem_notes_iff hprompt⟩
  have hsampler := run.sampler_eq hk (hprompt k hk) hh hopened
  have hexists := run.exists_sampler hk hh
  rw [if_pos hopened] at hexists
  obtain ⟨s, hrun, hexit⟩ := hexists
  obtain ⟨hnear, hfar⟩ :=
    Sampler.State.exceedsClock_of_readings hrun (hprompt k hk) hexit
  refine ⟨hsampler, ?_, hnear, hfar⟩
  obtain ⟨h', samples, state, hh', hparts, -⟩ := run.consists hk hr
  obtain rfl : h' = h := Option.some.inj (hh'.symm.trans hh)
  obtain ⟨load, logicalCpus, -, -, hcpu⟩ := hparts.cpu
  refine ⟨load, logicalCpus, ?_⟩
  rw [hcpu]
  congr 1
  have hsampled := hparts.sampled
  rw [hopened, hsampler] at hsampled
  cases hexceeds : run.exceedsClock k with
  | true =>
    rw [hexceeds] at hsampled
    cases hsampled
    rfl
  | false =>
    rw [hexceeds] at hsampled
    cases hsampled
    rfl

/-- One repeat with one tick: its sampler hands it over, and there is nothing to remark. -/
theorem sampled_within_clock_of_one :
    ∃ (run : Completed (OneTick.config (.ofMillis 500)) Float) (h : Happenings Float)
      (samples : CpuSamples Float),
      (∀ k ∈ indices (OneTick.config (.ofMillis 500)), run.IsPrompt k) ∧
      run.happenings? 1 = some h ∧ h.measurement.opening = .opened ∧
      h.measurement.sampler = .joined samples ∧ samples.system = [40] ∧
      ∀ secs ks, .samplerUnobserved secs ks ∉ run.outcome.notes := by
  have hrun : OneTick.first.run? (OneTick.config (.ofMillis 500)) OneTick.events = some _ := rfl
  obtain ⟨run, -, hhappened, hsamplings⟩ :=
    OneTick.exists_run (.joined OneTick.samples) rfl hrun rfl rfl
  have hprompt : ∀ k ∈ indices (OneTick.config (.ofMillis 500)), run.IsPrompt k := by
    intro k hk
    rw [OneTick.mem_indices hk, IsPrompt, hsamplings]
    decide
  obtain ⟨hrepeats, hnotes⟩ := sampled_within_clock run hprompt
  obtain ⟨h, r, hh, hr, -⟩ := run.exists_repeat (Nat.le_refl 1) (Nat.le_refl 1)
  obtain rfl : h = OneTick.happenings _ := Option.some.inj (hh.symm.trans hhappened)
  obtain ⟨hsampler, -, hnear, -⟩ := hrepeats 1 (by decide) _ r hh hr rfl
  have hwithin : run.exceedsClock 1 = false := by
    apply hnear
    rw [readings, hsamplings]
    decide
  refine ⟨run, _, _, hprompt, hhappened, rfl, rfl, by decide, fun secs ks hno => ?_⟩
  obtain ⟨-, rfl, hsome⟩ := (hnotes secs ks).mp hno
  refine hsome (List.filter_eq_nil_iff.mpr fun k hk => ?_)
  rw [OneTick.mem_indices hk, hwithin]
  exact Bool.false_ne_true

/-- **An accepted interval that no clock can show**: the sampler dies at its first look at the clock,
although the probe would answer, and the note tells of a sampler that did not stop. -/
theorem unsampled_beyond_clock :
    let cfg := OneTick.config (.ofSecs 9223372036854775808)
    cfg.validate 0 = .ok () ∧
    ∃ (run : Completed cfg Float) (h : Happenings Float),
      run.now = 0 ∧ (∀ k ∈ indices cfg, run.IsPrompt k) ∧ run.happenings? 1 = some h ∧
      h.measurement.opening = .opened ∧ h.measurement.sampler = .lost ∧
      .samplerUnobserved 2 [1] ∈ run.outcome.notes := by
  intro cfg
  have hrun : OneTick.first.run? cfg OneTick.endless = some _ := rfl
  obtain ⟨run, hnow, hhappened, hsamplings⟩ := OneTick.exists_run .lost rfl hrun rfl rfl
  have hprompt : ∀ k ∈ indices cfg, run.IsPrompt k := by
    intro k hk
    rw [OneTick.mem_indices hk, IsPrompt, hsamplings]
    decide
  refine ⟨rfl, run, _, hnow, hprompt, hhappened, rfl, rfl, ?_⟩
  have hbeyond : run.exceedsClock 1 = true := by
    rw [exceedsClock, hsamplings]
    decide
  refine (run.mem_notes_iff hprompt 2 [1]).mpr ⟨rfl, ?_, List.cons_ne_nil _ _⟩
  have hindices : indices cfg = [1] := rfl
  rw [hindices, List.filter_singleton, hbeyond]
  rfl

end Completed
end ExchangeBench.Run
