import ExchangeBench.Benchmark
import ExchangeBench.Proofs.Interleaving
import ExchangeBench.Proofs.Report.Internal
import ExchangeBench.Proofs.Run.Completed

/-!
# When a benchmark leaves a report

A benchmark whose configuration is refused does nothing else. Any other lets its run begin, and makes
a report of it when it has ended, with a result for every repeat that was asked for: those of the run,
or zeros and the failure that ended it. There are two exceptions, and they are the only ones: a panic
whose payload panics again when it is discarded, and a number of repeats that no buffer can hold.

- `Benchmark.courseAfter?`, `Benchmark.endingAfter?`: where a run stands after some events.
- `Benchmark.Conducted`: a benchmark whose run has ended, and `Conducted.result`, what it leaves.
- `Benchmark.History`: what can have happened in a benchmark. `Benchmark.run?_eq_some_iff` says that it
  is just this.
- `Benchmark.report_of_run`: what is left of every benchmark that is finished.
- `Benchmark.no_report_of_repeats`: one that leaves nothing.
-/

namespace ExchangeBench.Benchmark

variable {header : ReportHeader} {cfg : Config}

/-! ## The run of a benchmark -/

/-- Where a run that begins at a moment stands after some events, if it could begin at all. -/
def courseAfter? (cfg : Config) (now : Clock.Reading) (es : List (Run.Course.Event Float)) :
    Option (Except Interruption (Run.Course Float)) :=
  match Run.Course.start cfg now with
  | .error i => if es.isEmpty then some (.error i) else none
  | .ok first => (first.run? cfg es).map .ok

/-- How a run that begins at a moment has ended after some events, if it has. -/
def endingAfter? (cfg : Config) (now : Clock.Reading) (es : List (Run.Course.Event Float)) :
    Option (Except Interruption (RunOutcome Float)) :=
  (courseAfter? cfg now es).bind ending?

theorem courseAfter?_nil (now : Clock.Reading) :
    courseAfter? cfg now [] = some (Run.Course.start cfg now) := by
  unfold courseAfter?
  cases (Run.Course.start cfg now : Except Interruption (Run.Course Float)) with
  | error i => rfl
  | ok first => rfl

/-- A run that is under way has begun, and has come to where it is. -/
theorem courseAfter?_eq_ok_iff {now : Clock.Reading} {es : List (Run.Course.Event Float)}
    {c : Run.Course Float} : courseAfter? cfg now es = some (.ok c) ↔
      ∃ first, Run.Course.start cfg now = .ok first ∧ first.run? cfg es = some c := by
  unfold courseAfter?
  cases (Run.Course.start cfg now : Except Interruption (Run.Course Float)) with
  | error i =>
    simp only [Option.ite_none_right_eq_some, Option.some.injEq]
    constructor
    · rintro ⟨-, h⟩
      cases h
    · rintro ⟨first, h, -⟩
      cases h
  | ok first =>
    simp only [Option.map_eq_some_iff, Except.ok.injEq, exists_eq_right, exists_eq_left']

theorem courseAfter?_append_singleton {now : Clock.Reading} {es : List (Run.Course.Event Float)}
    {c c' : Run.Course Float} {e : Run.Course.Event Float}
    (hafter : courseAfter? cfg now es = some (.ok c)) (hstep : c.step? cfg e = some c') :
    courseAfter? cfg now (es ++ [e]) = some (.ok c') := by
  obtain ⟨first, hstart, hrun⟩ := courseAfter?_eq_ok_iff.mp hafter
  exact courseAfter?_eq_ok_iff.mpr
    ⟨first, hstart, Interleaving.foldlM_append_singleton hrun hstep⟩

/-- A run that has ended with an outcome is one that completes. -/
theorem exists_completed {now : Clock.Reading} {es : List (Run.Course.Event Float)}
    {outcome : RunOutcome Float} (hending : endingAfter? cfg now es = some (.ok outcome)) :
    ∃ run : Run.Completed cfg Float, run.outcome = outcome := by
  obtain ⟨course, hafter, hended⟩ := Option.bind_eq_some_iff.mp hending
  cases course with
  | error i => cases hended
  | ok last =>
    obtain ⟨first, hstart, hrun⟩ := courseAfter?_eq_ok_iff.mp hafter
    unfold ending? at hended
    cases hposition : last.position with
    | ended ending =>
      simp only [hposition, Option.some.injEq] at hended
      exact ⟨⟨now, first, es, last, outcome, hstart, hrun, hposition.trans (hended ▸ rfl)⟩, rfl⟩
    | warming | measuring | opening | hiring | waiting | closing =>
      simp only [hposition] at hended
      cases hended

/-! ## What a conducted benchmark leaves -/

/-- A benchmark whose configuration was accepted and whose run has ended. -/
structure Conducted (cfg : Config) where
  /-- When the configuration is checked. -/
  checked : Clock.Reading
  environment : Environment
  /-- When the run begins. -/
  started : Clock.Reading
  happened : List (Run.Course.Event Float)
  ending : Except Interruption (RunOutcome Float)
  timestampUtc : String
  accepted : cfg.validate checked = .ok ()
  ended : endingAfter? cfg started happened = some ending

namespace Conducted

/-- All that happens in it. -/
def events (b : Conducted cfg) : List Event :=
  .check b.checked :: .start b.environment b.started ::
    (b.happened.map .run ++ [.report b.timestampUtc])

/-- What it leaves. -/
def result (b : Conducted cfg) (header : ReportHeader) : Except Interruption Report :=
  Report.ofRun header cfg b.environment b.timestampUtc b.checked b.ending

theorem result_of_ok {b : Conducted cfg} {outcome : RunOutcome Float}
    (hending : b.ending = .ok outcome) : b.result header =
      .ok (Report.ofOutcome header cfg b.environment b.timestampUtc outcome) := by
  unfold result Report.ofRun
  rw [b.accepted, hending]

theorem result_of_error {b : Conducted cfg} {i : Interruption} (hending : b.ending = .error i) :
    b.result header = RepeatResult.orPanic
      (Report.ofInterruption header cfg b.environment b.timestampUtc i) := by
  unfold result Report.ofRun
  rw [b.accepted, hending]

theorem result_of_error_eq_ok_iff {b : Conducted cfg} {i : Interruption} {r : Report}
    (hending : b.ending = .error i) :
    b.result header = .ok r ↔ Run.canReserve cfg.repeats.toNat = true ∧ i.Inert ∧
      r = Report.internal header cfg b.environment b.timestampUtc (Report.failureOf i).key := by
  rw [result_of_error hending, ← Report.ofInterruption_eq_ok_iff]
  exact ⟨RepeatResult.orPanic_eq_ok, fun h => by rw [h]; rfl⟩

/-- The only errors are those of the check. -/
theorem result_ne_error (b : Conducted cfg) (e : BenchError) :
    b.result header ≠ .error (.error e) := by
  intro h
  cases hending : b.ending with
  | ok outcome =>
    rw [result_of_ok hending] at h
    cases h
  | error i =>
    rw [result_of_error hending] at h
    cases hreport : Report.ofInterruption header cfg b.environment b.timestampUtc i with
    | ok r =>
      rw [hreport] at h
      cases h
    | error p =>
      rw [hreport] at h
      cases h

/-- **When there is a report**: a run that did not complete leaves one if its panic can be discarded
and the repeats can be held. -/
theorem exists_report_iff (b : Conducted cfg) (header : ReportHeader) :
    (∃ r, b.result header = .ok r) ↔
      Run.canReserve cfg.repeats.toNat = true ∧ ∀ i, b.ending = .error i → i.Inert := by
  cases hending : b.ending with
  | ok outcome =>
    obtain ⟨run, -⟩ := exists_completed (hending ▸ b.ended)
    obtain ⟨-, hroom, -⟩ := Run.Progress.start_eq_ok (Run.Course.start_eq_ok run.started).1
    rw [result_of_ok hending]
    exact ⟨fun _ => ⟨hroom, fun i hi => nomatch hi⟩, fun _ => ⟨_, rfl⟩⟩
  | error i =>
    constructor
    · rintro ⟨r, hr⟩
      obtain ⟨hroom, hinert, -⟩ := (result_of_error_eq_ok_iff hending).mp hr
      exact ⟨hroom, fun j hj => Except.error.inj hj ▸ hinert⟩
    · rintro ⟨hroom, hinert⟩
      exact ⟨_, (result_of_error_eq_ok_iff hending).mpr ⟨hroom, hinert i rfl, rfl⟩⟩

/-- **A report is complete**, however the run has ended. -/
theorem complete {b : Conducted cfg} {r : Report} (h : b.result header = .ok r) :
    r.Complete header cfg := by
  cases hending : b.ending with
  | ok outcome =>
    obtain ⟨run, rfl⟩ := exists_completed (hending ▸ b.ended)
    rw [result_of_ok hending] at h
    cases h
    exact Report.complete_of_map_index rfl rfl run.map_index
  | error i =>
    obtain ⟨-, -, rfl⟩ := (result_of_error_eq_ok_iff hending).mp h
    exact Report.complete_internal _

theorem failed {b : Conducted cfg} {r : Report} (h : b.result header = .ok r) {i : Interruption}
    (hending : b.ending = .error i) : r.Failed (Report.failureOf i).key := by
  obtain ⟨-, -, rfl⟩ := (result_of_error_eq_ok_iff hending).mp h
  exact Report.failed_internal _

/-- Apart from host and time, the report of a failed run depends on its failure alone. -/
theorem onHost_eq {b b' : Conducted cfg} {i i' : Interruption} {r r' : Report}
    (hending : b.ending = .error i) (hending' : b'.ending = .error i')
    (hkey : (Report.failureOf i).key = (Report.failureOf i').key) (h : b.result header = .ok r)
    (h' : b'.result header = .ok r') (environment : Environment) (timestampUtc : String) :
    r.onHost environment timestampUtc = r'.onHost environment timestampUtc := by
  obtain ⟨-, -, rfl⟩ := (result_of_error_eq_ok_iff hending).mp h
  obtain ⟨-, -, rfl⟩ := (result_of_error_eq_ok_iff hending').mp h'
  rw [Report.onHost_internal, Report.onHost_internal, hkey]

end Conducted

/-! ## What can have happened -/

/-- What can have happened in a benchmark, by where it stands. -/
inductive History (header : ReportHeader) (cfg : Config) : List Event → Benchmark → Prop
  | checking : History header cfg [] .checking
  | refused {now : Clock.Reading} {e : BenchError} (hrefused : cfg.validate now = .error e) :
      History header cfg [.check now] (.finished (.error (.error e)))
  | accepted {now : Clock.Reading} (haccepted : cfg.validate now = .ok ()) :
      History header cfg [.check now] (.accepted now)
  | running {now now' : Clock.Reading} {environment : Environment}
      {es : List (Run.Course.Event Float)} {course : Except Interruption (Run.Course Float)}
      (haccepted : cfg.validate now = .ok ()) (hafter : courseAfter? cfg now' es = some course) :
      History header cfg (.check now :: .start environment now' :: es.map .run)
        (.running now environment course)
  | conducted (b : Conducted cfg) : History header cfg b.events (.finished (b.result header))

theorem step?_check_of_error {now : Clock.Reading} {e : BenchError}
    (hrefused : cfg.validate now = .error e) :
    step? header cfg .checking (.check now) = some (.finished (.error (.error e))) := by
  unfold step?
  simp only [hrefused]

theorem step?_check_of_ok {now : Clock.Reading} (haccepted : cfg.validate now = .ok ()) :
    step? header cfg .checking (.check now) = some (.accepted now) := by
  unfold step?
  simp only [haccepted]

theorem step?_report (now : Clock.Reading) (environment : Environment)
    (course : Except Interruption (Run.Course Float)) (timestampUtc : String) :
    step? header cfg (.running now environment course) (.report timestampUtc) =
      (ending? course).map fun ending =>
        .finished (Report.ofRun header cfg environment timestampUtc now ending) := by
  cases course with
  | error i => rfl
  | ok course =>
    unfold step?
    cases hending : ending? (.ok course) with
    | none => simp only [hending, Option.map_none]
    | some ending => simp only [hending, Option.map_some]

/-- While its run is under way, a benchmark goes on with it, or reports how it has ended. -/
theorem History.step_of_running {now now' : Clock.Reading} {environment : Environment}
    {es : List (Run.Course.Event Float)} {course : Except Interruption (Run.Course Float)}
    {b : Benchmark} {e : Event} (haccepted : cfg.validate now = .ok ())
    (hafter : courseAfter? cfg now' es = some course)
    (hstep : step? header cfg (.running now environment course) e = some b) :
    History header cfg (.check now :: .start environment now' :: es.map .run ++ [e]) b := by
  cases e with
  | check | start => cases course <;> cases hstep
  | run e =>
    cases course with
    | error i => cases hstep
    | ok c =>
      unfold step? at hstep
      cases hc : c.step? cfg e with
      | none =>
        simp only [hc] at hstep
        cases hstep
      | some c' =>
        simp only [hc, Option.some.injEq] at hstep
        have hlonger : History header cfg
            (.check now :: .start environment now' :: (es ++ [e]).map .run)
            (.running now environment (.ok c')) :=
          .running haccepted (courseAfter?_append_singleton hafter hc)
        rw [List.map_append] at hlonger
        exact hstep ▸ hlonger
  | report timestampUtc =>
    rw [step?_report] at hstep
    obtain ⟨ending, hending, rfl⟩ := Option.map_eq_some_iff.mp hstep
    have hended : endingAfter? cfg now' es = some ending := by
      rw [endingAfter?, hafter]
      exact hending
    exact .conducted ⟨now, environment, now', es, ending, timestampUtc, haccepted, hended⟩

/-- One event more. -/
theorem History.step {es : List Event} {b b' : Benchmark} {e : Event}
    (h : History header cfg es b) (hstep : step? header cfg b e = some b') :
    History header cfg (es ++ [e]) b' := by
  cases h with
  | checking =>
    cases e with
    | check now =>
      cases hvalid : cfg.validate now with
      | error e =>
        rw [step?_check_of_error hvalid] at hstep
        cases hstep
        exact .refused hvalid
      | ok =>
        rw [step?_check_of_ok hvalid] at hstep
        cases hstep
        exact .accepted hvalid
    | start | run | report => cases hstep
  | refused => cases hstep
  | accepted haccepted =>
    cases e with
    | start environment now' =>
      cases hstep
      show History header cfg (.check _ :: .start environment now' :: [].map .run) _
      exact .running haccepted (courseAfter?_nil now')
    | check | run | report => cases hstep
  | running haccepted hafter => exact step_of_running haccepted hafter hstep
  | conducted => cases hstep

/-- While a run is under way, what happens in the benchmark is what happens in the run. -/
theorem run?_map_run {c c' : Run.Course Float} (now : Clock.Reading) (environment : Environment)
    {es : List (Run.Course.Event Float)} (hrun : c.run? cfg es = some c') :
    run? header cfg (.running now environment (.ok c)) (es.map .run) =
      some (.running now environment (.ok c')) := by
  induction es generalizing c with
  | nil =>
    cases hrun
    rfl
  | cons e es ih =>
    rw [Run.Course.run?, List.foldlM_cons] at hrun
    obtain ⟨c₁, hstep, hrest⟩ := Option.bind_eq_some_iff.mp hrun
    have hfirst : step? header cfg (.running now environment (.ok c)) (.run e) =
        some (.running now environment (.ok c₁)) := by
      unfold step?
      simp only [hstep]
    rw [run?, List.map_cons, List.foldlM_cons, hfirst]
    exact ih hrest

theorem run?_running {now now' : Clock.Reading} {environment : Environment}
    {es : List (Run.Course.Event Float)} {course : Except Interruption (Run.Course Float)}
    (haccepted : cfg.validate now = .ok ()) (hafter : courseAfter? cfg now' es = some course) :
    run? header cfg .checking (.check now :: .start environment now' :: es.map .run) =
      some (.running now environment course) := by
  rw [run?, List.foldlM_cons, step?_check_of_ok haccepted]
  show run? header cfg (.running now environment (Run.Course.start cfg now')) (es.map .run) = _
  unfold courseAfter? at hafter
  cases hstart : (Run.Course.start cfg now' : Except Interruption (Run.Course Float)) with
  | error i =>
    rw [hstart] at hafter
    simp only [Option.ite_none_right_eq_some, Option.some.injEq, List.isEmpty_iff] at hafter
    obtain ⟨rfl, rfl⟩ := hafter
    rfl
  | ok first =>
    rw [hstart] at hafter
    obtain ⟨c, hrun, rfl⟩ := Option.map_eq_some_iff.mp hafter
    exact run?_map_run now environment hrun

/-- **What can have happened** in a benchmark that stands somewhere. -/
theorem run?_eq_some_iff {es : List Event} {b : Benchmark} :
    run? header cfg .checking es = some b ↔ History header cfg es b := by
  constructor
  · exact Interleaving.induction .checking fun _ h hstep => h.step hstep
  · intro h
    cases h with
    | checking => rfl
    | refused hrefused =>
      rw [run?, List.foldlM_cons, step?_check_of_error hrefused]
      rfl
    | accepted haccepted =>
      rw [run?, List.foldlM_cons, step?_check_of_ok haccepted]
      rfl
    | running haccepted hafter => exact run?_running haccepted hafter
    | conducted b =>
      obtain ⟨course, hafter, hending⟩ := Option.bind_eq_some_iff.mp b.ended
      refine Interleaving.foldlM_append_singleton (run?_running b.accepted hafter) ?_
      rw [step?_report, hending]
      rfl

/-- A finished benchmark was refused, or it was conducted. -/
theorem finished_of_run? {es : List Event} {result : Except Interruption Report}
    (h : run? header cfg .checking es = some (.finished result)) :
    (∃ now e, es = [.check now] ∧ cfg.validate now = .error e ∧ result = .error (.error e)) ∨
      ∃ b : Conducted cfg, es = b.events ∧ result = b.result header := by
  generalize hb : Benchmark.finished result = b at h
  cases run?_eq_some_iff.mp h with
  | checking | accepted | running => cases hb
  | refused hrefused =>
    cases hb
    exact .inl ⟨_, _, rfl, hrefused, rfl⟩
  | conducted b =>
    cases hb
    exact .inr ⟨b, rfl, rfl⟩

/-! ## A run that is cut short -/

namespace CutShort

/-- Two repeats. -/
def config : Config := ⟨1, .ofSecs 2, .ofSecs 0, 2, default, Config.defaultCpuSampleInterval, 1⟩

/-- Why the second one does not complete. -/
def panic : Interruption := .panic (.text "no counters")

def happenings : Happenings Float :=
  ⟨⟨0, .ok ()⟩, ⟨0, .unavailable, Metrics.empty, .ok (), .lost, .ok none, .ok 4⟩⟩

def first : Run.Course Float := ⟨⟨[], false, []⟩, .measuring 1 none, none, []⟩

/-- All that happens in the first repeat, until it is closed. -/
def events : List (Run.Course.Event Float) :=
  [.look 0, .source .unavailable, .hire 1 none, .work 0 (.look 2000000000), .join]

def closing : Run.Course Float :=
  ⟨⟨[], false, []⟩, .closing 1 none .unavailable 0 Metrics.empty (.ok ()), none, []⟩

/-- What happens then: the source of CPU samples panics in the second repeat. -/
def events' : List (Run.Course.Event Float) :=
  [.look 2000000000, .source (.panicked (.text "no counters"))]

theorem run?_events : first.run? config events = some closing := rfl

theorem run?_events' (p : Run.Progress Float) :
    (⟨p, .measuring 2 none, none, []⟩ : Run.Course Float).run? config events' =
      some ⟨p, .ended (.error panic), none, []⟩ := rfl

theorem validate_config : config.validate 0 = .ok () := by decide

theorem endingAfter?_events :
    endingAfter? config 0 (events ++ [.close (.ok none) (.ok 4)] ++ events') =
      some (.error panic) := by
  have hstart : Run.Course.start config 0 = .ok first :=
    Run.Course.start_of_validate validate_config (by decide)
  have hdeadline : Clock.deadline 0 (.ofSecs 2) "duration" = .ok 2000000000 := rfl
  obtain ⟨result, hresult⟩ :
      ∃ r, RepeatResult.ofHappenings config 1 happenings = .ok (r, .unavailable) :=
    RepeatResult.exists_of_happenings 1 (fun hwarmup => nomatch hwarmup) hdeadline rfl rfl rfl rfl
  have hclosed : first.run? config (events ++ [.close (.ok none) (.ok 4)]) =
      some ⟨⟨[result], true, []⟩, .measuring 2 none, none, []⟩ :=
    Interleaving.foldlM_append_singleton run?_events (Run.Course.step?_close rfl hresult)
  have hcut : first.run? config (events ++ [.close (.ok none) (.ok 4)] ++ events') =
      some ⟨⟨[result], true, []⟩, .ended (.error panic), none, []⟩ := by
    rw [Run.Course.run?, List.foldlM_append]
    exact (congrArg (Option.bind · _) hclosed).trans (run?_events' _)
  rw [endingAfter?, courseAfter?_eq_ok_iff.mpr ⟨first, hstart, hcut⟩]
  rfl

/-- More workers than their handles have room for. -/
def crowded : Config := { config with concurrency := 384307168202282326 }

/-- No worker of the first phase is started. -/
theorem endingAfter?_crowded :
    endingAfter? crowded 0 [.look 0, .source .unavailable, .hire 0 none] =
      some (.error (.panic (.text "capacity overflow"))) := by
  have hstart : Run.Course.start crowded 0 = .ok first :=
    Run.Course.start_of_validate (by decide) (by decide)
  have hended : first.run? crowded [.look 0, .source .unavailable, .hire 0 none] =
      some ⟨⟨[], false, []⟩, .ended (.error (.panic (.text "capacity overflow"))), none, []⟩ := rfl
  rw [endingAfter?, courseAfter?_eq_ok_iff.mpr ⟨first, hstart, hended⟩]
  rfl

/-- What happens when the panic of an attempt goes on twice: once it ends the worker, and once it ends
the phase. -/
def bursting : List (Run.Course.Event Float) :=
  [.look 0, .source .unavailable, .hire 1 none, .work 0 (.look 0),
    .work 0 (.prepare (.panicked (.volatile (.volatile (.text "twice"))))), .join]

theorem endingAfter?_bursting :
    endingAfter? config 0 bursting = some (.error (.panic (.text "twice"))) := by
  have hstart : Run.Course.start config 0 = .ok first :=
    Run.Course.start_of_validate validate_config (by decide)
  have hended : first.run? config bursting =
      some ⟨⟨[], false, []⟩, .ended (.error (.panic (.text "twice"))), none, []⟩ := rfl
  rw [endingAfter?, courseAfter?_eq_ok_iff.mpr ⟨first, hstart, hended⟩]
  rfl

/-- A benchmark can be accepted and end in a panic with a text, and leave a report on that. -/
def Reported (header : ReportHeader) (cfg : Config) (message : String) : Prop :=
  ∃ b : Conducted cfg, cfg.validate b.checked = .ok () ∧
    b.ending = .error (.panic (.text message)) ∧
    ∃ r, run? header cfg .checking b.events = some (.finished (.ok r)) ∧
      r.Complete header cfg ∧ r.Failed (Failure.key ⟨.panic, message⟩)

end CutShort

/-! ## What is left of a benchmark -/

/-- **What a benchmark leaves.** An error is left just by a check that refuses the configuration, and
then nothing else has happened. Any other finished benchmark was conducted: its run has ended in
some way. Then it leaves a report, unless the run did not complete and either its panic goes on when it
is discarded or the repeats cannot be held. The report is complete; that of a failed run holds nothing
but its failure, and is the same for all runs with this failure, apart from host and time. -/
theorem report_of_run (header : ReportHeader) (cfg : Config) :
    (∀ es e, run? header cfg .checking es = some (.finished (.error (.error e))) ↔
      ∃ now, es = [.check now] ∧ cfg.validate now = .error e) ∧
    (∀ es result, run? header cfg .checking es = some (.finished result) →
      (∃ e, result = .error (.error e)) ∨ ∃ b : Conducted cfg, es = b.events) ∧
    (∀ b : Conducted cfg, ∃ result, run? header cfg .checking b.events = some (.finished result) ∧
      ((∃ r, result = .ok r) ↔
        Run.canReserve cfg.repeats.toNat = true ∧ ∀ i, b.ending = .error i → i.Inert) ∧
      ∀ r, result = .ok r → r.Complete header cfg ∧
        ∀ i, b.ending = .error i → r.Failed (Report.failureOf i).key) ∧
    ∀ (b b' : Conducted cfg) (i i' : Interruption) (r r' : Report),
      b.ending = .error i → b'.ending = .error i' →
      (Report.failureOf i).key = (Report.failureOf i').key →
      run? header cfg .checking b.events = some (.finished (.ok r)) →
      run? header cfg .checking b'.events = some (.finished (.ok r')) →
      ∀ environment timestampUtc,
        r.onHost environment timestampUtc = r'.onHost environment timestampUtc := by
  have hconducted : ∀ b : Conducted cfg,
      run? header cfg .checking b.events = some (.finished (b.result header)) :=
    fun b => run?_eq_some_iff.mpr (.conducted b)
  have hresult : ∀ (b : Conducted cfg) (r : Report),
      run? header cfg .checking b.events = some (.finished (.ok r)) → b.result header = .ok r := by
    intro b r h
    exact Benchmark.finished.inj (Option.some.inj ((hconducted b).symm.trans h))
  refine ⟨fun es e => ⟨fun h => ?_, ?_⟩, fun es result h => ?_,
    fun b => ⟨b.result header, hconducted b, b.exists_report_iff header, fun r hr =>
      ⟨Conducted.complete hr, fun i hi => Conducted.failed hr hi⟩⟩,
    fun b b' i i' r r' hi hi' hkey hr hr' =>
      Conducted.onHost_eq hi hi' hkey (hresult b r hr) (hresult b' r' hr')⟩
  · rcases finished_of_run? h with ⟨now, e', rfl, hrefused, he⟩ | ⟨b, rfl, hb⟩
    · cases he
      exact ⟨now, rfl, hrefused⟩
    · exact absurd hb.symm (b.result_ne_error e)
  · rintro ⟨now, rfl, hrefused⟩
    exact run?_eq_some_iff.mpr (.refused hrefused)
  · rcases finished_of_run? h with ⟨now, e, -, -, he⟩ | ⟨b, hb, -⟩
    · exact .inl ⟨e, he⟩
    · exact .inr ⟨b, hb⟩

/-- Three panics of runs with two repeats: that of the source of CPU samples, when the first repeat is
complete, that of a phase whose workers find no room, and that of a phase which discards the payload of a
worker. Every report has both repeats, without numbers, and the panic. -/
theorem report_of_run_of_panics :
    let header : ReportHeader := ⟨"path", "name", "provider", "mode"⟩
    CutShort.Reported header CutShort.config "no counters" ∧
      CutShort.Reported header CutShort.crowded "capacity overflow" ∧
      CutShort.Reported header CutShort.config "twice" := by
  intro header
  have hreports : ∀ {cfg : Config} (b : Conducted cfg) (message : String),
      Run.canReserve cfg.repeats.toNat = true → b.ending = .error (.panic (.text message)) →
      CutShort.Reported header cfg message := by
    intro cfg b message hroom hending
    have hinert : ∀ i, b.ending = .error i → i.Inert := by
      intro i hi
      cases hending.symm.trans hi
      exact nofun
    obtain ⟨-, -, hreported, -⟩ := report_of_run header cfg
    obtain ⟨result, hresult, hreport, hcontent⟩ := hreported b
    obtain ⟨r, rfl⟩ := hreport.mpr ⟨hroom, hinert⟩
    obtain ⟨hcomplete, hfailed⟩ := hcontent r rfl
    exact ⟨b, b.accepted, hending, r, hresult, hcomplete, hfailed _ hending⟩
  let environment : Environment := ⟨"linux", "1", "2", "x86_64", "host", "3", 4, false, "c0", "t"⟩
  refine ⟨hreports ⟨0, environment, 0, _, _, "t", CutShort.validate_config,
      CutShort.endingAfter?_events⟩ _ (by decide) rfl,
    hreports ⟨0, environment, 0, _, _, "t", by decide, CutShort.endingAfter?_crowded⟩ _ (by decide) rfl,
    hreports ⟨0, environment, 0, _, _, "t", CutShort.validate_config,
      CutShort.endingAfter?_bursting⟩ _ (by decide) rfl⟩

/-- The largest number of repeats is accepted, but there is no room for their results, neither in the
run nor in the report of its failure: the benchmark ends in a panic. -/
theorem no_report_of_repeats :
    let cfg : Config := ⟨2, .ofMillis 40, .zero, 18446744073709551615, default,
      Config.defaultCpuSampleInterval, UInt64.ofNat Metrics.defaultCapacity⟩
    let header : ReportHeader := ⟨"profile.yaml", "mock-ecdh", "mock", "burst"⟩
    let environment : Environment :=
      ⟨"linux", "1", "2", "x86_64", "host", "3", 4, false, "c0", "t"⟩
    cfg.validate 0 = .ok () ∧
      run? header cfg .checking [.check 0, .start environment 0, .report "t"] =
        some (.finished (.error (.panic (.text "capacity overflow")))) := by
  intro cfg header environment
  have haccepted : cfg.validate 0 = .ok () := by decide
  have hfull : Run.canReserve cfg.repeats.toNat = false := by decide
  have hstart : (Run.Course.start cfg 0 : Except Interruption (Run.Course Float)) =
      .error (.panic Payload.capacityOverflow) := by
    unfold Run.Course.start Run.Progress.start
    rw [haccepted, hfull]
    rfl
  have hreport : Report.ofInterruption header cfg environment "t" (.panic Payload.capacityOverflow) =
      .error Payload.capacityOverflow := by
    unfold Report.ofInterruption
    rw [hfull]
    rfl
  have hended : endingAfter? cfg 0 [] = some (.error (.panic Payload.capacityOverflow)) := by
    rw [endingAfter?, courseAfter?_nil, hstart]
    rfl
  let b : Conducted cfg := ⟨0, environment, 0, [], _, "t", haccepted, hended⟩
  refine ⟨haccepted, (run?_eq_some_iff.mpr (.conducted b)).trans ?_⟩
  rw [Conducted.result_of_error rfl, hreport]
  rfl

end ExchangeBench.Benchmark
