import ExchangeBench.Proofs.Benchmark
import ExchangeBench.Proofs.Run.Wording

/-!
# Reports hold nothing that a failure says

A report keeps no message. Two benchmarks that differ in nothing but what their failures and panics say,
and whose failures have the same classes, leave the same report: every failure of an attempt enters it
by its class, and so does the failure that has ended the run, if one has.

- `Benchmark.Conducted.Alike`: conducted benchmarks that differ at most in the words of their failures.
- `Benchmark.Conducted.sameEnding`: their runs have ended alike.
- `Benchmark.report_of_wording`: they leave the same report.
-/

namespace ExchangeBench.Benchmark

variable {header : ReportHeader} {cfg : Config}

/-- Runs that are alike have ended alike, or go on both. -/
theorem ending?_alike {c c' : Run.Course Float} (h : c.Alike c') :
    Option.Rel SameEnding (ending? (.ok c)) (ending? (.ok c')) := by
  have hposition := h.position
  unfold ending?
  dsimp only
  revert hposition
  generalize c.position = p, c'.position = p'
  rintro (_ | hcrew | hphase | hresult)
  · cases p with
    | ended result => exact .some (.refl result)
    | warming | measuring | opening | hiring | waiting | closing => exact .none
  · exact .none
  · exact .none
  · exact .some hresult

/-- What happens in a run, in other words, ends it alike. -/
theorem endingAfter?_alike (cfg : Config) (now : Clock.Reading) {es es' : List (Run.Course.Event Float)}
    (hes : List.Forall₂ Run.Course.Event.Alike es es') :
    Option.Rel SameEnding (endingAfter? cfg now es) (endingAfter? cfg now es') := by
  unfold endingAfter? courseAfter?
  cases (Run.Course.start cfg now : Except Interruption (Run.Course Float)) with
  | error i =>
    -- nothing happens in a run that could not begin
    cases hes with
    | nil => exact .some (.refl _)
    | cons => exact .none
  | ok first =>
    have hrun := Run.Course.run?_alike cfg (.refl first) hes
    dsimp only
    revert hrun
    generalize first.run? cfg es = c, first.run? cfg es' = c'
    rintro (hc | _)
    · exact ending?_alike hc
    · exact .none

/-- A run that completes has ended with its outcome. -/
theorem endingAfter?_of_completed (run : Run.Completed cfg Float) :
    endingAfter? cfg run.now run.events = some (.ok run.outcome) := by
  rw [endingAfter?, courseAfter?_eq_ok_iff.mpr ⟨run.first, run.started, run.ran⟩]
  show ending? (.ok run.last) = _
  rw [ending?, run.ended]

namespace Conducted

/-- Two conducted benchmarks on one host and at one time that differ at most in what failures and panics
say. -/
structure Alike (b b' : Conducted cfg) : Prop where
  checked : b.checked = b'.checked
  environment : b.environment = b'.environment
  started : b.started = b'.started
  happened : List.Forall₂ Run.Course.Event.Alike b.happened b'.happened
  timestampUtc : b.timestampUtc = b'.timestampUtc

/-- **Runs that are alike end alike.** -/
theorem sameEnding {b b' : Conducted cfg} (h : b.Alike b') : SameEnding b.ending b'.ending := by
  have hending := endingAfter?_alike cfg b.started h.happened
  rw [b.ended, h.started, b'.ended] at hending
  cases hending with
  | some hsame => exact hsame

/-- Whatever else the failures of a conducted benchmark say, its run comes to an end. -/
theorem exists_alike (b : Conducted cfg) {es : List (Run.Course.Event Float)}
    (hes : List.Forall₂ Run.Course.Event.Alike b.happened es) :
    ∃ b' : Conducted cfg, b.Alike b' ∧ b'.happened = es := by
  have hending := endingAfter?_alike cfg b.started hes
  rw [b.ended] at hending
  generalize hended : endingAfter? cfg b.started es = e at hending
  cases hending with
  | @some _ ending _ =>
    exact ⟨⟨b.checked, b.environment, b.started, es, ending, b.timestampUtc, b.accepted, hended⟩,
      ⟨rfl, rfl, rfl, hes, rfl⟩, rfl⟩

/-- Benchmarks that are alike leave the same report, or none, if they fail in the same class. -/
theorem result_eq_ok_iff_of_alike {b b' : Conducted cfg} (h : b.Alike b')
    (hkey : ∀ i i', b.ending = .error i → b'.ending = .error i' →
      (Report.failureOf i).key = (Report.failureOf i').key) {r : Report} :
    b.result header = .ok r ↔ b'.result header = .ok r := by
  have hsame := sameEnding h
  generalize hending : b.ending = e, hending' : b'.ending = e' at hsame
  cases hsame with
  | ok outcome =>
    rw [result_of_ok hending, result_of_ok hending', h.environment, h.timestampUtc]
  | @error i i' halike =>
    rw [result_of_error_eq_ok_iff hending, result_of_error_eq_ok_iff hending', halike.inert_iff,
      h.environment, h.timestampUtc, hkey i i' hending hending']

/-- When all that happens in it leaves a report. -/
theorem reports_iff {b : Conducted cfg} {r : Report} :
    run? header cfg .checking b.events = some (.finished (.ok r)) ↔ b.result header = .ok r := by
  rw [run?_eq_some_iff.mpr (.conducted b), Option.some.injEq, finished.injEq]

end Conducted

/-- **Reports hold nothing that a failure says.** All that happens in a benchmark could happen in other
words: where attempts end in the same records, and the host fails and panics at the same places, the run
comes to an end as well, to the same outcome if it completes. And benchmarks that differ in words alone
leave the same report, or none, provided that the failures that have ended their runs, if any, are of one
class. -/
theorem report_of_wording (header : ReportHeader) (cfg : Config) :
    (∀ (b : Conducted cfg) (es : List (Run.Course.Event Float)),
      List.Forall₂ Run.Course.Event.Alike b.happened es →
      ∃ b' : Conducted cfg, b.Alike b' ∧ b'.happened = es) ∧
    ∀ b b' : Conducted cfg, b.Alike b' →
      SameEnding b.ending b'.ending ∧
      ((∀ i i', b.ending = .error i → b'.ending = .error i' →
          (Report.failureOf i).key = (Report.failureOf i').key) →
        ∀ r, run? header cfg .checking b.events = some (.finished (.ok r)) ↔
          run? header cfg .checking b'.events = some (.finished (.ok r))) := by
  refine ⟨fun b es hes => b.exists_alike hes, fun b b' halike =>
    ⟨Conducted.sameEnding halike, fun hkey r => ?_⟩⟩
  rw [Conducted.reports_iff, Conducted.reports_iff]
  exact Conducted.result_eq_ok_iff_of_alike halike hkey

namespace Wording

/-- One repeat. -/
def config : Config := ⟨1, .ofSecs 2, .ofSecs 0, 1, default, Config.defaultCpuSampleInterval, 5⟩

def environment : Environment := ⟨"linux", "1", "2", "x86_64", "host", "3", 4, false, "c0", "t"⟩

/-- What happens until the repeat is closed: one attempt fails and another one panics, with the same
words. -/
def events (text : String) : List (Run.Course.Event Float) :=
  [.look 0, .source .unavailable, .hire 1 none,
    .work 0 (.look 0), .work 0 (.prepare (.failed ⟨.setup, text⟩)), .work 0 .record,
    .work 0 (.look 0), .work 0 (.prepare (.done ())),
    .work 0 (.execute (.panicked (.text text)) (Scalar.ofNat 1)), .work 0 .record,
    .work 0 (.look 2000000000), .join]

/-- A run that completes. -/
def completing (text : String) : List (Run.Course.Event Float) :=
  events text ++ [.close (.ok none) (.ok 4)]

/-- A run that a panic with some words ends. -/
def panicking (text : String) : List (Run.Course.Event Float) :=
  [.look 0, .source (.panicked (.text text))]

variable (text : String)

theorem start_config : Run.Course.start config 0 =
    .ok (⟨⟨[], false, []⟩, .measuring 1 none, none, []⟩ : Run.Course Float) :=
  Run.Course.start_of_validate (by decide) (by decide)

theorem exists_completing :
    ∃ outcome, endingAfter? config 0 (completing text) = some (.ok outcome) := by
  let records : List (Record Float) :=
    [.failure (Failure.key ⟨.setup, text⟩) none,
      .failure (Failure.key ⟨.panic, text⟩) (some (Scalar.ofNat 1))]
  let h : Happenings Float :=
    ⟨⟨0, .ok ()⟩, ⟨0, .unavailable, Metrics.ofRecords 5 records, .ok (), .lost, .ok none, .ok 4⟩⟩
  have hdeadline : Clock.deadline 0 (.ofSecs 2) "duration" = .ok 2000000000 := rfl
  obtain ⟨result, hresult⟩ : ∃ r, RepeatResult.ofHappenings config 1 h = .ok (r, .unavailable) :=
    RepeatResult.exists_of_happenings 1 (fun hwarmup => nomatch hwarmup) hdeadline rfl rfl rfl rfl
  have hclosing : Run.Course.run? config ⟨⟨[], false, []⟩, .measuring 1 none, none, []⟩
      (events text) = some ⟨⟨[], false, []⟩,
        .closing 1 none .unavailable 0 (Metrics.ofRecords 5 records) (.ok ()), none, []⟩ := rfl
  obtain ⟨run, hnow, -, hevents, -⟩ := Run.Completed.exists_run_of_close start_config hclosing
    (h := h) rfl rfl hresult
  refine ⟨run.outcome, ?_⟩
  rw [completing, ← hevents, ← hnow]
  exact endingAfter?_of_completed run

theorem ending_panicking :
    endingAfter? config 0 (panicking text) = some (.error (.panic (.text text))) := by
  have hended : Run.Course.run? config ⟨⟨[], false, []⟩, .measuring 1 none, none, []⟩ (panicking text) =
      some ⟨⟨[], false, []⟩, .ended (.error (.panic (.text text))), none, []⟩ := rfl
  rw [endingAfter?, courseAfter?_eq_ok_iff.mpr ⟨_, start_config, hended⟩]
  rfl

/-- What happens in other words with the same fingerprint. -/
theorem alike_completing {text text' : String} (h : fingerprint text = fingerprint text') :
    List.Forall₂ Run.Course.Event.Alike (completing text) (completing text') := by
  have hsetup : Failure.key ⟨.setup, text⟩ = Failure.key ⟨.setup, text'⟩ := by
    rw [Failure.key, Failure.key, h]
  have hpanic : Failure.key ⟨.panic, text⟩ = Failure.key ⟨.panic, text'⟩ := by
    rw [Failure.key, Failure.key, h]
  refine .cons (.look 0) (.cons (.source (.refl _)) (.cons (.hire 1 rfl) (.cons (.work 0 (.look 0))
    (.cons (.work 0 (.prepare ?_ rfl)) (.cons (.work 0 .record) (.cons (.work 0 (.look 0))
    (.cons (.work 0 (.prepare rfl rfl)) (.cons (.work 0 (.execute ?_ rfl)) (.cons (.work 0 .record)
    (.cons (.work 0 (.look 2000000000)) (.cons .join (.cons (.close (.refl _) (.refl _)) .nil))))))))))))
  · exact congrArg (fun key => some (Record.failure key none)) hsetup
  · exact congrArg (fun key => some (Record.failure key (some (Scalar.ofNat 1)))) hpanic

end Wording

/-- Two messages with the same fingerprint. -/
theorem fingerprint_collision :
    fingerprint "no peer 3335808" = fingerprint "no peer 10639160" := by decide +kernel

/-- A run whose attempts fail with two messages of one fingerprint, and a run that panics with them. -/
theorem report_of_wording_of_collision :
    let header : ReportHeader := ⟨"path", "name", "provider", "mode"⟩
    (∃ (b b' : Conducted Wording.config) (r : Report),
      b.happened = Wording.completing "no peer 3335808" ∧
      b'.happened = Wording.completing "no peer 10639160" ∧ b.Alike b' ∧
      run? header Wording.config .checking b.events = some (.finished (.ok r)) ∧
      run? header Wording.config .checking b'.events = some (.finished (.ok r))) ∧
    ∃ (b b' : Conducted Wording.config) (r : Report),
      b.happened = Wording.panicking "no peer 3335808" ∧
      b'.happened = Wording.panicking "no peer 10639160" ∧ b.Alike b' ∧
      run? header Wording.config .checking b.events = some (.finished (.ok r)) ∧
      run? header Wording.config .checking b'.events = some (.finished (.ok r)) := by
  intro header
  obtain ⟨hworded, hreport⟩ := report_of_wording header Wording.config
  have haccepted : Wording.config.validate 0 = .ok () := by decide
  constructor
  · obtain ⟨outcome, hended⟩ := Wording.exists_completing "no peer 3335808"
    let b : Conducted Wording.config :=
      ⟨0, Wording.environment, 0, _, _, "t", haccepted, hended⟩
    obtain ⟨b', halike, hhappened⟩ := hworded b _ (Wording.alike_completing fingerprint_collision)
    obtain ⟨-, hsame⟩ := hreport b b' halike
    have hr : run? header Wording.config .checking b.events = some (.finished (.ok
        (Report.ofOutcome header Wording.config Wording.environment "t" outcome))) :=
      Conducted.reports_iff.mpr (Conducted.result_of_ok rfl)
    exact ⟨b, b', _, rfl, hhappened, halike, hr, (hsame (fun i _ hi => nomatch hi) _).mp hr⟩
  · let b : Conducted Wording.config :=
      ⟨0, Wording.environment, 0, _, _, "t", haccepted, Wording.ending_panicking "no peer 3335808"⟩
    let b' : Conducted Wording.config :=
      ⟨0, Wording.environment, 0, _, _, "t", haccepted, Wording.ending_panicking "no peer 10639160"⟩
    have halike : b.Alike b' :=
      ⟨rfl, rfl, rfl,
        .cons (.look 0) (.cons (.source (.panicked (iff_of_true nofun nofun))) .nil), rfl⟩
    obtain ⟨-, hsame⟩ := hreport b b' halike
    have hr : run? header Wording.config .checking b.events = some (.finished (.ok
        (Report.internal header Wording.config Wording.environment "t"
          (Failure.key ⟨.panic, "no peer 3335808"⟩)))) :=
      Conducted.reports_iff.mpr
        ((Conducted.result_of_error_eq_ok_iff rfl).mpr ⟨by decide, nofun, rfl⟩)
    refine ⟨b, b', _, rfl, rfl, halike, hr, (hsame ?_ _).mp hr⟩
    rintro i i' hi hi'
    cases hi
    cases hi'
    exact congrArg (ErrorKey.mk .panic) fingerprint_collision

end ExchangeBench.Benchmark
