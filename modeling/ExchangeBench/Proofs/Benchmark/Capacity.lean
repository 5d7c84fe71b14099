import ExchangeBench.Proofs.Benchmark
import ExchangeBench.Proofs.Config

/-!
# How many repeats a benchmark can have

The check of a configuration lets every positive number of repeats pass, but a buffer can only be
reserved for so many results. A run that needs a larger one panics before its first repeat; and as the
report on this failure needs a buffer for as many results, the panic comes again where nobody contains
it.

- `Run.maxRepeats`: how many repeats fit into a buffer.
- `Config.validate_withRepeats`: the check does not ask for that.
- `Benchmark.run?_of_full`, `Conducted.eq_of_full`: a benchmark whose repeats do not fit comes to a panic
  at once, and to nothing else.
- `Benchmark.repeats_fit_or_panic`: what becomes of a benchmark, by the number of its repeats.
-/

namespace ExchangeBench

namespace Run

/-- How many repeats fit into a buffer. -/
def maxRepeats : Nat := ((1 <<< 63) - 1) / resultBytes

theorem canReserve_iff {n : Nat} : canReserve n = true ↔ n ≤ maxRepeats := by
  unfold canReserve Buffer.fits maxRepeats
  rw [decide_eq_true_eq, Nat.le_div_iff_mul_le (by decide), Nat.lt_iff_le_pred (by decide)]

example : maxRepeats = 34937015291116575 := by decide

/-- A run whose results do not fit into a buffer does not begin. -/
theorem Course.start_of_full {α : Type} [Scalar α] {cfg : Config}
    (hfull : canReserve cfg.repeats.toNat = false) (now : Clock.Reading) :
    ∃ i, (Course.start cfg now : Except Interruption (Course α)) = .error i ∧
      ((∃ e, cfg.validate now = .error e ∧ i = .error e) ∨
        cfg.validate now = .ok () ∧ i = .panic .capacityOverflow) := by
  unfold start Progress.start
  cases hvalid : cfg.validate now with
  | error e => exact ⟨_, rfl, .inl ⟨e, rfl, rfl⟩⟩
  | ok =>
    rw [hfull]
    exact ⟨_, rfl, .inr ⟨rfl, rfl⟩⟩

end Run

/-- **Every positive number of repeats is accepted**, where any is. -/
theorem Config.validate_withRepeats {cfg : Config} {now : Clock.Reading}
    (h : cfg.validate now = .ok ()) {repeats : UInt64} (hpositive : repeats ≠ 0) :
    { cfg with repeats }.validate now = .ok () := by
  have haccepted := accepted_of_validate h
  exact Accepted.validate {
    concurrency := haccepted.concurrency
    duration := haccepted.duration
    measurable := haccepted.measurable
    warmable := haccepted.warmable
    repeats := hpositive
    cpuSampleInterval := haccepted.cpuSampleInterval
    latencyCapacity := haccepted.latencyCapacity }

namespace Benchmark

variable {header : ReportHeader} {cfg : Config}

/-! ## Too many repeats -/

/-- The failure of a run that could not begin for lack of room cannot be reported for lack of room. -/
theorem ofInterruption_of_full (hfull : Run.canReserve cfg.repeats.toNat = false)
    (environment : Environment) (timestampUtc : String) {i : Interruption} (hinert : i.Inert) :
    Report.ofInterruption header cfg environment timestampUtc i = .error Payload.capacityOverflow := by
  unfold Report.ofInterruption
  split
  · next m => exact absurd rfl (hinert m)
  · rw [hfull]
    rfl

/-- In a conducted benchmark whose repeats do not fit, nothing has happened in the run, and what is left
is a panic. -/
theorem Conducted.eq_of_full (b : Conducted cfg) (header : ReportHeader)
    (hfull : Run.canReserve cfg.repeats.toNat = false) :
    b.events = [.check b.checked, .start b.environment b.started, .report b.timestampUtc] ∧
      b.result header = .error (.panic Payload.capacityOverflow) := by
  obtain ⟨i, hstart, hi⟩ := Run.Course.start_of_full (α := Float) hfull b.started
  obtain ⟨course, hafter, hending⟩ := Option.bind_eq_some_iff.mp b.ended
  unfold courseAfter? at hafter
  rw [hstart, Option.ite_none_right_eq_some, List.isEmpty_iff] at hafter
  obtain ⟨hnothing, hcourse⟩ := hafter
  cases hcourse
  have hended : b.ending = .error i := (Option.some.inj hending).symm
  refine ⟨?_, ?_⟩
  · rw [events, hnothing]
    rfl
  · have hinert : i.Inert := by
      rintro m rfl
      rcases hi with ⟨e, -, hno⟩ | ⟨-, hno⟩ <;> cases hno
    rw [result_of_error hended, ofInterruption_of_full hfull _ _ hinert]
    rfl

/-- An accepted benchmark whose repeats do not fit comes to a panic at once. -/
theorem run?_of_full (hfull : Run.canReserve cfg.repeats.toNat = false) {now : Clock.Reading}
    (haccepted : cfg.validate now = .ok ()) (environment : Environment) (now' : Clock.Reading)
    (timestampUtc : String) :
    run? header cfg .checking [.check now, .start environment now', .report timestampUtc] =
      some (.finished (.error (.panic Payload.capacityOverflow))) := by
  obtain ⟨i, hstart, -⟩ := Run.Course.start_of_full (α := Float) hfull now'
  have hended : endingAfter? cfg now' [] = some (.error i) := by
    rw [endingAfter?, courseAfter?_nil, hstart]
    rfl
  let b : Conducted cfg := ⟨now, environment, now', [], _, timestampUtc, haccepted, hended⟩
  rw [← (b.eq_of_full header hfull).2]
  exact run?_eq_some_iff.mpr (.conducted b)

/-! ## The number of repeats -/

/-- **The number of repeats decides.** The check accepts every positive number of repeats. If they fit
into a buffer, every benchmark that is conducted leaves a report with that many repeats, unless a panic
goes on that is discarded. If they do not, a benchmark that is not refused never comes to its first
repeat: neither the run nor the report of its failure finds room, and the panic leaves the benchmark. -/
theorem repeats_fit_or_panic (header : ReportHeader) (cfg : Config) :
    (∀ now (repeats : UInt64), cfg.validate now = .ok () → repeats ≠ 0 →
      { cfg with repeats }.validate now = .ok ()) ∧
    (cfg.repeats.toNat ≤ Run.maxRepeats →
      ∀ b : Conducted cfg, (∀ i, b.ending = .error i → i.Inert) →
        ∃ r, run? header cfg .checking b.events = some (.finished (.ok r)) ∧
          r.repeats.length = cfg.repeats.toNat) ∧
    (Run.maxRepeats < cfg.repeats.toNat →
      (∀ now environment now' timestampUtc, cfg.validate now = .ok () →
        run? header cfg .checking [.check now, .start environment now', .report timestampUtc] =
          some (.finished (.error (.panic (.text "capacity overflow"))))) ∧
      ∀ es result, run? header cfg .checking es = some (.finished result) →
        (∃ now e, es = [.check now] ∧ cfg.validate now = .error e ∧ result = .error (.error e)) ∨
        ∃ now environment now' timestampUtc,
          es = [.check now, .start environment now', .report timestampUtc] ∧
          cfg.validate now = .ok () ∧
          result = .error (.panic (.text "capacity overflow"))) := by
  refine ⟨fun now repeats h hpositive => Config.validate_withRepeats h hpositive,
    fun hfit b hinert => ?_, fun hlt => ?_⟩
  · obtain ⟨r, hr⟩ := (b.exists_report_iff header).mpr ⟨Run.canReserve_iff.mpr hfit, hinert⟩
    refine ⟨r, ?_, (Conducted.complete hr).length⟩
    rw [← hr]
    exact run?_eq_some_iff.mpr (.conducted b)
  · have hfull : Run.canReserve cfg.repeats.toNat = false := by
      rw [Bool.eq_false_iff, Ne, Run.canReserve_iff]
      exact Nat.not_le.mpr hlt
    refine ⟨fun now environment now' timestampUtc haccepted =>
      run?_of_full hfull haccepted environment now' timestampUtc, fun es result h => ?_⟩
    rcases finished_of_run? h with hrefused | ⟨b, rfl, rfl⟩
    · exact .inl hrefused
    · obtain ⟨hevents, hresult⟩ := b.eq_of_full header hfull
      exact .inr ⟨_, _, _, _, hevents, b.accepted, hresult⟩

/-- Two repeats, of which the second panics, leave a report with both. One repeat more than fits leaves
none. -/
theorem repeats_fit_or_panic_of_few_and_many :
    let header : ReportHeader := ⟨"path", "name", "provider", "mode"⟩
    let environment : Environment :=
      ⟨"linux", "1", "2", "x86_64", "host", "3", 4, false, "c0", "t"⟩
    let many : Config := { CutShort.config with repeats := 34937015291116576 }
    (∃ (b : Conducted CutShort.config) (r : Report),
      b.ending = .error (.panic (.text "no counters")) ∧
      run? header CutShort.config .checking b.events = some (.finished (.ok r)) ∧
      r.repeats.length = 2) ∧
    many.validate 0 = .ok () ∧
    run? header many .checking [.check 0, .start environment 0, .report "t"] =
      some (.finished (.error (.panic (.text "capacity overflow")))) := by
  intro header environment many
  obtain ⟨haccepts, hfits, -⟩ := repeats_fit_or_panic header CutShort.config
  obtain ⟨-, -, hpanics⟩ := repeats_fit_or_panic header many
  have hmany : many.validate 0 = .ok () := haccepts 0 _ CutShort.validate_config (by decide)
  refine ⟨?_, hmany, (hpanics (by decide)).1 0 environment 0 "t" hmany⟩
  let b : Conducted CutShort.config :=
    ⟨0, environment, 0, _, _, "t", CutShort.validate_config, CutShort.endingAfter?_events⟩
  have hinert : ∀ i, b.ending = .error i → i.Inert := by
    rintro i hi m rfl
    cases hi
  obtain ⟨r, hr, hlength⟩ := hfits (by decide) b hinert
  exact ⟨b, r, rfl, hr, hlength⟩

/-- **An accepted number of repeats that leaves no report**, whatever is reported on and wherever. -/
theorem no_report_of_accepted_repeats :
    let cfg : Config := ⟨2, .ofMillis 40, .zero, 9223372036854775807, default,
      Config.defaultCpuSampleInterval, UInt64.ofNat Metrics.defaultCapacity⟩
    cfg.validate 0 = .ok () ∧
      ∀ header environment timestampUtc,
        run? header cfg .checking [.check 0, .start environment 0, .report timestampUtc] =
          some (.finished (.error (.panic (.text "capacity overflow")))) := by
  intro cfg
  have haccepted : cfg.validate 0 = .ok () := by decide
  have hfull : Run.canReserve cfg.repeats.toNat = false := by decide
  exact ⟨haccepted, fun header environment timestampUtc =>
    run?_of_full hfull haccepted environment 0 timestampUtc⟩

end Benchmark
end ExchangeBench
