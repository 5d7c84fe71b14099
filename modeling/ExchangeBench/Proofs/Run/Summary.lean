import ExchangeBench.Proofs.Repeat.Summary
import ExchangeBench.Proofs.Run.Notes
import ExchangeBench.Proofs.Stats.Entries
import ExchangeBench.Proofs.Stats.Interpolation

/-!
# The summary of a completed run

The summary across repeats is that of its definition for all repeats with finite values, and a completed
run has such repeats: its throughputs are numbers divided by a duration that is not zero, and percentiles
and maxima are of finite samples. So what its summary shows is decided by what was asked for and by which
repeats have retained a latency.

- `Completed.isSome_p999_iff`: which of its results have a `p99_9`.
- `Completed.finite_repeats`: the values of a completed run are finite.
- `Run.summary_across_repeats`: the summary of any repeats, and that of a completed run.
-/

namespace ExchangeBench

open Scalar (Exact)

namespace Run

variable {α : Type} [Scalar α] {cfg : Config}

namespace Completed

theorem summary_eq (run : Completed cfg α) :
    run.outcome.summary = .ofRepeats cfg.percentiles run.outcome.repeats := by
  obtain ⟨hfinish, -⟩ := (Course.ordered_of_run run.started run.ran).finished _ run.ended
  rw [hfinish]
  rfl

/-- A run has no more results than can be counted. -/
theorem length_repeats_lt (run : Completed cfg α) :
    run.outcome.repeats.length < UInt64.size := by
  rw [run.length_repeats]
  exact cfg.repeats.toNat_lt

variable [Scalar.Ordered α]

/-- Some repeat has a latency sample if and only if one has retained a finite latency. -/
theorem exists_count_ne_zero_iff (run : Completed cfg α) :
    (∃ r ∈ run.outcome.repeats, r.latency.count ≠ 0) ↔
      ∃ k ∈ indices cfg, ∃ x ∈ (run.metrics k).latencies, Scalar.isFinite x = true := by
  constructor
  · rintro ⟨r, hr, hcount⟩
    obtain ⟨k, hk, hrk⟩ := run.exists_index hr
    obtain ⟨x, hx, hfinite⟩ :=
      (LatencySummary.count_ne_zero_iff (run.latency_eq hk hrk)).mp hcount
    exact ⟨k, hk, x, Array.mem_toList_iff.mp hx, hfinite⟩
  · rintro ⟨k, hk, x, hx, hfinite⟩
    obtain ⟨hk1, hkn⟩ := mem_indices.mp hk
    obtain ⟨-, r, -, hrk, -, -⟩ := run.exists_repeat hk1 hkn
    refine ⟨r, List.mem_of_getElem? hrk, ?_⟩
    exact (LatencySummary.count_ne_zero_iff (run.latency_eq hk hrk)).mpr
      ⟨x, Array.mem_toList_iff.mpr hx, hfinite⟩

/-- The result of a repeat has a `p99_9` if and only if 99.9 was asked for and it is of some samples. -/
theorem isSome_p999_iff (run : Completed cfg α) {r : RepeatResult α}
    (hr : r ∈ run.outcome.repeats) :
    (r.latency.get? "p99_9").isSome = true ↔
      Percentile.p999 ∈ cfg.percentiles.requested ∧ r.latency.count ≠ 0 := by
  obtain ⟨k, hk, hrk⟩ := run.exists_index hr
  have hlatency := run.latency_eq hk hrk
  have heffective : Percentile.p999 ∈ cfg.percentiles.effective ↔
      Percentile.p999 ∈ cfg.percentiles.requested :=
    PercentileSet.mem_effective.trans (or_iff_right (by decide))
  rw [← Percentile.key_p999, LatencySummary.isSome_get? hlatency, heffective,
    LatencySummary.count_ne_zero_iff hlatency]

variable [Exact α]

/-- **The values of a completed run are finite.** -/
theorem finite_repeats (run : Completed cfg α) : ∀ r ∈ run.outcome.repeats, r.Finite := by
  intro r hr
  obtain ⟨k, hk, hrk⟩ := run.exists_index hr
  have hlatency := run.latency_eq hk hrk
  obtain ⟨h, samples, state, -, hparts, -⟩ := run.consists hk hrk
  constructor
  case throughput =>
    obtain ⟨hseconds, -⟩ := Duration.real_inSeconds α cfg.duration
    obtain ⟨hne, -⟩ := run.real_throughput h.measurement.metrics.attempts
    rw [hparts.throughput]
    exact (Exact.div _ _ (Exact.ofNat _).1 hseconds hne).1
  case percentile => exact fun key v hv => LatencySummary.isFinite_of_get? hlatency hv
  case max => exact fun m hm => LatencySummary.isFinite_of_max hlatency hm

end Completed

/-! ## A repeat without a latency, and one with a latency -/

namespace OneLatency

/-- The configuration asks for 99.9. -/
def config : Config := TwoRepeats.config ⟨[.p999], by decide, by decide⟩

/-- The only attempt of the first repeat fails before it is timed. -/
noncomputable def untimed : Script ℝ :=
  TwoRepeats.script 0 []
    [.look (TwoRepeats.reading 1), .prepare (.failed ⟨.setup, "no key"⟩), .record]
    [.failure (Failure.key ⟨.setup, "no key"⟩) none] .unavailable

/-- That of the second one succeeds. -/
noncomputable def timed : Script ℝ :=
  TwoRepeats.script 10 []
    [.look (TwoRepeats.reading 11), .prepare (.done ()), .execute (.done ()) 1, .record]
    [.success 1] .unavailable

theorem plays_untimed : untimed.Plays config 1 :=
  TwoRepeats.plays (fun _ _ => ⟨_, rfl, rfl⟩) (fun _ _ => rfl) (by decide)

theorem plays_timed : timed.Plays config 2 :=
  TwoRepeats.plays (fun _ _ => ⟨_, rfl, rfl⟩) (fun _ _ => rfl) (by decide)

end OneLatency

/-- **The summary across repeats is that of its definition**, where nothing is rounded: for all repeats
with finite values, whatever was asked for, as long as there are fewer repeats than can be counted, which
is so for every list in memory. It does not depend on their order. The summary of a completed run is that
of its repeats, whose values are finite. It has a mean of `p99_9` if and only if 99.9 was asked for and
some repeat has a latency sample, which is one that its workers have recorded and that fitted. -/
theorem summary_across_repeats [Scalar.Ordered α] [Exact α] :
    (∀ (set : PercentileSet) (rs : List (RepeatResult α)), (∀ r ∈ rs, r.Finite) →
      rs.length < UInt64.size →
        CrossRepeatSummary.Summarizes set rs (.ofRepeats set rs) ∧
        ∀ rs', rs'.Perm rs → (CrossRepeatSummary.ofRepeats set rs').real =
          (CrossRepeatSummary.ofRepeats set rs).real) ∧
    ∀ {cfg : Config} (run : Completed cfg α),
      run.outcome.summary = .ofRepeats cfg.percentiles run.outcome.repeats ∧
      CrossRepeatSummary.Summarizes cfg.percentiles run.outcome.repeats run.outcome.summary ∧
      (run.outcome.summary.p999Mean.isSome = true ↔
        Percentile.p999 ∈ cfg.percentiles.requested ∧
          ∃ r ∈ run.outcome.repeats, r.latency.count ≠ 0) ∧
      ((∃ r ∈ run.outcome.repeats, r.latency.count ≠ 0) ↔
        ∃ k ∈ indices cfg, ∃ x ∈ (run.metrics k).latencies, Scalar.isFinite x = true) := by
  refine ⟨fun set rs hfinite hlt => ⟨?_, fun rs' hperm => ?_⟩, fun {cfg} run => ?_⟩
  · exact CrossRepeatSummary.summarizes_ofRepeats set hfinite hlt
  · exact CrossRepeatSummary.real_ofRepeats_perm set hperm hlt
  · have hsummarizes : CrossRepeatSummary.Summarizes cfg.percentiles run.outcome.repeats
        run.outcome.summary :=
      run.summary_eq ▸
        CrossRepeatSummary.summarizes_ofRepeats _ run.finite_repeats run.length_repeats_lt
    refine ⟨run.summary_eq, hsummarizes, hsummarizes.isSome_p999Mean.trans ?_,
      run.exists_count_ne_zero_iff⟩
    constructor
    · rintro ⟨hasked, r, hr, hsome⟩
      exact ⟨hasked, r, hr, ((run.isSome_p999_iff hr).mp hsome).2⟩
    · rintro ⟨hasked, r, hr, hcount⟩
      exact ⟨hasked, r, hr, (run.isSome_p999_iff hr).mpr ⟨hasked, hcount⟩⟩

/-- Three repeats with numbers of their own: one without samples, one with both percentiles, and one
without `p99_9`. And a run that was asked for 99.9, of two repeats, of which one has a latency. -/
theorem summary_across_repeats_of_three :
    let set : PercentileSet := ⟨[.p999], by decide, by decide⟩
    let result : ℝ → LatencySummary ℝ → RepeatResult ℝ := fun throughput latency =>
      { RepeatResult.zeroed 1 .default 1 with throughput, latency }
    let rs : List (RepeatResult ℝ) :=
      [result 4 ⟨0, [("p99", none), ("p99_9", none)], none⟩,
        result 1 ⟨2, [("p99", some 10), ("p99_9", some 20)], some 30⟩,
        result 4 ⟨1, [("p99", some 40)], some 25⟩]
    let s := CrossRepeatSummary.ofRepeats set rs
    (∀ r ∈ rs, r.Finite) ∧ rs.length < UInt64.size ∧ rs.reverse.Perm rs ∧
    s.throughputMean = some 3 ∧ s.throughputStdev = some (√3) ∧ s.p99Mean = some 25 ∧
    s.p999Mean = some 20 ∧ s.maxLatencyMax = some 30 ∧
    (CrossRepeatSummary.ofRepeats set rs.reverse).real = s.real ∧
    ∃ (run : Completed OneLatency.config ℝ) (r r' : RepeatResult ℝ),
      run.outcome.repeats = [r, r'] ∧ r.latency.count = 0 ∧ r'.latency.count = 1 ∧
      run.outcome.summary.p999Mean.isSome = true := by
  intro set result rs s
  have hfinite : ∀ r ∈ rs, r.Finite := fun r _ => ⟨rfl, fun _ _ _ => rfl, fun _ _ => rfl⟩
  obtain ⟨hany, hrun⟩ := @summary_across_repeats ℝ _ _ _
  obtain ⟨hsummarizes, hperm⟩ := hany set rs hfinite (by decide)
  refine ⟨hfinite, by decide, List.reverse_perm rs, ?_, ?_, ?_, ?_, ?_,
    hperm _ (List.reverse_perm rs), ?_⟩
  · obtain ⟨m, hm, hmean⟩ := hsummarizes.throughputMean.exists_of_not (List.cons_ne_nil _ _)
    rw [hm]
    refine congrArg some (hmean.trans ?_)
    norm_num [rs, result, Exact.real]
  · obtain ⟨d, hd, hdeviation⟩ := hsummarizes.throughputStdev.exists_of_not (by decide)
    rw [hd]
    refine congrArg some (hdeviation.trans ?_)
    norm_num [rs, result, Exact.real]
  · obtain ⟨m, hm, hmean⟩ := hsummarizes.p99Mean.exists_of_not (List.cons_ne_nil _ _)
    rw [hm]
    refine congrArg some (hmean.trans ?_)
    show ([10, 40] : List ℝ).sum / ([10, 40] : List ℝ).length = 25
    norm_num
  · obtain ⟨m, hm, hmean⟩ :=
      (hsummarizes.p999Mean (by decide)).exists_of_not (List.cons_ne_nil _ _)
    rw [hm]
    refine congrArg some (hmean.trans ?_)
    show ([20] : List ℝ).sum / ([20] : List ℝ).length = 20
    norm_num
  · obtain ⟨m, hm, hgreatest⟩ :=
      hsummarizes.maxLatencyMax.exists_of_not (List.cons_ne_nil _ _)
    rw [hm]
    refine congrArg some (hgreatest.unique ?_)
    show IsGreatest {y : ℝ | y ∈ [30, 25]} 30
    refine ⟨by simp, fun y hy => ?_⟩
    rcases (by simpa using hy : y = 30 ∨ y = 25) with rfl | rfl <;> norm_num
  · obtain ⟨run, -, -, hrecords, -, hrecords'⟩ :=
      TwoRepeats.exists_run OneLatency.plays_untimed OneLatency.plays_timed
    obtain ⟨r, r', hboth, -, -, hr, hr'⟩ := TwoRepeats.exists_repeats run
    have hnone := LatencySummary.count_of_ofSamples (run.latency_eq (by decide) hr)
    have hone := LatencySummary.count_of_ofSamples (run.latency_eq (by decide) hr')
    rw [Completed.metrics, hrecords] at hnone
    rw [Completed.metrics, hrecords'] at hone
    obtain ⟨-, -, hsome, -⟩ := hrun run
    refine ⟨run, r, r', hboth, hnone, hone, hsome.mpr ⟨by decide, r', ?_, ?_⟩⟩
    · exact List.mem_of_getElem? hr'
    · exact hone ▸ Nat.one_ne_zero

end Run
end ExchangeBench
