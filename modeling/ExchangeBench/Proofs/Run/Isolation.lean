import ExchangeBench.Proofs.Repeat.Result
import ExchangeBench.Proofs.Run.Script

/-!
# Repeats are isolated from each other

The result of a repeat is a function of what happened in its own measurement: the records of its
workers, the exit of its sampler and the last answers of the host. Two runs that agree there have the
same result, whatever their warmups, their other repeats and the samplers left over from them did.

- `Closing`: what a measurement is closed with, next to its records.
- `Completed.isolation`: two runs and one repeat.
-/

namespace ExchangeBench.Run

variable {α : Type} [Scalar α] {cfg : Config}

/-- What a measurement is closed with, next to its records: how its sampler was opened and ended, and
what the host answered. -/
structure Closing (α : Type) where
  opening : Opening
  sampler : Sampler.Exit α
  load : Except Payload (Option (LoadAverage α))
  logicalCpus : Except Payload Nat

/-! ## Repeats that differ, before one that does not -/

namespace SecondRepeat

/-- Attempts are made in the first repeat, and its sampler is left to itself. -/
def busy : Script Float :=
  TwoRepeats.script 0 []
    [.look (TwoRepeats.reading 1), .prepare (.done ()), .execute (.done ()) 5, .record,
      .look (TwoRepeats.reading 1), .prepare (.done ()),
      .execute (.failed ⟨.setup, "no peer"⟩) 7, .record]
    [.success 5, .failure (Failure.key ⟨.setup, "no peer"⟩) (some 7)] .late

/-- A panic of the operation in a warmup. -/
def panicking : List (Phase.Move Float) :=
  [.look (TwoRepeats.reading 10), .prepare (.panicked .nonText), .record]

/-- The sampler takes a sample and hands it over. -/
def sampling : TwoRepeats.Sampling Float :=
  let samples := CpuSamples.empty.push ⟨some 40, none⟩
  { opening := .opened
    events := [.begin (TwoRepeats.reading 11), .check, .look (TwoRepeats.reading 12),
      .probe (some ⟨some 40, none⟩), .raise, .unpark, .check, .send, .receive]
    exit := .joined samples
    result := (some samples, .observed)
    sampled := rfl }

/-- There is one attempt in the second measurement, whatever the warmup before it. -/
def second (warmup : List (Phase.Move Float)) : Script Float :=
  TwoRepeats.script 10 warmup
    [.look (TwoRepeats.reading 11), .prepare (.failed ⟨.setup, "no key"⟩), .record]
    [.failure (Failure.key ⟨.setup, "no key"⟩) none] sampling

theorem plays_busy : busy.Plays (TwoRepeats.config default) 1 :=
  TwoRepeats.plays (fun _ _ => ⟨_, rfl, rfl⟩) (fun _ _ => rfl) (by decide)

theorem plays_second : (second []).Plays (TwoRepeats.config default) 2 :=
  TwoRepeats.plays (fun _ _ => ⟨_, rfl, rfl⟩) (fun _ _ => rfl) (by decide)

theorem plays_second_panicking : (second panicking).Plays (TwoRepeats.config default) 2 :=
  TwoRepeats.plays (fun _ _ => ⟨_, rfl, rfl⟩) (fun _ _ => rfl) (by decide)

end SecondRepeat

namespace Completed

/-- What the measurement of a repeat was closed with. -/
def closing? (run : Completed cfg α) (k : Nat) : Option (Closing α) :=
  (run.happenings? k).map fun h =>
    ⟨h.measurement.opening, h.measurement.sampler, h.measurement.load, h.measurement.logicalCpus⟩

/-- **Isolation.** Two runs of a configuration that complete and agree on one measurement, in its
records and in what it is closed with, have the same result for that repeat. What it counts, in which
classes, which latencies it summarizes and whether any were dropped come from the records of that
measurement alone, and its CPU samples, if it has any, from the ticks of that measurement's sampler. -/
theorem isolation (run run' : Completed cfg α) {k : Nat} (hk : 1 ≤ k) (hk' : k ≤ cfg.repeats.toNat)
    (hrecords : run.records k = run'.records k) (hclosing : run.closing? k = run'.closing? k) :
    ∃ r, run.outcome.repeats[k - 1]? = some r ∧ run'.outcome.repeats[k - 1]? = some r ∧
      r.index = k ∧
      r.successCount = (run.metrics k).successCount ∧
      r.failureCount = (run.metrics k).failureCount ∧
      r.errors = (run.metrics k).errors ∧
      r.latencyTruncated = (run.metrics k).truncated ∧
      RepeatResult.latencyOf cfg.percentiles (run.metrics k).latencies = .ok r.latency ∧
      ∃ samples load logicalCpus,
        r.cpu = CpuSummary.ofSamples samples cfg.cpuSampleInterval load logicalCpus ∧
        ∀ s ∈ samples, s = CpuSamples.empty ∨ s = CpuSamples.ofTicks (run.ticks k) := by
  obtain ⟨h, r, hh, hr, ⟨state, hyields⟩, hown⟩ := run.exists_repeat hk hk'
  obtain ⟨h', r', hh', hr', ⟨state', hyields'⟩, hown'⟩ := run'.exists_repeat hk hk'
  obtain ⟨samples, hparts⟩ :=
    RepeatResult.consists_of_measured (RepeatResult.measured_of_ofHappenings hyields)
  obtain ⟨samples', hparts'⟩ :=
    RepeatResult.consists_of_measured (RepeatResult.measured_of_ofHappenings hyields')
  -- both results consist of the same parts: the metrics come from the records, the rest is given
  have hmetrics : h.measurement.metrics = h'.measurement.metrics := by
    rw [hown.metrics, hown'.metrics, hrecords]
  rw [closing?, closing?, hh, hh', Option.map_some, Option.map_some, Option.some.injEq,
    Closing.mk.injEq] at hclosing
  obtain ⟨hopening, hsampler, hload, hcpus⟩ := hclosing
  obtain rfl : r = r' := hparts.eq hparts' hmetrics hopening hsampler hload hcpus
  have hm : run.metrics k = h.measurement.metrics := hown.metrics.symm
  rw [hm]
  obtain ⟨load, logicalCpus, -, -, hcpu⟩ := hparts.cpu
  refine ⟨r, hr, hr', hparts.index, hparts.successCount, hparts.failureCount, hparts.errors,
    hparts.latencyTruncated, hparts.latency, samples, load, logicalCpus, hcpu, fun s hs => ?_⟩
  -- samples that are not empty were handed over by the sampler
  have hsampled := hparts.sampled
  rw [Option.mem_def.mp hs] at hsampled
  rcases RepeatResult.joined_of_samplesOf hsampled with hjoined | hempty
  · exact .inr (hown.samples s hjoined)
  · exact .inl hempty

/-- Two runs of two repeats that agree on the second measurement only. In one of them nothing has happened
before it. In the other one the first repeat has attempts and a sampler that is left to itself, and there is
a panic in the second warmup. -/
theorem isolation_of_second_repeats :
    let cfg := TwoRepeats.config default
    ∃ (run run' : Completed cfg Float) (r : RepeatResult Float),
      run.records 1 = [] ∧
      run'.records 1 = [.success 5, .failure (Failure.key ⟨.setup, "no peer"⟩) (some 7)] ∧
      run.closing? 1 = some ⟨.unavailable, .lost, .ok none, .ok 1⟩ ∧
      run'.closing? 1 = some ⟨.opened, .timedOut, .ok none, .ok 1⟩ ∧
      .work 0 (.prepare (.panicked .nonText)) ∈ run'.events ∧
      run.records 2 = run'.records 2 ∧ run.closing? 2 = run'.closing? 2 ∧
      run.outcome.repeats[1]? = some r ∧ run'.outcome.repeats[1]? = some r ∧
      r.index = 2 ∧ r.successCount = 0 ∧ r.failureCount = 1 ∧
      r.errors = Tally.ofKeys [Failure.key ⟨.setup, "no key"⟩] := by
  intro cfg
  obtain ⟨run, -, hfirst, hnone, hhappened, hone⟩ :=
    TwoRepeats.exists_run TwoRepeats.plays_quiet SecondRepeat.plays_second
  obtain ⟨run', hevents, hfirst', htwo, hhappened', hone'⟩ :=
    TwoRepeats.exists_run SecondRepeat.plays_busy SecondRepeat.plays_second_panicking
  have hclosing : run.closing? 2 = run'.closing? 2 := by
    rw [closing?, closing?, hhappened, hhappened']
    rfl
  have hsame : run.records 2 = run'.records 2 := hone.trans hone'.symm
  obtain ⟨r, hr, hr', hindex, hsuccesses, hfailures, herrors, -⟩ :=
    isolation run run' (by decide) (by decide) hsame hclosing
  rw [metrics, hone] at hsuccesses hfailures herrors
  refine ⟨run, run', r, hnone, htwo, ?_, ?_, ?_, hsame, hclosing, hr, hr', hindex, hsuccesses,
    hfailures, herrors⟩
  · rw [closing?, hfirst]
    rfl
  · rw [closing?, hfirst']
    rfl
  · rw [hevents]
    refine List.mem_append_right _ (List.mem_append_left _ ?_)
    simp [SecondRepeat.second, SecondRepeat.panicking, TwoRepeats.script]

end Completed
end ExchangeBench.Run
