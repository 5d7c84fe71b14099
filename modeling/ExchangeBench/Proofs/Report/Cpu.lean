import ExchangeBench.Proofs.Report.Contents
import ExchangeBench.Proofs.Sampler.Samples
import ExchangeBench.Proofs.Stats.Running
import ExchangeBench.Repeat

/-!
# The CPU record of a phase

A sampler takes ticks, and of each tick it keeps the sides that are present and finite, the system and the
process apart from each other. A record shows an average and a peak of either side, and one number of samples.
This is the number of those of the system, so where the host tells only of the process there are percentages
without samples.

- `CpuSamples.kept`, `CpuSamples.ofTicks_eq`: what some ticks add to one side, and so to the samples.
- `Running.mean?_ofList_eq_none_iff`, `Running.max?_ofList_eq_none_iff`: when an average or a peak is missing.
- `Contents.Cpu.TellsOf`: a record and the ticks that it tells of.
- `Contents.Cpu.percentages_of_ticks`: the record of every phase, however its sampler was opened and ended.
- `Contents.Cpu.percentages_without_samples`: a tick that is not counted.
-/

namespace ExchangeBench

variable {α : Type} [Scalar α]

/-! ## What is kept of ticks -/

namespace CpuSamples

/-- What some ticks add to one side: the percentages there that are present and finite. -/
def kept (side : CpuTick α → Option α) (ts : List (CpuTick α)) : List α :=
  (ts.filterMap side).filter Scalar.isFinite

/-- The samples of either side are what the ticks have added to it. -/
theorem ofTicks_eq (ts : List (CpuTick α)) :
    ofTicks ts = ⟨kept CpuTick.system ts, kept CpuTick.process ts⟩ := by
  have hlast : ∀ (side : CpuTick α → Option α) (ts : List (CpuTick α)) (t : CpuTick α),
      kept side (ts ++ [t]) = kept side ts ++ ((side t).filter Scalar.isFinite).toList := by
    intro side ts t
    rw [kept, List.filterMap_append, List.filter_append]
    cases h : side t with
    | none => rw [List.filterMap_cons_none h]; rfl
    | some x =>
      rw [List.filterMap_cons_some h, List.filterMap_nil, Option.filter_some]
      cases hx : Scalar.isFinite x with
      | true => rw [List.filter_cons_of_pos hx]; rfl
      | false => rw [List.filter_cons_of_neg (Bool.eq_false_iff.mp hx)]; rfl
  -- from the right: the tick that is taken in last
  induction ts using List.reverseRecOn with
  | nil => rfl
  | append_singleton ts t ih =>
    rw [Sampler.State.ofTicks_append_singleton, ih, hlast, hlast]
    rfl

theorem mem_kept_iff {side : CpuTick α → Option α} {ts : List (CpuTick α)} {x : α} :
    x ∈ kept side ts ↔ (∃ t ∈ ts, side t = some x) ∧ Scalar.isFinite x = true := by
  rw [kept, List.mem_filter, List.mem_filterMap]

/-- What is kept is finite, so it is passed over only if there is nothing. -/
theorem kept_eq_nil_iff {side : CpuTick α → Option α} {ts : List (CpuTick α)} :
    kept side ts = [] ↔ ∀ x ∈ kept side ts, Scalar.isFinite x = false := by
  constructor
  · intro h
    rw [h]
    exact List.forall_mem_nil _
  · intro h
    refine List.eq_nil_iff_forall_not_mem.mpr fun x hx => ?_
    have hfalse := h x hx
    rw [(mem_kept_iff.mp hx).2] at hfalse
    cases hfalse

end CpuSamples

/-! ## When an average or a peak is missing -/

namespace Running

/-- Nothing is counted if and only if nothing is finite, even where the count has stopped at its limit. -/
theorem count_ofList_eq_zero_iff (xs : List α) :
    (ofList xs).count = 0 ↔ ∀ x ∈ xs, Scalar.isFinite x = false := by
  induction xs using List.reverseRecOn with
  | nil => exact iff_of_true rfl (List.forall_mem_nil _)
  | append_singleton xs x ih =>
    rw [ofList_append_singleton, List.forall_mem_append, List.forall_mem_singleton]
    cases hx : Scalar.isFinite x with
    | false => rw [push_of_not_isFinite _ hx, ih, and_iff_left rfl]
    | true =>
      refine iff_of_false (fun hzero => ?_) fun h => Bool.noConfusion h.2
      have hone := one_le_add_one (ofList xs).count
      rw [← count_push hx, hzero] at hone
      exact absurd hone (by decide)

theorem mean?_ofList_eq_none_iff (xs : List α) :
    (ofList xs).mean? = none ↔ ∀ x ∈ xs, Scalar.isFinite x = false := by
  rw [← count_ofList_eq_zero_iff, mean?]
  split
  next h => exact iff_of_true rfl h
  next h => exact iff_of_false (Option.some_ne_none _) h

theorem max?_ofList_eq_none_iff (xs : List α) :
    (ofList xs).max? = none ↔ ∀ x ∈ xs, Scalar.isFinite x = false := by
  rw [← count_ofList_eq_zero_iff, max?]
  split
  next h => exact iff_of_true rfl h
  next h => exact iff_of_false (Option.some_ne_none _) h

/-- An average does not exceed the peak beside it. -/
theorem mean?_le_max? [Scalar.Exact α] {xs : List α} {avg peak : α} (havg : (ofList xs).mean? = some avg)
    (hpeak : (ofList xs).max? = some peak) : Scalar.Exact.real avg ≤ Scalar.Exact.real peak := by
  have h := describes_ofList xs
  rw [h.mean?_eq] at havg
  rw [h.max?_eq] at hpeak
  split at havg
  next => cases havg
  next hne =>
    rw [if_neg hne] at hpeak
    cases havg
    cases hpeak
    exact h.mean_le_max fun hnil => hne (congrArg List.length hnil)

end Running

/-! ## The record of a phase -/

open CpuSamples (kept)

namespace Contents.Cpu

/-- A record tells of some ticks: a percentage is missing if no tick has one on its side, and the ticks that
have one of the system are counted. -/
structure TellsOf (c : Contents.Cpu α) (ts : List (CpuTick α)) : Prop where
  systemAvg : c.systemAvg = none ↔ kept CpuTick.system ts = []
  systemPeak : c.systemPeak = none ↔ kept CpuTick.system ts = []
  processAvg : c.processAvg = none ↔ kept CpuTick.process ts = []
  processPeak : c.processPeak = none ↔ kept CpuTick.process ts = []
  sampleCount : c.sampleCount = (kept CpuTick.system ts).length

/-- A record without percentages and samples. -/
structure Absent (c : Contents.Cpu α) : Prop where
  systemAvg : c.systemAvg = none
  systemPeak : c.systemPeak = none
  processAvg : c.processAvg = none
  processPeak : c.processPeak = none
  sampleCount : c.sampleCount = 0

/-- The record of the samples of some ticks tells of these ticks. -/
theorem tellsOf_ofTicks (ts : List (CpuTick α)) (interval : Duration) (load : Option (LoadAverage α))
    (logicalCpus : Nat) :
    TellsOf (ofSummary (.ofSamples (some (.ofTicks ts)) interval load logicalCpus)) ts := by
  rw [CpuSamples.ofTicks_eq]
  exact
    { systemAvg := (Running.mean?_ofList_eq_none_iff _).trans CpuSamples.kept_eq_nil_iff.symm
      systemPeak := (Running.max?_ofList_eq_none_iff _).trans CpuSamples.kept_eq_nil_iff.symm
      processAvg := (Running.mean?_ofList_eq_none_iff _).trans CpuSamples.kept_eq_nil_iff.symm
      processPeak := (Running.max?_ofList_eq_none_iff _).trans CpuSamples.kept_eq_nil_iff.symm
      sampleCount := rfl }

/-- The record of a phase without a sampler tells of no tick. -/
theorem tellsOf_unsampled (s : CpuSummary α) : TellsOf (unsampled s) [] where
  systemAvg := iff_of_true rfl rfl
  systemPeak := iff_of_true rfl rfl
  processAvg := iff_of_true rfl rfl
  processPeak := iff_of_true rfl rfl
  sampleCount := rfl

/-- The ticks that a record can tell of: those whose samples the sampler has handed over. -/
def seen (ts : List (CpuTick α)) : SamplerState → List (CpuTick α)
  | .observed => ts
  | .unavailable | .unobserved => []

/-- **Every record tells of the ticks that were seen**, however the sampler was opened and ended. -/
theorem tellsOf_of_samplesOf {exit : Sampler.Exit α} {opening : Opening}
    {samples : Option (CpuSamples α)} {state : SamplerState} {ts : List (CpuTick α)}
    (hsamples : RepeatResult.samplesOf exit opening = .ok (samples, state))
    (hticks : ∀ s, exit = .joined s → s = .ofTicks ts) (interval : Duration)
    (load : Option (LoadAverage α)) (logicalCpus : Nat) :
    TellsOf (ofSummary (.ofSamples samples interval load logicalCpus)) (seen ts state) := by
  cases opening with
  | unavailable =>
    cases hsamples
    exact tellsOf_unsampled _
  | opened =>
    cases exit with
    | joined s =>
      cases hsamples
      rw [hticks s rfl]
      exact tellsOf_ofTicks ts interval load logicalCpus
    | timedOut | lost =>
      cases hsamples
      exact tellsOf_ofTicks [] interval load logicalCpus
  | unspawned | panicked => cases hsamples

/-- Where a record tells only of the process, nothing is counted. -/
theorem TellsOf.absent_iff {c : Contents.Cpu α} {ts : List (CpuTick α)} (h : TellsOf c ts) :
    c.Absent ↔ c.sampleCount = 0 ∧ kept CpuTick.process ts = [] := by
  constructor
  · exact fun habsent => ⟨habsent.sampleCount, h.processAvg.mp habsent.processAvg⟩
  · rintro ⟨hcount, hprocess⟩
    have hsystem := List.length_eq_zero_iff.mp (h.sampleCount.symm.trans hcount)
    exact ⟨h.systemAvg.mpr hsystem, h.systemPeak.mpr hsystem, h.processAvg.mpr hprocess,
      h.processPeak.mpr hprocess, hcount⟩

/-- A record shows the figures of its summary. -/
theorem usage_ofSamples (samples : Option (CpuSamples α)) (interval : Duration)
    (load : Option (LoadAverage α)) (logicalCpus : Nat) :
    let s := CpuSummary.ofSamples samples interval load logicalCpus
    let c := ofSummary s
    s.usage = .unavailable ∧ c.Absent ∨
      s.usage = .available c.systemAvg c.systemPeak c.processAvg c.processPeak c.sampleCount := by
  cases samples with
  | none => exact .inl ⟨rfl, rfl, rfl, rfl, rfl, rfl⟩
  | some s => exact .inr rfl

/-- What is not sampled is kept with or without samples. -/
theorem kept_ofSamples (samples : Option (CpuSamples α)) (interval : Duration)
    (load : Option (LoadAverage α)) (logicalCpus : Nat) :
    let s := CpuSummary.ofSamples samples interval load logicalCpus
    let c := ofSummary s
    s.loadAverage = load ∧ s.logicalCpus = logicalCpus ∧ c.loadOne = load.map LoadAverage.one ∧
      c.loadFive = load.map LoadAverage.five ∧ c.loadFifteen = load.map LoadAverage.fifteen ∧
      c.logicalCpus = logicalCpus := by
  cases samples with
  | none => exact ⟨rfl, rfl, rfl, rfl, rfl, rfl⟩
  | some s => exact ⟨rfl, rfl, rfl, rfl, rfl, rfl⟩

/-- The average of one side does not exceed its peak. -/
theorem avg_le_peak [Scalar.Exact α] (samples : Option (CpuSamples α)) (interval : Duration)
    (load : Option (LoadAverage α)) (logicalCpus : Nat) :
    let c := ofSummary (.ofSamples samples interval load logicalCpus)
    (∀ avg peak, c.systemAvg = some avg → c.systemPeak = some peak →
      Scalar.Exact.real avg ≤ Scalar.Exact.real peak) ∧
    ∀ avg peak, c.processAvg = some avg → c.processPeak = some peak →
      Scalar.Exact.real avg ≤ Scalar.Exact.real peak := by
  cases samples with
  | none => exact ⟨fun _ _ h => (nomatch h), fun _ _ h => (nomatch h)⟩
  | some s => exact ⟨fun _ _ => Running.mean?_le_max?, fun _ _ => Running.mean?_le_max?⟩

/-- **The CPU record of a phase.** However its sampler was opened and ended, and whatever the ticks were, the
summary and the record made from it show the same. Average and peak of one side are both there or both
missing, and where nothing is rounded the average does not exceed the peak. The samples are those of the
system: without one there is no percentage of the system, but all percentages are missing if and only if, in
addition, no tick that was seen has one of the process. Where the host does not sample, or the samples came
too late or not at all, there is no percentage and no sample; and the load averages and the logical CPUs are
kept in any case. -/
theorem percentages_of_ticks {exit : Sampler.Exit α} {opening : Opening}
    {samples : Option (CpuSamples α)} {state : SamplerState} {ts : List (CpuTick α)}
    (hsamples : RepeatResult.samplesOf exit opening = .ok (samples, state))
    (hticks : ∀ s, exit = .joined s → s = .ofTicks ts) (interval : Duration)
    (load : Option (LoadAverage α)) (logicalCpus : Nat) :
    let s := CpuSummary.ofSamples samples interval load logicalCpus
    let c := ofSummary s
    (s.usage = .unavailable ∧ c.Absent ∨
      s.usage = .available c.systemAvg c.systemPeak c.processAvg c.processPeak c.sampleCount) ∧
    (c.systemAvg = none ↔ c.systemPeak = none) ∧ (c.processAvg = none ↔ c.processPeak = none) ∧
    (∀ [Scalar.Exact α],
      (∀ avg peak, c.systemAvg = some avg → c.systemPeak = some peak →
        Scalar.Exact.real avg ≤ Scalar.Exact.real peak) ∧
      ∀ avg peak, c.processAvg = some avg → c.processPeak = some peak →
        Scalar.Exact.real avg ≤ Scalar.Exact.real peak) ∧
    c.sampleCount = (kept CpuTick.system (seen ts state)).length ∧
    (c.sampleCount = 0 ↔ c.systemAvg = none) ∧
    (c.Absent ↔ c.sampleCount = 0 ∧ kept CpuTick.process (seen ts state) = []) ∧
    (state ≠ .observed → c.Absent) ∧
    s.loadAverage = load ∧ s.logicalCpus = logicalCpus ∧ c.loadOne = load.map LoadAverage.one ∧
    c.loadFive = load.map LoadAverage.five ∧ c.loadFifteen = load.map LoadAverage.fifteen ∧
    c.logicalCpus = logicalCpus := by
  intro s c
  have h : TellsOf c (seen ts state) := tellsOf_of_samplesOf hsamples hticks interval load logicalCpus
  have hcount : c.sampleCount = 0 ↔ c.systemAvg = none := by
    rw [h.sampleCount, List.length_eq_zero_iff, h.systemAvg]
  have hunseen : state ≠ .observed → c.Absent := by
    intro hstate
    have hnil : seen ts state = [] := by
      cases state with
      | observed => exact absurd rfl hstate
      | unavailable | unobserved => rfl
    rw [hnil] at h
    exact h.absent_iff.mpr ⟨h.sampleCount, rfl⟩
  exact ⟨usage_ofSamples samples interval load logicalCpus, h.systemAvg.trans h.systemPeak.symm,
    h.processAvg.trans h.processPeak.symm, avg_le_peak samples interval load logicalCpus,
    h.sampleCount, hcount, h.absent_iff, hunseen, kept_ofSamples samples interval load logicalCpus⟩

/-- Of three ticks two have a finite percentage of the system, and none has one of the process. -/
theorem percentages_of_ticks_of_three :
    let ts : List (CpuTick Extended) :=
      [⟨some (.finite 10), some .nan⟩, ⟨some (.infinite false), none⟩, ⟨some (.finite 30), none⟩]
    let c := ofSummary (.ofSamples (some (.ofTicks ts)) (.ofMillis 500) none 8)
    RepeatResult.samplesOf (.joined (.ofTicks ts)) .opened = .ok (some (.ofTicks ts), .observed) ∧
    c.sampleCount = 2 ∧ c.systemAvg ≠ none ∧ c.systemPeak ≠ none ∧ c.processAvg = none ∧
    c.processPeak = none := by
  intro ts c
  have hsamples : RepeatResult.samplesOf (.joined (.ofTicks ts)) .opened =
    .ok (some (.ofTicks ts), .observed) := rfl
  obtain ⟨-, hsystem, hprocess, -, hlength, hcount, -⟩ := percentages_of_ticks hsamples
    (fun s hs => (Sampler.Exit.joined.inj hs).symm) (.ofMillis 500) none 8
  have htwo : c.sampleCount = 2 := hlength
  have hpresent : c.systemAvg ≠ none := fun hnone => by
    have hzero := hcount.mpr hnone
    rw [htwo] at hzero
    cases hzero
  have habsent : c.processAvg = none := rfl
  exact ⟨hsamples, htwo, hpresent, fun hnone => hpresent (hsystem.mpr hnone), habsent,
    hprocess.mp habsent⟩

/-- **A tick of the process alone is not counted**, but its percentage is shown, as average and as peak. -/
theorem percentages_without_samples :
    let ts : List (CpuTick Float) := [⟨none, some 12.5⟩]
    let c := ofSummary (.ofSamples (some (.ofTicks ts)) (.ofMillis 500) none 1)
    RepeatResult.samplesOf (.joined (.ofTicks ts)) .opened = .ok (some (.ofTicks ts), .observed) ∧
    c.sampleCount = 0 ∧ c.processAvg = some 12.5 ∧ c.processPeak = some 12.5 ∧
    ¬(c.sampleCount = 0 → c.Absent) := by
  intro ts c
  have hcount : c.sampleCount = 0 := rfl
  have hprocess : c.processAvg = some 12.5 := rfl
  refine ⟨rfl, hcount, hprocess, rfl, fun h => ?_⟩
  have hnone := (h hcount).processAvg
  rw [hprocess] at hnone
  cases hnone

end Contents.Cpu
end ExchangeBench
