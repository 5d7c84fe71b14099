import Mathlib
import ExchangeBench.Proofs.Percentile.Key
import ExchangeBench.Proofs.Stats.Running
import ExchangeBench.Repeat.Summary

/-!
# The summary across repeats is that of its definition

Each field of the summary is a statistic over the repeats that have a value of their own: every repeat
has a throughput, but only one with latency samples has percentiles and a maximum. So no two fields need
be about the same repeats, and a repeat without a value is neither taken for zero nor counted.

- `Running.IsMean`, `Running.IsDeviation`, `Running.IsMaximum`: the statistics of a list of numbers, and
  when they are absent. Running statistics that agree with the numbers show them (`Describes.isMean`).
- `CrossRepeatSummary.values`: the values of the repeats that have one.
- `CrossRepeatSummary.Summarizes`: what a summary is, field by field.
- `CrossRepeatSummary.summarizes_ofRepeats`: the summary of repeats with finite values.
- `CrossRepeatSummary.real_ofRepeats_perm`: it does not depend on their order.
-/

namespace ExchangeBench

open Scalar (Exact)

variable {α : Type} [Scalar α] [Exact α]

/-! ## Statistics of numbers -/

namespace Running

/-- A statistic: absent in some case, and in any other a finite scalar that stands for the right number. -/
structure IsStatistic (absent : Prop) (right : ℝ → Prop) (v : Option α) : Prop where
  absent : v = none ↔ absent
  present : ∀ x, v = some x → Scalar.isFinite x = true ∧ right (Exact.real x)

/-- The mean of some numbers, absent where there are none. -/
def IsMean (ys : List ℝ) : Option α → Prop :=
  IsStatistic (ys = []) fun m => m = ys.sum / ys.length

/-- The sample standard deviation of some numbers, absent where there are fewer than two. -/
def IsDeviation (ys : List ℝ) : Option α → Prop :=
  IsStatistic (ys.length < 2) fun d =>
    d = √((ys.map fun y => (y - ys.sum / ys.length) ^ 2).sum / (ys.length - 1))

/-- The largest of some numbers, absent where there are none. -/
def IsMaximum (ys : List ℝ) : Option α → Prop :=
  IsStatistic (ys = []) (IsGreatest {y | y ∈ ys})

theorem IsStatistic.of_absent {absent : Prop} {right : ℝ → Prop} (h : absent) :
    IsStatistic absent right (none : Option α) :=
  ⟨iff_of_true rfl h, fun _ hx => nomatch hx⟩

theorem IsStatistic.of_present {absent : Prop} {right : ℝ → Prop} {x : α} (h : ¬absent)
    (hx : Scalar.isFinite x = true) (hright : right (Exact.real x)) :
    IsStatistic absent right (some x) := by
  refine ⟨iff_of_false (Option.some_ne_none x) h, ?_⟩
  rintro _ ⟨⟩
  exact ⟨hx, hright⟩

theorem IsStatistic.exists_of_not {absent : Prop} {right : ℝ → Prop} {v : Option α}
    (h : IsStatistic absent right v) (hpresent : ¬absent) :
    ∃ x, v = some x ∧ right (Exact.real x) := by
  obtain ⟨x, hx⟩ := Option.ne_none_iff_exists'.mp (mt h.absent.mp hpresent)
  exact ⟨x, hx, (h.present x hx).2⟩

namespace Describes

variable {r : Running α} {ys : List ℝ}

theorem real_mean_eq (h : r.Describes ys) (hlt : ys.length < UInt64.size) (hsome : ys ≠ []) :
    Exact.real r.mean = ys.sum / ys.length := by
  have hlength : (ys.length : ℝ) ≠ 0 :=
    Nat.cast_ne_zero.mpr fun hno => hsome (List.length_eq_zero_iff.mp hno)
  rw [eq_div_iff hlength]
  exact h.average hlt

theorem isMean (h : r.Describes ys) (hlt : ys.length < UInt64.size) : IsMean ys r.mean? := by
  rw [h.mean?_eq]
  simp only [List.length_eq_zero_iff]
  by_cases hnone : ys = []
  · rw [if_pos hnone]
    exact .of_absent hnone
  · rw [if_neg hnone]
    exact .of_present hnone h.finiteMean (h.real_mean_eq hlt hnone)

theorem isMaximum (h : r.Describes ys) : IsMaximum ys r.max? := by
  rw [h.max?_eq]
  simp only [List.length_eq_zero_iff]
  by_cases hnone : ys = []
  · rw [if_pos hnone]
    exact .of_absent hnone
  · rw [if_neg hnone]
    exact .of_present hnone h.finiteMax (h.greatest hnone)

theorem isDeviation (h : r.Describes ys) (hlt : ys.length < UInt64.size) :
    IsDeviation ys r.stdev? := by
  by_cases hfew : ys.length < 2
  · rw [h.stdev?_eq_none hfew]
    exact .of_absent hfew
  · have hmany := Nat.not_lt.mp hfew
    have hsome : ys ≠ [] := List.ne_nil_of_length_pos (Nat.lt_of_lt_of_le Nat.zero_lt_two hmany)
    obtain ⟨-, stdev, -, -, hstdev, hfinite, hreal⟩ := h.exists_stdev hmany
    rw [hstdev]
    refine .of_present hfew hfinite (hreal.trans ?_)
    rw [h.squared hlt, h.real_mean_eq hlt hsome, h.count, Count.toNat_saturate_of_lt hlt]
    rfl

end Describes
end Running

/-! ## Values of repeats -/

/-- The values of a repeat's result that are there are finite. -/
structure RepeatResult.Finite (r : RepeatResult α) : Prop where
  throughput : Scalar.isFinite r.throughput = true
  percentile : ∀ key v, r.latency.get? key = some v → Scalar.isFinite v = true
  max : ∀ m, r.latency.max = some m → Scalar.isFinite m = true

namespace CrossRepeatSummary

open Running (IsMean IsDeviation IsMaximum numbers)

/-- The values of the repeats that have one, as numbers. -/
noncomputable def values (f : RepeatResult α → Option α) (rs : List (RepeatResult α)) : List ℝ :=
  (rs.filterMap f).map Exact.real

variable {f : RepeatResult α → Option α} {rs rs' : List (RepeatResult α)}

theorem values_some (f : RepeatResult α → α) (rs : List (RepeatResult α)) :
    values (fun r => some (f r)) rs = rs.map fun r => Exact.real (f r) := by
  rw [values, List.filterMap_eq_map', List.map_map]
  rfl

/-- There are no values only if no repeat has one. -/
theorem values_eq_nil_iff : values f rs = [] ↔ ∀ r ∈ rs, f r = none := by
  rw [values, List.map_eq_nil_iff, List.filterMap_eq_nil_iff]

theorem length_values_le : (values f rs).length ≤ rs.length := by
  rw [values, List.length_map]
  exact List.length_filterMap_le _ _

/-- Values that are finite are numbers, none of which is passed over. -/
theorem numbers_eq_values (h : ∀ r ∈ rs, ∀ v, f r = some v → Scalar.isFinite v = true) :
    numbers (rs.filterMap f) = values f rs := by
  have hall : (rs.filterMap f).filter Scalar.isFinite = rs.filterMap f := by
    refine List.filter_eq_self.mpr fun v hv => ?_
    obtain ⟨r, hr, hv⟩ := List.mem_filterMap.mp hv
    exact h r hr v hv
  rw [numbers, hall, values]

theorem describes_statistics (h : ∀ r ∈ rs, ∀ v, f r = some v → Scalar.isFinite v = true) :
    (statistics f rs).Describes (values f rs) :=
  numbers_eq_values h ▸ Running.describes_ofList _

/-- The mean over the repeats that have a value. -/
theorem isMean_statistics (h : ∀ r ∈ rs, ∀ v, f r = some v → Scalar.isFinite v = true)
    (hlt : rs.length < UInt64.size) : IsMean (values f rs) (statistics f rs).mean? :=
  (describes_statistics h).isMean (Nat.lt_of_le_of_lt length_values_le hlt)

/-! ## Summaries -/

/-- What a summary says of some repeats. The mean of `p99` is that over the repeats that have one, as is
that of `p99_9` if 99.9 was asked for. -/
structure Summarizes (set : PercentileSet) (rs : List (RepeatResult α))
    (s : CrossRepeatSummary α) : Prop where
  throughputMean : IsMean (rs.map fun r => Exact.real r.throughput) s.throughputMean
  throughputStdev : IsDeviation (rs.map fun r => Exact.real r.throughput) s.throughputStdev
  p99Mean : IsMean (values (fun r => r.latency.get? "p99") rs) s.p99Mean
  p999Mean : Percentile.p999 ∈ set.requested →
    IsMean (values (fun r => r.latency.get? "p99_9") rs) s.p999Mean
  p999Mean_unasked : Percentile.p999 ∉ set.requested → s.p999Mean = none
  maxLatencyMax : IsMaximum (values (fun r => r.latency.max) rs) s.maxLatencyMax

/-- **The summary of repeats** whose values are finite. -/
theorem summarizes_ofRepeats (set : PercentileSet) (hfinite : ∀ r ∈ rs, r.Finite)
    (hlt : rs.length < UInt64.size) : Summarizes set rs (ofRepeats set rs) := by
  have hthroughput : (statistics (fun r => some r.throughput) rs).Describes
      (rs.map fun r => Exact.real r.throughput) := by
    rw [← values_some]
    refine describes_statistics fun r hr v hv => ?_
    obtain rfl := Option.some.inj hv
    exact (hfinite r hr).throughput
  have hlt' : (rs.map fun r => Exact.real r.throughput).length < UInt64.size := by
    rwa [List.length_map]
  have hpercentile : ∀ key, IsMean (values (fun r => r.latency.get? key) rs)
      (statistics (fun r => r.latency.get? key) rs).mean? := fun key =>
    isMean_statistics (fun r hr => (hfinite r hr).percentile key) hlt
  constructor
  case throughputMean => exact hthroughput.isMean hlt'
  case throughputStdev => exact hthroughput.isDeviation hlt'
  case p99Mean => exact Percentile.key_p99 ▸ hpercentile Percentile.p99.key
  case p999Mean =>
    intro hasked
    have hcontains : set.contains Percentile.p999 = true := List.contains_iff_mem.mpr hasked
    simp only [ofRepeats, if_pos hcontains]
    exact Percentile.key_p999 ▸ hpercentile Percentile.p999.key
  case p999Mean_unasked =>
    intro hasked
    have hcontains : ¬set.contains Percentile.p999 = true := mt List.contains_iff_mem.mp hasked
    simp only [ofRepeats, if_neg hcontains]
  case maxLatencyMax =>
    exact (describes_statistics fun r hr => (hfinite r hr).max).isMaximum

/-- There is a mean of `p99_9` if and only if 99.9 was asked for and some repeat has it. -/
theorem Summarizes.isSome_p999Mean {set : PercentileSet} {s : CrossRepeatSummary α}
    (h : Summarizes set rs s) : s.p999Mean.isSome = true ↔
      Percentile.p999 ∈ set.requested ∧ ∃ r ∈ rs, (r.latency.get? "p99_9").isSome = true := by
  by_cases hasked : Percentile.p999 ∈ set.requested
  · rw [Option.isSome_iff_ne_none, Ne, (h.p999Mean hasked).absent, values_eq_nil_iff,
      and_iff_right hasked]
    simp only [not_forall, exists_prop, Option.isSome_iff_ne_none, ne_eq]
  · rw [h.p999Mean_unasked hasked]
    exact iff_of_false Bool.false_ne_true fun hand => hasked hand.1

/-- A summary, as numbers. -/
noncomputable def real (s : CrossRepeatSummary α) : CrossRepeatSummary ℝ where
  throughputMean := s.throughputMean.map Exact.real
  throughputStdev := s.throughputStdev.map Exact.real
  p99Mean := s.p99Mean.map Exact.real
  p999Mean := s.p999Mean.map Exact.real
  maxLatencyMax := s.maxLatencyMax.map Exact.real

/-- **The order of the repeats leaves no trace** in their summary, whether their values are finite or
not. -/
theorem real_ofRepeats_perm (set : PercentileSet) (hperm : rs'.Perm rs)
    (hlt : rs.length < UInt64.size) : (ofRepeats set rs').real = (ofRepeats set rs).real := by
  have hshown : ∀ f, (statistics f rs').shown = (statistics f rs).shown := by
    intro f
    refine (Running.describes_ofList _).shown_eq (Running.describes_ofList _)
      (Running.numbers_perm (hperm.filterMap f)) (Nat.lt_of_le_of_lt ?_ hlt)
    rw [numbers, List.length_map]
    exact (List.length_filter_le _ _).trans (List.length_filterMap_le _ _)
  have hmean : ∀ f, (statistics f rs').mean?.map Exact.real = (statistics f rs).mean?.map Exact.real :=
    fun f => congrArg (fun shown => shown.2.1) (hshown f)
  have hstdev : ∀ f, (statistics f rs').stdev?.map Exact.real =
      (statistics f rs).stdev?.map Exact.real :=
    fun f => congrArg (fun shown => shown.2.2.1) (hshown f)
  have hmax : ∀ f, (statistics f rs').max?.map Exact.real = (statistics f rs).max?.map Exact.real :=
    fun f => congrArg (fun shown => shown.2.2.2) (hshown f)
  simp only [real, ofRepeats, apply_ite (Option.map Exact.real), hmean, hstdev, hmax]

end CrossRepeatSummary
end ExchangeBench
