import ExchangeBench.Proofs.Scalar.Rounded
import ExchangeBench.Proofs.Stats.Entries
import ExchangeBench.Proofs.Stats.Interpolation

/-!
# Percentiles stay in order whatever the rounding

Rounding can carry an interpolated value past the sample that bounds it, and a rank into the next
bracket. Still a larger percentile never has a smaller value. Within one bracket every step of the
interpolation keeps the order, as the rounding does. Of two ranks in different brackets the upper sample
of the first is at most the lower sample of the second, and holding the values between their samples is
what makes this enough.

- `Quantile.atBracket_mono`, `Quantile.atBracket_le_atBracket`: one bracket, and two of them.
- `Quantile.ofSorted_mono`: quantiles are in order, from the first sample to the last.
- `Quantile.ofSorted_one`: the last one is the last sample.
- `LatencySummary.percentiles_in_order`: the same for summaries.
-/

namespace ExchangeBench

variable {round : ℝ → ℝ}

open Rounded (Steady)

/-! ## Values in a bracket -/

namespace Quantile

theorem real_clamp {lo hi : Rounded round} (h : lo.real ≤ hi.real) (x : Rounded round) :
    (clamp lo hi x).real = max lo.real (min hi.real x.real) := by
  unfold clamp
  by_cases hlo : x.real < lo.real
  · rw [if_pos ((Rounded.less_iff _ _).mpr hlo), max_eq_left ((min_le_right _ _).trans hlo.le)]
  · rw [if_neg (mt (Rounded.less_iff _ _).mp hlo)]
    by_cases hhi : hi.real < x.real
    · rw [if_pos ((Rounded.less_iff _ _).mpr hhi), min_eq_left hhi.le, max_eq_right h]
    · rw [if_neg (mt (Rounded.less_iff _ _).mp hhi), min_eq_right (not_lt.mp hhi),
        max_eq_right (not_lt.mp hlo)]

/-- The value between two samples, held between them. -/
noncomputable def held (lo hi weight : Rounded round) : Rounded round :=
  clamp lo hi (lo + (hi - lo) * weight)

theorem between_eq_held {lo hi : Rounded round} (h : lo.real ≤ hi.real) (weight : Rounded round) :
    between lo hi weight = .ok (held lo hi weight) :=
  if_pos ((Rounded.atMost_iff _ _).mpr h)

theorem le_held {lo hi : Rounded round} (h : lo.real ≤ hi.real) (weight : Rounded round) :
    lo.real ≤ (held lo hi weight).real := by
  rw [held, real_clamp h]
  exact le_max_left _ _

theorem held_le {lo hi : Rounded round} (h : lo.real ≤ hi.real) (weight : Rounded round) :
    (held lo hi weight).real ≤ hi.real := by
  rw [held, real_clamp h]
  exact max_le h (min_le_left _ _)

/-- Every step of the interpolation keeps the order of the weights. -/
theorem held_mono {n : ℕ} (hround : Steady round n) {lo hi : Rounded round}
    (h : lo.real ≤ hi.real) {weight weight' : Rounded round} (hle : weight.real ≤ weight'.real) :
    (held lo hi weight).real ≤ (held lo hi weight').real := by
  have hwidth : 0 ≤ round (hi.real - lo.real) := hround.nonneg (sub_nonneg.mpr h)
  have hproduct : ((hi - lo) * weight).real ≤ ((hi - lo) * weight').real :=
    hround.monotone (mul_le_mul_of_nonneg_left hle hwidth)
  have hsum : (lo + (hi - lo) * weight).real ≤ (lo + (hi - lo) * weight').real :=
    hround.monotone (add_le_add_right hproduct lo.real)
  rw [held, held, real_clamp h, real_clamp h]
  exact max_le_max_left _ (min_le_min_left _ hsum)

/-! ## Values at ranks -/

/-- The value at a rank in the bracket that begins at an index. -/
noncomputable def atBracket (xs : Array (Rounded round)) (k : ℕ) (hk : k < xs.size)
    (rank : Rounded round) : Rounded round :=
  have hnext : min (k + 1) (xs.size - 1) < xs.size := by omega
  held xs[k] xs[min (k + 1) (xs.size - 1)] (rank - Scalar.ofNat k)

/-- Samples in order. -/
def Sorted (xs : Array (Rounded round)) : Prop :=
  ∀ (i j : ℕ) (hi : i < xs.size) (hj : j < xs.size), i ≤ j → xs[i].real ≤ xs[j].real

variable {xs : Array (Rounded round)}

section Bracket

variable (hsorted : Sorted xs)

include hsorted

theorem le_atBracket {k : ℕ} (hk : k < xs.size) (r : Rounded round) :
    xs[k].real ≤ (atBracket xs k hk r).real :=
  le_held (hsorted _ _ _ _ (by omega)) _

theorem atBracket_le {k j : ℕ} (hk : k < xs.size) (hj : j < xs.size)
    (hnext : min (k + 1) (xs.size - 1) ≤ j) (r : Rounded round) :
    (atBracket xs k hk r).real ≤ xs[j].real :=
  (held_le (hsorted _ _ _ _ (by omega)) _).trans (hsorted _ _ _ _ hnext)

/-- Within one bracket a larger rank has no smaller value. -/
theorem atBracket_mono {n : ℕ} (hround : Steady round n) {k : ℕ} (hk : k < xs.size)
    {r r' : Rounded round} (hle : r.real ≤ r'.real) :
    (atBracket xs k hk r).real ≤ (atBracket xs k hk r').real := by
  have hweight : (r - Scalar.ofNat k).real ≤ (r' - Scalar.ofNat k).real :=
    hround.monotone (sub_le_sub_right hle _)
  exact held_mono hround (hsorted _ _ _ _ (by omega)) hweight

/-- Values in different brackets are apart: a sample stands between them. -/
theorem atBracket_le_atBracket {k k' : ℕ} (hk : k < xs.size) (hk' : k' < xs.size) (hlt : k < k')
    (r r' : Rounded round) : (atBracket xs k hk r).real ≤ (atBracket xs k' hk' r').real :=
  (atBracket_le hsorted hk hk' (by omega) r).trans (le_atBracket hsorted hk' r')

/-- A quantile is the value at its rank. -/
theorem ofSorted_eq_atBracket (hsize : xs.size ≠ 0) (q : Rounded round) :
    ofSorted xs q = .ok (some (atBracket xs (lower xs (rank xs q)) (lower_lt hsize _) (rank xs q))) := by
  obtain ⟨hlower, hupper, hquantile⟩ := ofSorted_eq_between hsize q
  rw [hquantile, between_eq_held (hsorted _ _ hlower hupper (lower_le_upper xs _))]
  rfl

end Bracket

theorem rank_mono (xs : Array (Rounded round)) {n : ℕ} (hround : Steady round n)
    {q q' : Rounded round} (hle : q.real ≤ q'.real) :
    (rank xs q).real ≤ (rank xs q').real := by
  have hunit : (Scalar.ofNat 0 : Rounded round).real ≤ (Scalar.ofNat 1 : Rounded round).real :=
    hround.monotone (Nat.cast_le.mpr zero_le_one)
  have hclamp : (clamp (Scalar.ofNat 0) (Scalar.ofNat 1) q).real ≤
      (clamp (Scalar.ofNat 0) (Scalar.ofNat 1) q').real := by
    rw [real_clamp hunit, real_clamp hunit]
    exact max_le_max_left _ (min_le_min_left _ hle)
  exact hround.monotone (mul_le_mul_of_nonneg_left hclamp (hround.nonneg (Nat.cast_nonneg _)))

theorem lower_mono {r r' : Rounded round} (hle : r.real ≤ r'.real) : lower xs r ≤ lower xs r' :=
  min_le_min_right _ (Nat.floor_le_floor hle)

/-- **Quantiles are in order**, from the first sample to the last, whatever the rounding. -/
theorem ofSorted_mono (hround : Steady round xs.size) (hsorted : Sorted xs) (hsize : xs.size ≠ 0)
    {q q' : Rounded round} (hle : q.real ≤ q'.real) :
    ∃ v v', ofSorted xs q = .ok (some v) ∧ ofSorted xs q' = .ok (some v') ∧
      xs[0].real ≤ v.real ∧ v.real ≤ v'.real ∧ v'.real ≤ xs[xs.size - 1].real := by
  have hrank := rank_mono xs hround hle
  have hlt := lower_lt hsize (rank xs q)
  have hlt' := lower_lt hsize (rank xs q')
  refine ⟨_, _, ofSorted_eq_atBracket hsorted hsize q, ofSorted_eq_atBracket hsorted hsize q',
    (hsorted _ _ _ hlt (Nat.zero_le _)).trans (le_atBracket hsorted hlt _), ?_,
    atBracket_le hsorted hlt' _ (Nat.min_le_right _ _) _⟩
  rcases Nat.lt_or_eq_of_le (lower_mono hrank) with hbefore | hsame
  · exact atBracket_le_atBracket hsorted hlt hlt' hbefore _ _
  · simp only [← hsame]
    exact atBracket_mono hsorted hround hlt hrank

/-- The last quantile is the last sample. -/
theorem ofSorted_one (hround : Steady round xs.size) (hsorted : Sorted xs) (hsize : xs.size ≠ 0)
    {q : Rounded round} (hq : q.real = 1) : ofSorted xs q = .ok (some xs[xs.size - 1]) := by
  have hlast : round ((xs.size - 1 : ℕ) : ℝ) = (xs.size - 1 : ℕ) := hround.index _ (by omega)
  -- its rank is the last index, exactly, so its bracket is the last sample alone
  have hclamp : (clamp (Scalar.ofNat 0) (Scalar.ofNat 1) q).real = 1 := by
    have hzero : (Scalar.ofNat 0 : Rounded round).real = 0 := by
      rw [Rounded.real_ofNat, Nat.cast_zero, hround.zero]
    have hone : (Scalar.ofNat 1 : Rounded round).real = 1 := by
      rw [Rounded.real_ofNat, Nat.cast_one, hround.one]
    rw [real_clamp (by rw [hzero, hone]; exact zero_le_one), hzero, hone, hq, min_self,
      max_eq_right zero_le_one]
  have hrank : (rank xs q).real = (xs.size - 1 : ℕ) := by
    rw [rank, Rounded.real_mul, hclamp, Rounded.real_ofNat, hlast, mul_one, hlast]
  have hlower : lower xs (rank xs q) = xs.size - 1 := by
    have hfloor : Scalar.floor (rank xs q) = ⌊(rank xs q).real⌋₊ := rfl
    rw [lower, hfloor, hrank, Nat.floor_natCast, Nat.min_self]
  rw [ofSorted_eq_atBracket hsorted hsize]
  simp only [hlower]
  refine congrArg (fun v => Except.ok (some v)) (Rounded.ext (le_antisymm ?_ ?_))
  · exact atBracket_le hsorted _ _ (Nat.min_le_right _ _) _
  · exact le_atBracket hsorted _ _

end Quantile

/-! ## Percentiles of summaries -/

namespace Percentile

theorem real_le_real {p p' : Percentile} (h : p.code ≤ p'.code) : p.real ≤ p'.real := by
  rw [real, real]
  exact_mod_cast Binary64.magnitude_le_magnitude h

/-- A larger percentile is no smaller a part of the whole. -/
theorem quantile_mono {n : ℕ} (hround : Steady round n) {p p' : Percentile} (h : p.real ≤ p'.real) :
    (p.quantile : Rounded round).real ≤ (p'.quantile : Rounded round).real := by
  have hhundred : 0 ≤ (Scalar.ofNat 100 : Rounded round).real :=
    hround.nonneg (Nat.cast_nonneg _)
  exact hround.monotone (div_le_div_of_nonneg_right h hhundred)

end Percentile

namespace LatencySummary

/-- The least and the greatest of some samples. -/
structure Extremes (xs : List (Rounded round)) (least greatest : Rounded round) : Prop where
  least_mem : least ∈ xs
  greatest_mem : greatest ∈ xs
  bounds : ∀ x ∈ xs, least.real ≤ x.real ∧ x.real ≤ greatest.real

section Samples

variable (xs : List (Rounded round))

theorem mem_ascending {x : Rounded round} : x ∈ ascending xs ↔ x ∈ xs := by
  rw [ascending, List.mem_mergeSort, List.mem_filter]
  exact and_iff_left rfl

theorem size_ascending : (ascending xs).toArray.size = xs.length := by
  have hall : xs.filter Scalar.isFinite = xs := List.filter_eq_self.mpr fun _ _ => rfl
  rw [List.size_toArray, length_ascending, hall]

theorem sorted_ascending : Quantile.Sorted (ascending xs).toArray := fun _ _ hi hj hle =>
  (Rounded.atMost_iff _ _).mp (atMost_ascending xs hi hj hle)

/-- The first sample in order is the least, and the last the greatest. -/
theorem extremes_ascending (hsize : (ascending xs).toArray.size ≠ 0) :
    Extremes xs (ascending xs).toArray[0] (ascending xs).toArray[(ascending xs).toArray.size - 1] where
  least_mem := (mem_ascending xs).mp (List.mem_toArray.mp (Array.getElem_mem _))
  greatest_mem := (mem_ascending xs).mp (List.mem_toArray.mp (Array.getElem_mem _))
  bounds x hx := by
    have hmem : x ∈ (ascending xs).toArray := List.mem_toArray.mpr ((mem_ascending xs).mpr hx)
    obtain ⟨i, hi, rfl⟩ := Array.getElem_of_mem hmem
    exact ⟨sorted_ascending xs _ _ _ hi (Nat.zero_le i),
      sorted_ascending xs _ _ hi _ (Nat.le_sub_one_of_lt hi)⟩

end Samples

variable {set : PercentileSet} {xs : List (Rounded round)} {s : LatencySummary (Rounded round)}

/-- The values of two percentiles are in the order of the percentiles. -/
theorem get?_mono (h : ofSamples set xs = .ok s) (hround : Steady round xs.length)
    (hsize : (ascending xs).toArray.size ≠ 0) {p p' : Percentile} (hp : p ∈ set.effective)
    (hp' : p' ∈ set.effective) (hle : p.real ≤ p'.real) :
    ∃ v v', s.get? p.key = some v ∧ s.get? p'.key = some v' ∧
      (ascending xs).toArray[0].real ≤ v.real ∧ v.real ≤ v'.real ∧
      v'.real ≤ (ascending xs).toArray[(ascending xs).toArray.size - 1].real := by
  obtain ⟨v, v', hv, hv', hbounds⟩ := Quantile.ofSorted_mono (size_ascending xs ▸ hround)
    (sorted_ascending xs) hsize (Percentile.quantile_mono hround hle)
  exact ⟨v, v', Except.ok.inj ((ofSorted_eq_get? h hp).symm.trans hv),
    Except.ok.inj ((ofSorted_eq_get? h hp').symm.trans hv'), hbounds⟩

/-- **Percentiles are in order whatever the rounding**, as long as it keeps the order and leaves 0, 1 and
the indices of the samples as they are. Quantiles of sorted samples ascend from the first sample to the
last, and quantile 1 is the last. Hence every summary of some samples has the least of them, `p50`,
`p95`, `p99` and the maximum in this order, and any two of its percentiles in theirs. -/
theorem percentiles_in_order :
    (∀ xs : Array (Rounded round), Quantile.Sorted xs → Steady round xs.size →
      ∀ hsize : xs.size ≠ 0,
      (∀ q q' : Rounded round, q.real ≤ q'.real → ∃ v v',
        Quantile.ofSorted xs q = .ok (some v) ∧ Quantile.ofSorted xs q' = .ok (some v') ∧
        xs[0].real ≤ v.real ∧ v.real ≤ v'.real ∧ v'.real ≤ xs[xs.size - 1].real) ∧
      ∀ q : Rounded round, q.real = 1 → Quantile.ofSorted xs q = .ok (some xs[xs.size - 1])) ∧
    ∀ (set : PercentileSet) (xs : List (Rounded round)), xs ≠ [] → Steady round xs.length →
      ∃ s least p50 p95 p99 greatest, ofSamples set xs = .ok s ∧ Extremes xs least greatest ∧
        s.get? "p50" = some p50 ∧ s.get? "p95" = some p95 ∧ s.get? "p99" = some p99 ∧
        s.max = some greatest ∧
        least.real ≤ p50.real ∧ p50.real ≤ p95.real ∧ p95.real ≤ p99.real ∧
        p99.real ≤ greatest.real ∧
        ∀ p ∈ set.effective, ∀ p' ∈ set.effective, p.real ≤ p'.real → ∃ v v',
          s.get? p.key = some v ∧ s.get? p'.key = some v' ∧
          least.real ≤ v.real ∧ v.real ≤ v'.real ∧ v'.real ≤ greatest.real := by
  refine ⟨fun xs hsorted hround hsize => ⟨fun q q' hle => ?_, fun q hq => ?_⟩,
    fun set xs hne hround => ?_⟩
  · exact Quantile.ofSorted_mono hround hsorted hsize hle
  · exact Quantile.ofSorted_one hround hsorted hsize hq
  · obtain ⟨s, hs⟩ := exists_ofSamples set xs
    have hsize : (ascending xs).toArray.size ≠ 0 := by
      rw [size_ascending]
      exact mt List.length_eq_zero_iff.mp hne
    have hmax : s.max = some (ascending xs).toArray[(ascending xs).toArray.size - 1] := by
      rw [max_eq_back? hs, Array.back?_eq_getElem?, Array.getElem?_eq_getElem]
    have hpair : ∀ p ∈ set.effective, ∀ p' ∈ set.effective, p.real ≤ p'.real → _ :=
      fun p hp p' hp' hle => get?_mono hs hround hsize hp hp' hle
    have hbaseline : ∀ p ∈ Percentile.baseline, p ∈ set.effective := fun p hp =>
      List.mem_append_left _ hp
    have hkeys : Percentile.p50.key = "p50" ∧ Percentile.p95.key = "p95" ∧
        Percentile.p99.key = "p99" := by decide +kernel
    obtain ⟨p50, p95, h50, h95, hleast, h50_95, -⟩ := hpair .p50 (hbaseline _ (by decide)) .p95
      (hbaseline _ (by decide)) (Percentile.real_le_real (by decide))
    obtain ⟨p95', p99, h95', h99, -, h95_99, hgreatest⟩ := hpair .p95 (hbaseline _ (by decide)) .p99
      (hbaseline _ (by decide)) (Percentile.real_le_real (by decide))
    obtain rfl : p95 = p95' := Option.some.inj (h95.symm.trans h95')
    rw [hkeys.1] at h50
    rw [hkeys.2.1] at h95
    rw [hkeys.2.2] at h99
    exact ⟨s, _, p50, p95, p99, _, hs, extremes_ascending xs hsize, h50, h95, h99, hmax, hleast,
      h50_95, h95_99, hgreatest, hpair⟩

/-- Three samples with a rounding to eighths, which takes the percentiles 95 and 99 for one quantile. -/
theorem percentiles_in_order_of_eighths :
    let sorted : Array (Rounded Rounded.eighths) := #[⟨1⟩, ⟨3⟩, ⟨5⟩]
    let xs : List (Rounded Rounded.eighths) := [⟨5⟩, ⟨1⟩, ⟨3⟩]
    Quantile.Sorted sorted ∧ Steady Rounded.eighths 3 ∧
    Quantile.ofSorted sorted ⟨1⟩ = .ok (some ⟨5⟩) ∧
    (∃ v v', Quantile.ofSorted sorted ⟨1 / 2⟩ = .ok (some v) ∧
      Quantile.ofSorted sorted ⟨2 / 3⟩ = .ok (some v') ∧ v.real ≤ v'.real) ∧
    ∃ s p50 p95, ofSamples .default xs = .ok s ∧ s.get? "p50" = some p50 ∧
      s.get? "p95" = some p95 ∧ p50.real ≤ p95.real := by
  intro sorted xs
  have hsorted : Quantile.Sorted sorted := by
    intro i j hi hj hle
    have hi' : i < 3 := hi
    have hj' : j < 3 := hj
    interval_cases i <;> interval_cases j <;> simp [sorted] at hle ⊢
    norm_num
  have hsteady := Rounded.steady_eighths 3
  obtain ⟨hquantiles, hsummary⟩ := @percentiles_in_order Rounded.eighths
  obtain ⟨hmono, hone⟩ := hquantiles sorted hsorted hsteady (by decide)
  obtain ⟨v, v', hv, hv', -, hvalues, -⟩ := hmono ⟨1 / 2⟩ ⟨2 / 3⟩ (by norm_num)
  obtain ⟨s, -, p50, p95, -, -, hs, -, h50, h95, -, -, -, hle, -⟩ :=
    hsummary .default xs (List.cons_ne_nil _ _) hsteady
  exact ⟨hsorted, hsteady, hone _ rfl, ⟨v, v', hv, hv', hvalues⟩, s, p50, p95, hs, h50, h95, hle⟩

end LatencySummary
end ExchangeBench
