import ExchangeBench.Proofs.Decimal.Shortest
import ExchangeBench.Proofs.Scalar.Extended
import ExchangeBench.Proofs.Stats.Latency

/-!
# Percentiles are linear interpolations

Where nothing is rounded, the percentiles of a latency summary are those of the textbook: the finite
samples are put in ascending order, and percentile `p` of `n` of them is their value at rank
`p / 100 * (n - 1)`, with the ranks between whole numbers interpolated.

- `valueAt`: the value of numbers at a rank.
- `Quantile.ofSorted_eq`: a quantile is the value at its rank, and holding it between its brackets does
  nothing to it.
- `Percentile.real`: the number that a percentile is.
- `LatencySummary.ascending_eq`: the finite samples in ascending order, as numbers.
- `LatencySummary.ofSamples_interpolates`: what a summary consists of.
-/

namespace ExchangeBench

open Scalar (Exact)

/-! ## Values at ranks -/

/-- The value at a rank of `n` numbers, by linear interpolation between the rank below it and the next
one, or the last. -/
noncomputable def valueAt (x : ℕ → ℝ) (n : ℕ) (h : ℝ) : ℝ :=
  let k := ⌊h⌋₊
  x k + (h - k) * (x (min (k + 1) (n - 1)) - x k)

/-- At a whole rank there is nothing to interpolate. -/
theorem valueAt_natCast (x : ℕ → ℝ) (n k : ℕ) : valueAt x n k = x k := by
  rw [valueAt, Nat.floor_natCast, sub_self, zero_mul, add_zero]

/-! ## Quantiles -/

namespace Quantile

variable {α : Type} [Scalar α]

/-- Quantile `q` of sorted samples, wherever the arithmetic takes it. -/
def free (xs : Array α) (q : α) : Option α :=
  if h : xs.size = 0 then none
  else
    let last := xs.size - 1
    let rank := Scalar.ofNat last * q
    let lower := min (Scalar.floor rank) last
    let upper := min (lower + 1) last
    have hlower : lower < xs.size := by omega
    have hupper : upper < xs.size := by omega
    some (xs[lower] + (xs[upper] - xs[lower]) * (rank - Scalar.ofNat lower))

variable [Exact α]

/-- A value between its bounds is not held by them. -/
theorem clamp_eq {lo hi x : α} (hlo : Scalar.isFinite lo = true) (hhi : Scalar.isFinite hi = true)
    (hx : Scalar.isFinite x = true) (hle : Exact.real lo ≤ Exact.real x)
    (hle' : Exact.real x ≤ Exact.real hi) : clamp lo hi x = x := by
  have hless : Scalar.less x lo ≠ true := fun h => not_lt.mpr hle ((Exact.less x lo hx hlo).mp h)
  have hless' : Scalar.less hi x ≠ true := fun h => not_lt.mpr hle' ((Exact.less hi x hhi hx).mp h)
  rw [clamp, if_neg hless, if_neg hless']

/-- Part of the way from one number to another lies between them. -/
theorem between_eq {lo hi weight : α} (hlo : Scalar.isFinite lo = true)
    (hhi : Scalar.isFinite hi = true) (hweight : Scalar.isFinite weight = true)
    (hle : Exact.real lo ≤ Exact.real hi) (hpos : 0 ≤ Exact.real weight)
    (hone : Exact.real weight ≤ 1) :
    between lo hi weight = .ok (lo + (hi - lo) * weight) ∧
      Scalar.isFinite (lo + (hi - lo) * weight) = true ∧
      Exact.real (lo + (hi - lo) * weight) =
        Exact.real lo + Exact.real weight * (Exact.real hi - Exact.real lo) := by
  obtain ⟨hsub, hsub'⟩ := Exact.sub hi lo hhi hlo
  obtain ⟨hmul, hmul'⟩ := Exact.mul _ weight hsub hweight
  obtain ⟨hadd, hadd'⟩ := Exact.add lo _ hlo hmul
  have hvalue : Exact.real (lo + (hi - lo) * weight) =
      Exact.real lo + Exact.real weight * (Exact.real hi - Exact.real lo) := by
    rw [hadd', hmul', hsub', mul_comm]
  have hnonneg : 0 ≤ Exact.real weight * (Exact.real hi - Exact.real lo) :=
    mul_nonneg hpos (sub_nonneg.mpr hle)
  have hbound : Exact.real weight * (Exact.real hi - Exact.real lo) ≤
      Exact.real hi - Exact.real lo :=
    mul_le_of_le_one_left (sub_nonneg.mpr hle) hone
  refine ⟨?_, hadd, hvalue⟩
  rw [between, if_pos ((Exact.atMost lo hi hlo hhi).mpr hle),
    clamp_eq hlo hhi hadd (by linarith) (by linarith)]

omit [Exact α] in
/-- What is held between finite bounds is finite. -/
theorem isFinite_clamp {lo hi x : α} (hlo : Scalar.isFinite lo = true)
    (hhi : Scalar.isFinite hi = true) (hx : Scalar.isFinite x = true) :
    Scalar.isFinite (clamp lo hi x) = true := by
  unfold clamp
  split
  · exact hlo
  · split
    · exact hhi
    · exact hx

/-- Finite samples have finite quantiles. -/
theorem isFinite_of_ofSorted {xs : Array α} {q v : α}
    (hfinite : ∀ a ∈ xs, Scalar.isFinite a = true) (hq : Scalar.isFinite q = true)
    (h : ofSorted xs q = .ok (some v)) : Scalar.isFinite v = true := by
  by_cases hsize : xs.size = 0
  · rw [ofSorted, dif_pos hsize] at h
    cases h
  · obtain ⟨hlower, hupper, hquantile⟩ := ofSorted_eq_between hsize q
    rw [hquantile, between] at h
    split at h
    · obtain rfl := Option.some.inj (Except.ok.inj h)
      have hlo := hfinite _ (Array.getElem_mem hlower)
      have hhi := hfinite _ (Array.getElem_mem hupper)
      have hunit := isFinite_clamp (Exact.ofNat 0).1 (Exact.ofNat 1).1 hq
      have hrank : Scalar.isFinite (rank xs q) = true := (Exact.mul _ _ (Exact.ofNat _).1 hunit).1
      have hweight := (Exact.sub _ _ hrank (Exact.ofNat (lower xs (rank xs q))).1).1
      have hwidth := (Exact.sub _ _ hhi hlo).1
      exact isFinite_clamp hlo hhi (Exact.add _ _ hlo (Exact.mul _ _ hwidth hweight).1).1
    · cases h

section Sorted

variable {xs : Array α} {x : ℕ → ℝ} (hfinite : ∀ a ∈ xs, Scalar.isFinite a = true)
  (hreal : ∀ i (hi : i < xs.size), Exact.real xs[i] = x i)
  (hsorted : ∀ i j, i ≤ j → j < xs.size → x i ≤ x j)

include hfinite hreal hsorted

/-- Between the samples that bracket a rank lies the value at the rank. -/
theorem between_eq_valueAt {rank : α} (hrank : Scalar.isFinite rank = true)
    (hnonneg : 0 ≤ Exact.real rank) {k j : ℕ} (hk : k < xs.size) (hj : j < xs.size)
    (hfloor : ⌊Exact.real rank⌋₊ = k) (hnext : min (k + 1) (xs.size - 1) = j) :
    between xs[k] xs[j] (rank - Scalar.ofNat k) =
        .ok (xs[k] + (xs[j] - xs[k]) * (rank - Scalar.ofNat k)) ∧
      Scalar.isFinite (xs[k] + (xs[j] - xs[k]) * (rank - Scalar.ofNat k)) = true ∧
      Exact.real (xs[k] + (xs[j] - xs[k]) * (rank - Scalar.ofNat k)) =
        valueAt x xs.size (Exact.real rank) := by
  obtain ⟨hindex, hindex'⟩ := Exact.ofNat (α := α) k
  obtain ⟨hweight, hweight'⟩ := Exact.sub rank _ hrank hindex
  rw [hindex'] at hweight'
  -- the weight is the fraction of the rank
  have hbelow : (k : ℝ) ≤ Exact.real rank := hfloor ▸ Nat.floor_le hnonneg
  have habove : Exact.real rank < k + 1 := hfloor ▸ Nat.lt_floor_add_one _
  have hle : Exact.real xs[k] ≤ Exact.real xs[j] := by
    rw [hreal k hk, hreal j hj]
    exact hsorted k j (by omega) hj
  obtain ⟨hbetween, hvalue, hvalue'⟩ := between_eq (hfinite _ (Array.getElem_mem hk))
    (hfinite _ (Array.getElem_mem hj)) hweight hle (by rw [hweight']; linarith)
    (by rw [hweight']; linarith)
  refine ⟨hbetween, hvalue, hvalue'.trans ?_⟩
  rw [hweight', hreal k hk, hreal j hj, valueAt, hfloor, hnext]

/-- **A quantile is the value at its rank.** -/
theorem ofSorted_eq (hsize : xs.size ≠ 0) {q : α} (hq : Scalar.isFinite q = true)
    (hpos : 0 ≤ Exact.real q) (hone : Exact.real q ≤ 1) :
    ∃ v, free xs q = some v ∧ ofSorted xs q = .ok (some v) ∧ Scalar.isFinite v = true ∧
      Exact.real v = valueAt x xs.size (Exact.real q * ((xs.size - 1 : ℕ) : ℝ)) := by
  have hclamp : clamp (Scalar.ofNat 0) (Scalar.ofNat 1) q = q := by
    obtain ⟨hzero, hzero'⟩ := Exact.ofNat (α := α) 0
    obtain ⟨hunit, hunit'⟩ := Exact.ofNat (α := α) 1
    refine clamp_eq hzero hunit hq ?_ ?_
    · rwa [hzero', Nat.cast_zero]
    · rwa [hunit', Nat.cast_one]
  obtain ⟨hlast, hlast'⟩ := Exact.ofNat (α := α) (xs.size - 1)
  obtain ⟨hrank, hrank'⟩ := Exact.mul _ q hlast hq
  rw [hlast', mul_comm] at hrank'
  rw [← hrank']
  -- the rank is at most that of the last sample, so no index is held either
  have hnonneg : 0 ≤ Exact.real (Scalar.ofNat (xs.size - 1) * q) :=
    hrank' ▸ mul_nonneg hpos (Nat.cast_nonneg _)
  have hbound : ⌊Exact.real (Scalar.ofNat (xs.size - 1) * q)⌋₊ ≤ xs.size - 1 :=
    Nat.floor_le_of_le (hrank' ▸ mul_le_of_le_one_left (Nat.cast_nonneg _) hone)
  have hlower : min (Scalar.floor (Scalar.ofNat (xs.size - 1) * q)) (xs.size - 1) =
      ⌊Exact.real (Scalar.ofNat (xs.size - 1) * q)⌋₊ := by
    rw [Exact.floor _ hrank hnonneg, Nat.min_eq_left hbound]
  obtain ⟨hbetween, hvalue, hvalue'⟩ := between_eq_valueAt hfinite hreal hsorted hrank hnonneg
    (by omega) (by omega) rfl rfl
  refine ⟨_, ?_, ?_, hvalue, hvalue'⟩
  · rw [free, dif_neg hsize]
    simp only [hlower]
  · rw [ofSorted, dif_neg hsize]
    simp only [hclamp, hlower, hbetween]
    rfl

end Sorted
end Quantile

/-! ## Percentiles as numbers -/

namespace Percentile

/-- The number that a percentile is. -/
noncomputable def real (p : Percentile) : ℝ := (Binary64.magnitude p.code : ℝ)

theorem real_nonneg (p : Percentile) : 0 ≤ p.real := by
  rw [real]
  exact_mod_cast Decimal.magnitude_nonneg p.code

theorem real_le_hundred (p : Percentile) : p.real ≤ 100 := by
  have hhundred : Binary64.magnitude 0x4059000000000000 = 100 := by decide +kernel
  have hle : Binary64.magnitude p.code ≤ 100 :=
    hhundred ▸ Binary64.magnitude_le_magnitude p.le_hundred
  rw [real]
  exact_mod_cast hle

/-- The quantile of a percentile is its hundredth part. -/
theorem real_quantile (α : Type) [Scalar α] [Exact α] (p : Percentile) :
    Scalar.isFinite (p.quantile : α) = true ∧ Exact.real (p.quantile : α) = p.real / 100 := by
  have hcode : p.code < Binary64.infinityCode := Nat.lt_of_le_of_lt p.le_hundred (by decide)
  obtain ⟨hvalue, hvalue'⟩ := Exact.ofCode (α := α) p.code hcode
  obtain ⟨hhundred, hhundred'⟩ := Exact.ofNat (α := α) 100
  obtain ⟨hdiv, hdiv'⟩ := Exact.div _ _ hvalue hhundred (by rw [hhundred']; norm_num)
  refine ⟨hdiv, ?_⟩
  rw [quantile, hdiv', hvalue', hhundred', real, Nat.cast_ofNat]

end Percentile

/-! ## Summaries -/

namespace LatencySummary

variable {α : Type} [Scalar α] [Exact α] [Scalar.Ordered α]

/-- The finite samples in ascending order, as numbers. -/
theorem ascending_eq {xs : List α} {ys : List ℝ} (hsorted : ys.Pairwise (· ≤ ·))
    (hsamples : ys.Perm ((xs.filter Scalar.isFinite).map Exact.real)) :
    (ascending xs).map Exact.real = ys := by
  have hperm : ((ascending xs).map Exact.real).Perm ys :=
    ((List.mergeSort_perm _ _).map _).trans hsamples.symm
  have hascending : ((ascending xs).map (Exact.real : α → ℝ)).Pairwise (· ≤ ·) := by
    refine List.pairwise_map.mpr ((pairwise_ascending xs).imp_of_mem fun ha hb hle => ?_)
    exact Exact.precedes _ _ (isFinite_of_mem_ascending ha) (isFinite_of_mem_ascending hb) hle
  exact hperm.eq_of_pairwise (fun _ _ _ _ hab hba => le_antisymm hab hba) hascending hsorted

omit [Exact α] [Scalar.Ordered α] in
/-- Samples that are not finite leave no trace. -/
theorem ofSamples_filter (set : PercentileSet) (xs : List α) :
    ofSamples set (xs.filter Scalar.isFinite) = ofSamples set xs := by
  unfold ofSamples ofSamplesAt ascending
  rw [List.filter_filter]
  simp only [Bool.and_self]

/-- The percentiles of a summary are finite, wherever they are present. -/
theorem isFinite_of_get? {set : PercentileSet} {xs : List α} {s : LatencySummary α}
    (h : ofSamples set xs = .ok s) {key : String} {v : α} (hv : s.get? key = some v) :
    Scalar.isFinite v = true := by
  obtain ⟨g, hg, rfl⟩ := eq_of_ofSamples h
  obtain ⟨e, hfound, hentry⟩ := Option.bind_eq_some_iff.mp hv
  obtain ⟨p, -, rfl⟩ := List.mem_map.mp (List.mem_of_find?_eq_some hfound)
  have hquantile := hg p.quantile
  rw [show g p.quantile = some v from hentry] at hquantile
  exact Quantile.isFinite_of_ofSorted
    (fun a ha => isFinite_of_mem_ascending (List.mem_toArray.mp ha)) (p.real_quantile α).1 hquantile

omit [Exact α] in
/-- The maximum of a summary is finite. -/
theorem isFinite_of_max {set : PercentileSet} {xs : List α} {s : LatencySummary α}
    (h : ofSamples set xs = .ok s) {m : α} (hm : s.max = some m) : Scalar.isFinite m = true := by
  obtain ⟨g, -, rfl⟩ := eq_of_ofSamples h
  exact isFinite_of_mem_ascending (List.mem_toArray.mp (Array.mem_of_back? hm))

/-- An entry of a summary that has the value of a percentile of `n` numbers under its key: the value at
its rank. That of percentile 0 is the first one, and that of percentile 100 the last. -/
structure Shows (x : ℕ → ℝ) (n : ℕ) (p : Percentile) (e : String × Option α) (v : α) : Prop where
  key : e.1 = p.key
  value : e.2 = some v
  isFinite : Scalar.isFinite v = true
  real : Exact.real v = valueAt x n (p.real / 100 * ((n : ℝ) - 1))
  first : p.real = 0 → Exact.real v = x 0
  last : p.real = 100 → Exact.real v = x (n - 1)

omit [Scalar.Ordered α] in
/-- The value at the rank of a percentile shows it. -/
theorem shows_of_real {x : ℕ → ℝ} {n : ℕ} (hn : n ≠ 0) {p : Percentile} {v : α}
    (hv : Scalar.isFinite v = true)
    (hreal : Exact.real v = valueAt x n (p.real / 100 * ((n - 1 : ℕ) : ℝ))) :
    Shows x n p (p.key, some v) v where
  key := rfl
  value := rfl
  isFinite := hv
  real := by rw [hreal, Nat.cast_sub (Nat.one_le_iff_ne_zero.mpr hn), Nat.cast_one]
  first hp := by rw [hreal, hp, zero_div, zero_mul, ← Nat.cast_zero, valueAt_natCast]
  last hp := by rw [hreal, hp, div_self (by norm_num), one_mul, valueAt_natCast]

/-- **Summaries interpolate.** Let `x 0 ≤ … ≤ x (n - 1)` be the finite samples. Without any, the summary
is that of no samples. Otherwise it counts them, has the last one as its maximum, and under the key of
each effective percentile, in their order, the value at its rank; this value is held by nothing. And
samples of which the same ones are finite have the same summary. -/
theorem ofSamples_interpolates (set : PercentileSet) (xs : List α) (x : ℕ → ℝ) (n : ℕ)
    (hsorted : ∀ i j, i ≤ j → j < n → x i ≤ x j)
    (hsamples : ((List.range n).map x).Perm ((xs.filter Scalar.isFinite).map Exact.real)) :
    (n = 0 → ofSamples set xs = .ok ⟨0, set.effective.map fun p => (p.key, none), none⟩) ∧
    (n ≠ 0 → ∃ s : LatencySummary α, ofSamples set xs = .ok s ∧ s.count = n ∧
      (∃ m, s.max = some m ∧ Scalar.isFinite m = true ∧ Exact.real m = x (n - 1)) ∧
      List.Forall₂ (fun p e => ∃ v, Shows x n p e v) set.effective s.percentiles ∧
      s.percentiles =
        set.effective.map fun p => (p.key, Quantile.free (ascending xs).toArray p.quantile)) ∧
    ∀ ys : List α, (ys.filter Scalar.isFinite).Perm (xs.filter Scalar.isFinite) →
      ofSamples set ys = ofSamples set xs := by
  have hnumbers : ((List.range n).map x).Pairwise (· ≤ ·) := by
    refine List.pairwise_map.mpr (List.pairwise_lt_range.imp_of_mem fun _ hj hlt => ?_)
    exact hsorted _ _ hlt.le (List.mem_range.mp hj)
  have hascending := ascending_eq hnumbers hsamples
  have hlength : (ascending xs).length = n := by
    rw [← List.length_map (f := Exact.real), hascending, List.length_map, List.length_range]
  refine ⟨fun hn => ?_, fun hn => ?_, fun ys hys => ?_⟩
  · have hnone : ascending xs = [] := List.length_eq_zero_iff.mp (hlength.trans hn)
    unfold ofSamples ofSamplesAt
    simp only [hnone, keys_points, empty, List.map_map]
    rfl
  · have hsize : (ascending xs).toArray.size = n := hlength
    have hreal : ∀ i (hi : i < (ascending xs).toArray.size),
        Exact.real (ascending xs).toArray[i] = x i := by
      intro i hi
      have hget := congrArg (·[i]?) hascending
      have hi' : i < n := hsize ▸ hi
      have hi'' : i < (ascending xs).length := hi
      simpa [hi', hi''] using hget
    have hfinite : ∀ a ∈ (ascending xs).toArray, Scalar.isFinite a = true := fun a ha =>
      isFinite_of_mem_ascending (List.mem_toArray.mp ha)
    have hvalue : ∀ p : Percentile, ∃ v : α,
        Quantile.free (ascending xs).toArray p.quantile = some v ∧
        Quantile.ofSorted (ascending xs).toArray p.quantile = .ok (some v) ∧
        Shows x n p (p.key, some v) v := by
      intro p
      obtain ⟨hquantile, hquantile'⟩ := p.real_quantile α
      obtain ⟨v, hfree, hheld, hv, hv'⟩ := Quantile.ofSorted_eq hfinite hreal (hsize ▸ hsorted)
        (hsize ▸ hn) hquantile (by rw [hquantile']; exact div_nonneg p.real_nonneg (by norm_num))
        (by rw [hquantile']; exact div_le_one_of_le₀ p.real_le_hundred (by norm_num))
      rw [hsize, hquantile'] at hv'
      exact ⟨v, hfree, hheld, shows_of_real hn hv hv'⟩
    have hlast : n - 1 < (ascending xs).toArray.size := by omega
    refine ⟨_, ofSamples_of_ofSorted fun p _ => ?_, hlength,
      ⟨(ascending xs).toArray[n - 1], ?_, hfinite _ (Array.getElem_mem hlast), hreal _ hlast⟩,
      ?_, rfl⟩
    · obtain ⟨v, hfree, hheld, -⟩ := hvalue p
      rw [hheld, hfree]
    · show (ascending xs).toArray.back? = _
      rw [Array.back?_eq_getElem?, hsize, Array.getElem?_eq_getElem hlast]
    · show List.Forall₂ _ _
        (set.effective.map fun p => (p.key, Quantile.free (ascending xs).toArray p.quantile))
      rw [List.forall₂_map_right_iff, List.forall₂_same]
      intro p _
      obtain ⟨v, hfree, -, hshows⟩ := hvalue p
      exact ⟨v, hfree ▸ hshows⟩
  · rw [← ofSamples_filter set ys, ← ofSamples_filter set xs, ofSamples_perm set hys]

/-- Three samples in some order, between two that are not finite. -/
theorem ofSamples_interpolates_of_three :
    let set : PercentileSet :=
      ⟨[⟨0, by decide⟩, ⟨0x4059000000000000, by decide⟩], by decide, by decide⟩
    let xs : List Extended := [.nan, .finite 3, .finite 1, .infinite true, .finite 2]
    let x : ℕ → ℝ := fun i => i + 1
    (∀ i j, i ≤ j → j < 3 → x i ≤ x j) ∧
    ((List.range 3).map x).Perm ((xs.filter Scalar.isFinite).map Exact.real) ∧
    ofSamples set [.finite 1, .finite 2, .finite 3] = ofSamples set xs ∧
    ∃ s : LatencySummary Extended, ofSamples set xs = .ok s ∧ s.count = 3 ∧
      (∃ m, s.max = some m ∧ Exact.real m = 3) ∧
      List.Forall₂ (fun p e => ∃ v, Shows x 3 p e v) set.effective s.percentiles := by
  intro set xs x
  have hsorted : ∀ i j, i ≤ j → j < 3 → x i ≤ x j := fun i j hle _ =>
    add_le_add_left (Nat.cast_le.mpr hle) 1
  have hfinite : xs.filter Scalar.isFinite = [.finite 3, .finite 1, .finite 2] := rfl
  have hrange : (List.range 3).map x = [1, 2, 3] := by
    simp [x, List.range_succ]
    norm_num
  have hsamples : ((List.range 3).map x).Perm ((xs.filter Scalar.isFinite).map Exact.real) := by
    rw [hrange, hfinite]
    show [(1 : ℝ), 2, 3].Perm [3, 1, 2]
    exact ((List.Perm.swap 3 2 []).cons 1).trans (.swap 3 1 [2])
  obtain ⟨-, hsome, hsame⟩ := ofSamples_interpolates set xs x 3 hsorted hsamples
  obtain ⟨s, hs, hcount, ⟨m, hmax, -, hm⟩, hshows, -⟩ := hsome (by decide)
  refine ⟨hsorted, hsamples, hsame _ ?_, s, hs, hcount, ⟨m, hmax, hm.trans ?_⟩, hshows⟩
  · rw [hfinite]
    show [Extended.finite 1, .finite 2, .finite 3].Perm [.finite 3, .finite 1, .finite 2]
    exact ((List.Perm.swap _ _ []).cons _).trans (.swap _ _ [_])
  · show ((2 : ℕ) : ℝ) + 1 = 3
    norm_num

end LatencySummary
end ExchangeBench
