import ExchangeBench.Proofs.Scalar.Special

/-!
# Percentiles lie within the samples, or are lost

A quantile is held between the two samples that bracket its rank, so it cannot leave their range, whatever
its interpolation is rounded to. What holding it does not repair is a value that is no number. There is
one way to such a value: the two samples are so far apart that their difference is infinite, and the rank
falls exactly on the lower one. Then infinity is multiplied by zero.

- `Quantile.isFinite_weight`: the weight of an interpolation is finite.
- `Quantile.Lost`: when a quantile is no number, and `Quantile.isNaN_iff_lost`, that it is so only then.
- `LatencySummary.FiniteExtremes`: the least and the greatest sample, and what is known of the percentiles
  between them.
- `LatencySummary.percentiles_in_range`: every percentile of a summary is finite and within the samples,
  unless it is lost. None is where the samples as a whole are not too far apart, as those that are not
  negative are.
-/

namespace ExchangeBench

open Binary64

/-! ## The weight of an interpolation -/

namespace Quantile

/-- The code of `2 ^ n`. -/
def powerCode (n : Nat) : Nat := (n + 1023) * codesPerExponent

theorem magnitude_powerCode_64 : magnitude (powerCode 64) = 2 ^ 64 := by decide +kernel

theorem magnitude_powerCode_65 : magnitude (powerCode 65) = 2 ^ 65 := by decide +kernel

theorem abs_toRat_le {x : Float} {c : Nat} (h : (ofFloat x).code ≤ c) :
    |(ofFloat x).toRat| ≤ magnitude c :=
  (abs_toRat _).trans_le (magnitude_le_magnitude h)

theorem code_ofNat_le (n : Nat) : (ofFloat (Scalar.ofNat n : Float)).code ≤ powerCode 64 := by
  have hlt : n % 2 ^ 64 < 2 ^ 64 := Nat.mod_lt _ (by decide)
  have hmod : (Scalar.ofNat n : Float) = Scalar.ofNat (n % 2 ^ 64) := by
    show (UInt64.ofNat n).toFloat = (UInt64.ofNat (n % 2 ^ 64)).toFloat
    congr 1
    exact UInt64.toNat_inj.mp (by simp)
  rw [hmod, code_ofNat hlt]
  refine nearestCode_le (Nat.cast_nonneg _) (by decide) ?_
  rw [magnitude_powerCode_64]
  exact_mod_cast hlt.le

theorem isFinite_of_code_le {x : Float} {c : Nat} (h : (ofFloat x).code ≤ c)
    (hc : c < infinityCode) : Scalar.isFinite x = true :=
  decide_eq_true (h.trans_lt hc)

/-- A quantile that is a number is taken for one from 0 to 1. -/
theorem clamp_unit {q : Float} (hq : q.isNaN = false) :
    Scalar.isFinite (clamp (Scalar.ofNat 0) (Scalar.ofNat 1) q) = true ∧
      |(ofFloat (clamp (Scalar.ofNat 0) (Scalar.ofNat 1) q)).toRat| ≤ 1 := by
  have hzero : (ofFloat (Scalar.ofNat 0 : Float)).toRat = 0 := by decide +kernel
  have hone : (ofFloat (Scalar.ofNat 1 : Float)).toRat = 1 := by decide +kernel
  have hfinite : Scalar.isFinite (Scalar.ofNat 0 : Float) = true := by decide +kernel
  have hfinite' : Scalar.isFinite (Scalar.ofNat 1 : Float) = true := by decide +kernel
  have hle : (Scalar.ofNat 0 : Float) ≤ Scalar.ofNat 1 := by
    rw [le_iff_toRat_le hfinite hfinite', hzero, hone]
    exact zero_le_one
  rw [isFinite_eq] at hfinite hfinite'
  obtain ⟨hclamp, hlow, hhigh⟩ := clamp_spec hfinite hfinite' hle hq
  rw [← isFinite_eq] at hfinite hfinite' hclamp
  rw [le_iff_toRat_le hfinite hclamp, hzero] at hlow
  rw [le_iff_toRat_le hclamp hfinite', hone] at hhigh
  exact ⟨hclamp, abs_le.mpr ⟨by linarith, hhigh⟩⟩

theorem code_rank_le (xs : Array Float) {q : Float} (hq : q.isNaN = false) :
    (ofFloat (rank xs q)).code ≤ powerCode 64 := by
  obtain ⟨hunit, hle⟩ := clamp_unit hq
  have hindex := code_ofNat_le (xs.size - 1)
  rw [rank, code_mul (isFinite_of_code_le hindex (by decide)) hunit]
  refine nearestCode_le (abs_nonneg _) (by decide) ?_
  rw [abs_mul]
  exact (mul_le_of_le_one_right (abs_nonneg _) hle).trans (abs_toRat_le hindex)

/-- **The weight of an interpolation is finite**, since ranks and indices are not too large. -/
theorem isFinite_weight (xs : Array Float) {q : Float} (hq : q.isNaN = false) (k : Nat) :
    (rank xs q - Scalar.ofNat k).isFinite = true := by
  have hrank := code_rank_le xs hq
  have hindex := code_ofNat_le k
  rw [← isFinite_eq]
  refine isFinite_of_code_le (c := powerCode 65) ?_ (by decide)
  rw [code_sub (isFinite_of_code_le hrank (by decide)) (isFinite_of_code_le hindex (by decide))]
  refine nearestCode_le (abs_nonneg _) (by decide) ((abs_sub _ _).trans ?_)
  have hsum := add_le_add (abs_toRat_le hrank) (abs_toRat_le hindex)
  rw [magnitude_powerCode_64] at hsum
  rw [magnitude_powerCode_65]
  linarith

/-! ## Lost quantiles -/

/-- The quantile of some samples is lost between two of them: their difference is infinite, and the rank
falls on the lower one. -/
def Lost (xs : Array Float) (q lo hi : Float) : Prop :=
  (hi - lo).isFinite = false ∧
    (rank xs q - Scalar.ofNat (lower xs (rank xs q)) == 0) = true

/-- **A quantile is no number if it is lost, and only then.** Any other lies between its two samples. -/
theorem isNaN_iff_lost {xs : Array Float} {q lo hi v : Float} (hq : q.isNaN = false)
    (hfinite : ∀ x ∈ xs, Scalar.isFinite x = true) (h : Safe xs q lo hi)
    (hv : ofSorted xs q = .ok (some v)) :
    (v.isNaN = true ↔ Lost xs q lo hi) ∧
      (v.isNaN = false → v.isFinite = true ∧ lo ≤ v ∧ v ≤ hi) := by
  have hlo := hfinite lo (Array.mem_of_getElem? h.lo_eq)
  have hhi := hfinite hi (Array.mem_of_getElem? h.hi_eq)
  have hweight := isFinite_weight xs hq (lower xs (rank xs q))
  obtain rfl : _ = v := Option.some.inj (Except.ok.inj (h.value.symm.trans hv))
  rw [isFinite_eq] at hlo hhi
  rw [isNaN_clamp hlo hhi h.le, isNaN_add hlo, isNaN_mul_iff (isNaN_sub hhi hlo) hweight]
  refine ⟨Iff.rfl, fun hnumber => clamp_spec hlo hhi h.le ?_⟩
  rwa [isNaN_add hlo]

/-- Samples that are not too far apart have differences that are finite, and none that lie between
them has another one. -/
theorem isFinite_sub_of_le {least lo hi greatest : Float} (hleast : least.isFinite = true)
    (hlo : lo.isFinite = true) (hhi : hi.isFinite = true) (hgreatest : greatest.isFinite = true)
    (h : least ≤ lo) (hle : lo ≤ hi) (h' : hi ≤ greatest)
    (hwidth : (greatest - least).isFinite = true) : (hi - lo).isFinite = true := by
  rw [← isFinite_eq] at *
  rw [le_iff_toRat_le (by assumption) (by assumption)] at h hle h'
  refine isFinite_of_code_le (c := (ofFloat (greatest - least)).code) ?_ (of_decide_eq_true hwidth)
  rw [code_sub hhi hlo, code_sub hgreatest hleast, abs_of_nonneg (by linarith),
    abs_of_nonneg (by linarith)]
  exact nearestCode_mono (by linarith) (by linarith)

/-- The difference of doubles that are not negative is finite. -/
theorem isFinite_sub_of_nonneg {lo hi : Float} (hlo : lo.isFinite = true) (hhi : hi.isFinite = true)
    (hpos : 0 ≤ lo) (hle : lo ≤ hi) : (hi - lo).isFinite = true := by
  have hzero : Scalar.isFinite (0 : Float) = true := by decide +kernel
  have hvalue : (ofFloat 0).toRat = 0 := by decide +kernel
  rw [← isFinite_eq] at *
  rw [le_iff_toRat_le hzero hlo, hvalue] at hpos
  rw [le_iff_toRat_le hlo hhi] at hle
  refine isFinite_of_code_le (c := (ofFloat hi).code) ?_ (of_decide_eq_true hhi)
  rw [code_sub hhi hlo]
  refine nearestCode_le (abs_nonneg _) (of_decide_eq_true hhi) ?_
  rw [← abs_toRat, abs_of_nonneg (by linarith), abs_of_nonneg (by linarith)]
  linarith

end Quantile

/-- The quantile of a percentile is a number. -/
theorem Percentile.isNaN_quantile (p : Percentile) : (p.quantile : Float).isNaN = false := by
  have hle := p.le_hundred
  have hcode : (ofFloat (Scalar.ofCode p.code : Float)).code = p.code := by
    have hkept := ofFloat_toFloat (b := ⟨false, p.code⟩) (hle.trans (by decide))
    exact congrArg Binary64.code hkept
  have hfinite : Scalar.isFinite (Scalar.ofCode p.code : Float) = true :=
    Quantile.isFinite_of_code_le (hcode.trans_le hle) (by decide)
  rw [isFinite_eq] at hfinite
  exact isNaN_div hfinite (by decide +kernel) (by decide +kernel)

/-! ## Summaries -/

namespace LatencySummary

/-- The least and the greatest of the samples that are finite. -/
structure FiniteExtremes (xs : List Float) (least greatest : Float) : Prop where
  least_mem : least ∈ xs
  greatest_mem : greatest ∈ xs
  isFinite_least : least.isFinite = true
  isFinite_greatest : greatest.isFinite = true
  bounds : ∀ x ∈ xs, x.isFinite = true → least ≤ x ∧ x ≤ greatest

theorem mem_ascending_iff {xs : List Float} {x : Float} :
    x ∈ ascending xs ↔ x ∈ xs ∧ x.isFinite = true := by
  rw [ascending, List.mem_mergeSort, List.mem_filter, isFinite_eq]

/-- The first sample in order is the least, and the last the greatest. -/
theorem exists_finiteExtremes {xs : List Float} (hsome : ∃ x ∈ xs, x.isFinite = true) :
    ∃ least greatest, FiniteExtremes xs least greatest := by
  obtain ⟨x, hx, hfinite⟩ := hsome
  have hpos : 0 < (ascending xs).length :=
    List.length_pos_of_mem (mem_ascending_iff.mpr ⟨hx, hfinite⟩)
  have hlast : (ascending xs).length - 1 < (ascending xs).length := by omega
  obtain ⟨hleast, hleast'⟩ := mem_ascending_iff.mp (List.getElem_mem hpos)
  obtain ⟨hgreatest, hgreatest'⟩ := mem_ascending_iff.mp (List.getElem_mem hlast)
  refine ⟨_, _, hleast, hgreatest, hleast', hgreatest', fun y hy hyfinite => ?_⟩
  obtain ⟨i, hi, rfl⟩ := List.getElem_of_mem (mem_ascending_iff.mpr ⟨hy, hyfinite⟩)
  exact ⟨of_decide_eq_true (atMost_ascending xs hpos hi (Nat.zero_le i)),
    of_decide_eq_true (atMost_ascending xs hi hlast (Nat.le_sub_one_of_lt hi))⟩

/-- The samples that a quantile lies between are within the extremes. -/
theorem FiniteExtremes.bracket {xs : List Float} {least greatest q lo hi : Float}
    (h : FiniteExtremes xs least greatest) (hsafe : Quantile.Safe (ascending xs).toArray q lo hi) :
    (lo.isFinite = true ∧ least ≤ lo) ∧ hi.isFinite = true ∧ hi ≤ greatest := by
  obtain ⟨hlo, hlo'⟩ := mem_ascending_iff.mp (List.mem_toArray.mp (Array.mem_of_getElem? hsafe.lo_eq))
  obtain ⟨hhi, hhi'⟩ := mem_ascending_iff.mp (List.mem_toArray.mp (Array.mem_of_getElem? hsafe.hi_eq))
  exact ⟨⟨hlo', (h.bounds lo hlo hlo').1⟩, hhi', (h.bounds hi hhi hhi').2⟩

variable {set : PercentileSet} {xs : List Float} {s : LatencySummary Float}

/-- The percentiles of a summary are what is found under their keys. -/
theorem percentiles_eq (h : ofSamples set xs = .ok s) :
    s.percentiles = set.effective.map fun p => (p.key, s.get? p.key) := by
  obtain ⟨g, hg, hs⟩ := eq_of_ofSamples h
  rw [congrArg percentiles hs]
  refine List.map_congr_left fun p hp => ?_
  rw [Prod.mk.injEq]
  exact ⟨rfl, Except.ok.inj ((hg p.quantile).symm.trans (ofSorted_eq_get? h hp))⟩

/-- An effective percentile of finite samples is the value of its quantile, between two of them. -/
theorem exists_safe_get? (h : ofSamples set xs = .ok s) (hsome : ∃ x ∈ xs, x.isFinite = true)
    {p : Percentile} (hp : p ∈ set.effective) : ∃ lo hi v,
      Quantile.Safe (ascending xs).toArray p.quantile lo hi ∧ s.get? p.key = some v ∧
      Quantile.ofSorted (ascending xs).toArray p.quantile = .ok (some v) := by
  obtain ⟨x, hx, hfinite⟩ := hsome
  have hsize : (ascending xs).toArray.size ≠ 0 := by
    rw [List.size_toArray]
    exact (List.length_pos_of_mem (mem_ascending_iff.mpr ⟨hx, hfinite⟩)).ne'
  obtain ⟨lo, hi, hsafe⟩ := Quantile.exists_safe
    (fun x hx => isFinite_of_mem_ascending (List.mem_toArray.mp hx))
    (fun i j hi hj hle => precedes_ascending xs hi hj hle) hsize p.quantile
  have hvalue := ofSorted_eq_get? h hp
  rw [hsafe.value] at hvalue
  exact ⟨lo, hi, _, hsafe, (Except.ok.inj hvalue).symm, hsafe.value⟩

/-- A percentile is held by its two samples, and so by the extremes, unless it is lost between the two. -/
theorem FiniteExtremes.exists_get? {least greatest : Float} (hextremes : FiniteExtremes xs least greatest)
    (h : ofSamples set xs = .ok s) {p : Percentile} (hp : p ∈ set.effective) : ∃ lo hi v,
      Quantile.Safe (ascending xs).toArray p.quantile lo hi ∧ s.get? p.key = some v ∧ least ≤ lo ∧
      hi ≤ greatest ∧ (v.isNaN = true ↔ Quantile.Lost (ascending xs).toArray p.quantile lo hi) ∧
      (v.isNaN = false → v.isFinite = true ∧ lo ≤ v ∧ v ≤ hi ∧ least ≤ v ∧ v ≤ greatest) := by
  have hleast := hextremes.isFinite_least
  have hgreatest := hextremes.isFinite_greatest
  obtain ⟨lo, hi, v, hsafe, hget, hvalue⟩ := exists_safe_get? h ⟨least, hextremes.least_mem, hleast⟩ hp
  obtain ⟨⟨hlo, hleast_lo⟩, hhi, hhi_greatest⟩ := hextremes.bracket hsafe
  obtain ⟨hlost, hheld⟩ := Quantile.isNaN_iff_lost p.isNaN_quantile
    (fun x hx => isFinite_of_mem_ascending (List.mem_toArray.mp hx)) hsafe hvalue
  refine ⟨lo, hi, v, hsafe, hget, hleast_lo, hhi_greatest, hlost, fun hnumber => ?_⟩
  obtain ⟨hfinite, hlo_v, hv_hi⟩ := hheld hnumber
  exact ⟨hfinite, hlo_v, hv_hi, le_trans_of_isFinite hleast hlo hfinite hleast_lo hlo_v,
    le_trans_of_isFinite hfinite hhi hgreatest hv_hi hhi_greatest⟩

/-- Nothing is lost among samples that are not too far apart. -/
theorem FiniteExtremes.exists_get?_of_width {least greatest : Float}
    (hextremes : FiniteExtremes xs least greatest) (hwidth : (greatest - least).isFinite = true)
    (h : ofSamples set xs = .ok s) {p : Percentile} (hp : p ∈ set.effective) : ∃ v,
      s.get? p.key = some v ∧ v.isFinite = true ∧ least ≤ v ∧ v ≤ greatest := by
  obtain ⟨lo, hi, v, hsafe, hget, hleast_lo, hhi_greatest, hlost, hheld⟩ := hextremes.exists_get? h hp
  obtain ⟨⟨hlo, -⟩, hhi, -⟩ := hextremes.bracket hsafe
  have hsub := Quantile.isFinite_sub_of_le hextremes.isFinite_least hlo hhi
    hextremes.isFinite_greatest hleast_lo hsafe.le hhi_greatest hwidth
  have hnumber : v.isNaN = false := by
    rw [← Bool.not_eq_true, hlost]
    intro hinfinite
    rw [hinfinite.1] at hsub
    cases hsub
  obtain ⟨hfinite, -, -, hbounds⟩ := hheld hnumber
  exact ⟨v, hget, hfinite, hbounds⟩

/-- **The percentiles of finite samples are finite and within the samples, unless they are lost**, whatever
the signs and the magnitudes of the samples. Every percentile of a summary lies between two of the samples
that are finite. It is no number if and only if it is lost between these two: their difference is infinite,
and the rank falls on the lower one. Otherwise it is finite, and held by the two, and so by the least and
the greatest of the samples. Where the difference of the least and the greatest is finite no percentile is
lost, and it is finite where no sample is negative. -/
theorem percentiles_in_range (set : PercentileSet) {xs : List Float}
    (hsome : ∃ x ∈ xs, x.isFinite = true) :
    let retained := (ascending xs).toArray
    ∃ s least greatest, ofSamples set xs = .ok s ∧ FiniteExtremes xs least greatest ∧
      s.percentiles = (set.effective.map fun p => (p.key, s.get? p.key)) ∧
      (∀ p ∈ set.effective, ∃ lo hi v, Quantile.Safe retained p.quantile lo hi ∧
        s.get? p.key = some v ∧ least ≤ lo ∧ hi ≤ greatest ∧
        (v.isNaN = true ↔ Quantile.Lost retained p.quantile lo hi) ∧
        (v.isNaN = false → v.isFinite = true ∧ lo ≤ v ∧ v ≤ hi ∧ least ≤ v ∧ v ≤ greatest)) ∧
      ((greatest - least).isFinite = true → ∀ p ∈ set.effective, ∃ v, s.get? p.key = some v ∧
        v.isFinite = true ∧ least ≤ v ∧ v ≤ greatest) ∧
      ((∀ x ∈ xs, x.isFinite = true → 0 ≤ x) → (greatest - least).isFinite = true) := by
  intro retained
  obtain ⟨least, greatest, hextremes⟩ := exists_finiteExtremes hsome
  obtain ⟨s, hs⟩ := exists_ofSamples set xs
  refine ⟨s, least, greatest, hs, hextremes, percentiles_eq hs, fun p hp => hextremes.exists_get? hs hp,
    fun hwidth p hp => hextremes.exists_get?_of_width hwidth hs hp, fun hpos => ?_⟩
  have hleast := hextremes.isFinite_least
  exact Quantile.isFinite_sub_of_nonneg hleast hextremes.isFinite_greatest
    (hpos least hextremes.least_mem hleast) (hextremes.bounds least hextremes.least_mem hleast).2

/-- Zero and the greatest double are not too far apart: none of their percentiles is lost. -/
theorem percentiles_in_range_of_greatest :
    let greatest := Float.ofBits 0x7fefffffffffffff
    let xs := [greatest, Float.ofBits 0x7ff8000000000000, 0, greatest]
    (∃ x ∈ xs, x.isFinite = true) ∧ (∀ x ∈ xs, x.isFinite = true → 0 ≤ x) ∧
    ∃ s v, ofSamples .default xs = .ok s ∧ s.get? "p50" = some v ∧ v.isFinite = true := by
  intro greatest xs
  have hsome : ∃ x ∈ xs, x.isFinite = true := ⟨0, by simp [xs], by decide +kernel⟩
  have hpos : ∀ x ∈ xs, x.isFinite = true → 0 ≤ x := by decide +kernel
  have hkey : Percentile.p50.key = "p50" := by decide +kernel
  obtain ⟨s, least, greatest', hs, -, -, -, hkept, hwidth⟩ := percentiles_in_range .default hsome
  obtain ⟨v, hget, hfinite, -⟩ := hkept (hwidth hpos) .p50 (by decide)
  rw [hkey] at hget
  exact ⟨hsome, hpos, s, v, hs, hget, hfinite⟩

/-- Of the greatest double and its negative, which is there twice, the median is no number. -/
theorem median_lost_of_opposite :
    let greatest := Float.ofBits 0x7fefffffffffffff
    let least := Float.ofBits 0xffefffffffffffff
    let xs := [least, greatest, least]
    (∀ x ∈ xs, x.isFinite = true) ∧
    ∃ s v, ofSamples .default xs = .ok s ∧ s.get? "p50" = some v ∧ v.isNaN = true ∧
      v.isFinite = false ∧ ¬ least ≤ v ∧ ¬ v ≤ greatest := by
  intro greatest least xs
  have hkey : Percentile.p50.key = "p50" := by decide +kernel
  have hall : ∀ x ∈ xs, x.isFinite = true := by decide +kernel
  have hsorted : ascending xs = [least, least, greatest] := by
    have hperm : xs.Perm [least, least, greatest] := (List.Perm.swap least greatest []).cons least
    have hfilter : [least, least, greatest].filter Scalar.isFinite = [least, least, greatest] := by
      decide +kernel
    rw [ascending_perm hperm, ascending, hfilter]
    exact List.mergeSort_of_pairwise (by decide +kernel)
  obtain ⟨s, hs⟩ := exists_ofSamples .default xs
  obtain ⟨-, -, v, -, hget, hvalue⟩ := exists_safe_get? (p := .p50) hs
    ⟨least, List.mem_cons_self, hall _ List.mem_cons_self⟩ (by decide)
  have hlost : (Quantile.ofSorted [least, least, greatest].toArray Percentile.p50.quantile).toOption.any
      (fun v => v.any fun v => v.isNaN && !v.isFinite && !decide (least ≤ v) &&
        !decide (v ≤ greatest)) = true := by decide +kernel
  rw [← hsorted, hvalue] at hlost
  rw [hkey] at hget
  simp only [Except.toOption, Option.any_some, Bool.and_eq_true, Bool.not_eq_true',
    decide_eq_false_iff_not] at hlost
  obtain ⟨⟨⟨hnan, hinfinite⟩, hleast⟩, hgreatest⟩ := hlost
  exact ⟨hall, s, v, hs, hget, hnan, hinfinite, hleast, hgreatest⟩

end LatencySummary
end ExchangeBench
