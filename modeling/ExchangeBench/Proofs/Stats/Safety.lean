import ExchangeBench.Proofs.Decimal.Shortest
import ExchangeBench.Proofs.Stats.Entries

/-!
# Summarizing latencies never panics

Two steps of a summary could panic: reading a sample beyond the last one, and holding a value between
bounds that are not in order or are no numbers. Samples are sorted by their bits and bounds are compared
as numbers, so what is safe about this is that only finite samples are left when they are sorted. Among
those the order of bits is that of the numbers, with negative zero just before zero.

- `Binary64.isFinite_eq`, `Binary64.isFinite_ofBits`: which doubles are finite.
- `Binary64.toRat_le_toRat`: places ascend with the number that a double is.
- `Quantile.Safe`: a quantile reads two samples that are there, and holds its value between two numbers
  in order.
- `LatencySummary.summary_never_panics`: every quantile of every list of samples is safe.

Nothing is asked of the quantile: the rank is a rounded product, and it is held within the samples
whatever comes out, even if that is no number.
-/

namespace ExchangeBench

/-! ## Finite doubles -/

namespace Binary64

open Float.Model Float.Model.UnpackedFloat

/-- Bits with the largest exponent are those of an infinity, or of no number. -/
theorem unpack_eq_of_exponent {b : BitVec Format.binary64.numBits}
    (h : unpackExponent b = -1#_) :
    UnpackedFloat.unpack Format.binary64 b = .notANumber ∨
      ∃ s, UnpackedFloat.unpack Format.binary64 b = .infinity s := by
  rw [UnpackedFloat.unpack]
  simp only [if_pos h]
  split
  · exact .inr ⟨_, rfl⟩
  · exact .inl rfl

theorem unpackExponent_eq_of_le {b : BitVec Format.binary64.numBits}
    (h : infinityCode ≤ b.toNat % signBit) : unpackExponent b = -1#_ := by
  have hall : (-1#_ : BitVec Format.binary64.exponentBits).toNat = 2047 := by decide
  have hcode : infinityCode = 2047 * 2 ^ 52 := rfl
  have hsign : signBit = 2 ^ 63 := rfl
  rw [hcode, hsign] at h
  apply BitVec.eq_of_toNat_eq
  rw [hall, toNat_unpackExponent]
  omega

/-- A double is finite if its code is less than that of infinity, and not otherwise. -/
theorem isFinite_eq (x : Float) : Scalar.isFinite x = x.isFinite := by
  show (ofFloat x).isFinite = (UnpackedFloat.unpack Format.binary64 (packed x)).isFinite
  cases hx : (ofFloat x).isFinite with
  | true =>
    rcases unpacks_of_isFinite hx with ⟨-, hzero⟩ | ⟨hpos, hfinite⟩
    · exact (congrArg UnpackedFloat.isFinite hzero).symm
    · exact (congrArg UnpackedFloat.isFinite hfinite).symm
  | false =>
    have hcode : infinityCode ≤ (packed x).toNat % signBit := Nat.not_lt.mp (of_decide_eq_false hx)
    rcases unpack_eq_of_exponent (unpackExponent_eq_of_le hcode) with hnan | ⟨s, hinfinity⟩
    · exact (congrArg UnpackedFloat.isFinite hnan).symm
    · exact (congrArg UnpackedFloat.isFinite hinfinity).symm

/-- The bits of an infinity or of no number, whatever the sign and the rest of them, are those of a
double that is not finite. -/
theorem isFinite_ofBits {b : UInt64} (h : infinityCode ≤ b.toNat % signBit) :
    (Float.ofBits b).isFinite = false := by
  show (UnpackedFloat.unpack Format.binary64 (UnpackedFloat.pack Format.binary64
    (UnpackedFloat.unpack Format.binary64 b.toBitVec))).isFinite = false
  rcases unpack_eq_of_exponent (unpackExponent_eq_of_le h) with hnan | ⟨s, hinfinity⟩
  · rw [hnan]
    decide
  · rw [hinfinity]
    cases s <;> decide

theorem isNaN_of_isFinite {x : Float} (hx : Scalar.isFinite x = true) : x.isNaN = false := by
  show x.toModel.unpack.isNaN = false
  rcases unpacks_of_isFinite hx with ⟨-, hzero⟩ | ⟨hpos, hfinite⟩
  · rw [hzero]
    rfl
  · rw [hfinite]
    rfl

/-- Places ascend with the number that a double is. -/
theorem toRat_le_toRat {x y : Binary64} (h : x.place ≤ y.place) : x.toRat ≤ y.toRat := by
  obtain ⟨nx, cx⟩ := x
  obtain ⟨ny, cy⟩ := y
  unfold place at h
  cases nx <;> cases ny
  · exact magnitude_le_magnitude (Int.ofNat_le.mp h)
  · simp at h
    omega
  · exact (neg_nonpos.mpr (Decimal.magnitude_nonneg cx)).trans (Decimal.magnitude_nonneg cy)
  · -- below zero codes descend, and so do the numbers
    have hcode : cy ≤ cx := by simpa using h
    exact neg_le_neg (magnitude_le_magnitude hcode)

end Binary64

/-! ## What a quantile reads -/

namespace Quantile

/-- Quantile `q` of some samples reads two of them, `lo` and `hi`, and its value is held between them.
They are numbers, and in order. -/
structure Safe (xs : Array Float) (q lo hi : Float) : Prop where
  lo_eq : xs[lower xs (rank xs q)]? = some lo
  hi_eq : xs[upper xs (rank xs q)]? = some hi
  isNaN_lo : lo.isNaN = false
  isNaN_hi : hi.isNaN = false
  le : lo ≤ hi
  toRat_le : (Binary64.ofFloat lo).toRat ≤ (Binary64.ofFloat hi).toRat
  value : ofSorted xs q = .ok (some (clamp lo hi
    (lo + (hi - lo) * (rank xs q - Scalar.ofNat (lower xs (rank xs q))))))

/-- **Finite samples sorted by their bits have safe quantiles.** -/
theorem exists_safe {xs : Array Float} (hfinite : ∀ x ∈ xs, Scalar.isFinite x = true)
    (hsorted : ∀ (i j : Nat) (hi : i < xs.size) (hj : j < xs.size), i ≤ j →
      Scalar.precedes xs[i] xs[j] = true)
    (hsize : xs.size ≠ 0) (q : Float) : ∃ lo hi, Safe xs q lo hi := by
  obtain ⟨hlower, hupper, hquantile⟩ := ofSorted_eq_between hsize q
  have hlo := hfinite _ (Array.getElem_mem hlower)
  have hhi := hfinite _ (Array.getElem_mem hupper)
  have hplace := (Binary64.precedes_iff _ _).mp
    (hsorted _ _ hlower hupper (lower_le_upper xs (rank xs q)))
  have hle := Binary64.le_of_place_le hlo hhi hplace
  refine ⟨_, _, Array.getElem?_eq_getElem hlower, Array.getElem?_eq_getElem hupper,
    Binary64.isNaN_of_isFinite hlo, Binary64.isNaN_of_isFinite hhi, hle,
    Binary64.toRat_le_toRat hplace, ?_⟩
  rw [hquantile, between_of_atMost (decide_eq_true hle)]
  rfl

end Quantile

/-! ## Summaries -/

namespace LatencySummary

theorem size_ascending_eq (xs : List Float) :
    (ascending xs).toArray.size = xs.countP Float.isFinite := by
  have hfinite : (Scalar.isFinite : Float → Bool) = Float.isFinite := funext Binary64.isFinite_eq
  rw [List.size_toArray, length_ascending, hfinite, List.countP_eq_length_filter]

/-- **Summarizing latencies never panics**, whatever doubles they are: infinities and what is no number,
of either sign, are left out before anything is sorted. Of the `n` samples that are left every quantile
is safe: it reads samples that are there, and its value is held between two numbers in order. So at every
set of percentiles there is a summary. It counts these samples, and its percentiles, which are those of
the set, are absent if and only if there are none. -/
theorem summary_never_panics :
    (∀ b : UInt64, Binary64.infinityCode ≤ b.toNat % Binary64.signBit →
      (Float.ofBits b).isFinite = false) ∧
    ∀ (set : PercentileSet) (xs : List Float),
      let retained := (ascending xs).toArray
      let n := xs.countP Float.isFinite
      retained.size = n ∧
      (n ≠ 0 → ∀ q, ∃ lo hi, Quantile.Safe retained q lo hi) ∧
      ∃ s, ofSamples set xs = .ok s ∧ s.count = n ∧
        s.percentiles.map Prod.fst = set.effective.map Percentile.key ∧
        ∀ e ∈ s.percentiles, e.2 = none ↔ n = 0 := by
  refine ⟨fun b => Binary64.isFinite_ofBits, fun set xs => ?_⟩
  intro retained n
  have hsize : retained.size = n := size_ascending_eq xs
  have hsafe : retained.size ≠ 0 → ∀ q, ∃ lo hi, Quantile.Safe retained q lo hi :=
    fun hsome => Quantile.exists_safe
      (fun x hx => isFinite_of_mem_ascending (List.mem_toArray.mp hx))
      (fun i j hi hj hle => precedes_ascending xs hi hj hle) hsome
  refine ⟨hsize, hsize ▸ hsafe, ?_⟩
  obtain ⟨g, hg, hsummary⟩ := exists_quantiles set xs
  refine ⟨_, hsummary, hsize, keys_of_ofSamples hsummary, ?_⟩
  intro e he
  obtain ⟨p, -, rfl⟩ := List.mem_map.mp he
  rw [← hsize, ← not_iff_not, ← Ne, ← Option.isSome_iff_ne_none]
  exact Quantile.isSome_of_ofSorted (hg p.quantile)

/-- Both zeros, a subnormal number twice, and the largest one, among infinities and what is no number, of
both signs. The quantile that is asked for is no number either. -/
theorem summary_never_panics_of_special :
    let nan : UInt64 := 0xfff8000000000001
    let xs : List Float := [nan, 0x7ff8000000000000, 0, 0x7ff0000000000000, 1, 0xfff0000000000000,
      0x8000000000000000, 1, 0x7fefffffffffffff].map Float.ofBits
    Binary64.infinityCode ≤ nan.toNat % Binary64.signBit ∧ (Float.ofBits nan).isFinite = false ∧
    (∃ lo hi, Quantile.Safe (ascending xs).toArray (Float.ofBits nan) lo hi) ∧
    ∃ s, ofSamples .default xs = .ok s ∧ s.count = 5 ∧ ∀ e ∈ s.percentiles, e.2 ≠ none := by
  intro nan xs
  obtain ⟨hbits, hall⟩ := summary_never_panics
  obtain ⟨-, hsafe, s, hs, hcount, -, habsent⟩ := hall .default xs
  have hfive : xs.countP Float.isFinite = 5 := by decide +kernel
  have hcode : Binary64.infinityCode ≤ nan.toNat % Binary64.signBit := by decide
  rw [hfive] at hsafe hcount
  refine ⟨hcode, hbits nan hcode, hsafe (by decide) _, s, hs, hcount, fun e he hnone => ?_⟩
  exact absurd (hfive.symm.trans ((habsent e he).mp hnone)) (by decide)

end LatencySummary
end ExchangeBench
