import ExchangeBench.Proofs.Scalar.Nearest
import ExchangeBench.Proofs.Stats.Safety

/-!
# Infinities, and what is no number

Arithmetic on doubles leaves the finite ones in two steps: a result that is too large is infinite, and
an infinity times zero is no number. What is no number is neither smaller nor larger than anything, so
every comparison with it is false.

- `Binary64.ofFloat_toFloat`, `Binary64.toFloat_ofFloat`: the parts of numbers and infinities, put together
  and taken apart again, and a double made of its parts.
- `Binary64.lt_iff_not_le`, `Binary64.le_iff_toRat_le`: comparisons, and those of finite doubles.
- `Binary64.isNaN_add`, `Binary64.isNaN_sub`, `Binary64.isNaN_mul_iff`, `Binary64.isNaN_div`: when the
  result of an operation is no number.
- `Quantile.isNaN_clamp`, `Quantile.clamp_spec`: what holding a value between finite bounds leads to.
-/

namespace ExchangeBench

namespace Binary64

open Float.Model Float.Model.UnpackedFloat

variable {x y : Float}

/-! ## Bits -/

/-- Only the bits of what is no number are not kept. -/
theorem ofFloat_toFloat {b : Binary64} (h : b.code ≤ infinityCode) : ofFloat b.toFloat = b := by
  have hsign : signBit = 2 ^ 63 := rfl
  have hinfinity : infinityCode = 2047 * 2 ^ 52 := rfl
  obtain ⟨n, hn⟩ : ∃ n, n = if b.negative then signBit + b.code else b.code := ⟨_, rfl⟩
  have hlt : n < 2 ^ 64 := by
    rw [hn]
    split <;> omega
  have hmod : n % 2 ^ 63 = b.code := by
    rw [hn]
    split <;> omega
  have hbits : (UInt64.ofNat n).toBitVec.toNat = n := UInt64.toNat_ofNat_of_lt' hlt
  have hnumber : @isNaNBits Format.binary64 (UInt64.ofNat n).toBitVec = false := by
    refine decide_eq_false fun hnan => hnan.2 (BitVec.eq_of_toNat_eq ?_)
    have hexponent := toNat_unpackExponent (UInt64.ofNat n).toBitVec
    have hall : (-1#_ : BitVec Format.binary64.exponentBits).toNat = 2047 := by decide
    rw [hnan.1, hall, hbits] at hexponent
    rw [toNat_unpackMantissa, hbits]
    show n % 2 ^ 52 = 0
    omega
  have hpacked : (b.toFloat).toBits.toNat = n := by
    show (UnpackedFloat.pack Format.binary64
      (UnpackedFloat.unpack Format.binary64 (UInt64.ofNat _).toBitVec)).toNat = n
    rw [← hn, pack_unpack, hnumber]
    exact hbits
  obtain ⟨negative, code⟩ := b
  simp only [ofFloat, hpacked, hsign, hmod, Binary64.mk.injEq, and_true]
  have hle : code ≤ infinityCode := h
  cases negative
  · have hcode : n = code := hn
    exact decide_eq_false (by omega)
  · have hcode : n = signBit + code := hn
    exact decide_eq_true (by omega)

/-- The parts of a double make it again, whatever it is. -/
theorem toFloat_ofFloat (x : Float) : (ofFloat x).toFloat = x := by
  have hlt := x.toBits.toNat_lt
  have hsign : signBit = 2 ^ 63 := rfl
  have hbits : (if decide (signBit ≤ x.toBits.toNat) = true then signBit + x.toBits.toNat % signBit
      else x.toBits.toNat % signBit) = x.toBits.toNat := by
    rw [hsign]
    split
    next hle =>
      have hle' := of_decide_eq_true hle
      omega
    next hlt' =>
      have hlt'' := mt decide_eq_true hlt'
      omega
  unfold toFloat ofFloat
  dsimp only
  rw [hbits, UInt64.ofNat_toNat, Float.ofBits_toBits]

/-! ## Comparisons -/

theorem compare_swap (u v : UnpackedFloat) : v.compare u = (u.compare v).map Ordering.swap := by
  cases u with
  | notANumber => cases v <;> rfl
  | infinity s =>
    cases s <;> rcases v with (_ | _) | _ | _ | _ <;> rfl
  | zero s =>
    rcases v with (_ | _) | _ | _ | (_ | _) <;> rfl
  | finite s m e hm =>
    cases s <;> rcases v with (_ | _) | _ | _ | ⟨(_ | _), n, f, hn⟩ <;> try rfl
    · show some _ = some (Ordering.swap (Ordering.swap _))
      rw [Ordering.swap_then, Ordering.swap_swap, Int.compare_swap, Nat.compare_swap]
    · show some _ = some (Ordering.swap _)
      rw [Ordering.swap_then, Int.compare_swap, Nat.compare_swap]

theorem lt_iff_compare (x y : Float) :
    x < y ↔ x.toModel.unpack.compare y.toModel.unpack = some .lt := by
  show decide (x.toModel < y.toModel) = true ↔ _
  rw [decide_eq_true_iff]
  exact beq_iff_eq

theorem beq_iff_compare (x y : Float) :
    (x == y) = true ↔ x.toModel.unpack.compare y.toModel.unpack = some .eq := by
  show (x.toModel.unpack.compare y.toModel.unpack == some .eq) = true ↔ _
  exact beq_iff_eq

theorem compare_isSome {u v : UnpackedFloat} (hu : u.isNaN = false) (hv : v.isNaN = false) :
    ∃ o, u.compare v = some o := by
  rcases u with (_ | _) | _ | (_ | _) | ⟨(_ | _), m, e, hm⟩ <;> cases hu <;>
    rcases v with (_ | _) | _ | (_ | _) | ⟨(_ | _), n, f, hn⟩ <;> cases hv <;> exact ⟨_, rfl⟩

/-- Among numbers and infinities the comparison is total. -/
theorem lt_iff_not_le (hx : x.isNaN = false) (hy : y.isNaN = false) : x < y ↔ ¬ y ≤ x := by
  rw [lt_iff_compare, le_iff_compare, compare_swap x.toModel.unpack]
  obtain ⟨o, ho⟩ := compare_isSome hx hy
  rw [ho]
  cases o <;> simp

theorem toRat_eq_of_beq (h : (x == y) = true) : (ofFloat x).toRat = (ofFloat y).toRat := by
  have hzero : (ofFloat 0).toRat = 0 ∧ (ofFloat (-0)).toRat = 0 := by decide +kernel
  obtain ⟨-, -, rfl | ⟨rfl, rfl⟩ | ⟨rfl, rfl⟩⟩ := Float.beq_iff_ne_nan_and_eq.mp h
  · rfl
  · rw [hzero.1, hzero.2]
  · rw [hzero.1, hzero.2]

theorem isFinite_of_beq (h : (x == y) = true) (hx : (ofFloat x).isFinite = true) :
    (ofFloat y).isFinite = true := by
  have hzero : (ofFloat 0).isFinite = true ∧ (ofFloat (-0)).isFinite = true := by decide +kernel
  obtain ⟨-, -, rfl | ⟨rfl, rfl⟩ | ⟨rfl, rfl⟩⟩ := Float.beq_iff_ne_nan_and_eq.mp h
  · exact hx
  · exact hzero.2
  · exact hzero.1

theorem le_of_beq (h : (x == y) = true) : x ≤ y := by
  rw [le_iff_compare, (beq_iff_compare x y).mp h]
  rfl

theorem beq_of_le_of_le (h : x ≤ y) (h' : y ≤ x) : (x == y) = true := by
  rw [le_iff_compare] at h h'
  rw [compare_swap x.toModel.unpack] at h'
  rw [beq_iff_compare]
  cases hcompare : x.toModel.unpack.compare y.toModel.unpack with
  | none =>
    rw [hcompare] at h
    cases h
  | some o =>
    rw [hcompare] at h h'
    cases o
    · cases h'
    · rfl
    · cases h

theorem exists_unpack_eq_zero (hx : (ofFloat x).isFinite = true) (h : (ofFloat x).toRat = 0) :
    ∃ s, x.toModel.unpack = .zero s := by
  rcases unpack_of_isFinite hx with ⟨s, hu, -⟩ | ⟨s, m, e, hm, -, -, hvalue⟩
  · exact ⟨s, hu⟩
  · have habs := abs_apply_mul s m e
    have hpos : (0 : ℚ) < m * 2 ^ e := by positivity
    rw [← hvalue, h, abs_zero] at habs
    exact absurd habs hpos.ne

/-- Finite doubles that are the same number are equal, or both are zero. -/
theorem beq_of_toRat_eq (hx : (ofFloat x).isFinite = true) (hy : (ofFloat y).isFinite = true)
    (h : (ofFloat x).toRat = (ofFloat y).toRat) : (x == y) = true := by
  have hcode : (ofFloat x).code = (ofFloat y).code := by
    refine magnitude_injective (of_decide_eq_true hx) (of_decide_eq_true hy) ?_
    rw [← abs_toRat, ← abs_toRat, h]
  by_cases hnegative : (ofFloat x).negative = (ofFloat y).negative
  · obtain rfl : x = y := ofFloat_injective (by
      rw [Binary64.mk.injEq]
      exact ⟨hnegative, hcode⟩)
    exact beq_of_le_of_le (le_of_place_le hx hx le_rfl) (le_of_place_le hx hx le_rfl)
  · -- only zero is its own negative
    have hzero : (ofFloat x).toRat = 0 := by
      have hopposite : (ofFloat x).toRat = -(ofFloat y).toRat := by
        unfold toRat
        rw [hcode, Bool.eq_not_of_ne hnegative]
        cases (ofFloat y).negative
        · rfl
        · exact (neg_neg _).symm
      linarith
    obtain ⟨s, hu⟩ := exists_unpack_eq_zero hx hzero
    obtain ⟨s', hv⟩ := exists_unpack_eq_zero hy (h ▸ hzero)
    rw [beq_iff_compare, hu, hv]
    rfl

/-- **Finite doubles are compared as the numbers that they are.** -/
theorem le_iff_toRat_le (hx : (ofFloat x).isFinite = true) (hy : (ofFloat y).isFinite = true) :
    x ≤ y ↔ (ofFloat x).toRat ≤ (ofFloat y).toRat := by
  rcases le_total (ofFloat x).place (ofFloat y).place with hplace | hplace
  · exact iff_of_true (le_of_place_le hx hy hplace) (toRat_le_toRat hplace)
  · -- in this order, both say that the two are equal
    have hle := le_of_place_le hy hx hplace
    have hrat := toRat_le_toRat hplace
    refine ⟨fun h => (toRat_eq_of_beq (beq_of_le_of_le h hle)).le, fun h => ?_⟩
    exact le_of_beq (beq_of_toRat_eq hx hy (le_antisymm h hrat))

theorem le_trans_of_isFinite {z : Float} (hx : x.isFinite = true) (hy : y.isFinite = true)
    (hz : z.isFinite = true) (h : x ≤ y) (h' : y ≤ z) : x ≤ z := by
  rw [← isFinite_eq] at hx hy hz
  rw [le_iff_toRat_le hx hy] at h
  rw [le_iff_toRat_le hy hz] at h'
  exact (le_iff_toRat_le hx hz).mpr (h.trans h')

/-! ## Sums and products that are no numbers -/

theorem isNaN_packComponents {e : BitVec Format.binary64.exponentBits} (h : e ≠ -1#_) (s : Sign)
    (m : BitVec Format.binary64.mantissaBitsWithoutImplicit) :
    (UnpackedFloat.unpack Format.binary64 (packComponents Format.binary64 s e m)).isNaN = false := by
  unfold UnpackedFloat.unpack
  simp only [unpackExponent_packComponents, if_neg h]
  split
  · split <;> rfl
  · rfl

theorem isNaN_packedInfinity (s : Sign) :
    (UnpackedFloat.unpack Format.binary64 (packedInfinity Format.binary64 s)).isNaN = false := by
  cases s <;> decide

/-- Packing neither loses what is no number nor makes something so. -/
theorem isNaN_ofModel_pack (u : UnpackedFloat) : (Float.ofModel (.pack u)).isNaN = u.isNaN := by
  show (UnpackedFloat.unpack Format.binary64 (UnpackedFloat.pack Format.binary64 u)).isNaN = _
  cases u with
  | notANumber => rw [UnpackedFloat.pack, unpack_packedNaN]
  | infinity s => exact isNaN_packedInfinity s
  | zero s => rw [UnpackedFloat.pack, unpack_packedZero]
  | finite s m e hm =>
    simp only [UnpackedFloat.pack]
    split
    next => exact isNaN_packedInfinity s
    next hlarge =>
      split
      next =>
        refine isNaN_packComponents (fun h => hlarge ?_) s _
        have hfield := congrArg BitVec.toNat h
        rw [BitVec.toNat_ofNat] at hfield
        have hall : (-1#_ : BitVec Format.binary64.exponentBits).toNat = 2047 := by decide
        have h2048 : 2 ^ Format.binary64.exponentBits = 2048 := rfl
        rw [hall, h2048] at hfield
        omega
      next => exact isNaN_packComponents (by decide) s _

theorem exists_unpack_eq_infinity (hx : x.isNaN = false) (h : x.isFinite = false) :
    ∃ s, x.toModel.unpack = .infinity s := by
  have hnumber : x.toModel.unpack.isNaN = false := hx
  have hinfinite : x.toModel.unpack.isFinite = false := h
  cases hu : x.toModel.unpack with
  | infinity s => exact ⟨s, rfl⟩
  | notANumber => cases (congrArg UnpackedFloat.isNaN hu).symm.trans hnumber
  | zero => cases (congrArg UnpackedFloat.isFinite hu).symm.trans hinfinite
  | finite => cases (congrArg UnpackedFloat.isFinite hu).symm.trans hinfinite

theorem isNaN_roundWithAccuracy (s : Sign) (m : Nat) (e : Int) (a : Accuracy) :
    (roundWithAccuracy Format.binary64 s m e a).isNaN = false := by
  unfold roundWithAccuracy
  dsimp only
  split <;> rfl

theorem isNaN_normalize (m e : Int) (s : Sign) :
    (UnpackedFloat.normalize Format.binary64 m e s).isNaN = false := by
  unfold UnpackedFloat.normalize UnpackedFloat.round
  cases compare m 0
  · exact isNaN_roundWithAccuracy _ _ _ _
  · rfl
  · exact isNaN_roundWithAccuracy _ _ _ _

/-- A sum is no number if what is added to a finite double is none, and only then. -/
theorem isNaN_add (hx : x.isFinite = true) : (x + y).isNaN = y.isNaN := by
  show (Float.ofModel (.pack (UnpackedFloat.add Format.binary64 x.toModel.unpack
    y.toModel.unpack))).isNaN = y.toModel.unpack.isNaN
  have hfinite : x.toModel.unpack.isFinite = true := hx
  rw [isNaN_ofModel_pack]
  generalize x.toModel.unpack = u at hfinite
  cases u with
  | notANumber => cases hfinite
  | infinity => cases hfinite
  | zero s => rcases y.toModel.unpack with (_ | _) | _ | (_ | _) | _ <;> cases s <;> rfl
  | finite s m e hm =>
    cases y.toModel.unpack with
    | finite => exact isNaN_normalize _ _ _
    | _ => rfl

/-- A difference of finite doubles is a number, or infinite. -/
theorem isNaN_sub (hx : x.isFinite = true) (hy : y.isFinite = true) : (x - y).isNaN = false := by
  have hfinite : x.toModel.unpack.isFinite = true := hx
  have hfinite' : y.toModel.unpack.isFinite = true := hy
  show (Float.ofModel (.pack (UnpackedFloat.sub Format.binary64 x.toModel.unpack
    y.toModel.unpack))).isNaN = false
  rw [isNaN_ofModel_pack]
  generalize x.toModel.unpack = u at hfinite
  generalize y.toModel.unpack = v at hfinite'
  cases u with
  | notANumber => cases hfinite
  | infinity => cases hfinite
  | zero s =>
    rcases v with _ | _ | s' | _ <;> cases hfinite'
    · cases s <;> cases s' <;> rfl
    · rfl
  | finite =>
    rcases v with _ | _ | _ | _ <;> cases hfinite'
    · rfl
    · exact isNaN_normalize _ _ _

/-- A product with a finite double is no number if the other factor is infinite and the finite one is
zero. -/
theorem isNaN_mul_iff (hx : x.isNaN = false) (hy : y.isFinite = true) :
    (x * y).isNaN = true ↔ x.isFinite = false ∧ (y == 0) = true := by
  have hnumber : x.toModel.unpack.isNaN = false := hx
  have hfinite : y.toModel.unpack.isFinite = true := hy
  have hzero : (0 : Float).toModel.unpack = .zero .positive := rfl
  rw [beq_iff_compare, hzero]
  show (Float.ofModel (.pack (UnpackedFloat.mul Format.binary64 x.toModel.unpack
    y.toModel.unpack))).isNaN = true ↔ x.toModel.unpack.isFinite = false ∧ _
  rw [isNaN_ofModel_pack]
  generalize x.toModel.unpack = u at hnumber
  generalize y.toModel.unpack = v at hfinite
  cases u with
  | notANumber => cases hnumber
  | infinity s =>
    cases v with
    | notANumber => cases hfinite
    | infinity => cases hfinite
    | zero s' => exact iff_of_true rfl ⟨rfl, rfl⟩
    | finite s' n f hn =>
      refine iff_of_false Bool.false_ne_true fun h => ?_
      cases s' <;> cases h.2
  | zero s =>
    cases v with
    | notANumber => cases hfinite
    | infinity => cases hfinite
    | zero | finite => exact iff_of_false Bool.false_ne_true fun h => Bool.noConfusion h.1
  | finite s m e hm =>
    cases v with
    | notANumber => cases hfinite
    | infinity => cases hfinite
    | zero => exact iff_of_false Bool.false_ne_true fun h => Bool.noConfusion h.1
    | finite =>
      refine iff_of_false (Bool.eq_false_iff.mp ?_) fun h => Bool.noConfusion h.1
      exact isNaN_roundWithAccuracy _ _ _ _

/-- A quotient of finite doubles is a number if the divisor is not zero. -/
theorem isNaN_div (hx : x.isFinite = true) (hy : y.isFinite = true) (hne : (y == 0) = false) :
    (x / y).isNaN = false := by
  have hfinite : x.toModel.unpack.isFinite = true := hx
  have hfinite' : y.toModel.unpack.isFinite = true := hy
  have hzero : (0 : Float).toModel.unpack = .zero .positive := rfl
  rw [← Bool.not_eq_true, beq_iff_compare, hzero] at hne
  show (Float.ofModel (.pack (UnpackedFloat.div Format.binary64 x.toModel.unpack
    y.toModel.unpack))).isNaN = false
  rw [isNaN_ofModel_pack]
  generalize x.toModel.unpack = u at hfinite
  generalize y.toModel.unpack = v at hfinite' hne
  cases v with
  | notANumber => cases hfinite'
  | infinity => cases hfinite'
  | zero s => exact absurd rfl hne
  | finite s n f hn =>
    cases u with
    | notANumber => cases hfinite
    | infinity => cases hfinite
    | zero => rfl
    | finite => exact isNaN_roundWithAccuracy _ _ _ _

end Binary64

/-! ## Values held between bounds -/

namespace Quantile

open Binary64

variable {lo hi x : Float}

theorem less_iff (x y : Float) : Scalar.less x y = true ↔ x < y :=
  decide_eq_true_iff

/-- What is no number is not held by any bounds. -/
theorem clamp_of_isNaN (hx : x.isNaN = true) : clamp lo hi x = x := by
  have hnan : x.toModel.unpack = .notANumber := Float.Model.UnpackedFloat.isNaN_iff.mp hx
  have hlo : ¬ x < lo := by
    rw [lt_iff_compare, hnan]
    exact nofun
  have hhi : ¬ hi < x := by
    rw [lt_iff_compare, compare_swap x.toModel.unpack, hnan]
    exact nofun
  rw [clamp, if_neg (mt (less_iff x lo).mp hlo), if_neg (mt (less_iff hi x).mp hhi)]

/-- Beyond every finite double is an infinity. -/
theorem lt_or_lt_of_not_finite (hlo : lo.isFinite = true) (hhi : hi.isFinite = true)
    (hx : x.isNaN = false) (h : x.isFinite = false) : x < lo ∨ hi < x := by
  have hlo' : lo.toModel.unpack.isFinite = true := hlo
  have hhi' : hi.toModel.unpack.isFinite = true := hhi
  obtain ⟨s, hu⟩ := exists_unpack_eq_infinity hx h
  rw [lt_iff_compare, lt_iff_compare, hu]
  cases s
  · left
    cases hv : lo.toModel.unpack with
    | notANumber | infinity => cases hv ▸ hlo'
    | zero | finite => rfl
  · right
    cases hv : hi.toModel.unpack with
    | notANumber | infinity => cases hv ▸ hhi'
    | zero s => rfl
    | finite s => cases s <;> rfl

/-- **Every number and either infinity are held between two finite bounds.** -/
theorem clamp_spec (hlo : lo.isFinite = true) (hhi : hi.isFinite = true) (hle : lo ≤ hi)
    (hx : x.isNaN = false) :
    (clamp lo hi x).isFinite = true ∧ lo ≤ clamp lo hi x ∧ clamp lo hi x ≤ hi := by
  rw [← isFinite_eq] at hlo hhi
  have hlo' := isNaN_of_isFinite hlo
  have hhi' := isNaN_of_isFinite hhi
  rw [← isFinite_eq]
  unfold clamp
  split
  next => exact ⟨hlo, (le_iff_toRat_le hlo hlo).mpr le_rfl, hle⟩
  next hbelow =>
    split
    next => exact ⟨hhi, hle, (le_iff_toRat_le hhi hhi).mpr le_rfl⟩
    next habove =>
      rw [less_iff] at hbelow habove
      refine ⟨?_, ?_, ?_⟩
      · by_contra hinfinite
        rw [isFinite_eq, Bool.not_eq_true] at hinfinite
        rw [isFinite_eq] at hlo hhi
        exact (lt_or_lt_of_not_finite hlo hhi hx hinfinite).elim hbelow habove
      · exact not_not.mp (mt (lt_iff_not_le hx hlo').mpr hbelow)
      · exact not_not.mp (mt (lt_iff_not_le hhi' hx).mpr habove)

/-- What is held between finite bounds is no number only if it was none before. -/
theorem isNaN_clamp (hlo : lo.isFinite = true) (hhi : hi.isFinite = true) (hle : lo ≤ hi) :
    (clamp lo hi x).isNaN = x.isNaN := by
  cases hx : x.isNaN
  · obtain ⟨hfinite, -⟩ := clamp_spec hlo hhi hle hx
    rw [← isFinite_eq] at hfinite
    exact isNaN_of_isFinite hfinite
  · rw [clamp_of_isNaN hx, hx]

end Quantile
end ExchangeBench
