import ExchangeBench.Proofs.Decimal.Nearest
import ExchangeBench.Proofs.Scalar.Order

/-!
# Arithmetic on doubles is rounded to nearest

The exact sum, difference, product or quotient of two finite doubles is rounded once, to the double nearest to
it. Its significand is shifted to the right, with two bits that remember what is shifted out, or what a
division has left over; as they tell whether that is more than one half, what comes out is a rounded quotient.
Rounding up may need one bit more, and then the significand is shifted again.

- `Binary64.quotientMantissa`: a quotient and the two bits, and what shifting does to it.
- `Binary64.exists_roundQuotient`: the canonical significand and exponent of a rounded number.
- `Binary64.code_pack`: the code that a significand and an exponent are packed into.
- `Binary64.code_add`, `Binary64.code_sub`, `Binary64.code_mul`, `Binary64.code_div`, `Binary64.code_ofNat`:
  sums, differences, products, quotients and whole numbers have the code that is nearest. Where that is the one
  of infinity, the result is infinite.
-/

namespace ExchangeBench.Binary64

open Float.Model Float.Model.UnpackedFloat

/-! ## Shifted significands -/

/-- The whole part of a quotient, whether the rest reaches one half, and whether it is neither zero nor
one half. -/
def quotientMantissa (n d : Nat) : ExtendedMantissa :=
  ⟨n / d, decide (d ≤ 2 * (n % d)), decide (2 * (n % d) % d ≠ 0)⟩

theorem roundedMantissa_quotientMantissa (n : Nat) {d : Nat} (hd : 0 < d) :
    (quotientMantissa n d).roundedMantissa = roundHalfEven n d := by
  have hlt := Nat.mod_lt n hd
  rw [roundHalfEven_eq]
  unfold quotientMantissa ExtendedMantissa.roundedMantissa
  by_cases hhalf : d ≤ 2 * (n % d)
  · have hrest : 2 * (n % d) % d = 2 * (n % d) - d := by
      rw [Nat.mod_eq_sub_mod hhalf, Nat.mod_eq_of_lt (by omega)]
    by_cases htie : 2 * (n % d) = d
    · rw [decide_eq_true hhalf, decide_eq_false (by omega)]
      show n / d + n / d % 2 = _
      split <;> omega
    · rw [decide_eq_true hhalf, decide_eq_true (by omega)]
      show n / d + 1 = _
      rw [if_pos (.inl (by omega))]
  · have hbelow : ExtendedMantissa.accuracy
        ⟨n / d, decide (d ≤ 2 * (n % d)), decide (2 * (n % d) % d ≠ 0)⟩ = .exact ∨
        ExtendedMantissa.accuracy
        ⟨n / d, decide (d ≤ 2 * (n % d)), decide (2 * (n % d) % d ≠ 0)⟩ = .inexact .lt := by
      rw [decide_eq_false hhalf]
      cases decide (2 * (n % d) % d ≠ 0)
      · exact .inl rfl
      · exact .inr rfl
    rw [if_neg (by omega)]
    rcases hbelow with h | h <;> rw [h] <;> rfl

/-- Shifting by one place halves the quotient. -/
theorem shiftRightOne_quotientMantissa (n : Nat) {d : Nat} (hd : 0 < d) :
    (quotientMantissa n d).shiftRightOne = quotientMantissa n (d * 2) := by
  have hlt := Nat.mod_lt n hd
  have hrest : n % (d * 2) = n % d + d * (n / d % 2) := Nat.mod_mul
  have hdouble : 2 * (n % (d * 2)) % (d * 2) = 2 * (n % d) := by
    rcases Nat.mod_two_eq_zero_or_one (n / d) with h | h
    · rw [hrest, h, Nat.mul_zero, Nat.add_zero]
      exact Nat.mod_eq_of_lt (by omega)
    · have hsum : 2 * (n % d + d * 1) = 2 * (n % d) + d * 2 := by omega
      rw [hrest, h, hsum, Nat.add_mod_right]
      exact Nat.mod_eq_of_lt (by omega)
  have hsticky : (2 * (n % d) ≠ 0) ↔ d ≤ 2 * (n % d) ∨ 2 * (n % d) % d ≠ 0 := by
    by_cases hhalf : d ≤ 2 * (n % d)
    · exact iff_of_true (by omega) (.inl hhalf)
    · have hbelow : 2 * (n % d) % d = 2 * (n % d) := Nat.mod_eq_of_lt (by omega)
      rw [hbelow]
      omega
  unfold quotientMantissa ExtendedMantissa.shiftRightOne
  simp only [ExtendedMantissa.mk.injEq]
  refine ⟨Nat.div_div_eq_div_mul n d 2, ?_, ?_⟩
  · rw [hrest, Bool.eq_iff_iff, bne_iff_ne, decide_eq_true_iff]
    rcases Nat.mod_two_eq_zero_or_one (n / d) with h | h <;> rw [h] <;> omega
  · rw [hdouble, Bool.eq_iff_iff, Bool.or_eq_true]
    simp only [decide_eq_true_iff]
    exact hsticky.symm

/-- Shifting divides the quotient by a power of two. -/
theorem shiftRight_quotientMantissa (n : Nat) {d : Nat} (hd : 0 < d) (k : Nat) :
    quotientMantissa n d >>> k = quotientMantissa n (d * 2 ^ k) := by
  induction k with
  | zero =>
    rw [pow_zero, Nat.mul_one]
    rfl
  | succ k ih =>
    show (quotientMantissa n d >>> k).shiftRightOne = _
    rw [ih, shiftRightOne_quotientMantissa n (by positivity), Nat.pow_succ, Nat.mul_assoc]

/-- The rest of a division tells how far the quotient is from a whole number. -/
theorem ofMantissaAndAccuracy_div (n : Nat) {d : Nat} (hd : 0 < d) :
    ExtendedMantissa.ofMantissaAndAccuracy (n / d) (accuracyOfFraction (n % d) d) =
      quotientMantissa n d := by
  have hlt := Nat.mod_lt n hd
  unfold accuracyOfFraction quotientMantissa
  split
  next hzero =>
    rw [hzero, Nat.mul_zero, Nat.zero_mod, decide_eq_false (by omega)]
    rfl
  next hrest =>
    rcases lt_trichotomy (2 * (n % d)) d with hbelow | hhalf | habove
    · have hcompare : compare (2 * (n % d)) d = .lt := Nat.compare_eq_lt.mpr hbelow
      rw [hcompare, Nat.mod_eq_of_lt hbelow, decide_eq_false (by omega), decide_eq_true (by omega)]
      rfl
    · have hcompare : compare (2 * (n % d)) d = .eq := Nat.compare_eq_eq.mpr hhalf
      rw [hcompare, hhalf, Nat.mod_self, decide_eq_true le_rfl]
      rfl
    · have hcompare : compare (2 * (n % d)) d = .gt := Nat.compare_eq_gt.mpr habove
      have hmod : 2 * (n % d) % d = 2 * (n % d) - d := by
        rw [Nat.mod_eq_sub_mod habove.le, Nat.mod_eq_of_lt (by omega)]
      rw [hcompare, hmod, decide_eq_true habove.le, decide_eq_true (by omega)]
      rfl

/-! ## Rounding a scaled quotient -/

/-- The exponent that a scaled significand, or the whole part of a scaled quotient, is rounded to. -/
def targetExponent (m : Nat) (e : Int) : Int :=
  max (m.log2 + 1 + e - 53) (-1074)

theorem targetExponent_eq (m : Nat) (e : Int) :
    Format.binary64.targetExponent (totalExponent m e) = targetExponent m e := rfl

theorem shiftQuotient_eq (n : Nat) {d : Nat} (hd : 0 < d) {e : Int} (he : e ≤ targetExponent (n / d) e) :
    shiftToTargetExponent Format.binary64 (n / d) e (accuracyOfFraction (n % d) d) =
      (quotientMantissa n (d * 2 ^ (targetExponent (n / d) e - e).toNat), targetExponent (n / d) e) := by
  unfold shiftToTargetExponent shiftToExponent
  simp only [targetExponent_eq, ofMantissaAndAccuracy_div n hd, shiftRight_quotientMantissa n hd,
    Prod.mk.injEq, true_and]
  omega

/-- A significand is a quotient by one. -/
theorem shiftToTargetExponent_eq (m : Nat) {e : Int} (h : e ≤ targetExponent m e) :
    shiftToTargetExponent Format.binary64 m e .exact =
      (quotientMantissa m (2 ^ (targetExponent m e - e).toNat), targetExponent m e) := by
  have hshift := shiftQuotient_eq m Nat.one_pos (e := e) (by rwa [Nat.div_one])
  rwa [Nat.div_one, Nat.mod_one, Nat.one_mul] at hshift

/-- The power of two of a scaled quotient is the one that it is rounded to. -/
theorem grid_quotient {n d : Nat} (hn : 0 < n) (hd : 0 < d) {e : Int}
    (he : e ≤ targetExponent (n / d) e) :
    Grid ((n / d : ℚ) * (2 : ℚ) ^ e) (targetExponent (n / d) e) := by
  have htwo : (2 : ℚ) ≠ 0 := two_ne_zero
  have hd' : (0 : ℚ) < d := by exact_mod_cast hd
  have hhigh : (n : ℚ) / d < 2 ^ (((n / d).log2 : Int) + 1) := by
    rw [div_lt_iff₀ hd']
    have hnat : n < 2 ^ ((n / d).log2 + 1) * d :=
      (Nat.div_lt_iff_lt_mul hd).mp Nat.lt_log2_self
    exact_mod_cast hnat
  refine ⟨by positivity, le_max_right _ _, ?_, ?_⟩
  · calc (n / d : ℚ) * 2 ^ e < 2 ^ (((n / d).log2 : Int) + 1) * 2 ^ e := by gcongr
      _ = 2 ^ (((n / d).log2 : Int) + 1 + e) := (zpow_add₀ htwo _ _).symm
      _ ≤ 2 ^ (targetExponent (n / d) e + 53) :=
        zpow_le_zpow_right₀ (by norm_num) (by unfold targetExponent; omega)
  · rcases le_total (((n / d).log2 : Int) + 1 + e - 53) (-1074) with hle | hle
    · exact .inl (max_eq_right hle)
    · right
      have hexponent : targetExponent (n / d) e + 52 = (n / d).log2 + e := by
        rw [targetExponent, max_eq_left hle]
        omega
      -- a quotient below one has the least exponent
      have hpos : n / d ≠ 0 := by
        intro hzero
        rw [hzero] at hexponent he
        have hlog : Nat.log2 0 = 0 := rfl
        omega
      have hlow : (2 : ℚ) ^ ((n / d).log2 : Int) ≤ n / d := by
        rw [le_div_iff₀ hd', zpow_natCast]
        have hnat : 2 ^ (n / d).log2 * d ≤ n :=
          (Nat.le_div_iff_mul_le hd).mp (Nat.log2_self_le hpos)
        exact_mod_cast hnat
      rw [hexponent, zpow_add₀ htwo]
      gcongr

/-- A canonical significand is not shifted. -/
theorem Canonical.targetExponent_eq {m : Nat} {e : Int} (h : Canonical m e) :
    Binary64.targetExponent m e = e := by
  have hcodes : codesPerExponent = 2 ^ 52 := rfl
  have hbits : m.log2 < 53 := by
    by_cases hm : m = 0
    · rw [hm]
      decide
    · exact (Nat.log2_lt hm).mpr (by have := h.lt; omega)
  have hleast := h.least
  unfold Binary64.targetExponent
  rcases h.normal with rfl | hnormal
  · omega
  · have hge : 52 ≤ m.log2 := (Nat.le_log2 (by omega)).mpr (by omega)
    omega

/-- The unpacked double with a sign, a significand and an exponent. -/
def ofParts (s : Sign) (m : Nat) (e : Int) : UnpackedFloat :=
  if h : m = 0 then .zero s else .finite s m e (Nat.pos_of_ne_zero h)

/-- A rounded significand is canonical, or halving it makes it so. -/
theorem exists_shiftToTargetExponent {r : Nat} {t : Int} (ht : -1074 ≤ t)
    (h : r = 2 * codesPerExponent ∨ Canonical r t) : ∃ m e, Canonical m e ∧
      Canonical.code m e = Canonical.code r t ∧
      (shiftToTargetExponent Format.binary64 r t .exact).1.mantissa = m ∧
      (shiftToTargetExponent Format.binary64 r t .exact).2 = e := by
  rcases h with rfl | hcanonical
  · have htarget : targetExponent (2 * codesPerExponent) t = t + 1 := by
      have hlog : Nat.log2 (2 * codesPerExponent) = 53 := by decide +kernel
      unfold targetExponent
      rw [hlog]
      omega
    have hone : (t + 1 - t).toNat = 1 := by omega
    refine ⟨codesPerExponent, t + 1, ⟨by omega, by decide, .inr le_rfl⟩, ?_, ?_⟩
    · have hstep : (t + 1 + 1074).toNat = (t + 1074).toNat + 1 := by omega
      rw [Canonical.code, Canonical.code, hstep]
      ring
    · rw [shiftToTargetExponent_eq _ (by omega), htarget, hone]
      exact ⟨Nat.mul_div_cancel_left _ Nat.two_pos, rfl⟩
  · refine ⟨r, t, hcanonical, rfl, ?_⟩
    rw [shiftToTargetExponent_eq r hcanonical.targetExponent_eq.ge, hcanonical.targetExponent_eq,
      sub_self]
    exact ⟨Nat.div_one r, rfl⟩

/-- **A scaled quotient is rounded to nearest**, if its exponent is not too large to begin with. -/
theorem exists_roundQuotient {n d : Nat} (hn : 0 < n) (hd : 0 < d) {e : Int}
    (he : e ≤ targetExponent (n / d) e) (s : Sign) : ∃ m e', Canonical m e' ∧
      min infinityCode (Canonical.code m e') = nearestCode (n / d * (2 : ℚ) ^ e) ∧
      roundWithAccuracy Format.binary64 s (n / d) e (accuracyOfFraction (n % d) d) = ofParts s m e' := by
  have hgrid := grid_quotient hn hd he
  have hshift := shiftQuotient_eq n hd he
  generalize targetExponent (n / d) e = t at hgrid hshift he
  obtain ⟨k, rfl⟩ : ∃ k : Nat, t = e + k := ⟨(t - e).toNat, by omega⟩
  rw [add_sub_cancel_left, Int.toNat_natCast] at hshift
  have hd' : 0 < d * 2 ^ k := by positivity
  have hquotient : (n : ℚ) / (d * 2 ^ k : Nat) = n / d * 2 ^ e / 2 ^ (e + k : Int) := by
    rw [zpow_add₀ two_ne_zero, zpow_natCast]
    push_cast
    field_simp
  obtain ⟨m, e', hcanonical, hcode, hm, he'⟩ := exists_shiftToTargetExponent hgrid.least
    (exists_canonical_of_grid hgrid hd' hquotient)
  refine ⟨m, e', hcanonical, ?_, ?_⟩
  · rw [hcode, hgrid.nearestCode_eq hd' hquotient]
    rfl
  · rw [← hm, ← he', ← roundedMantissa_quotientMantissa n hd']
    unfold roundWithAccuracy
    rw [hshift]
    rfl

/-! ## Packing -/

/-- The double that an unpacked one is packed into. -/
def ofUnpacked (u : UnpackedFloat) : Binary64 :=
  ofFloat (.ofModel (.pack u))

/-- The code of bits is their exponent and their significand. -/
theorem mod_signBit_eq (b : BitVec Format.binary64.numBits) :
    b.toNat % 2 ^ 63 = (unpackExponent b).toNat * 2 ^ 52 + (unpackMantissa b).toNat := by
  rw [toNat_unpackExponent, toNat_unpackMantissa]
  omega

theorem code_ofUnpacked (u : UnpackedFloat) :
    (ofUnpacked u).code = (unpackExponent (UnpackedFloat.pack Format.binary64 u)).toNat * 2 ^ 52 +
      (unpackMantissa (UnpackedFloat.pack Format.binary64 u)).toNat :=
  mod_signBit_eq (UnpackedFloat.pack Format.binary64 u)

@[simp]
theorem code_ofUnpacked_zero (s : Sign) : (ofUnpacked (.zero s)).code = 0 := by
  cases s <;> decide

@[simp]
theorem code_ofUnpacked_infinity (s : Sign) : (ofUnpacked (.infinity s)).code = infinityCode := by
  cases s <;> decide

theorem toNat_biasedExponent {e : Int} (h : -1074 ≤ e) :
    (e + (Format.binary64.exponentBias : Nat) +
      (Format.binary64.mantissaBitsWithoutImplicit : Nat)).toNat = (e + 1074).toNat + 1 := by
  show (e + (1023 : Nat) + (52 : Nat)).toNat = _
  omega

/-- A significand has a leading bit if it has all of its bits. -/
theorem log2_eq_mantissaBits_iff {m : Nat} (hm : 0 < m) (hlt : m < 2 ^ 53) :
    m.log2 + 1 = Format.binary64.mantissaBits ↔ 2 ^ 52 ≤ m := by
  show m.log2 + 1 = 53 ↔ _
  have hbelow : m.log2 < 53 := (Nat.log2_lt hm.ne').mpr hlt
  rw [← Nat.le_log2 hm.ne']
  omega

/-- The exponent and the significand are put next to each other, without the leading bit. -/
theorem code_pack {m : Nat} {e : Int} (h : Canonical m e) (s : Sign) (hm : 0 < m) :
    (ofUnpacked (.finite s m e hm)).code = min infinityCode (Canonical.code m e) := by
  have hcodes : codesPerExponent = 2 ^ 52 := rfl
  have hleast := h.least
  have hlt := h.lt
  have hinfinity : infinityCode = 2047 * 2 ^ 52 := rfl
  have hbias := toNat_biasedExponent hleast
  have hlog := log2_eq_mantissaBits_iff hm (by omega)
  rw [hinfinity, Canonical.code, hcodes]
  by_cases hlarge : 2 ^ Format.binary64.exponentBits ≤ (e + 1074).toNat + 1 + 1
  · -- an exponent that is too large
    have hexponent : 2046 ≤ (e + 1074).toNat := by
      have h2048 : 2 ^ Format.binary64.exponentBits = 2048 := rfl
      omega
    have hnormal := h.normal.resolve_left (by omega)
    have hpack : UnpackedFloat.pack Format.binary64 (.finite s m e hm) =
        UnpackedFloat.pack Format.binary64 (.infinity s) := by
      simp only [UnpackedFloat.pack, hbias, if_pos hlarge]
    have hinf := code_ofUnpacked_infinity s
    rw [code_ofUnpacked, ← hpack, ← code_ofUnpacked] at hinf
    rw [hinf, hinfinity]
    omega
  · have hexponent : (e + 1074).toNat < 2046 := by
      have h2048 : 2 ^ Format.binary64.exponentBits = 2048 := rfl
      omega
    rw [code_ofUnpacked]
    simp only [UnpackedFloat.pack, hbias, if_neg hlarge, hlog]
    by_cases hnormal : 2 ^ 52 ≤ m
    · rw [if_pos hnormal, unpackExponent_packComponents, unpackMantissa_packComponents,
        BitVec.toNat_ofNat, BitVec.toNat_ofNat]
      have hfield : ((e + 1074).toNat + 1) % 2 ^ 11 = (e + 1074).toNat + 1 :=
        Nat.mod_eq_of_lt (by omega)
      show ((e + 1074).toNat + 1) % 2 ^ 11 * 2 ^ 52 + m % 2 ^ 52 = _
      rw [hfield]
      omega
    · have hleast' : e = -1074 := h.normal.resolve_right (by omega)
      rw [if_neg hnormal, unpackExponent_packComponents, unpackMantissa_packComponents,
        BitVec.toNat_ofNat]
      show 0 * 2 ^ 52 + m % 2 ^ 52 = _
      rw [hleast']
      omega

/-- **Canonical parts are packed into their code**, or into infinity. -/
theorem code_ofParts {m : Nat} {e : Int} (h : Canonical m e) (s : Sign) :
    (ofUnpacked (ofParts s m e)).code = min infinityCode (Canonical.code m e) := by
  unfold ofParts
  split
  next hzero =>
    have hleast : e = -1074 := h.normal.resolve_right (by
      rw [hzero]
      decide)
    rw [code_ofUnpacked_zero, hzero, hleast]
    decide
  next => exact code_pack h s _

/-! ## Rounded operations -/

theorem code_roundQuotient {n d : Nat} (hn : 0 < n) (hd : 0 < d) {e : Int}
    (he : e ≤ targetExponent (n / d) e) (s : Sign) :
    (ofUnpacked (roundWithAccuracy Format.binary64 s (n / d) e (accuracyOfFraction (n % d) d))).code =
      nearestCode (n / d * (2 : ℚ) ^ e) := by
  obtain ⟨m, e', hcanonical, hcode, hround⟩ := exists_roundQuotient hn hd he s
  rw [hround, ← hcode, code_ofParts hcanonical]

theorem code_roundWithAccuracy {m : Nat} (hm : 0 < m) {e : Int} (he : e ≤ targetExponent m e)
    (s : Sign) :
    (ofUnpacked (roundWithAccuracy Format.binary64 s m e .exact)).code =
      nearestCode (m * (2 : ℚ) ^ e) := by
  have hcode := code_roundQuotient hm Nat.one_pos (e := e) (by rwa [Nat.div_one]) s
  rwa [Nat.div_one, Nat.mod_one, Nat.cast_one, div_one] at hcode

theorem log2_mul_two_pow {m : Nat} (hm : 0 < m) (k : Nat) : (m * 2 ^ k).log2 = m.log2 + k := by
  have hlow := Nat.mul_le_mul_right (2 ^ k) (Nat.log2_self_le hm.ne')
  have hhigh := Nat.mul_lt_mul_of_pos_right (Nat.lt_log2_self (n := m)) (by positivity : 0 < 2 ^ k)
  rw [← Nat.pow_add] at hlow hhigh
  rw [Nat.log2_eq_iff (by positivity)]
  exact ⟨hlow, hhigh.trans_eq (by rw [Nat.add_right_comm])⟩

/-- A quotient has at most one bit less than the difference of the bits. -/
theorem log2_le_log2_div (n : Nat) {d : Nat} (hd : 0 < d) : n.log2 ≤ (n / d).log2 + d.log2 + 1 := by
  have hhigh : n < 2 ^ ((n / d).log2 + 1) * d := (Nat.div_lt_iff_lt_mul hd).mp Nat.lt_log2_self
  have hlt : n < 2 ^ ((n / d).log2 + 1 + (d.log2 + 1)) := by
    rw [Nat.pow_add]
    exact hhigh.trans (Nat.mul_lt_mul_of_pos_left Nat.lt_log2_self (by positivity))
  rcases Nat.eq_zero_or_pos n with rfl | hn
  · exact Nat.zero_le _
  · have := (Nat.log2_lt hn.ne').mpr hlt
    omega

/-- The quotient of two significands has all of its bits, or the least exponent. -/
theorem code_divCore {m n : Nat} (hm : 0 < m) (hn : 0 < n) (e f : Int) (s : Sign) :
    (ofUnpacked (let q := divCore Format.binary64 m e n f
      roundWithAccuracy Format.binary64 s q.1 q.2.1 q.2.2)).code =
      nearestCode (m * (2 : ℚ) ^ e / (n * 2 ^ f)) := by
  have hdifference : Format.binary64.targetExponent (totalExponent m e - totalExponent n f) =
      max ((m.log2 + 1 + e) - (n.log2 + 1 + f) - 53) (-1074) := rfl
  unfold divCore
  rw [hdifference]
  generalize ht : min (e - f) (max ((m.log2 + 1 + e) - (n.log2 + 1 + f) - 53) (-1074) : Int) = t
  obtain ⟨k, hk⟩ : ∃ k : Nat, e - f = t + k := ⟨(e - f - t).toNat, by omega⟩
  have hshift : (e - f - t).toNat = k := by omega
  simp only [hshift, Nat.shiftLeft_eq]
  have hpos : 0 < m * 2 ^ k := by positivity
  have hlog := log2_le_log2_div (m * 2 ^ k) hn
  rw [log2_mul_two_pow hm] at hlog
  have htarget : t ≤ targetExponent (m * 2 ^ k / n) t := by
    unfold targetExponent
    omega
  rw [code_roundQuotient hpos hn htarget]
  congr 1
  have hpow : (2 : ℚ) ^ e = 2 ^ k * 2 ^ t * 2 ^ f := by
    rw [← zpow_natCast, ← zpow_add₀ two_ne_zero, ← zpow_add₀ two_ne_zero]
    congr 1
    omega
  rw [hpow]
  push_cast
  field_simp

/-- Lowering the exponent first makes sure that it is not too large. -/
theorem code_round {m : Nat} (hm : 0 < m) (e : Int) (s : Sign) :
    (ofUnpacked (UnpackedFloat.round Format.binary64 s m e)).code =
      nearestCode (m * (2 : ℚ) ^ e) := by
  unfold UnpackedFloat.round decreaseExponent
  simp only [targetExponent_eq]
  generalize hk : (e - targetExponent m e).toNat = k
  have hpos : 0 < m <<< k := by
    rw [Nat.shiftLeft_eq]
    positivity
  have htarget : targetExponent (m <<< k) (e - k) = targetExponent m e := by
    unfold targetExponent
    rw [Nat.shiftLeft_eq, log2_mul_two_pow hm]
    push_cast
    omega
  rw [code_roundWithAccuracy hpos (by omega)]
  congr 1
  rw [Nat.shiftLeft_eq, zpow_sub₀ two_ne_zero, zpow_natCast]
  push_cast
  field_simp

theorem code_normalize (m e : Int) (s : Sign) :
    (ofUnpacked (UnpackedFloat.normalize Format.binary64 m e s)).code =
      nearestCode |m * (2 : ℚ) ^ e| := by
  have habs : |(m : ℚ) * 2 ^ e| = (m.natAbs : ℚ) * 2 ^ e := by
    rw [abs_mul, abs_of_pos (by positivity : (0 : ℚ) < 2 ^ e), Nat.cast_natAbs, Int.cast_abs]
  rw [habs]
  unfold UnpackedFloat.normalize
  rcases lt_trichotomy m 0 with hlt | rfl | hgt
  · have hcompare : compare m 0 = .lt := Int.compare_eq_lt.mpr hlt
    have hnat : (-m).toNat = m.natAbs := by omega
    rw [hcompare]
    simp only [hnat]
    exact code_round (by omega) e _
  · simp [nearestCode_zero]
  · have hcompare : compare m 0 = .gt := Int.compare_eq_gt.mpr hgt
    have hnat : m.toNat = m.natAbs := by omega
    rw [hcompare]
    simp only [hnat]
    exact code_round (by omega) e _

/-! ## Operations on finite doubles -/

theorem canonical_parts (c : Nat) : Canonical (mantissa c) (exponent c) := by
  have hcodes : codesPerExponent = 2 ^ 52 := rfl
  unfold mantissa exponent
  split
  next h => exact ⟨le_rfl, by omega, .inl rfl⟩
  next h =>
    have hlt := Nat.mod_lt c (by decide : 0 < codesPerExponent)
    have hpos := (Nat.one_le_div_iff (by decide : 0 < codesPerExponent)).mpr (Nat.not_lt.mp h)
    exact ⟨by omega, by omega, .inr (Nat.le_add_right _ _)⟩

theorem magnitude_eq (c : Nat) : magnitude c = mantissa c * (2 : ℚ) ^ exponent c := by
  unfold magnitude mantissa exponent
  split
  next => exact scaled_eq _ (by decide) _
  next => exact scaled_eq _ (by decide) _

/-- A finite double is zero, or its sign, a canonical significand and its exponent. -/
theorem unpack_of_isFinite {x : Float} (hx : (ofFloat x).isFinite = true) :
    (∃ s, x.toModel.unpack = .zero s ∧ (ofFloat x).toRat = 0) ∨
      ∃ s m e h, x.toModel.unpack = .finite s m e h ∧ Canonical m e ∧
        (ofFloat x).toRat = (s.apply m : Int) * (2 : ℚ) ^ e := by
  unfold toRat
  rcases unpacks_of_isFinite hx with ⟨hcode, hzero⟩ | ⟨h, hfinite⟩
  · exact .inl ⟨_, hzero, by rw [hcode, magnitude_zero, neg_zero, ite_self]⟩
  · refine .inr ⟨_, _, _, _, hfinite, canonical_parts _, ?_⟩
    rw [magnitude_eq, sign]
    cases (ofFloat x).negative
    · rfl
    · show -((mantissa (ofFloat x).code : ℚ) * _) = ((-(mantissa (ofFloat x).code : Int) : Int) : ℚ) * _
      push_cast
      ring

theorem natAbs_apply (s : Sign) (m : Nat) : (s.apply (m : Int)).natAbs = m := by
  cases s
  · exact Int.natAbs_neg _
  · rfl

theorem abs_apply_mul (s : Sign) (m : Nat) (e : Int) :
    |((s.apply (m : Int) : Int) : ℚ) * 2 ^ e| = m * 2 ^ e := by
  rw [abs_mul, abs_of_pos (by positivity : (0 : ℚ) < 2 ^ e), ← Int.cast_abs, Int.abs_eq_natAbs,
    natAbs_apply, Int.cast_natCast]

/-- A canonical double is rounded to itself. -/
theorem code_ofUnpacked_finite {s : Sign} {m : Nat} {e : Int} (h : Canonical m e) (hm : 0 < m) :
    (ofUnpacked (.finite s m e hm)).code = nearestCode (m * (2 : ℚ) ^ e) := by
  rw [code_pack h, nearestCode_of_canonical h hm]

variable {x y : Float}

/-- **A product is rounded to nearest.** -/
theorem code_mul (hx : (ofFloat x).isFinite = true) (hy : (ofFloat y).isFinite = true) :
    (ofFloat (x * y)).code = nearestCode |(ofFloat x).toRat * (ofFloat y).toRat| := by
  show (ofUnpacked (UnpackedFloat.mul Format.binary64 x.toModel.unpack y.toModel.unpack)).code = _
  rcases unpack_of_isFinite hx with ⟨s, hu, hzero⟩ | ⟨s, m, e, hm, hu, hcanonical, hvalue⟩
  · rw [hu, hzero, zero_mul, abs_zero, nearestCode_zero]
    rcases unpack_of_isFinite hy with ⟨s', hv, -⟩ | ⟨s', n, f, hn, hv, -, -⟩ <;> rw [hv]
    · exact code_ofUnpacked_zero _
    · exact code_ofUnpacked_zero _
  · rcases unpack_of_isFinite hy with ⟨s', hv, hzero⟩ | ⟨s', n, f, hn, hv, hcanonical', hvalue'⟩
    · rw [hu, hv, hzero, mul_zero, abs_zero, nearestCode_zero]
      exact code_ofUnpacked_zero _
    · rw [hu, hv, hvalue, hvalue', abs_mul, abs_apply_mul, abs_apply_mul]
      -- one factor is long enough, or both have the least exponent
      have htarget : e + f ≤ targetExponent (m * n) (e + f) := by
        have hleft : (2 ^ 52 ≤ m ∨ 2 ^ 52 ≤ n) → 52 ≤ (m * n).log2 := fun hlong => by
          rw [Nat.le_log2 (by positivity)]
          rcases hlong with hlong | hlong
          · exact hlong.trans (Nat.le_mul_of_pos_right m hn)
          · exact hlong.trans (Nat.le_mul_of_pos_left n hm)
        unfold targetExponent
        rcases hcanonical.normal with rfl | hlong
        · rcases hcanonical'.normal with rfl | hlong
          · omega
          · have := hleft (.inr hlong)
            omega
        · have := hleft (.inl hlong)
          omega
      show (ofUnpacked (roundWithAccuracy Format.binary64 (s * s') (m * n) (e + f) .exact)).code = _
      rw [code_roundWithAccuracy (Nat.mul_pos hm hn) htarget, zpow_add₀ two_ne_zero]
      congr 1
      push_cast
      ring

/-- **A quotient is rounded to nearest.** -/
theorem code_div (hx : (ofFloat x).isFinite = true) (hy : (ofFloat y).isFinite = true)
    (hne : (ofFloat y).toRat ≠ 0) :
    (ofFloat (x / y)).code = nearestCode |(ofFloat x).toRat / (ofFloat y).toRat| := by
  show (ofUnpacked (UnpackedFloat.div Format.binary64 x.toModel.unpack y.toModel.unpack)).code = _
  rcases unpack_of_isFinite hy with ⟨s', hv, hzero⟩ | ⟨s', n, f, hn, hv, -, hvalue'⟩
  · exact absurd hzero hne
  · rcases unpack_of_isFinite hx with ⟨s, hu, hzero⟩ | ⟨s, m, e, hm, hu, -, hvalue⟩
    · rw [hu, hv, hzero, zero_div, abs_zero, nearestCode_zero]
      exact code_ofUnpacked_zero _
    · rw [hu, hv, hvalue, hvalue', abs_div, abs_apply_mul, abs_apply_mul, ← code_divCore hm hn e f (s / s')]
      rfl

/-- Lowering an exponent does not change the number. -/
theorem decreaseExponent_mul (m : Nat) {e t : Int} (h : t ≤ e) :
    ((decreaseExponent m e t).1 : ℚ) * 2 ^ t = m * 2 ^ e := by
  obtain ⟨k, rfl⟩ : ∃ k : Nat, e = t + k := ⟨(e - t).toNat, by omega⟩
  have hk : (t + k - t).toNat = k := by omega
  unfold decreaseExponent
  simp only [hk]
  rw [Nat.shiftLeft_eq, zpow_add₀ two_ne_zero, zpow_natCast]
  push_cast
  ring

theorem apply_decreaseExponent_mul (s : Sign) (m : Nat) {e t : Int} (h : t ≤ e) :
    ((s.apply (decreaseExponent m e t).1 : Int) : ℚ) * 2 ^ t = (s.apply m : Int) * 2 ^ e := by
  have hmul := decreaseExponent_mul m h
  cases s
  · show ((-((decreaseExponent m e t).1 : Int) : Int) : ℚ) * _ = ((-(m : Int) : Int) : ℚ) * _
    push_cast
    rw [neg_mul, neg_mul, hmul]
  · exact hmul

/-- **A difference is rounded to nearest.** -/
theorem code_sub (hx : (ofFloat x).isFinite = true) (hy : (ofFloat y).isFinite = true) :
    (ofFloat (x - y)).code = nearestCode |(ofFloat x).toRat - (ofFloat y).toRat| := by
  show (ofUnpacked (UnpackedFloat.sub Format.binary64 x.toModel.unpack y.toModel.unpack)).code = _
  rcases unpack_of_isFinite hx with ⟨s, hu, hzero⟩ | ⟨s, m, e, hm, hu, hcanonical, hvalue⟩ <;>
    rcases unpack_of_isFinite hy with ⟨s', hv, hzero'⟩ | ⟨s', n, f, hn, hv, hcanonical', hvalue'⟩
  · rw [hu, hv, hzero, hzero', sub_zero, abs_zero, nearestCode_zero]
    cases s <;> cases s' <;> exact code_ofUnpacked_zero _
  · rw [hu, hv, hzero, hvalue', zero_sub, abs_neg, abs_apply_mul]
    exact code_ofUnpacked_finite hcanonical' hn
  · rw [hu, hv, hzero', hvalue, sub_zero, abs_apply_mul]
    exact code_ofUnpacked_finite hcanonical hm
  · rw [hu, hv, hvalue, hvalue']
    show (ofUnpacked (UnpackedFloat.normalize Format.binary64
      (s.apply (decreaseExponent m e (min e f)).1 - s'.apply (decreaseExponent n f (min e f)).1)
      (min e f) .positive)).code = _
    rw [code_normalize]
    push_cast
    rw [sub_mul, apply_decreaseExponent_mul s m (min_le_left e f),
      apply_decreaseExponent_mul s' n (min_le_right e f)]

/-- **A sum is rounded to nearest.** -/
theorem code_add (hx : (ofFloat x).isFinite = true) (hy : (ofFloat y).isFinite = true) :
    (ofFloat (x + y)).code = nearestCode |(ofFloat x).toRat + (ofFloat y).toRat| := by
  show (ofUnpacked (UnpackedFloat.add Format.binary64 x.toModel.unpack y.toModel.unpack)).code = _
  rcases unpack_of_isFinite hx with ⟨s, hu, hzero⟩ | ⟨s, m, e, hm, hu, hcanonical, hvalue⟩ <;>
    rcases unpack_of_isFinite hy with ⟨s', hv, hzero'⟩ | ⟨s', n, f, hn, hv, hcanonical', hvalue'⟩
  · rw [hu, hv, hzero, hzero', add_zero, abs_zero, nearestCode_zero]
    cases s <;> cases s' <;> exact code_ofUnpacked_zero _
  · rw [hu, hv, hzero, hvalue', zero_add, abs_apply_mul]
    exact code_ofUnpacked_finite hcanonical' hn
  · rw [hu, hv, hzero', hvalue, add_zero, abs_apply_mul]
    exact code_ofUnpacked_finite hcanonical hm
  · rw [hu, hv, hvalue, hvalue']
    show (ofUnpacked (UnpackedFloat.normalize Format.binary64
      (s.apply (decreaseExponent m e (min e f)).1 + s'.apply (decreaseExponent n f (min e f)).1)
      (min e f) .positive)).code = _
    rw [code_normalize]
    push_cast
    rw [add_mul, apply_decreaseExponent_mul s m (min_le_left e f),
      apply_decreaseExponent_mul s' n (min_le_right e f)]

/-- **A whole number is rounded to nearest.** -/
theorem code_ofNat {n : Nat} (hn : n < 2 ^ 64) :
    (ofFloat (Scalar.ofNat n)).code = nearestCode n := by
  have hnat : (UInt64.ofNat n).toNat = n := UInt64.toNat_ofNat_of_lt' hn
  show (ofUnpacked (UnpackedFloat.normalize Format.binary64 ((UInt64.ofNat n).toNat : Nat) 0
    .positive)).code = _
  rw [code_normalize, hnat, zpow_zero, mul_one, Int.cast_natCast, abs_of_nonneg (Nat.cast_nonneg n)]

end ExchangeBench.Binary64
