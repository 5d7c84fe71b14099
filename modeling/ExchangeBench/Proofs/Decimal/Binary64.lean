import Mathlib.Algebra.Order.Field.Power
import Mathlib.Data.Nat.Log
import Mathlib.Data.Rat.Cast.Order
import Mathlib.Tactic.FieldSimp
import Mathlib.Tactic.Linarith
import Mathlib.Tactic.Ring
import ExchangeBench.Decimal.Binary64

/-!
# Doubles are the nearest doubles to themselves

A finite code stands for a significand times a power of two, in a canonical way: the significand has
53 bits unless the exponent is the least. From the number these two can be found again, so rounding it
to a double gives the code back.

- `Binary64.scaled_eq`: scaled numbers as products.
- `Binary64.Canonical`: canonical significands and exponents, and `Canonical.code`, their code.
- `Binary64.magnitude_le_magnitude`: codes ascend with the magnitude.
- `Binary64.floorLog_spec`: what the binary exponent of a quotient is.
- `Binary64.nearestCode_magnitude`: finite doubles are rounded to themselves.
- `Binary64.magnitude_injective`: finite codes stand for different numbers.
- `Binary64.toRat`: the number that a finite double is.
-/

namespace ExchangeBench.Binary64

/-! ## Scaled numbers -/

theorem scaled_eq (m : Nat) {b : Nat} (hb : b ≠ 0) (e : Int) : scaled m b e = m * (b : ℚ) ^ e := by
  have hb' : (b : ℚ) ≠ 0 := Nat.cast_ne_zero.mpr hb
  unfold scaled
  rw [Rat.mkRat_eq_div, Nat.pow_eq, Nat.pow_eq]
  push_cast
  obtain ⟨n, rfl | rfl⟩ := e.eq_nat_or_neg
  · rw [Int.toNat_natCast, Int.toNat_neg_natCast, pow_zero, div_one, zpow_natCast]
  · rw [Int.toNat_neg_natCast, neg_neg, Int.toNat_natCast, pow_zero, mul_one, zpow_neg, zpow_natCast]
    rfl

/-! ## Canonical significands and exponents -/

/-- The significand and the exponent of a double: as many bits as there are, unless the exponent is
the least. -/
structure Canonical (m : Nat) (e : Int) : Prop where
  least : -1074 ≤ e
  lt : m < 2 * codesPerExponent
  normal : e = -1074 ∨ codesPerExponent ≤ m

/-- The code with a significand and an exponent. -/
def Canonical.code (m : Nat) (e : Int) : Nat :=
  (e + 1074).toNat * codesPerExponent + m

/-- Every code has its significand and its exponent, and stands for the one scaled by the other. -/
theorem exists_canonical (c : Nat) :
    ∃ m e, Canonical m e ∧ Canonical.code m e = c ∧ magnitude c = m * (2 : ℚ) ^ e := by
  have hpos : 0 < codesPerExponent := by decide
  unfold magnitude
  by_cases hsub : c < codesPerExponent
  · refine ⟨c, -1074, ⟨le_rfl, by omega, .inl rfl⟩, ?_, ?_⟩
    · simp [Canonical.code]
    · rw [if_pos hsub, scaled_eq _ (by decide)]
      norm_num
  · have hlt := Nat.mod_lt c hpos
    have hexponent : 1 ≤ c / codesPerExponent := (Nat.one_le_div_iff hpos).mpr (by omega)
    refine ⟨codesPerExponent + c % codesPerExponent, (c / codesPerExponent : Nat) - 1075,
      ⟨by omega, by omega, .inr (Nat.le_add_right _ _)⟩, ?_, ?_⟩
    · have hfields : ((c / codesPerExponent : Nat) - 1075 + 1074 : Int).toNat =
          c / codesPerExponent - 1 := by omega
      have hdiv := Nat.div_add_mod' c codesPerExponent
      rw [Canonical.code, hfields, Nat.sub_mul, Nat.one_mul]
      have hle : codesPerExponent ≤ c / codesPerExponent * codesPerExponent :=
        Nat.le_mul_of_pos_left _ hexponent
      omega
    · rw [if_neg hsub, scaled_eq _ (by decide)]
      norm_num

/-- **Codes ascend with the magnitude.** -/
theorem magnitude_le_magnitude {c d : Nat} (h : c ≤ d) : magnitude c ≤ magnitude d := by
  obtain ⟨m, e, hc, hcode, hmagnitude⟩ := exists_canonical c
  obtain ⟨n, f, hd, hcode', hmagnitude'⟩ := exists_canonical d
  have hpos : 0 < codesPerExponent := by decide
  have hnat : (e + 1074).toNat * codesPerExponent + m ≤ (f + 1074).toNat * codesPerExponent + n := by
    rw [← hcode, ← hcode'] at h
    exact h
  have hleast := hc.least
  have hleast' := hd.least
  rw [hmagnitude, hmagnitude']
  rcases lt_trichotomy e f with hlt | rfl | hgt
  · -- the larger exponent makes up for any significand
    have hnormal : codesPerExponent ≤ n := hd.normal.resolve_left (by omega)
    have hm : (m : ℚ) ≤ 2 * codesPerExponent := by exact_mod_cast hc.lt.le
    have hn : (codesPerExponent : ℚ) ≤ n := by exact_mod_cast hnormal
    calc (m : ℚ) * 2 ^ e ≤ (2 * codesPerExponent) * 2 ^ e := by gcongr
      _ = codesPerExponent * 2 ^ (e + 1) := by rw [zpow_add_one₀ two_ne_zero]; ring
      _ ≤ n * 2 ^ f := by
        have hle : (2 : ℚ) ^ (e + 1) ≤ 2 ^ f := zpow_le_zpow_right₀ (by norm_num) (by omega)
        gcongr
  · have hle : (m : ℚ) ≤ n := by exact_mod_cast Nat.le_of_add_le_add_left hnat
    gcongr
  · -- a code with a larger exponent would be larger
    have hnormal : codesPerExponent ≤ m := hc.normal.resolve_left (by omega)
    have hlt := hd.lt
    have hstep : (f + 1074).toNat + 1 ≤ (e + 1074).toNat := by omega
    have hmul := Nat.mul_le_mul_right codesPerExponent hstep
    rw [Nat.add_mul, Nat.one_mul] at hmul
    omega

/-! ## The binary exponent of a quotient -/

/-- Shifting one number or the other compares their quotient with a power of two. -/
theorem shift_le_shift_iff {n d : Nat} (hd : 0 < d) (k : Int) :
    d <<< k.toNat ≤ n <<< (-k).toNat ↔ (2 : ℚ) ^ k ≤ n / d := by
  have hd' : (0 : ℚ) < d := Nat.cast_pos.mpr hd
  rw [Nat.shiftLeft_eq, Nat.shiftLeft_eq, le_div_iff₀ hd', ← Nat.cast_le (α := ℚ)]
  push_cast
  obtain ⟨m, rfl | rfl⟩ := k.eq_nat_or_neg
  · rw [Int.toNat_natCast, Int.toNat_neg_natCast, pow_zero, mul_one, zpow_natCast, mul_comm]
  · have hm : (0 : ℚ) < 2 ^ m := by positivity
    rw [Int.toNat_neg_natCast, neg_neg, Int.toNat_natCast, pow_zero, mul_one, zpow_neg,
      zpow_natCast, inv_mul_le_iff₀ hm, mul_comm]

/-- The binary exponent is between those of the power of two below and above. -/
theorem floorLog_spec {n d : Nat} (hn : 0 < n) (hd : 0 < d) :
    (2 : ℚ) ^ floorLog n d ≤ n / d ∧ (n : ℚ) / d < 2 ^ (floorLog n d + 1) := by
  have hd' : (0 : ℚ) < d := Nat.cast_pos.mpr hd
  have htwo : (2 : ℚ) ≠ 0 := two_ne_zero
  -- the bit lengths bound the quotient by powers of two that are a factor of four apart
  have hnlow : ((2 : ℚ) ^ (n.log2 : Int)) ≤ n := by
    rw [zpow_natCast]
    exact_mod_cast Nat.log2_self_le hn.ne'
  have hnhigh : (n : ℚ) < 2 ^ ((n.log2 : Int) + 1) := by
    exact_mod_cast Nat.lt_log2_self (n := n)
  have hdlow : ((2 : ℚ) ^ (d.log2 : Int)) ≤ d := by
    rw [zpow_natCast]
    exact_mod_cast Nat.log2_self_le hd.ne'
  have hdhigh : (d : ℚ) < 2 ^ ((d.log2 : Int) + 1) := by
    exact_mod_cast Nat.lt_log2_self (n := d)
  have hlow : (2 : ℚ) ^ ((n.log2 : Int) - d.log2 - 1) ≤ n / d := by
    have hsplit : (n.log2 : Int) = ((n.log2 : Int) - d.log2 - 1) + ((d.log2 : Int) + 1) := by omega
    rw [le_div_iff₀ hd']
    calc (2 : ℚ) ^ ((n.log2 : Int) - d.log2 - 1) * d
        ≤ 2 ^ ((n.log2 : Int) - d.log2 - 1) * 2 ^ ((d.log2 : Int) + 1) := by gcongr
      _ = 2 ^ (n.log2 : Int) := by rw [← zpow_add₀ htwo, ← hsplit]
      _ ≤ n := hnlow
  have hhigh : (n : ℚ) / d < 2 ^ ((n.log2 : Int) - d.log2 + 1) := by
    have hsplit : (n.log2 : Int) + 1 = ((n.log2 : Int) - d.log2 + 1) + (d.log2 : Int) := by omega
    rw [div_lt_iff₀ hd']
    calc (n : ℚ) < 2 ^ ((n.log2 : Int) + 1) := hnhigh
      _ = 2 ^ ((n.log2 : Int) - d.log2 + 1) * 2 ^ (d.log2 : Int) := by
        rw [← zpow_add₀ htwo, ← hsplit]
      _ ≤ 2 ^ ((n.log2 : Int) - d.log2 + 1) * d := by gcongr
  -- the comparison tells which of the two halves it is
  unfold floorLog
  simp only [shift_le_shift_iff hd]
  by_cases h : (2 : ℚ) ^ ((n.log2 : Int) - d.log2) ≤ n / d
  · rw [if_pos h]
    exact ⟨h, hhigh⟩
  · rw [if_neg h, sub_add_cancel]
    exact ⟨hlow, lt_of_not_ge h⟩

/-! ## Rounding what needs none -/

theorem roundHalfEven_mul (m : Nat) {d : Nat} (hd : 0 < d) : roundHalfEven (m * d) d = m := by
  unfold roundHalfEven
  simp [Nat.mul_div_cancel m hd, hd]

theorem codesPerExponent_eq : (codesPerExponent : ℚ) = 2 ^ (52 : Int) := by
  have hcodes : codesPerExponent = 2 ^ 52 := rfl
  rw [hcodes]
  norm_num

theorem toNat_num_div_den {x : ℚ} (hx : 0 ≤ x) : ((x.num.toNat : Nat) : ℚ) / x.den = x := by
  have hcast : ((x.num.toNat : Nat) : ℚ) = x.num := by
    exact_mod_cast Int.toNat_of_nonneg (Rat.num_nonneg.mpr hx)
  rw [hcast, Rat.num_div_den]

/-- A number with a canonical significand and exponent has the exponent that rounding uses. -/
theorem max_floorLog_eq {m : Nat} {e : Int} (h : Canonical m e) {n d : Nat} (hn : 0 < n)
    (hd : 0 < d) (hx : (n : ℚ) / d = m * 2 ^ e) :
    max (-1074) (floorLog n d - 52) = e := by
  obtain ⟨hlow, hhigh⟩ := floorLog_spec hn hd
  have htwo : (2 : ℚ) ≠ 0 := two_ne_zero
  have hpow : (0 : ℚ) < 2 ^ e := by positivity
  rw [hx] at hlow hhigh
  -- the number is below `2 ^ (53 + e)`, and it reaches `2 ^ (52 + e)` unless `e` is the least
  have habove : (m : ℚ) * 2 ^ e < 2 ^ (53 + e) := by
    have hlt : (m : ℚ) < 2 * codesPerExponent := by exact_mod_cast h.lt
    have hdouble : (2 : ℚ) * 2 ^ (52 : Int) = 2 ^ (53 : Int) := by norm_num
    rw [codesPerExponent_eq, hdouble] at hlt
    rw [zpow_add₀ htwo]
    gcongr
  have hle : floorLog n d < 53 + e :=
    (zpow_lt_zpow_iff_right₀ (by norm_num : (1 : ℚ) < 2)).mp (hlow.trans_lt habove)
  have hleast := h.least
  rcases h.normal with heq | hnormal
  · omega
  · have hreach : (2 : ℚ) ^ (52 + e) ≤ m * 2 ^ e := by
      have hge : (codesPerExponent : ℚ) ≤ m := by exact_mod_cast hnormal
      rw [codesPerExponent_eq] at hge
      rw [zpow_add₀ htwo]
      gcongr
    have hge : 52 + e < floorLog n d + 1 :=
      (zpow_lt_zpow_iff_right₀ (by norm_num : (1 : ℚ) < 2)).mp (hreach.trans_lt hhigh)
    omega

/-- **A canonical number is rounded to its code**, or to infinity if that is too large. -/
theorem nearestCode_of_canonical {m : Nat} {e : Int} (h : Canonical m e) (hm : 0 < m) :
    nearestCode (m * (2 : ℚ) ^ e) = min infinityCode (Canonical.code m e) := by
  have hpos : (0 : ℚ) < m * 2 ^ e := by positivity
  generalize hx : (m : ℚ) * 2 ^ e = x at hpos
  have hn : 0 < x.num.toNat := by
    have hnum := Rat.num_pos.mpr hpos
    omega
  have hquotient : ((x.num.toNat : Nat) : ℚ) / x.den = m * 2 ^ e := by
    rw [toNat_num_div_den hpos.le, hx]
  -- the shifted quotient is the significand, exactly
  have hshifted : x.num.toNat <<< (-e).toNat = m * (x.den <<< e.toNat) := by
    have hden : (x.den : ℚ) ≠ 0 := Nat.cast_ne_zero.mpr x.den_ne_zero
    rw [div_eq_iff hden] at hquotient
    rw [Nat.shiftLeft_eq, Nat.shiftLeft_eq, ← Nat.cast_inj (R := ℚ)]
    push_cast
    rw [hquotient]
    obtain ⟨k, rfl | rfl⟩ := e.eq_nat_or_neg
    · rw [Int.toNat_natCast, Int.toNat_neg_natCast, pow_zero, zpow_natCast]
      ring
    · have hk : (2 : ℚ) ^ k ≠ 0 := by positivity
      rw [Int.toNat_neg_natCast, neg_neg, Int.toNat_natCast, pow_zero, zpow_neg, zpow_natCast]
      field_simp
  have hd : 0 < x.den <<< e.toNat := by
    rw [Nat.shiftLeft_eq]
    exact Nat.mul_pos x.den_pos (by positivity)
  unfold nearestCode
  simp only [if_neg hn.ne', max_floorLog_eq h hn x.den_pos hquotient, hshifted,
    roundHalfEven_mul m hd]
  rfl

/-- **Finite doubles are rounded to themselves.** -/
theorem nearestCode_magnitude {c : Nat} (hc : c < infinityCode) : nearestCode (magnitude c) = c := by
  obtain ⟨m, e, hcanonical, hcode, hmagnitude⟩ := exists_canonical c
  rw [hmagnitude]
  by_cases hm : m = 0
  · -- only the code of zero has no significand
    have hzero : c = 0 := by
      rcases hcanonical.normal with rfl | hnormal
      · rw [← hcode, hm]
        rfl
      · have hpos : 0 < codesPerExponent := by decide
        omega
    rw [hm, hzero, Nat.cast_zero, zero_mul]
    rfl
  · rw [nearestCode_of_canonical hcanonical (Nat.pos_of_ne_zero hm), hcode]
    exact Nat.min_eq_right hc.le

/-- Finite codes stand for different numbers. -/
theorem magnitude_injective {c d : Nat} (hc : c < infinityCode) (hd : d < infinityCode)
    (h : magnitude c = magnitude d) : c = d := by
  rw [← nearestCode_magnitude hc, h, nearestCode_magnitude hd]

theorem magnitude_zero : magnitude 0 = 0 := by decide +kernel

/-- The number that a finite double is. The two zeros are one number. -/
def toRat (x : Binary64) : Rat :=
  if x.negative then -magnitude x.code else magnitude x.code

end ExchangeBench.Binary64
