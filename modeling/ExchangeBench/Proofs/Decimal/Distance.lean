import ExchangeBench.Proofs.Decimal.Nearest

/-!
# How far a number is from its double

Rounding moves a quotient by at most one half, so a number is at most one half of its power of two away
from the double that it is rounded to. A quotient that is nearer than one half to a whole number is
rounded to it, whatever brought it there.

- `Binary64.abs_roundHalfEven_sub_le`, `Binary64.roundHalfEven_eq_of_abs_sub_lt`: rounded quotients.
- `Binary64.Canonical.magnitude_code`: what the code of a significand and an exponent stands for.
- `Binary64.Grid.abs_magnitude_sub_le`: the distance of a number from its double.
-/

namespace ExchangeBench.Binary64

/-! ## Rounded quotients -/

/-- A quotient is rounded by at most one half. -/
theorem abs_roundHalfEven_sub_le (n : Nat) {d : Nat} (hd : 0 < d) :
    |(roundHalfEven n d : ℚ) - n / d| ≤ 1 / 2 := by
  have hd' : (0 : ℚ) < d := Nat.cast_pos.mpr hd
  have hremainder := Nat.mod_lt n hd
  have hsplit : (n : ℚ) / d = (n / d : Nat) + (n % d : Nat) / d := by
    rw [eq_comm, ← eq_sub_iff_add_eq', div_eq_iff hd'.ne', sub_mul, div_mul_cancel₀ _ hd'.ne',
      eq_sub_iff_add_eq]
    exact_mod_cast (Nat.mul_comm d _ ▸ Nat.mod_add_div n d)
  rw [hsplit, roundHalfEven_eq, abs_le]
  split
  next hup =>
    have hhalf : (d : ℚ) ≤ 2 * (n % d : Nat) := by
      exact_mod_cast hup.elim Nat.le_of_lt fun h => h.1.le
    have hlow : 1 / 2 ≤ ((n % d : Nat) : ℚ) / d := by
      rw [le_div_iff₀ hd']
      linarith
    have hhigh : ((n % d : Nat) : ℚ) / d ≤ 1 := by
      rw [div_le_one₀ hd']
      exact_mod_cast hremainder.le
    push_cast
    constructor <;> linarith
  next hdown =>
    have hhalf : (2 * (n % d : Nat) : ℚ) ≤ d := by
      exact_mod_cast Nat.not_lt.mp fun h => hdown (.inl h)
    have hlow : 0 ≤ ((n % d : Nat) : ℚ) / d := div_nonneg (Nat.cast_nonneg _) hd'.le
    have hhigh : ((n % d : Nat) : ℚ) / d ≤ 1 / 2 := by
      rw [div_le_iff₀ hd']
      linarith
    constructor <;> linarith

/-- **A quotient that is nearer than one half to a whole number is rounded to it.** -/
theorem roundHalfEven_eq_of_abs_sub_lt {n d k : Nat} (hd : 0 < d) (h : |(n : ℚ) / d - k| < 1 / 2) :
    roundHalfEven n d = k := by
  have hround := abs_roundHalfEven_sub_le n hd
  have hlt : |((roundHalfEven n d : Int) - k : ℚ)| < 1 := by
    calc |((roundHalfEven n d : Int) - k : ℚ)|
        ≤ |(roundHalfEven n d : ℚ) - n / d| + |(n : ℚ) / d - k| := by
          rw [Int.cast_natCast]
          exact abs_sub_le _ _ _
      _ < 1 := by linarith
  have habs : |(roundHalfEven n d : Int) - k| < 1 := by exact_mod_cast hlt
  rw [Int.abs_lt_one_iff] at habs
  omega

/-! ## What a code stands for -/

/-- A code's exponent is not below that of any way to write it. -/
theorem Canonical.exponent_le {m n : Nat} {e f : Int} (h : Canonical m e) (h' : Canonical n f)
    (hcode : Canonical.code m e = Canonical.code n f) : e ≤ f := by
  by_contra hlt
  have hlt' := h'.lt
  have hleast := h'.least
  have hnormal := h.normal.resolve_left (by omega)
  have hmul := Nat.mul_le_mul_right codesPerExponent
    (show (f + 1074).toNat + 1 ≤ (e + 1074).toNat by omega)
  rw [Nat.add_mul, Nat.one_mul] at hmul
  unfold Canonical.code at hcode
  omega

/-- **A code stands for its significand scaled by its exponent.** -/
theorem Canonical.magnitude_code {m : Nat} {e : Int} (h : Canonical m e) :
    magnitude (Canonical.code m e) = m * (2 : ℚ) ^ e := by
  obtain ⟨n, f, h', hcode, hmagnitude⟩ := exists_canonical (Canonical.code m e)
  obtain rfl := le_antisymm (h'.exponent_le h hcode) (h.exponent_le h' hcode.symm)
  rw [hmagnitude, Nat.add_left_cancel hcode]

/-- So it does when rounding up has given the significand one bit too many. -/
theorem magnitude_code_of_carry {e : Int} (h : -1074 ≤ e) :
    magnitude (Canonical.code (2 * codesPerExponent) e) =
      ((2 * codesPerExponent : Nat) : ℚ) * 2 ^ e := by
  have hcanonical : Canonical codesPerExponent (e + 1) :=
    ⟨by omega, by decide, .inr le_rfl⟩
  have hcode : Canonical.code (2 * codesPerExponent) e = Canonical.code codesPerExponent (e + 1) := by
    have hstep : (e + 1 + 1074).toNat = (e + 1074).toNat + 1 := by omega
    rw [Canonical.code, Canonical.code, hstep]
    ring
  rw [hcode, hcanonical.magnitude_code, zpow_add_one₀ two_ne_zero]
  push_cast
  ring

/-- **A number is at most one half of its power of two away from its double**, which is finite if that
power is not beyond the largest one. -/
theorem Grid.abs_magnitude_sub_le {x : ℚ} {e : Int} (h : Grid x e) (he : e ≤ 970) :
    nearestCode x < infinityCode ∧ |magnitude (nearestCode x) - x| ≤ 2 ^ e / 2 := by
  have hpow : (0 : ℚ) < 2 ^ e := by positivity
  obtain ⟨n, d, hd, hn⟩ := exists_quotient (div_pos h.pos hpow).le
  have hcode : nearestCode x = Canonical.code (roundHalfEven n d) e ∧
      nearestCode x < infinityCode := by
    have hround := h.roundHalfEven_le hd hn
    have hleast := h.least
    have hlt : Canonical.code (roundHalfEven n d) e < infinityCode := by
      have hmul := Nat.mul_le_mul_right codesPerExponent (show (e + 1074).toNat ≤ 2044 by omega)
      have hpos : 0 < codesPerExponent := by decide
      have hinfinity : infinityCode = 2047 * codesPerExponent := rfl
      unfold Canonical.code
      omega
    rw [h.nearestCode_eq hd hn]
    exact ⟨min_eq_right hlt.le, (min_le_right _ _).trans_lt hlt⟩
  have hmagnitude : magnitude (nearestCode x) = roundHalfEven n d * (2 : ℚ) ^ e := by
    rw [hcode.1]
    rcases exists_canonical_of_grid h hd hn with heq | hcanonical
    · rw [heq]
      exact magnitude_code_of_carry h.least
    · exact hcanonical.magnitude_code
  refine ⟨hcode.2, ?_⟩
  calc |magnitude (nearestCode x) - x|
      = |(roundHalfEven n d : ℚ) - n / d| * 2 ^ e := by
        rw [hmagnitude, hn, ← abs_of_pos hpow, ← abs_mul, abs_of_pos hpow, sub_mul,
          div_mul_cancel₀ _ hpow.ne']
    _ ≤ 1 / 2 * 2 ^ e := by
        gcongr
        exact abs_roundHalfEven_sub_le n hd
    _ = 2 ^ e / 2 := by ring

end ExchangeBench.Binary64
