import Mathlib.Data.Nat.Prime.Basic
import ExchangeBench.Decimal.Shortest
import ExchangeBench.Proofs.Decimal.Binary64

/-!
# Shortest decimals read back

Whatever decimal is found for a double, rounding it gives the double back: candidates are tested for
just that, the expansion in full is the double itself, and taking zeros off changes nothing.

- `Decimal.toRat_eq`, `Decimal.toRat_stripped`: decimals as numbers.
- `Decimal.toRat_exact`: the expansion in full.
- `Decimal.nearestCode_shortest`: the shortest decimal reads back.
-/

namespace ExchangeBench.Decimal

theorem toRat_eq (d : Decimal) : d.toRat = d.coefficient * (10 : ℚ) ^ d.exponent :=
  Binary64.scaled_eq d.coefficient (by decide) d.exponent

/-- Zeros at the end of a coefficient belong to the exponent as well. -/
theorem toRat_stripped (d : Decimal) : d.stripped.toRat = d.toRat := by
  fun_induction stripped d with
  | case1 d h ih =>
    obtain ⟨q, hq⟩ := Nat.dvd_of_mod_eq_zero h.2
    have hquotient : d.coefficient / 10 = q := by omega
    rw [ih, toRat_eq, toRat_eq, hquotient, hq, zpow_add_one₀ (by norm_num : (10 : ℚ) ≠ 0)]
    push_cast
    ring
  | case2 d h => rfl

/-- A double's denominator is a power of two. -/
theorem den_magnitude (c : Nat) :
    ∃ k, (Binary64.magnitude c).den = 2 ^ k := by
  have hscaled : ∀ m e, ∃ k, (Binary64.scaled m 2 e).den = 2 ^ k := by
    intro m e
    have hpow : Nat.pow 2 (-e).toNat ≠ 0 := (Nat.two_pow_pos _).ne'
    have hdvd : (Binary64.scaled m 2 e).den ∣ 2 ^ (-e).toNat := by
      rw [Binary64.scaled, Rat.den_mkRat, if_neg hpow]
      exact Nat.div_dvd_of_dvd (Nat.gcd_dvd_left _ _)
    obtain ⟨k, -, hk⟩ := (Nat.dvd_prime_pow Nat.prime_two).mp hdvd
    exact ⟨k, hk⟩
  unfold Binary64.magnitude
  split
  · exact hscaled _ _
  · exact hscaled _ _

theorem magnitude_nonneg (c : Nat) : 0 ≤ Binary64.magnitude c := by
  obtain ⟨m, e, -, -, hmagnitude⟩ := Binary64.exists_canonical c
  rw [hmagnitude]
  positivity

/-- The expansion in full is the double itself. -/
theorem toRat_exact (c : Nat) : (exact c).toRat = Binary64.magnitude c := by
  obtain ⟨k, hk⟩ := den_magnitude c
  have hlog : (Binary64.magnitude c).den.log2 = k := by rw [hk, Nat.log2_two_pow]
  have hnum : (((Binary64.magnitude c).num.toNat : Nat) : ℚ) = (Binary64.magnitude c).num := by
    exact_mod_cast Int.toNat_of_nonneg (Rat.num_nonneg.mpr (magnitude_nonneg c))
  have hten : (10 : ℚ) ^ k = 5 ^ k * 2 ^ k := by rw [← mul_pow]; norm_num
  have hexact : exact c = ⟨(Binary64.magnitude c).num.toNat * 5 ^ (Binary64.magnitude c).den.log2,
      -((Binary64.magnitude c).den.log2 : Int)⟩ := rfl
  rw [toRat_eq, hexact, hlog]
  push_cast
  rw [hnum, zpow_neg, zpow_natCast, hten]
  conv_rhs => rw [← Rat.num_div_den (Binary64.magnitude c), hk]
  push_cast
  field_simp

/-- A candidate is tested for reading back. -/
theorem nearestCode_of_ofLength? {tie : Tie} {c : Nat} {x : ℚ} {n : Nat} {d : Decimal}
    (h : ofLength? tie c x n = some d) : Binary64.nearestCode d.toRat = c := by
  unfold ofLength? at h
  simp only at h
  split at h
  · cases h
  next hbelow _ =>
    cases h
    exact beq_iff_eq.mp hbelow
  next _ habove =>
    cases h
    exact beq_iff_eq.mp habove
  next hbelow habove =>
    -- both read back, so it does not matter which of them is nearer
    split at h
    · cases h
      exact beq_iff_eq.mp hbelow
    split at h
    · cases h
      exact beq_iff_eq.mp habove
    cases tie with
    | larger =>
      cases h
      exact beq_iff_eq.mp habove
    | evenDigit =>
      cases h
      split
      · exact beq_iff_eq.mp hbelow
      · exact beq_iff_eq.mp habove

/-- **The shortest decimal of a double reads back as that double.** -/
theorem nearestCode_shortest (tie : Tie) {c : Nat} (hc : c < Binary64.infinityCode) :
    Binary64.nearestCode (shortest tie c).toRat = c := by
  unfold shortest
  by_cases hzero : c = 0
  · rw [if_pos hzero, hzero]
    rfl
  · rw [if_neg hzero, toRat_stripped]
    cases hfound : (List.range 17).findSome? fun i =>
        ofLength? tie c (Binary64.magnitude c) (i + 1) with
    | none =>
      rw [Option.getD_none, toRat_exact]
      exact Binary64.nearestCode_magnitude hc
    | some d =>
      obtain ⟨i, -, hi⟩ := List.exists_of_findSome?_eq_some hfound
      exact nearestCode_of_ofLength? hi

end ExchangeBench.Decimal
