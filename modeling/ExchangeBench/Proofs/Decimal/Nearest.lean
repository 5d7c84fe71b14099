import ExchangeBench.Proofs.Decimal.Shortest

/-!
# Rounding to doubles keeps the order

A larger number is never rounded to a smaller double. The significand is a quotient rounded to a whole
number, which keeps the order; and where the exponents differ, the larger one makes up for any
significand.

- `Binary64.roundHalfEven_mono`: the rounding of quotients.
- `Binary64.Grid`: the power of two that a number is a multiple of once it is rounded, and
  `Grid.nearestCode_eq`: what its code is.
- `Binary64.nearestCode_mono`: larger numbers have larger codes.
- `Binary64.nearestCode_le`: a number up to a double is not rounded beyond it.
-/

namespace ExchangeBench.Binary64

/-! ## Rounded quotients -/

/-- A quotient is rounded up beyond one half, and from one half to an even number. -/
theorem roundHalfEven_eq (n d : Nat) :
    roundHalfEven n d =
      if d < 2 * (n % d) ∨ d = 2 * (n % d) ∧ n / d % 2 = 1 then n / d + 1 else n / d := by
  unfold roundHalfEven
  simp only [Bool.or_eq_true, Bool.and_eq_true, decide_eq_true_eq, beq_iff_eq]
  split <;> split <;> omega

theorem div_le_roundHalfEven (n d : Nat) : n / d ≤ roundHalfEven n d := by
  rw [roundHalfEven_eq]
  split <;> omega

theorem roundHalfEven_le (n d : Nat) : roundHalfEven n d ≤ n / d + 1 := by
  rw [roundHalfEven_eq]
  split <;> omega

/-- **A larger quotient is not rounded to a smaller number.** -/
theorem roundHalfEven_mono {n d n' d' : Nat} (hd : 0 < d) (hd' : 0 < d') (h : n * d' ≤ n' * d) :
    roundHalfEven n d ≤ roundHalfEven n' d' := by
  have hquotient : n / d ≤ n' / d' := by
    rw [Nat.le_div_iff_mul_le hd']
    have hmul : n / d * d' * d ≤ n' * d := by
      rw [Nat.mul_right_comm]
      exact (Nat.mul_le_mul_right d' (Nat.div_mul_le_self n d)).trans h
    exact Nat.le_of_mul_le_mul_right hmul hd
  rcases Nat.lt_or_eq_of_le hquotient with hlt | heq
  · exact (roundHalfEven_le n d).trans (hlt.trans_le (div_le_roundHalfEven n' d'))
  · -- with the same whole part the remainders decide, and what is rounded up stays so
    have hremainder : n % d * d' ≤ n' % d' * d := by
      have hn := Nat.div_add_mod n d
      have hn' := Nat.div_add_mod n' d'
      rw [← heq] at hn'
      have hsum : (d * (n / d) + n % d) * d' ≤ (d' * (n / d) + n' % d') * d := by rwa [hn, hn']
      nlinarith
    have habove : d < 2 * (n % d) → d' < 2 * (n' % d') := fun hlt => by
      have hmul : d' * d < 2 * (n' % d') * d := by nlinarith
      exact Nat.lt_of_mul_lt_mul_right hmul
    have htie : d = 2 * (n % d) → d' ≤ 2 * (n' % d') := fun hhalf => by
      have hmul : d' * d ≤ 2 * (n' % d') * d := by nlinarith
      exact Nat.le_of_mul_le_mul_right hmul hd
    rw [roundHalfEven_eq, roundHalfEven_eq, heq]
    split
    next hup =>
      rw [if_pos]
      rcases hup with hlt | ⟨hhalf, hodd⟩
      · exact .inl (habove hlt)
      · exact (Nat.lt_or_eq_of_le (htie hhalf)).imp id fun h => ⟨h, hodd⟩
    next => split <;> omega

/-- Equal quotients are rounded to one number. -/
theorem roundHalfEven_congr {n d n' d' : Nat} (hd : 0 < d) (hd' : 0 < d')
    (h : (n : ℚ) / d = n' / d') : roundHalfEven n d = roundHalfEven n' d' := by
  rw [div_eq_div_iff (Nat.cast_ne_zero.mpr hd.ne') (Nat.cast_ne_zero.mpr hd'.ne')] at h
  have hmul : n * d' = n' * d := by exact_mod_cast h
  exact le_antisymm (roundHalfEven_mono hd hd' hmul.le) (roundHalfEven_mono hd' hd hmul.ge)

/-- A quotient is rounded to at most the whole number that it does not exceed. -/
theorem roundHalfEven_le_of_div_le {n d k : Nat} (hd : 0 < d) (h : (n : ℚ) / d ≤ k) :
    roundHalfEven n d ≤ k := by
  have hmul : n * 1 ≤ k * d := by
    rw [div_le_iff₀ (Nat.cast_pos.mpr hd)] at h
    rw [Nat.mul_one]
    exact_mod_cast h
  exact (roundHalfEven_mono hd Nat.one_pos hmul).trans_eq (by
    rw [← Nat.mul_one k, roundHalfEven_mul k Nat.one_pos, Nat.mul_one])

/-- A quotient is rounded to at least the whole number that it reaches. -/
theorem le_roundHalfEven_of_le_div {n d k : Nat} (hd : 0 < d) (h : (k : ℚ) ≤ n / d) :
    k ≤ roundHalfEven n d := by
  have hmul : k * d ≤ n * 1 := by
    rw [le_div_iff₀ (Nat.cast_pos.mpr hd)] at h
    rw [Nat.mul_one]
    exact_mod_cast h
  refine le_trans (Eq.le ?_) (roundHalfEven_mono Nat.one_pos hd hmul)
  rw [← Nat.mul_one k, roundHalfEven_mul k Nat.one_pos, Nat.mul_one]

/-! ## The code of a number -/

/-- A number between two powers of two, and the power of two that its significand is counted in once it
is rounded: 52 places below its leading bit, or the least there is. -/
structure Grid (x : ℚ) (e : Int) : Prop where
  pos : 0 < x
  least : -1074 ≤ e
  lt : x < 2 ^ (e + 53)
  normal : e = -1074 ∨ 2 ^ (e + 52) ≤ x

theorem exists_grid {x : ℚ} (hx : 0 < x) : Grid x (max (-1074) (floorLog x.num.toNat x.den - 52)) := by
  have hnum := Rat.num_pos.mpr hx
  obtain ⟨hlow, hhigh⟩ := floorLog_spec (n := x.num.toNat) (by omega) x.den_pos
  rw [toNat_num_div_den hx.le] at hlow hhigh
  generalize floorLog x.num.toNat x.den = k at hlow hhigh
  refine ⟨hx, le_max_left _ _, hhigh.trans_le ?_, ?_⟩
  · exact zpow_le_zpow_right₀ (by norm_num) (by omega)
  · rcases le_total (k - 52) (-1074) with hle | hle
    · exact .inl (max_eq_left hle)
    · rw [max_eq_right hle, sub_add_cancel]
      exact .inr hlow

/-- A larger number has no smaller power of two. -/
theorem Grid.mono {x y : ℚ} {e f : Int} (h : Grid x e) (h' : Grid y f) (hle : x ≤ y) : e ≤ f := by
  rcases h.normal with rfl | hnormal
  · exact h'.least
  · have hlt := (zpow_lt_zpow_iff_right₀ (by norm_num : (1 : ℚ) < 2)).mp
      (hnormal.trans_lt (hle.trans_lt h'.lt))
    omega

/-- There is one such power of two. -/
theorem Grid.unique {x : ℚ} {e f : Int} (h : Grid x e) (h' : Grid x f) : e = f :=
  le_antisymm (h.mono h' le_rfl) (h'.mono h le_rfl)

/-- **The code of a number**, from any fraction that is its significand. -/
theorem Grid.nearestCode_eq {x : ℚ} {e : Int} (h : Grid x e) {n d : Nat} (hd : 0 < d)
    (hx : (n : ℚ) / d = x / 2 ^ e) :
    nearestCode x = min infinityCode ((e + 1074).toNat * codesPerExponent + roundHalfEven n d) := by
  have hnum := Rat.num_pos.mpr h.pos
  have hne : x.num.toNat ≠ 0 := by omega
  have hshift : ∀ m k : Nat, (m <<< k : Nat) = m * 2 ^ k := Nat.shiftLeft_eq
  unfold nearestCode
  simp only [if_neg hne, ← h.unique (exists_grid h.pos)]
  have hden : 0 < x.den <<< e.toNat := by
    rw [hshift]
    exact Nat.mul_pos x.den_pos (by positivity)
  rw [roundHalfEven_congr hd hden]
  rw [hx, hshift, hshift]
  have hden' : (x.den : ℚ) ≠ 0 := Nat.cast_ne_zero.mpr x.den_ne_zero
  push_cast
  conv_lhs => rw [← toNat_num_div_den h.pos.le]
  obtain ⟨k, rfl | rfl⟩ := e.eq_nat_or_neg
  · rw [Int.toNat_natCast, Int.toNat_neg_natCast, pow_zero, mul_one, zpow_natCast, div_div]
  · have hk : (2 : ℚ) ^ k ≠ 0 := by positivity
    rw [Int.toNat_neg_natCast, neg_neg, Int.toNat_natCast, pow_zero, zpow_neg, zpow_natCast]
    field_simp

/-- A significand is rounded to a double's, or to the power of two behind it. -/
theorem Grid.roundHalfEven_le {x : ℚ} {e : Int} (h : Grid x e) {n d : Nat} (hd : 0 < d)
    (hx : (n : ℚ) / d = x / 2 ^ e) : roundHalfEven n d ≤ 2 * codesPerExponent := by
  refine roundHalfEven_le_of_div_le hd ?_
  rw [hx, div_le_iff₀ (by positivity)]
  push_cast
  refine h.lt.le.trans_eq ?_
  rw [codesPerExponent_eq, zpow_add₀ two_ne_zero]
  norm_num
  ring

/-- A significand of full length stays so when it is rounded. -/
theorem le_roundHalfEven_of_normal {x : ℚ} {e : Int} (hnormal : 2 ^ (e + 52) ≤ x) {n d : Nat}
    (hd : 0 < d) (hx : (n : ℚ) / d = x / 2 ^ e) : codesPerExponent ≤ roundHalfEven n d := by
  refine le_roundHalfEven_of_le_div hd ?_
  rwa [hx, le_div_iff₀ (by positivity), codesPerExponent_eq, ← zpow_add₀ two_ne_zero, add_comm]

/-- The significand and the exponent that a number is rounded to are canonical. A significand that got
one bit too many by rounding up is halved. -/
theorem exists_canonical_of_grid {x : ℚ} {t : Int} (h : Grid x t) {n d : Nat} (hd : 0 < d)
    (hx : (n : ℚ) / d = x / 2 ^ t) :
    roundHalfEven n d = 2 * codesPerExponent ∨ Canonical (roundHalfEven n d) t := by
  refine (Nat.lt_or_eq_of_le (h.roundHalfEven_le hd hx)).symm.imp id fun hlt => ?_
  exact ⟨h.least, hlt, h.normal.imp id fun hnormal => le_roundHalfEven_of_normal hnormal hd hx⟩

theorem exists_quotient {x : ℚ} (hx : 0 ≤ x) : ∃ n d : Nat, 0 < d ∧ (n : ℚ) / d = x :=
  ⟨x.num.toNat, x.den, x.den_pos, toNat_num_div_den hx⟩

theorem abs_toRat (x : Binary64) : |x.toRat| = magnitude x.code := by
  unfold toRat
  split
  · rw [abs_neg, abs_of_nonneg (Decimal.magnitude_nonneg _)]
  · rw [abs_of_nonneg (Decimal.magnitude_nonneg _)]

/-! ## Rounding keeps the order -/

theorem nearestCode_zero : nearestCode 0 = 0 := by decide +kernel

/-- **Larger numbers have larger codes**, or the same. -/
theorem nearestCode_mono {x y : ℚ} (hx : 0 ≤ x) (h : x ≤ y) : nearestCode x ≤ nearestCode y := by
  rcases hx.eq_or_lt with rfl | hpos
  · rw [nearestCode_zero]
    exact Nat.zero_le _
  have hgrid := exists_grid hpos
  have hgrid' := exists_grid (hpos.trans_le h)
  generalize max (-1074) (floorLog x.num.toNat x.den - 52) = e at hgrid
  generalize max (-1074) (floorLog y.num.toNat y.den - 52) = f at hgrid'
  have he : (0 : ℚ) < 2 ^ e := by positivity
  have hf : (0 : ℚ) < 2 ^ f := by positivity
  obtain ⟨n, d, hd, hn⟩ := exists_quotient (div_pos hpos he).le
  obtain ⟨n', d', hd', hn'⟩ := exists_quotient (div_pos (hpos.trans_le h) hf).le
  rw [hgrid.nearestCode_eq hd hn, hgrid'.nearestCode_eq hd' hn']
  refine min_le_min_left _ ?_
  rcases (hgrid.mono hgrid' h).eq_or_lt with rfl | hlt
  · have hquotient : (n : ℚ) / d ≤ n' / d' := by
      rw [hn, hn']
      gcongr
    rw [div_le_div_iff₀ (Nat.cast_pos.mpr hd) (Nat.cast_pos.mpr hd')] at hquotient
    exact Nat.add_le_add_left (roundHalfEven_mono hd hd' (by exact_mod_cast hquotient)) _
  · -- the larger exponent makes up for any significand
    have hbelow := hgrid.roundHalfEven_le hd hn
    have hnormal := hgrid'.normal.resolve_left (hgrid.least.trans_lt hlt).ne'
    have habove := le_roundHalfEven_of_normal hnormal hd' hn'
    have hstep : (e + 1074).toNat + 1 ≤ (f + 1074).toNat := by
      have := hgrid.least
      omega
    have hmul := Nat.mul_le_mul_right codesPerExponent hstep
    rw [Nat.add_mul, Nat.one_mul] at hmul
    omega

/-- A number up to a double is rounded to that double, or below. -/
theorem nearestCode_le {x : ℚ} {c : Nat} (hx : 0 ≤ x) (hc : c < infinityCode)
    (h : x ≤ magnitude c) : nearestCode x ≤ c :=
  (nearestCode_mono hx h).trans_eq (nearestCode_magnitude hc)

/-- Codes do not exceed that of infinity. -/
theorem nearestCode_le_infinityCode (x : ℚ) : nearestCode x ≤ infinityCode := by
  unfold nearestCode
  dsimp only
  split
  · exact Nat.zero_le _
  · exact min_le_left _ _

end ExchangeBench.Binary64
