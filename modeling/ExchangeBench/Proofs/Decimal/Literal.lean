import ExchangeBench.Proofs.Decimal.Nearest
import ExchangeBench.Proofs.Percentile.Key

/-!
# Number literals are rounded to nearest

The digits of a literal and its exponent make a number, and the literal denotes the double nearest to it.
Numbers that are too large or too small are told by the number of their digits, which the rounding would
have said as well. Plain text that is written for a finite double is such a literal, and it is read back.

- `Text.value_lt`, `Text.le_value`: a number lies between the powers of ten of its digits.
- `Literal.decimalCode_eq`: the code of a literal is the nearest one.
- `Literal.binary64?_write`: the plain text of a finite double denotes it.
-/

namespace ExchangeBench

/-! ## Numbers and their digits -/

namespace Text

theorem digit_lt_ten {c : Char} (h : c.isDigit = true) : c.toNat - 48 < 10 := by
  have hnine : c.val.toNat ≤ 57 := by
    simp only [Char.isDigit, Bool.and_eq_true, decide_eq_true_eq] at h
    exact UInt32.le_iff_toNat_le.mp h.2
  have hval : c.toNat = c.val.toNat := rfl
  omega

theorem value_lt {ds : List Char} (hds : ∀ c ∈ ds, c.isDigit = true) :
    value ds < 10 ^ ds.length := by
  induction ds using List.reverseRecOn with
  | nil => exact Nat.one_pos
  | append_singleton ds c ih =>
    have hlt := digit_lt_ten (hds c (by simp))
    have hvalue := ih fun d hd => hds d (List.mem_append_left _ hd)
    rw [value_append_single, List.length_append, List.length_singleton, pow_succ]
    omega

/-- Zeros in front do not matter. -/
theorem value_dropWhile (ds : List Char) : value (ds.dropWhile (· == '0')) = value ds := by
  induction ds with
  | nil => rfl
  | cons d ds ih =>
    rw [List.dropWhile_cons]
    split
    next hzero =>
      rw [ih, beq_iff_eq.mp hzero, ← List.singleton_append, value_append]
      exact (Nat.zero_add _).symm.trans (congrArg (· + _) (Nat.zero_mul _).symm)
    next => rfl

/-- A number that does not begin with a zero reaches the power of ten of its other digits. -/
theorem le_value {d : Char} {ds : List Char} (hd : d.isDigit = true) (hne : d ≠ '0') :
    10 ^ ds.length ≤ value (d :: ds) := by
  have hpos : 1 ≤ value [d] := by
    have hzero : '0'.val.toNat = 48 := rfl
    have hge : 48 ≤ d.val.toNat := by
      simp only [Char.isDigit, Bool.and_eq_true, decide_eq_true_eq] at hd
      exact UInt32.le_iff_toNat_le.mp hd.1
    have hdiff : d.val.toNat ≠ 48 := fun h => hne (Char.ext (UInt32.toNat_inj.mp h))
    have hvalue : value [d] = 10 * 0 + (d.val.toNat - 48) := rfl
    omega
  rw [← List.singleton_append, value_append]
  exact (Nat.le_mul_of_pos_left _ hpos).trans (Nat.le_add_right _ _)

end Text

/-- A numeral begins with a digit. -/
theorem Numeral.exists_cons {separator : Char} {cs : List Char} (h : Numeral separator cs) :
    ∃ c r, c.isDigit = true ∧ cs = c :: r := by
  have hcons : ∀ {ds : List Char}, ds ≠ [] → (∀ c ∈ ds, c.isDigit = true) →
      ∃ c r, c.isDigit = true ∧ ds = c :: r := fun {ds} hne hds => by
    obtain ⟨c, r, rfl⟩ := List.exists_cons_of_ne_nil hne
    exact ⟨c, r, hds c List.mem_cons_self, rfl⟩
  cases h with
  | whole hne hds => exact hcons hne hds
  | parted hne hne' hds hfs =>
    obtain ⟨c, r, hc, rfl⟩ := hcons hne hds
    exact ⟨c, _, hc, rfl⟩

/-! ## Literals -/

namespace Literal

open Binary64

/-- A number of `n` places, shifted by an exponent, is below the power of ten of both. -/
theorem scaled_lt {ds : List Char} (hds : ∀ c ∈ ds, c.isDigit = true) (e : Int) :
    scaled (Text.value ds) 10 e < (10 : ℚ) ^ (ds.length + e) := by
  have hlt : (Text.value ds : ℚ) < 10 ^ ds.length := by exact_mod_cast Text.value_lt hds
  rw [scaled_eq _ (by decide), zpow_add₀ (by norm_num), zpow_natCast]
  push_cast
  gcongr

/-- And it is at least the next smaller one, if it does not begin with a zero. -/
theorem le_scaled {d : Char} (hd : d.isDigit = true) (hne : d ≠ '0') (ds : List Char) (e : Int) :
    (10 : ℚ) ^ (ds.length + e) ≤ scaled (Text.value (d :: ds)) 10 e := by
  have hle : (10 : ℚ) ^ ds.length ≤ Text.value (d :: ds) := by
    exact_mod_cast Text.le_value hd hne
  rw [scaled_eq _ (by decide), zpow_add₀ (by norm_num), zpow_natCast]
  push_cast
  gcongr

theorem nearestCode_of_large {x : ℚ} (h : (10 : ℚ) ^ (309 : Int) ≤ x) :
    nearestCode x = infinityCode := by
  have hcode : nearestCode ((10 : ℚ) ^ (309 : Int)) = infinityCode := by
    rw [zpow_ofNat]
    decide +kernel
  refine le_antisymm (nearestCode_le_infinityCode x) ?_
  rw [← hcode]
  exact nearestCode_mono (by positivity) h

theorem nearestCode_of_small {x : ℚ} (hx : 0 ≤ x) (h : x ≤ (10 : ℚ) ^ (-324 : Int)) :
    nearestCode x = 0 := by
  have hcode : nearestCode ((10 : ℚ) ^ (-324 : Int)) = 0 := by
    decide +kernel
  exact Nat.eq_zero_of_le_zero (hcode ▸ nearestCode_mono hx h)

/-- **The code of a literal is the one nearest to its number.** -/
theorem decimalCode_eq {ds : List Char} (hds : ∀ c ∈ ds, c.isDigit = true) (e : Int) :
    decimalCode ds e = nearestCode (scaled (Text.value ds) 10 e) := by
  unfold decimalCode
  by_cases hzero : Text.value ds = 0
  · rw [if_pos hzero, hzero, scaled_eq _ (by decide), Nat.cast_zero, zero_mul, nearestCode_zero]
  simp only [if_neg hzero]
  rw [← Text.value_dropWhile ds] at hzero ⊢
  have hplaces : ∀ c ∈ ds.dropWhile (· == '0'), c.isDigit = true := fun c hc =>
    hds c ((List.dropWhile_sublist _).mem hc)
  have hfirst := List.head?_dropWhile_not (· == '0') ds
  generalize ds.dropWhile (· == '0') = places at *
  cases places with
  | nil => exact absurd rfl hzero
  | cons d places =>
    have hne : d ≠ '0' := by simpa using hfirst
    have hhigh := scaled_lt hplaces e
    have hlow := le_scaled (hplaces d List.mem_cons_self) hne places e
    rw [List.length_cons] at hhigh ⊢
    split
    next hlarge =>
      refine (nearestCode_of_large (le_trans ?_ hlow)).symm
      exact zpow_le_zpow_right₀ (by norm_num) (by push_cast at hlarge; omega)
    next =>
      split
      next hsmall =>
        refine (nearestCode_of_small (le_trans (by positivity) hlow) (hhigh.le.trans ?_)).symm
        exact zpow_le_zpow_right₀ (by norm_num) hsmall
      next => rfl

/-- The digits of a literal are digits. -/
theorem isDigit_of_readDecimal? {cs ds : List Char} {e : Int}
    (h : readDecimal? cs = some (.decimal ds e)) : ∀ c ∈ ds, c.isDigit = true := by
  have htake : ∀ (es : List Char), ∀ c ∈ es.takeWhile Char.isDigit, c.isDigit = true :=
    fun es c hc => List.mem_takeWhile_imp hc
  have hbody : ∀ {part : List Char} {b : Bool} {exponent? : Option Int},
      (∀ c ∈ part, c.isDigit = true) →
      (if b = true then none else exponent?.map fun e =>
        Body.decimal (cs.takeWhile Char.isDigit ++ part) (e - part.length)) =
          some (.decimal ds e) → ∀ c ∈ ds, c.isDigit = true := by
    intro part b exponent? hpart hread
    split at hread
    · cases hread
    · obtain ⟨e', -, hdigits⟩ := Option.map_eq_some_iff.mp hread
      rw [Body.decimal.injEq] at hdigits
      rw [← hdigits.1]
      exact List.forall_mem_append.mpr ⟨htake cs, hpart⟩
  unfold readDecimal? at h
  dsimp only at h
  split at h
  · exact hbody (htake _) h
  · exact hbody (List.forall_mem_nil _) h

/-- The code of what is read is the one nearest to it. -/
theorem toBinary64_of_readDecimal? {cs : List Char} {b : Body} {r : ℚ} (negative : Bool)
    (h : readDecimal? cs = some b) (hb : b.toRat? = some r) :
    toBinary64 ⟨negative, b⟩ = ⟨negative, nearestCode r⟩ := by
  cases b with
  | infinite => cases hb
  | notANumber => cases hb
  | decimal ds e =>
    obtain rfl := Option.some.inj hb
    rw [← decimalCode_eq (isDigit_of_readDecimal? h)]
    rfl

/-! ## Plain text is read back -/

theorem toLower_of_isDigit {c : Char} (h : c.isDigit = true) : c.toLower = c := by
  have hnine : c.val.toNat ≤ 57 := by
    simp only [Char.isDigit, Bool.and_eq_true, decide_eq_true_eq] at h
    exact UInt32.le_iff_toNat_le.mp h.2
  refine dif_neg fun hupper => ?_
  have hle := UInt32.le_iff_toNat_le.mp hupper.1
  have hA : 'A'.val.toNat = 65 := rfl
  omega

/-- What begins with a digit or a point has no sign and is no word. -/
theorem read?_of_isDigit {c : Char} (h : c.isDigit = true ∨ c = '.') (cs : List Char) :
    splitSign (c :: cs) = (false, c :: cs) ∧ readBody? (c :: cs) = readDecimal? (c :: cs) := by
  have hne : ∀ w : Char, w.isDigit = false → w ≠ '.' → c ≠ w := by
    rintro w hw hpoint rfl
    rcases h with hdigit | heq
    · exact absurd hdigit (Bool.eq_false_iff.mp hw)
    · exact hpoint heq
  have hlower : c.toLower = c := by
    rcases h with hdigit | rfl
    · exact toLower_of_isDigit hdigit
    · rfl
  have hword : ∀ (w : Char) (ws : List Char), w.isDigit = false → w ≠ '.' →
      (c :: cs).map Char.toLower ≠ w :: ws := by
    intro w ws hw hpoint heq
    rw [List.map_cons, hlower, List.cons.injEq] at heq
    exact hne w hw hpoint heq.1
  constructor
  · unfold splitSign
    split
    next heq => exact absurd (List.cons.inj heq).1 (hne '-' rfl (by decide))
    next heq => exact absurd (List.cons.inj heq).1 (hne '+' rfl (by decide))
    next => rfl
  · unfold readBody?
    have hinf : (c :: cs).map Char.toLower ≠ "inf".toList :=
      hword 'i' ['n', 'f'] rfl (by decide)
    have hinfinity : (c :: cs).map Char.toLower ≠ "infinity".toList :=
      hword 'i' "nfinity".toList rfl (by decide)
    have hnan : (c :: cs).map Char.toLower ≠ "nan".toList :=
      hword 'n' ['a', 'n'] rfl (by decide)
    simp only [hinf, hinfinity, hnan, decide_false, Bool.or_self, Bool.false_eq_true, if_false]

/-- **The plain text of a finite double is read back.** -/
theorem binary64?_write {x : Binary64} (hx : x.isFinite = true) :
    binary64? (Layout.plain.write x) = some x := by
  obtain ⟨negative, code⟩ := x
  have hcode : code < infinityCode := of_decide_eq_true hx
  have hnan : (⟨negative, code⟩ : Binary64).isNaN = false :=
    decide_eq_false (Nat.not_lt.mpr hcode.le)
  -- the text is a sign, if there is one, and a decimal that begins with a digit
  obtain ⟨c, cs, hfirst, hdecimal⟩ :=
    (Layout.numeral_writeDecimal (Decimal.shortest .larger code)).exists_cons
  have hwrite : Layout.plain.write ⟨negative, code⟩ =
      (if negative then ['-'] else []) ++ c :: cs := by
    rw [← hdecimal, Layout.write, hnan]
    simp only [if_neg hcode.ne]
    rfl
  obtain ⟨hsign, hbody⟩ := read?_of_isDigit (.inl hfirst) cs
  obtain ⟨b, hread, hb⟩ := Option.bind_eq_some_iff.mp
    (hdecimal ▸ Layout.readDecimal?_plain (Decimal.shortest .larger code))
  have hvalue := toBinary64_of_readDecimal? negative hread hb
  rw [Decimal.nearestCode_shortest .larger hcode] at hvalue
  have hsplit : splitSign ((if negative then ['-'] else []) ++ c :: cs) = (negative, c :: cs) := by
    cases negative
    · exact hsign
    · rfl
  rw [binary64?, read?, hwrite, hsplit]
  simp only [hbody, hread, Option.map_some, hvalue]

end Literal
end ExchangeBench
