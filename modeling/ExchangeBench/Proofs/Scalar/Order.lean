import Mathlib
import ExchangeBench.Scalar

/-!
# The two orders of scalars

Samples are sorted by `Scalar.precedes`, but bounds are compared by `Scalar.atMost`. On doubles the
first is an order of bit patterns and the second an order of numbers: signed zeros differ for the
first and are equal for the second, and NaN is ordered by the first only.

- `Scalar.Ordered`: what the statistics need of the two. Sorting leaves nothing open, and finite
  samples that are sorted are in order as numbers.
- `Binary64.place_injective`, `Binary64.ofFloat_injective`: a double is determined by its place.
- `Unpacks.compare_isLE`: codes ascend with the magnitude, so places ascend with the number. The
  exponent of a code decides, and between equal exponents the mantissa (`lex_of_code_le`).
- `instOrderedFloat`: doubles have both properties.
-/

namespace ExchangeBench

/-- The order that samples are sorted in is a linear one, and on finite samples it refines the order
that bounds are compared in. -/
class Scalar.Ordered (α : Type) [Scalar α] : Prop where
  precedes_total : ∀ a b : α, (Scalar.precedes a b || Scalar.precedes b a) = true
  precedes_trans : ∀ a b c : α,
    Scalar.precedes a b = true → Scalar.precedes b c = true → Scalar.precedes a c = true
  precedes_antisymm : ∀ a b : α, Scalar.precedes a b = true → Scalar.precedes b a = true → a = b
  atMost_of_precedes : ∀ a b : α, Scalar.isFinite a = true → Scalar.isFinite b = true →
    Scalar.precedes a b = true → Scalar.atMost a b = true

namespace Binary64

open Float.Model Float.Model.UnpackedFloat

/-! ## Places determine doubles -/

theorem place_injective {a b : Binary64} (h : a.place = b.place) : a = b := by
  obtain ⟨na, ca⟩ := a
  obtain ⟨nb, cb⟩ := b
  unfold place at h
  cases na <;> cases nb <;> simp at h ⊢ <;> omega

theorem ofFloat_injective {x y : Float} (h : ofFloat x = ofFloat y) : x = y := by
  have hn : decide (signBit ≤ x.toBits.toNat) = decide (signBit ≤ y.toBits.toNat) :=
    congrArg negative h
  have hc : x.toBits.toNat % signBit = y.toBits.toNat % signBit := congrArg code h
  have hx : x.toBits.toNat < 2 ^ 64 := x.toBits.toNat_lt
  have hy : y.toBits.toNat < 2 ^ 64 := y.toBits.toNat_lt
  have hs : signBit = 2 ^ 63 := rfl
  rw [decide_eq_decide] at hn
  rw [hs] at hn hc
  have hbits : x.toBits = y.toBits := UInt64.toNat_inj.mp (by omega)
  obtain ⟨⟨bx, vx⟩⟩ := x
  obtain ⟨⟨cx, wx⟩⟩ := y
  cases (hbits : bx = cx)
  rfl

/-! ## Sign, exponent and mantissa of a code -/

/-- The sign of a double. -/
def sign (x : Binary64) : Sign := if x.negative then .negative else .positive

/-- The exponent of a finite code, as a power of two. Codes below the first full exponent share it. -/
def exponent (c : Nat) : Int :=
  if c < codesPerExponent then -1074 else (c / codesPerExponent : Nat) - 1075

/-- The mantissa of a finite code, with the leading bit that only the smallest codes lack. -/
def mantissa (c : Nat) : Nat :=
  if c < codesPerExponent then c else codesPerExponent + c % codesPerExponent

theorem mantissa_zero : mantissa 0 = 0 := by decide

/-- Codes ascend with the magnitude: a smaller code has a smaller exponent, or the same one and a
smaller mantissa. -/
theorem lex_of_code_le {c d : Nat} (h : c ≤ d) :
    exponent c < exponent d ∨ exponent c = exponent d ∧ mantissa c ≤ mantissa d := by
  have hcodes : codesPerExponent = 2 ^ 52 := rfl
  unfold exponent mantissa
  rw [hcodes]
  -- below the first full exponent mantissas lack the leading bit
  by_cases hc : c < 2 ^ 52
  · rw [if_pos hc, if_pos hc]
    by_cases hd : d < 2 ^ 52
    · rw [if_pos hd, if_pos hd]
      exact .inr ⟨rfl, h⟩
    · rw [if_neg hd, if_neg hd]
      omega
  · rw [if_neg hc, if_neg hc, if_neg (by omega), if_neg (by omega)]
    omega

/-! ## From bits to parts -/

theorem toNat_unpackMantissa (b : BitVec Format.binary64.numBits) :
    (unpackMantissa b).toNat = b.toNat % 2 ^ 52 := by
  simp [unpackMantissa, BitVec.extractLsb_toNat]

theorem toNat_unpackExponent (b : BitVec Format.binary64.numBits) :
    (unpackExponent b).toNat = b.toNat / 2 ^ 52 % 2 ^ 11 := by
  simp [unpackExponent, BitVec.extractLsb_toNat, Nat.shiftRight_eq_div_pow]

theorem toNat_unpackSign (b : BitVec Format.binary64.numBits) :
    (unpackSign b).toNat = b.toNat / 2 ^ 63 % 2 := by
  simp [unpackSign, BitVec.extractLsb_toNat, Nat.shiftRight_eq_div_pow]

theorem toNat_implicit (m : BitVec 52) : (1#1 ++ m).toNat = 2 ^ 52 + m.toNat := by
  have hor : 2 ^ 52 * 1 + m.toNat = 2 ^ 52 * 1 ||| m.toNat := Nat.two_pow_add_eq_or_of_lt m.isLt 1
  rw [BitVec.toNat_append]
  exact hor.symm

/-- The bits of a double, in the format that they are unpacked from. -/
def packed (x : Float) : BitVec Format.binary64.numBits := x.toModel.toBits.toBitVec

theorem code_ofFloat (x : Float) : (ofFloat x).code = (packed x).toNat % 2 ^ 63 := rfl

theorem negative_ofFloat (x : Float) :
    (ofFloat x).negative = decide (2 ^ 63 ≤ (packed x).toNat) := rfl

theorem unpackSign_packed (x : Float) :
    Sign.ofBitVec (unpackSign (packed x)) = (ofFloat x).sign := by
  have hlt : (packed x).toNat < 2 ^ 64 := x.toBits.toNat_lt
  have hs := toNat_unpackSign (packed x)
  rw [sign, negative_ofFloat]
  unfold Sign.ofBitVec
  by_cases h : 2 ^ 63 ≤ (packed x).toNat
  · have hone : unpackSign (packed x) ≠ 0#1 := by
      intro hzero
      rw [hzero, BitVec.toNat_ofNat] at hs
      omega
    rw [if_neg hone, decide_eq_true h, if_pos rfl]
  · have hzero : unpackSign (packed x) = 0#1 := by
      apply BitVec.eq_of_toNat_eq
      rw [hs, BitVec.toNat_ofNat]
      omega
    rw [if_pos hzero, decide_eq_false h, if_neg Bool.false_ne_true]

theorem toNat_unpackExponent_packed (x : Float) :
    (unpackExponent (packed x)).toNat = (ofFloat x).code / 2 ^ 52 := by
  rw [toNat_unpackExponent, code_ofFloat]
  omega

theorem toNat_unpackMantissa_packed (x : Float) :
    (unpackMantissa (packed x)).toNat = (ofFloat x).code % 2 ^ 52 := by
  rw [toNat_unpackMantissa, code_ofFloat]
  omega

/-- A finite double that is unpacked: zero, or its sign, mantissa and exponent. -/
def Unpacks (b : Binary64) (u : UnpackedFloat) : Prop :=
  (b.code = 0 ∧ u = .zero b.sign) ∨
    ∃ h, u = .finite b.sign (mantissa b.code) (exponent b.code) h

theorem exists_finite_eq (s : Sign) {m m' : Nat} {e e' : Int} {h : 0 < m} (hm : m = m')
    (he : e = e') : ∃ h', UnpackedFloat.finite s m e h = .finite s m' e' h' := by
  subst hm he
  exact ⟨h, rfl⟩

theorem unpacks_of_isFinite {x : Float} (hx : (ofFloat x).isFinite = true) :
    Unpacks (ofFloat x) x.toModel.unpack := by
  have he := toNat_unpackExponent_packed x
  have hm := toNat_unpackMantissa_packed x
  have hcodes : codesPerExponent = 2 ^ 52 := rfl
  have hfin : (ofFloat x).code < 2047 * 2 ^ 52 := of_decide_eq_true hx
  have hne : unpackExponent (packed x) ≠ -1#_ := by
    intro h
    have hall : (-1#_ : BitVec Format.binary64.exponentBits).toNat = 2047 := by decide
    rw [h] at he
    omega
  show Unpacks (ofFloat x) (UnpackedFloat.unpack Format.binary64 (packed x))
  rw [UnpackedFloat.unpack]
  simp only [if_neg hne, unpackSign_packed]
  by_cases he0 : unpackExponent (packed x) = 0#_
  · -- zero, or a number below the first full exponent
    have hz : (ofFloat x).code / 2 ^ 52 = 0 := by
      rw [← he, he0]
      rfl
    rw [if_pos he0]
    by_cases hm0 : unpackMantissa (packed x) = 0#_
    · have hzm : (ofFloat x).code % 2 ^ 52 = 0 := by
        rw [← hm, hm0]
        rfl
      exact .inl ⟨by omega, dif_pos hm0⟩
    · rw [dif_neg hm0]
      refine .inr (exists_finite_eq _ ?_ ?_)
      · rw [hm, mantissa, if_pos (by omega)]
        omega
      · rw [he, exponent, if_pos (by omega), hz]
        decide
  · -- a number with its leading bit
    have hz : (ofFloat x).code / 2 ^ 52 ≠ 0 := by
      rw [← he]
      exact fun h => he0 (BitVec.eq_of_toNat_eq h)
    have hbias : ((Format.binary64.exponentBias : Nat) : Int)
        + (Format.binary64.mantissaBitsWithoutImplicit : Nat) = 1075 := by decide
    rw [if_neg he0]
    refine .inr (exists_finite_eq _ ?_ ?_)
    · rw [toNat_implicit, hm, mantissa, if_neg (by omega), hcodes]
    · rw [he, exponent, if_neg (by omega), hbias, hcodes]

/-! ## Places ascend with the number -/

theorem isLE_then_of_lex {e₁ e₂ : Int} {m₁ m₂ : Nat} (h : e₁ < e₂ ∨ e₁ = e₂ ∧ m₁ ≤ m₂) :
    ((compare e₁ e₂).then (compare m₁ m₂)).isLE = true := by
  rw [Ordering.isLE_then_iff_or]
  rcases h with h | ⟨h, hm⟩
  · exact .inl (Int.compare_eq_lt.mpr h)
  · exact .inr ⟨Int.compare_eq_eq.mpr h, Nat.isLE_compare.mpr hm⟩

/-- **Places ascend with the number**, whatever the signs. -/
theorem Unpacks.compare_isLE {a b : Binary64} {u v : UnpackedFloat} (hu : Unpacks a u)
    (hv : Unpacks b v) (h : a.place ≤ b.place) : (u.compare v).any (·.isLE) = true := by
  obtain ⟨na, ca⟩ := a
  obtain ⟨nb, cb⟩ := b
  unfold place at h
  unfold Unpacks sign at hu hv
  cases na <;> cases nb
  · have hc : ca ≤ cb := by simpa using h
    rcases hu with ⟨za, rfl⟩ | ⟨pa, rfl⟩ <;> rcases hv with ⟨zb, rfl⟩ | ⟨pb, rfl⟩
    · rfl
    · rfl
    · -- nothing but zero is at most zero
      have hz : ca = 0 := by
        simp only at zb
        omega
      simp only [hz, mantissa_zero] at pa
      exact absurd pa (Nat.lt_irrefl 0)
    · exact isLE_then_of_lex (lex_of_code_le hc)
  · simp at h
    omega
  · -- a negative number comes before a positive one, and zeros are equal
    rcases hu with ⟨za, rfl⟩ | ⟨pa, rfl⟩ <;> rcases hv with ⟨zb, rfl⟩ | ⟨pb, rfl⟩ <;> rfl
  · -- below zero codes descend, and so does the comparison
    have hc : cb ≤ ca := by
      simp at h
      omega
    rcases hu with ⟨za, rfl⟩ | ⟨pa, rfl⟩ <;> rcases hv with ⟨zb, rfl⟩ | ⟨pb, rfl⟩
    · rfl
    · have hz : cb = 0 := by
        simp only at za
        omega
      simp only [hz, mantissa_zero] at pb
      exact absurd pb (Nat.lt_irrefl 0)
    · rfl
    · show ((compare (exponent ca) (exponent cb)).then
        (compare (mantissa ca) (mantissa cb))).swap.isLE = true
      rw [Ordering.swap_then, Int.compare_swap, Nat.compare_swap]
      exact isLE_then_of_lex (lex_of_code_le hc)

theorem le_iff_compare (x y : Float) :
    x ≤ y ↔ (x.toModel.unpack.compare y.toModel.unpack).any (·.isLE) = true := by
  show decide (x.toModel ≤ y.toModel) = true ↔ _
  rw [decide_eq_true_iff]
  rfl

/-- Finite doubles whose places are in order are in order as numbers. -/
theorem le_of_place_le {x y : Float} (hx : (ofFloat x).isFinite = true)
    (hy : (ofFloat y).isFinite = true) (h : (ofFloat x).place ≤ (ofFloat y).place) : x ≤ y := by
  rw [le_iff_compare]
  exact (unpacks_of_isFinite hx).compare_isLE (unpacks_of_isFinite hy) h

theorem precedes_iff (x y : Float) :
    Scalar.precedes x y = true ↔ (ofFloat x).place ≤ (ofFloat y).place :=
  decide_eq_true_iff

end Binary64

/-- Doubles are sorted by their bits, and sorted doubles are in order. -/
instance instOrderedFloat : Scalar.Ordered Float where
  precedes_total a b := by
    rw [Bool.or_eq_true, Binary64.precedes_iff, Binary64.precedes_iff]
    exact Int.le_total _ _
  precedes_trans a b c hab hbc := by
    rw [Binary64.precedes_iff] at *
    exact Int.le_trans hab hbc
  precedes_antisymm a b hab hba := by
    rw [Binary64.precedes_iff] at *
    exact Binary64.ofFloat_injective (Binary64.place_injective (Int.le_antisymm hab hba))
  atMost_of_precedes a b ha hb hab := by
    rw [Binary64.precedes_iff] at hab
    exact decide_eq_true (Binary64.le_of_place_le ha hb hab)

end ExchangeBench
