import ExchangeBench.Proofs.Scalar.Exact

/-!
# Real numbers with infinities

Exact scalars among which there are some that are not finite: the real numbers, two infinities, and a
scalar that is no number. Samples of them are sorted as doubles are, from negative infinity to what is
no number.

- `Extended`: these scalars.
- `instExactExtended`, `instOrderedExtended`: nothing is rounded, and the order is linear.
-/

namespace ExchangeBench

/-- A real number, an infinity, or no number. -/
inductive Extended where
  | finite (x : ℝ)
  | infinite (negative : Bool)
  | nan

namespace Extended

/-- The place in the order that samples are sorted in. -/
noncomputable def place : Extended → WithTop EReal
  | finite x => ((x : EReal) : WithTop EReal)
  | infinite true => ((⊥ : EReal) : WithTop EReal)
  | infinite false => ((⊤ : EReal) : WithTop EReal)
  | nan => ⊤

theorem place_injective {a b : Extended} (h : a.place = b.place) : a = b := by
  cases a with
  | finite x => rcases b with y | (_ | _) | _ <;> simp_all [place]
  | infinite negative =>
    cases negative <;> rcases b with y | (_ | _) | _ <;> simp_all [place]
  | nan => rcases b with y | (_ | _) | _ <;> simp_all [place]

theorem place_finite_le_iff (x y : ℝ) : (finite x).place ≤ (finite y).place ↔ x ≤ y := by
  rw [place, place, WithTop.coe_le_coe, EReal.coe_le_coe_iff]

/-- The number that a scalar stands for, zero if there is none. -/
def toReal : Extended → ℝ
  | finite x => x
  | infinite _ | nan => 0

/-- An operation on numbers. What is not finite leads to no number. -/
def lift (f : ℝ → ℝ → ℝ) : Extended → Extended → Extended
  | finite x, finite y => finite (f x y)
  | _, _ => nan

def isFinite : Extended → Bool
  | finite _ => true
  | infinite _ | nan => false

def isNumber : Extended → Bool
  | finite _ | infinite _ => true
  | nan => false

theorem exists_of_isFinite {a : Extended} (h : a.isFinite = true) : ∃ x, a = finite x := by
  cases a with
  | finite x => exact ⟨x, rfl⟩
  | infinite | nan => cases h

end Extended

open Extended Classical in
noncomputable instance instScalarExtended : Scalar Extended where
  add := lift (· + ·)
  sub := lift (· - ·)
  mul := lift (· * ·)
  div a b := if b.toReal = 0 then nan else lift (· / ·) a b
  ofNat n := finite n
  ofCode c :=
    if c < Binary64.infinityCode then finite (Binary64.magnitude c)
    else if c = Binary64.infinityCode then infinite false
    else nan
  floor a := ⌊a.toReal⌋₊
  sqrt a := if a.isFinite = true ∧ 0 ≤ a.toReal then finite √a.toReal else nan
  isFinite := Extended.isFinite
  less a b := decide (a.isNumber = true ∧ b.isNumber = true ∧ a.place < b.place)
  atMost a b := decide (a.isNumber = true ∧ b.isNumber = true ∧ a.place ≤ b.place)
  precedes a b := decide (a.place ≤ b.place)

open Extended in
noncomputable instance instExactExtended : Scalar.Exact Extended where
  real := toReal
  ofNat _ := ⟨rfl, rfl⟩
  ofCode c hc := by
    rw [Scalar.ofCode, instScalarExtended]
    simp only [if_pos hc]
    exact ⟨rfl, rfl⟩
  add a b ha hb := by
    obtain ⟨x, rfl⟩ := exists_of_isFinite ha
    obtain ⟨y, rfl⟩ := exists_of_isFinite hb
    exact ⟨rfl, rfl⟩
  sub a b ha hb := by
    obtain ⟨x, rfl⟩ := exists_of_isFinite ha
    obtain ⟨y, rfl⟩ := exists_of_isFinite hb
    exact ⟨rfl, rfl⟩
  mul a b ha hb := by
    obtain ⟨x, rfl⟩ := exists_of_isFinite ha
    obtain ⟨y, rfl⟩ := exists_of_isFinite hb
    exact ⟨rfl, rfl⟩
  div a b ha hb hne := by
    obtain ⟨x, rfl⟩ := exists_of_isFinite ha
    obtain ⟨y, rfl⟩ := exists_of_isFinite hb
    have hdiv : (finite x / finite y : Extended) = finite (x / y) := if_neg hne
    rw [hdiv]
    exact ⟨rfl, rfl⟩
  sqrt a ha hpos := by
    have hsqrt : (Scalar.sqrt a : Extended) = finite √a.toReal := if_pos ⟨ha, hpos⟩
    rw [hsqrt]
    exact ⟨rfl, rfl⟩
  floor _ _ _ := rfl
  less a b ha hb := by
    obtain ⟨x, rfl⟩ := exists_of_isFinite ha
    obtain ⟨y, rfl⟩ := exists_of_isFinite hb
    refine decide_eq_true_iff.trans ⟨fun h => ?_, fun h => ⟨rfl, rfl, ?_⟩⟩
    · exact lt_of_not_ge fun hle => not_le.mpr h.2.2 ((place_finite_le_iff y x).mpr hle)
    · exact lt_of_not_ge fun hle => not_le.mpr h ((place_finite_le_iff y x).mp hle)
  atMost a b ha hb := by
    obtain ⟨x, rfl⟩ := exists_of_isFinite ha
    obtain ⟨y, rfl⟩ := exists_of_isFinite hb
    exact decide_eq_true_iff.trans
      ⟨fun h => (place_finite_le_iff x y).mp h.2.2,
        fun h => ⟨rfl, rfl, (place_finite_le_iff x y).mpr h⟩⟩
  precedes a b ha hb h := by
    obtain ⟨x, rfl⟩ := exists_of_isFinite ha
    obtain ⟨y, rfl⟩ := exists_of_isFinite hb
    exact (place_finite_le_iff x y).mp (of_decide_eq_true h)

open Extended in
instance instOrderedExtended : Scalar.Ordered Extended where
  precedes_total a b := by
    rw [Bool.or_eq_true]
    exact (le_total a.place b.place).imp decide_eq_true decide_eq_true
  precedes_trans a b c hab hbc :=
    decide_eq_true ((of_decide_eq_true hab).trans (of_decide_eq_true hbc))
  precedes_antisymm a b hab hba :=
    place_injective (le_antisymm (of_decide_eq_true hab) (of_decide_eq_true hba))
  atMost_of_precedes a b ha hb hab := by
    obtain ⟨x, rfl⟩ := exists_of_isFinite ha
    obtain ⟨y, rfl⟩ := exists_of_isFinite hb
    exact decide_eq_true ⟨rfl, rfl, of_decide_eq_true hab⟩

end ExchangeBench
