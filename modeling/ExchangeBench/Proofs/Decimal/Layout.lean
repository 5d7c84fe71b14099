import Mathlib.Data.List.Induction
import Mathlib.Data.List.TakeWhile
import ExchangeBench.Decimal.Layout
import ExchangeBench.Decimal.Literal
import ExchangeBench.Proofs.Decimal.Shortest

/-!
# Decimals set out with a point are read back

However many zeros a layout pads a decimal with, the number literal that it makes denotes the decimal.

- `Text.value_append`: digits behind digits.
- `Literal.readDecimal?_digits`, `Literal.readDecimal?_point`: literals without and with a point.
- `Layout.readDecimal?_withPoint`: digits set out with a point are read back.
- `Layout.readDecimal?_writeDecimal`: and so are decimals, in a layout without exponents.
-/

namespace ExchangeBench

/-! ## Digits -/

namespace Text

theorem value_append (ds es : List Char) :
    value (ds ++ es) = value ds * 10 ^ es.length + value es := by
  induction es using List.reverseRecOn with
  | nil => simp [value]
  | append_singleton es c ih =>
    rw [← List.append_assoc, value_append_single, value_append_single, ih, List.length_append,
      List.length_singleton, pow_succ]
    ring

theorem value_zeros (n : Nat) : value (List.replicate n '0') = 0 := by
  induction n with
  | zero => rfl
  | succ n ih =>
    rw [List.replicate_succ', value_append_single, ih]
    rfl

theorem isDigit_of_mem_zeros {n : Nat} {c : Char} (h : c ∈ List.replicate n '0') :
    c.isDigit = true := by
  rw [List.eq_of_mem_replicate h]
  rfl

end Text

/-! ## Literals -/

namespace Literal

variable {ws fs : List Char}

theorem readDecimal?_digits (hws : ∀ c ∈ ws, c.isDigit = true) (hne : ws ≠ []) :
    readDecimal? ws = some (.decimal ws 0) := by
  have htake : ws.takeWhile Char.isDigit = ws := List.takeWhile_eq_self_iff.mpr hws
  have hdrop : ws.dropWhile Char.isDigit = [] := List.dropWhile_eq_nil_iff.mpr hws
  unfold readDecimal?
  simp [htake, hdrop, hne]

theorem readDecimal?_point (hws : ∀ c ∈ ws, c.isDigit = true) (hfs : ∀ c ∈ fs, c.isDigit = true)
    (hne : ws ≠ [] ∨ fs ≠ []) :
    readDecimal? (ws ++ '.' :: fs) = some (.decimal (ws ++ fs) (-fs.length)) := by
  have hpoint : ¬ ('.').isDigit = true := by decide
  have htake : (ws ++ '.' :: fs).takeWhile Char.isDigit = ws := by
    rw [List.takeWhile_append_of_pos hws, List.takeWhile_cons_of_neg hpoint, List.append_nil]
  have hdrop : (ws ++ '.' :: fs).dropWhile Char.isDigit = '.' :: fs := by
    rw [List.dropWhile_append_of_pos hws, List.dropWhile_cons_of_neg hpoint]
  have htake' : fs.takeWhile Char.isDigit = fs := List.takeWhile_eq_self_iff.mpr hfs
  have hdrop' : fs.dropWhile Char.isDigit = [] := List.dropWhile_eq_nil_iff.mpr hfs
  unfold readDecimal?
  simp [htake, hdrop, htake', hdrop', Decidable.imp_iff_not_or, hne]

/-- The number that a literal denotes, before it is rounded. -/
def Body.toRat? : Body → Option Rat
  | .infinite | .notANumber => none
  | .decimal digits exponent => some (Binary64.scaled (Text.value digits) 10 exponent)

end Literal

/-! ## Layouts -/

namespace Layout

variable {ds : List Char}

/-- Digits behind the point, and zeros between the point and the digits. -/
theorem readDecimal?_behind {p : Int} (hds : ∀ c ∈ ds, c.isDigit = true) (hp : p ≤ 0) :
    (Literal.readDecimal? ('0' :: '.' :: List.replicate (-p).toNat '0' ++ ds)).bind
      Literal.Body.toRat? = some (Binary64.scaled (Text.value ds) 10 (p - ds.length)) := by
  have hdigits : ∀ c ∈ List.replicate (-p).toNat '0' ++ ds, c.isDigit = true := by
    intro c hc
    rcases List.mem_append.mp hc with hc | hc
    · exact Text.isDigit_of_mem_zeros hc
    · exact hds c hc
  have hzero : ∀ c ∈ ['0'], c.isDigit = true := List.forall_mem_singleton.mpr rfl
  have hread := Literal.readDecimal?_point hzero hdigits (.inl (List.cons_ne_nil _ _))
  have hlength : (-((List.replicate (-p).toNat '0' ++ ds).length : Int)) = p - ds.length := by
    rw [List.length_append, List.length_replicate]
    omega
  have hvalue : Text.value (['0'] ++ (List.replicate (-p).toNat '0' ++ ds)) = Text.value ds := by
    rw [Text.value_append, Text.value_append, Text.value_zeros]
    simp [Text.value]
  rw [hlength] at hread
  have hshape : '0' :: '.' :: List.replicate (-p).toNat '0' ++ ds =
      ['0'] ++ '.' :: (List.replicate (-p).toNat '0' ++ ds) := rfl
  rw [hshape, hread, Option.bind_some, Literal.Body.toRat?, hvalue]

/-- Digits before the point, if there is one, and zeros behind them. -/
theorem readDecimal?_before {suffix : List Char} {p : Int}
    (hsuffix : suffix = [] ∨ suffix = ['.', '0']) (hds : ∀ c ∈ ds, c.isDigit = true)
    (hne : ds ≠ []) (hp : (ds.length : Int) ≤ p) :
    (Literal.readDecimal? (ds ++ List.replicate (p - ds.length).toNat '0' ++ suffix)).bind
      Literal.Body.toRat? = some (Binary64.scaled (Text.value ds) 10 (p - ds.length)) := by
  generalize hn : (p - ds.length).toNat = n
  have hexponent : p - ds.length = (n : Int) := by omega
  have hdigits : ∀ c ∈ ds ++ List.replicate n '0', c.isDigit = true := by
    intro c hc
    rcases List.mem_append.mp hc with hc | hc
    · exact hds c hc
    · exact Text.isDigit_of_mem_zeros hc
  have hne' : ds ++ List.replicate n '0' ≠ [] := by simp [hne]
  have hvalue : Text.value (ds ++ List.replicate n '0') = Text.value ds * 10 ^ n := by
    rw [Text.value_append, Text.value_zeros, List.length_replicate, Nat.add_zero]
  rw [hexponent, Binary64.scaled_eq _ (by decide)]
  rcases hsuffix with rfl | rfl
  · rw [List.append_nil, Literal.readDecimal?_digits hdigits hne', Option.bind_some,
      Literal.Body.toRat?, hvalue, Binary64.scaled_eq _ (by decide)]
    push_cast
    rw [mul_one, zpow_natCast]
  · -- one more zero behind the point
    have hzero : ∀ c ∈ ['0'], c.isDigit = true := List.forall_mem_singleton.mpr rfl
    have hread := Literal.readDecimal?_point hdigits hzero (.inl hne')
    have hvalue' : Text.value (ds ++ List.replicate n '0' ++ ['0']) =
        Text.value ds * 10 ^ n * 10 := by
      rw [Text.value_append, hvalue]
      rfl
    have hlength : (-((['0'].length : Nat) : Int)) = -1 := rfl
    rw [hread, Option.bind_some, Literal.Body.toRat?, hvalue', hlength,
      Binary64.scaled_eq _ (by decide)]
    push_cast
    rw [zpow_natCast, zpow_neg_one]
    field_simp

/-- Digits with the point among them. -/
theorem readDecimal?_among {p : Int} (hds : ∀ c ∈ ds, c.isDigit = true) (hp : 0 < p)
    (hp' : p < ds.length) :
    (Literal.readDecimal? (ds.take p.toNat ++ '.' :: ds.drop p.toNat)).bind
      Literal.Body.toRat? = some (Binary64.scaled (Text.value ds) 10 (p - ds.length)) := by
  have htake : ∀ c ∈ ds.take p.toNat, c.isDigit = true := fun c hc =>
    hds c (List.mem_of_mem_take hc)
  have hdrop : ∀ c ∈ ds.drop p.toNat, c.isDigit = true := fun c hc =>
    hds c (List.mem_of_mem_drop hc)
  have hne : ds.take p.toNat ≠ [] := by
    rw [← List.length_pos_iff, List.length_take]
    omega
  have hlength : (-((ds.drop p.toNat).length : Int)) = p - ds.length := by
    rw [List.length_drop]
    omega
  rw [Literal.readDecimal?_point htake hdrop (.inl hne), Option.bind_some, Literal.Body.toRat?,
    List.take_append_drop, hlength]

/-- **Digits set out with a point are read back**, whatever zeros they are padded with. -/
theorem readDecimal?_withPoint {suffix : List Char} (p : Int)
    (hsuffix : suffix = [] ∨ suffix = ['.', '0']) (hds : ∀ c ∈ ds, c.isDigit = true)
    (hne : ds ≠ []) :
    (Literal.readDecimal? (withPoint suffix ds p)).bind Literal.Body.toRat? =
      some (Binary64.scaled (Text.value ds) 10 (p - ds.length)) := by
  unfold withPoint
  by_cases hbehind : p ≤ 0
  · rw [if_pos hbehind]
    exact readDecimal?_behind hds hbehind
  · rw [if_neg hbehind]
    by_cases hbefore : (ds.length : Int) ≤ p
    · rw [if_pos hbefore]
      exact readDecimal?_before hsuffix hds hne hbefore
    · rw [if_neg hbefore]
      exact readDecimal?_among hds (by omega) (by omega)

/-- **A decimal is read back** from its text in a layout that writes it without an exponent. -/
theorem readDecimal?_writeDecimal {l : Layout} (d : Decimal)
    (hsuffix : l.wholeSuffix = [] ∨ l.wholeSuffix = ['.', '0'])
    (hpositional : l.positional ((Text.decimal d.coefficient).length + d.exponent) = true) :
    (Literal.readDecimal? (l.writeDecimal d)).bind Literal.Body.toRat? = some d.toRat := by
  unfold writeDecimal
  by_cases hzero : d.coefficient = 0
  · rw [if_pos hzero]
    have hrat : d.toRat = 0 := by
      rw [Decimal.toRat_eq, hzero, Nat.cast_zero, zero_mul]
    rw [hrat]
    rcases hsuffix with hsuffix | hsuffix
    · rw [hsuffix]
      rfl
    · rw [hsuffix]
      rfl
  · rw [if_neg hzero]
    simp only [hpositional, if_true]
    rw [readDecimal?_withPoint _ hsuffix (fun c hc => Text.isDigit_of_mem_decimal hc)
      (Text.decimal_ne_nil _), Text.value_decimal, add_sub_cancel_left]
    rfl

end Layout
end ExchangeBench
