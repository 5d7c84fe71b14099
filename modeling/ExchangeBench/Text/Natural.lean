/-!
# Natural numbers in decimal

* `decimal`: the digits of a number, without leading zeros.
* `value`: the number that a list of digits denotes.
* `grouped`: the digits with a comma between groups of three, counted from the right.
* `value_decimal`: writing and reading give the number back.
-/

namespace ExchangeBench.Text

/-- The character of a digit. -/
def digit (d : Nat) : Char :=
  Char.ofNat (48 + d)

/-- The decimal digits of a number, `0` for zero. -/
def decimal (n : Nat) : List Char :=
  if n < 10 then [digit n] else decimal (n / 10) ++ [digit (n % 10)]

/-- The number that some decimal digits denote; the empty list denotes zero. -/
def value (cs : List Char) : Nat :=
  cs.foldl (fun v c => 10 * v + (c.toNat - 48)) 0

/-- Puts a comma after every third digit that another digit follows. -/
def groupThrees : List Char → List Char
  | a :: b :: c :: d :: r => a :: b :: c :: ',' :: groupThrees (d :: r)
  | cs => cs

/-- The digits of a number in groups of three, counted from the right. -/
def grouped (n : Nat) : List Char :=
  (groupThrees (decimal n).reverse).reverse

/-- The decimal text of a number. -/
def ofNat (n : Nat) : String :=
  String.ofList (decimal n)

theorem toNat_digit {d : Nat} (h : d < 10) : (digit d).toNat = 48 + d := by
  have : ∀ e : Fin 10, (digit e).toNat = 48 + e := by decide
  exact this ⟨d, h⟩

theorem isDigit_digit {d : Nat} (h : d < 10) : (digit d).isDigit = true := by
  have : ∀ e : Fin 10, (digit e).isDigit = true := by decide
  exact this ⟨d, h⟩

theorem value_append_single (cs : List Char) (c : Char) :
    value (cs ++ [c]) = 10 * value cs + (c.toNat - 48) := by
  simp [value]

/-- Reading the written digits gives the number back. -/
@[simp] theorem value_decimal (n : Nat) : value (decimal n) = n := by
  fun_induction decimal n with
  | case1 n h => simp [value, toNat_digit h]
  | case2 n h ih =>
    rw [value_append_single, ih, toNat_digit (Nat.mod_lt n (by decide))]
    omega

/-- Different numbers are written differently. -/
theorem decimal_injective {m n : Nat} (h : decimal m = decimal n) : m = n := by
  rw [← value_decimal m, h, value_decimal]

/-- Only digits are written. -/
theorem isDigit_of_mem_decimal {n : Nat} {c : Char} (h : c ∈ decimal n) : c.isDigit = true := by
  fun_induction decimal n with
  | case1 n hn => simp at h; exact h ▸ isDigit_digit hn
  | case2 n hn ih =>
    rcases List.mem_append.1 h with h | h
    · exact ih h
    · simp at h; exact h ▸ isDigit_digit (Nat.mod_lt n (by decide))

theorem not_mem_decimal {n : Nat} {c : Char} (h : c.isDigit = false) : c ∉ decimal n := fun hmem =>
  absurd (isDigit_of_mem_decimal hmem) (Bool.eq_false_iff.mp h)

theorem decimal_ne_nil (n : Nat) : decimal n ≠ [] := by
  unfold decimal
  split <;> simp

end ExchangeBench.Text
