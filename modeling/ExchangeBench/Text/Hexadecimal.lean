/-!
# Numbers in hexadecimal

Written in lower case; read in either.

* `hexadecimal`: the digits of a number, without leading zeros.
* `hexValue?`: the value of a digit.
* `hexValue?_hexDigit`: a digit that is written is read as the same number.
-/

namespace ExchangeBench.Text

/-- A hexadecimal digit in lower case. -/
def hexDigit (d : Nat) : Char :=
  if d < 10 then Char.ofNat (48 + d) else Char.ofNat (87 + d)

/-- The hexadecimal digits of a number, `0` for zero. -/
def hexadecimal (n : Nat) : List Char :=
  if n < 16 then [hexDigit n] else hexadecimal (n / 16) ++ [hexDigit (n % 16)]

/-- The value of a hexadecimal digit. -/
def hexValue? (c : Char) : Option Nat :=
  if c.isDigit then some (c.toNat - 48)
  else if 'a' ≤ c && c ≤ 'f' then some (c.toNat - 87)
  else if 'A' ≤ c && c ≤ 'F' then some (c.toNat - 55)
  else none

/-- A digit that is written is read as the same number. -/
theorem hexValue?_hexDigit {d : Nat} (h : d < 16) : hexValue? (hexDigit d) = some d := by
  have : ∀ e : Fin 16, hexValue? (hexDigit e) = some e.val := by decide
  exact this ⟨d, h⟩

end ExchangeBench.Text
