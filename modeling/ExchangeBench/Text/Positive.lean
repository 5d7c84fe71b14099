import ExchangeBench.Text.Natural

/-!
# Positive numbers in text

A positive 64-bit number: decimal digits, which a plus sign may precede. There may be leading zeros,
but no white space. Of two faults the one met first from the left is named.
-/

namespace ExchangeBench

/-- A positive 64-bit number. -/
abbrev Positive := { n : UInt64 // n ≠ 0 }

namespace Text

/-- Why a text is not a positive number. -/
inductive PositiveFault where
  | empty
  | notDigit
  | tooLarge
  | zero
  deriving DecidableEq

/-- The wording of a fault. -/
def PositiveFault.message : PositiveFault → String
  | empty => "cannot parse integer from empty string"
  | notDigit => "invalid digit found in string"
  | tooLarge => "number too large to fit in target type"
  | zero => "number would be zero for non-zero type"

/-- Reads digits on, from the number that those before denote. -/
def digitsFrom (n : Nat) : List Char → Except PositiveFault Nat
  | [] => .ok n
  | c :: r =>
    if c.isDigit then
      let n := 10 * n + (c.toNat - 48)
      if n < UInt64.size then digitsFrom n r else .error .tooLarge
    else .error .notDigit

/-- The digits of a text, behind a plus sign if there is one. -/
def unsigned : List Char → List Char
  | '+' :: c :: r => c :: r
  | cs => cs

/-- Reads a positive number. -/
def positive (s : String) : Except PositiveFault Positive :=
  if s.toList.isEmpty then .error .empty
  else
    match digitsFrom 0 (unsigned s.toList) with
    | .error e => .error e
    | .ok n =>
      if h : UInt64.ofNat n = 0 then .error .zero else .ok ⟨UInt64.ofNat n, h⟩

end Text
end ExchangeBench
