import ExchangeBench.Text.Natural
import ExchangeBench.Decimal.Binary64

/-!
# Number literals

The texts that denote a floating-point number: an optional sign, then `inf`, `infinity` or `nan` in
any case, or decimal digits with an optional point (at least one digit on either side of it) and an
optional exponent. `Literal.read?` accepts exactly these, `Literal.toBinary64` rounds to nearest.
-/

namespace ExchangeBench

/-- What stands behind the sign of a number literal. -/
inductive Literal.Body where
  | infinite
  | notANumber
  /-- The number `digits * 10 ^ exponent`. -/
  | decimal (digits : List Char) (exponent : Int)
  deriving DecidableEq

/-- A number literal, before rounding. -/
structure Literal where
  negative : Bool
  body : Literal.Body
  deriving DecidableEq

namespace Literal

/-- Takes an optional sign off: whether it is a minus, and the rest. -/
def splitSign : List Char → Bool × List Char
  | '-' :: r => (true, r)
  | '+' :: r => (false, r)
  | cs => (false, cs)

/-- Reads the text behind `e`: an optional sign and at least one digit, and nothing else. -/
def readExponent? (cs : List Char) : Option Int :=
  let (negative, ds) := splitSign cs
  if ds.isEmpty || !ds.all Char.isDigit then none
  else
    let n : Int := Text.value ds
    some (if negative then -n else n)

/-- Reads digits, an optional point and an optional exponent. -/
def readDecimal? (cs : List Char) : Option Body :=
  let whole := cs.takeWhile Char.isDigit
  let rest := cs.dropWhile Char.isDigit
  let (part, rest) :=
    match rest with
    | '.' :: r => (r.takeWhile Char.isDigit, r.dropWhile Char.isDigit)
    | r => ([], r)
  if whole.isEmpty && part.isEmpty then none
  else
    let exponent? : Option Int :=
      match rest with
      | [] => some 0
      | c :: r => if c = 'e' || c = 'E' then readExponent? r else none
    exponent?.map fun e => .decimal (whole ++ part) (e - part.length)

/-- Reads what stands behind the sign. -/
def readBody? (cs : List Char) : Option Body :=
  let lower := cs.map Char.toLower
  if lower = "inf".toList || lower = "infinity".toList then some .infinite
  else if lower = "nan".toList then some .notANumber
  else readDecimal? cs

/-- Reads a number literal; the whole text has to be one. -/
def read? (cs : List Char) : Option Literal :=
  let (negative, r) := splitSign cs
  (readBody? r).map fun b => ⟨negative, b⟩

/-- The magnitude of a decimal literal as a double's code. A magnitude of at least `10 ^ 309` is
infinite and one below `10 ^ (-324)` is zero, so neither needs its power of ten. -/
def decimalCode (digits : List Char) (exponent : Int) : Nat :=
  let n := Text.value digits
  let places : Int := (digits.dropWhile (· == '0')).length
  if n = 0 then 0
  else if 310 ≤ places + exponent then Binary64.infinityCode
  else if places + exponent ≤ -324 then 0
  else Binary64.nearestCode (Binary64.scaled n 10 exponent)

/-- The double nearest to a literal. -/
def toBinary64 (l : Literal) : Binary64 :=
  match l.body with
  | .infinite => ⟨l.negative, Binary64.infinityCode⟩
  | .notANumber => Binary64.nan
  | .decimal digits exponent => ⟨l.negative, decimalCode digits exponent⟩

/-- The double that a text denotes, if it is a number literal. -/
def binary64? (cs : List Char) : Option Binary64 :=
  (read? cs).map toBinary64

end Literal
end ExchangeBench
