import ExchangeBench.Text.Natural
import ExchangeBench.Decimal.Shortest

/-!
# Layout of decimals

How the digits of a shortest decimal are set out. A layout says where the point may stand without an
exponent, whether a whole number carries `.0`, and which of two equally short, equally near decimals
is written. Three layouts are in use: `Layout.plain` for keys and messages, `Layout.pointed` for
numbers named as floating-point in a message, and `Layout.report` for reports.
-/

namespace ExchangeBench

/-- The choices that turn digits into text. -/
structure Layout where
  tie : Decimal.Tie
  /-- Whether a number with this many digits before its point is written without an exponent. -/
  positional : Int → Bool
  /-- What follows the digits of a whole number written without an exponent. -/
  wholeSuffix : List Char

namespace Layout

/-- Keys and messages: never an exponent, whole numbers without a point. -/
def plain : Layout := ⟨.larger, fun _ => true, []⟩

/-- Floating-point numbers named in a message: as `plain`, but whole numbers carry `.0`. -/
def pointed : Layout := ⟨.larger, fun _ => true, ['.', '0']⟩

/-- Reports: an exponent from `10 ^ 16` on and below `10 ^ (-5)`, and whole numbers carry `.0`. -/
def report : Layout := ⟨.evenDigit, fun p => -5 < p && p ≤ 16, ['.', '0']⟩

/-- Digits with the point after the first `p` of them, padded with zeros on either side. -/
def withPoint (wholeSuffix ds : List Char) (p : Int) : List Char :=
  if p ≤ 0 then '0' :: '.' :: List.replicate (-p).toNat '0' ++ ds
  else if (ds.length : Int) ≤ p then
    ds ++ List.replicate (p - ds.length).toNat '0' ++ wholeSuffix
  else ds.take p.toNat ++ '.' :: ds.drop p.toNat

/-- Digits with the point after the first of them, and the exponent with its sign. -/
def withExponent (ds : List Char) (p : Int) : List Char :=
  let e := p - 1
  let mantissa := match ds with
    | d :: r => if r.isEmpty then [d] else d :: '.' :: r
    | [] => []
  mantissa ++ 'e' :: (if e < 0 then '-' else '+') :: Text.decimal e.natAbs

/-- A decimal set out as the layout says. -/
def writeDecimal (l : Layout) (d : Decimal) : List Char :=
  if d.coefficient = 0 then '0' :: l.wholeSuffix
  else
    let ds := Text.decimal d.coefficient
    let p : Int := ds.length + d.exponent
    if l.positional p then withPoint l.wholeSuffix ds p else withExponent ds p

/-- The text of a double. -/
def write (l : Layout) (x : Binary64) : List Char :=
  let sign := if x.negative then ['-'] else []
  if x.isNaN then "NaN".toList
  else if x.code = Binary64.infinityCode then sign ++ "inf".toList
  else sign ++ l.writeDecimal (Decimal.shortest l.tie x.code)

/-- `write` as a string. -/
def text (l : Layout) (x : Binary64) : String :=
  String.ofList (l.write x)

end Layout
end ExchangeBench
