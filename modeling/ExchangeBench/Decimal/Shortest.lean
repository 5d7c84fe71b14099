import ExchangeBench.Decimal.Binary64

/-!
# Shortest decimals

The decimal with the fewest digits that reads back as a given double. For one digit, two digits and
so on, the double's two neighbours on that decimal grid are tried: if any decimal of that length
reads back, one of the two does. Of two that read back the nearer is taken, and of two equally near
ones the choice is the caller's.
-/

namespace ExchangeBench

/-- The number `coefficient * 10 ^ exponent`. -/
structure Decimal where
  coefficient : Nat
  exponent : Int
  deriving DecidableEq

namespace Decimal

/-- The number as a rational. -/
def toRat (d : Decimal) : Rat :=
  Binary64.scaled d.coefficient 10 d.exponent

/-- The same number without trailing zeros in the coefficient. -/
def stripped (d : Decimal) : Decimal :=
  if h : d.coefficient ≠ 0 ∧ d.coefficient % 10 = 0 then
    stripped ⟨d.coefficient / 10, d.exponent + 1⟩
  else d
termination_by d.coefficient
decreasing_by exact Nat.div_lt_self (Nat.pos_of_ne_zero h.1) (by decide)

/-- Which of two equally near shortest decimals is written. -/
inductive Tie where
  | larger
  | evenDigit
  deriving DecidableEq

/-- The number of digits before the point of a positive rational: the least `p` with
`x < 10 ^ p`, near an estimate from the binary exponent. -/
def pointPosition (x : Rat) : Int :=
  let estimate := Binary64.floorLog x.num.toNat x.den * 1233 / 4096
  if x < Binary64.scaled 1 10 estimate then estimate
  else if x < Binary64.scaled 1 10 (estimate + 1) then estimate + 1
  else estimate + 2

/-- The decimal of `n` digits for the double with code `c` and magnitude `x`, if one reads back. -/
def ofLength? (tie : Tie) (c : Nat) (x : Rat) (n : Nat) : Option Decimal :=
  let k := pointPosition x - n
  let below : Decimal :=
    ⟨x.num.toNat * Nat.pow 10 (-k).toNat / (x.den * Nat.pow 10 k.toNat), k⟩
  let above : Decimal := ⟨below.coefficient + 1, k⟩
  let readsBack (d : Decimal) : Bool := Binary64.nearestCode d.toRat == c
  match readsBack below, readsBack above with
  | false, false => none
  | true, false => some below
  | false, true => some above
  | true, true =>
    let down := x - below.toRat
    let up := above.toRat - x
    if down < up then some below
    else if up < down then some above
    else match tie with
      | .larger => some above
      | .evenDigit => some (if below.coefficient % 2 = 0 then below else above)

/-- A finite code's magnitude written out in full. -/
def exact (c : Nat) : Decimal :=
  let x := Binary64.magnitude c
  let k := x.den.log2
  ⟨x.num.toNat * Nat.pow 5 k, -k⟩

/-- The shortest decimal that reads back as the double with a finite code. Seventeen digits always
suffice; the full expansion stands behind them so that nothing rests on it. -/
def shortest (tie : Tie) (c : Nat) : Decimal :=
  let x := Binary64.magnitude c
  if c = 0 then ⟨0, 0⟩
  else (((List.range 17).findSome? fun i => ofLength? tie c x (i + 1)).getD (exact c)).stripped

end Decimal
end ExchangeBench
