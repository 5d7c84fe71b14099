/-!
# Binary64 numbers and rationals

A double taken apart into its sign and its *code*, the bit pattern without the sign bit. Codes
ascend with the magnitude, so the code of infinity bounds the finite ones, and NaN has a larger code
still.

* `Binary64.ofFloat`, `Binary64.toFloat`: between doubles and their parts.
* `Binary64.magnitude`: the rational number of a finite code.
* `Binary64.nearestCode`: the code of the double nearest to a rational number, ties to even.
  Rounding up across a power of two, into the normal numbers or into infinity is all one addition on
  codes.
-/

namespace ExchangeBench

/-- A double, as its sign and the rest of its bit pattern. -/
structure Binary64 where
  negative : Bool
  code : Nat
  deriving DecidableEq

namespace Binary64

/-- The number of codes that share an exponent. -/
def codesPerExponent : Nat := 1 <<< 52

/-- The value of the sign bit. -/
def signBit : Nat := 1 <<< 63

/-- The code of infinity; finite codes are smaller. -/
def infinityCode : Nat := 2047 * codesPerExponent

/-- The parts of a double. -/
def ofFloat (x : Float) : Binary64 :=
  let b := x.toBits.toNat
  ⟨signBit ≤ b, b % signBit⟩

/-- The double with the given parts. -/
def toFloat (x : Binary64) : Float :=
  Float.ofBits (UInt64.ofNat (if x.negative then signBit + x.code else x.code))

/-- Whether a double is neither infinite nor NaN. -/
def isFinite (x : Binary64) : Bool :=
  x.code < infinityCode

/-- Whether a double is NaN. -/
def isNaN (x : Binary64) : Bool :=
  infinityCode < x.code

/-- Whether a double is zero, of either sign. -/
def isZero (x : Binary64) : Bool :=
  x.code == 0

/-- A double that is no number. -/
def nan : Binary64 := ⟨false, infinityCode + codesPerExponent / 2⟩

/-- The rational number `m * b ^ e`. -/
def scaled (m b : Nat) (e : Int) : Rat :=
  mkRat (m * Nat.pow b e.toNat) (Nat.pow b (-e).toNat)

/-- The rational number that a finite code stands for. -/
def magnitude (c : Nat) : Rat :=
  if c < codesPerExponent then scaled c 2 (-1074)
  else scaled (codesPerExponent + c % codesPerExponent) 2 ((c / codesPerExponent : Nat) - 1075)

/-- The quotient of two numbers, rounded to the nearest whole number, ties to even. -/
def roundHalfEven (n d : Nat) : Nat :=
  let q := n / d
  let r := n % d
  if 2 * r < d || (2 * r == d && q % 2 == 0) then q else q + 1

/-- The exponent of the largest power of two that a positive quotient reaches. -/
def floorLog (n d : Nat) : Int :=
  let k : Int := (n.log2 : Int) - d.log2
  if d <<< k.toNat ≤ n <<< (-k).toNat then k else k - 1

/-- The code of the double nearest to a non-negative rational number, ties to even. -/
def nearestCode (x : Rat) : Nat :=
  let n := x.num.toNat
  if n = 0 then 0
  else
    let e : Int := max (-1074) (floorLog n x.den - 52)
    let m := roundHalfEven (n <<< (-e).toNat) (x.den <<< e.toNat)
    min infinityCode ((e + 1074).toNat * codesPerExponent + m)

end Binary64
end ExchangeBench
