import ExchangeBench.Decimal.Layout
import ExchangeBench.Error
import ExchangeBench.Scalar

/-!
# Percentiles

A percentile is a double from 0 to 100. Codes of doubles ascend with the magnitude, so a percentile
is a code up to that of 100; negative zero is taken for zero, and numerically equal percentiles are
equal as values.

A percentile's key in a report is its shortest decimal with an underscore for the point:
`p99`, `p99_9`.
-/

namespace ExchangeBench

/-- A number from 0 to 100, as the code of a double. -/
structure Percentile where
  code : Nat
  /-- The code of 100 is the largest. -/
  le_hundred : code ≤ 0x4059000000000000 := by decide
  deriving DecidableEq

/-- A number's key: `p` and its shortest decimal, with an underscore for the point. -/
def percentileKey (x : Binary64) : String :=
  let x := if x.isZero then ⟨false, 0⟩ else x
  String.ofList ('p' :: (Layout.plain.write x).map fun c => if c = '.' then '_' else c)

namespace Percentile

/-- The percentile that is numerically equal to a double, if there is one. -/
def ofBinary64? (x : Binary64) : Option Percentile :=
  if h : x.code ≤ 0x4059000000000000 then
    if x.isZero then some ⟨0, by decide⟩
    else if x.negative then none
    else some ⟨x.code, h⟩
  else none

/-- The percentile that is numerically equal to a double; any other double is refused. -/
def ofBinary64 (x : Binary64) : Except BenchError Percentile :=
  match ofBinary64? x with
  | some p => .ok p
  | none => .error (.invalidPercentile (Layout.plain.text x))

/-- The percentile as a double. -/
def toBinary64 (p : Percentile) : Binary64 := ⟨false, p.code⟩

/-- The value of a percentile. -/
def value (p : Percentile) : Float := p.toBinary64.toFloat

/-- The part of a whole that the percentile stands for. -/
def quantile {α : Type} [Scalar α] (p : Percentile) : α :=
  Scalar.ofCode p.code / Scalar.ofNat 100

/-- The key of a percentile. -/
def key (p : Percentile) : String := percentileKey p.toBinary64

/-- The decimal text of a percentile. -/
def text (p : Percentile) : String := Layout.plain.text p.toBinary64

/-- The 50th percentile. -/
def p50 : Percentile := ⟨0x4049000000000000, by decide⟩

/-- The 95th percentile. -/
def p95 : Percentile := ⟨0x4057c00000000000, by decide⟩

/-- The 99th percentile. -/
def p99 : Percentile := ⟨0x4058c00000000000, by decide⟩

/-- The percentile 99.9. -/
def p999 : Percentile := ⟨0x4058f9999999999a, by decide⟩

/-- The percentiles that are always reported. -/
def baseline : List Percentile := [p50, p95, p99]

end Percentile
end ExchangeBench
