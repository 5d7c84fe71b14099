import ExchangeBench.Text.Natural

/-!
# Timestamps

A moment in universal time as text, to the second: `2024-02-29T23:59:59Z`. The date is counted in
years that begin in March, so that the leap day is the last of its year.
-/

namespace ExchangeBench.Timestamp

/-- A day of the proleptic Gregorian calendar. -/
structure Date where
  year : Nat
  month : Nat
  day : Nat
  deriving DecidableEq

/-- The date a number of days after the first of January 1970. -/
def dateOf (days : Nat) : Date :=
  let z := days + 719468
  let era := z / 146097
  let doe := z % 146097
  let yoe := (doe - doe / 1460 + doe / 36524 - doe / 146096) / 365
  let doy := doe - (365 * yoe + yoe / 4 - yoe / 100)
  let mp := (5 * doy + 2) / 153
  let month := if mp < 10 then mp + 3 else mp - 9
  ⟨400 * era + yoe + (if month ≤ 2 then 1 else 0), month, doy - (153 * mp + 2) / 5 + 1⟩

/-- A number with at least so many digits. -/
def padded (width n : Nat) : List Char :=
  let ds := Text.decimal n
  List.replicate (width - ds.length) '0' ++ ds

/-- The text of the moment a number of seconds after the beginning of 1970. -/
def ofSeconds (s : Nat) : String :=
  let d := dateOf (s / 86400)
  let t := s % 86400
  String.ofList (padded 4 d.year ++ '-' :: padded 2 d.month ++ '-' :: padded 2 d.day ++
    'T' :: padded 2 (t / 3600) ++ ':' :: padded 2 (t / 60 % 60) ++ ':' :: padded 2 (t % 60) ++ ['Z'])

end ExchangeBench.Timestamp
