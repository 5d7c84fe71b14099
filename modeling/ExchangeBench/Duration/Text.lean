import ExchangeBench.Duration
import ExchangeBench.Text.Blank
import ExchangeBench.Text.Natural
import ExchangeBench.Decimal.Literal

/-!
# Durations in text

Two ways to write a duration.

* `parse`, `parsePositive`: a whole number with an optional unit, `10`, `10s`, `250ms`, `1m`.
* `parseSeconds`: a number of seconds as a number literal, `0.5`, rounded to the nearest nanosecond
  from the exact value of the double that the literal denotes.

White space around the text is ignored, and so is white space between number and unit.
-/

namespace ExchangeBench.Duration

/-- Why a text is not a duration. The text is given without the white space around it. -/
inductive TextError where
  | empty
  | malformed (text : String)
  | tooLarge (text : String)
  | notPositive
  | notNumber (text : String)
  | notSeconds (text : String)
  deriving DecidableEq

/-- The wording of a refusal. -/
def TextError.message : TextError → String
  | empty => "duration cannot be empty (expected e.g. 10, 10s, 250ms, 1m)"
  | malformed t => "invalid duration '" ++ t ++ "' (expected e.g. 10, 10s, 250ms, 1m)"
  | tooLarge t => "duration '" ++ t ++ "' is too large"
  | notPositive => "duration must be greater than zero"
  | notNumber t => "invalid number of seconds '" ++ t ++ "' (expected e.g. 0.5)"
  | notSeconds t => "invalid number of seconds '" ++ t ++ "'"

/-- The units that a whole number of them may carry. -/
inductive TimeUnit where
  | milliseconds
  | seconds
  | minutes
  deriving DecidableEq

namespace TimeUnit

/-- The names of a unit; seconds are also meant where no unit is given. -/
def names : TimeUnit → List String
  | milliseconds => ["ms", "msec", "msecs", "millisecond", "milliseconds"]
  | seconds => ["", "s", "sec", "secs", "second", "seconds"]
  | minutes => ["m", "min", "mins", "minute", "minutes"]

/-- The unit of a name. -/
def ofName? (name : String) : Option TimeUnit :=
  [milliseconds, seconds, minutes].find? fun u => u.names.contains name

/-- The length of a unit in nanoseconds. -/
def nanos : TimeUnit → Nat
  | milliseconds => nanosPerMilli
  | seconds => nanosPerSecond
  | minutes => 60 * nanosPerSecond

end TimeUnit

/-- Reads a whole number with an optional unit. The number itself has to fit in 64 bits, and so do
the seconds of the duration. -/
def parse (s : String) : Except TextError Duration :=
  let cs := Text.trim s.toList
  let text := String.ofList cs
  let digits := cs.takeWhile Char.isDigit
  let rest := cs.dropWhile Char.isDigit
  if cs.isEmpty then .error .empty
  else if digits.isEmpty || UInt64.size ≤ Text.value digits then .error (.malformed text)
  else
    match TimeUnit.ofName? (String.ofList (Text.trim rest)) with
    | none => .error (.malformed text)
    | some u =>
      match ofNanos? (Text.value digits * u.nanos) with
      | none => .error (.tooLarge text)
      | some d => .ok d

/-- Reads a whole number with an optional unit that is not zero. -/
def parsePositive (s : String) : Except TextError Positive :=
  match parse s with
  | .error e => .error e
  | .ok d => if h : d.isZero = false then .ok ⟨d, h⟩ else .error .notPositive

/-- The duration of a number of seconds, rounded to the nearest nanosecond, ties to even. There is
none for a negative number and none for one whose seconds do not fit in 64 bits. -/
def ofSeconds? (x : Binary64) : Option Duration :=
  if !x.isFinite || (x.negative && !x.isZero) then none
  else
    let r := Binary64.magnitude x.code
    ofNanos? (Binary64.roundHalfEven (r.num.toNat * nanosPerSecond) r.den)

/-- Reads a number of seconds. -/
def parseSeconds (s : String) : Except TextError Duration :=
  let cs := Text.trim s.toList
  let text := String.ofList cs
  match Literal.binary64? cs with
  | none => .error (.notNumber text)
  | some x =>
    match ofSeconds? x with
    | none => .error (.notSeconds text)
    | some d => .ok d

end ExchangeBench.Duration
