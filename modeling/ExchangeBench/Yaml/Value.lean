import ExchangeBench.Decimal.Literal
import ExchangeBench.Yaml.Error
import ExchangeBench.Yaml.Tag
import ExchangeBench.Yaml.Token

/-!
# The values of scalars

What a scalar stands for. A plain scalar is null, a truth value, an integer, a float or text,
whichever fits first; a quoted one is text; and a tag of the standard types asks for its type.

Integers have an optional sign and no leading zeros, or digits behind `0x`, `0o` or `0b`. Beyond 64
bits they are wide, and beyond 128 bits floats.
-/

namespace ExchangeBench.Yaml

/-- Whether a text is a name of null. -/
def isNull (s : String) : Bool :=
  ["null", "Null", "NULL", "~"].contains s

/-- The truth value that a text names. -/
def bool? (s : String) : Option Bool :=
  if ["true", "True", "TRUE"].contains s then some true
  else if ["false", "False", "FALSE"].contains s then some false
  else none

/-- The value of a digit below a base. -/
def digit? (base : Nat) (c : Char) : Option Nat :=
  let v :=
    if c.isDigit then c.toNat - 48
    else if c.isLower then c.toNat - 87
    else if c.isUpper then c.toNat - 55
    else base
  if v < base then some v else none

/-- The number that at least one digit denotes in a base. -/
def digits? (base : Nat) (cs : List Char) : Option Nat :=
  if cs.isEmpty then none
  else (cs.mapM (digit? base)).map fun ds => ds.foldl (fun v d => base * v + d) 0

/-- The bases other than ten, and how a number in them begins. -/
def bases : List (List Char × Nat) :=
  [(['0', 'x'], 16), (['0', 'o'], 8), (['0', 'b'], 2)]

/-- Whether a text begins with a sign. -/
def isSigned : List Char → Bool
  | '+' :: _ | '-' :: _ => true
  | _ => false

/-- Whether a text has digits only, behind an optional sign, but too many zeros in front to be a
number. -/
def isPaddedNumber (cs : List Char) : Bool :=
  let ds := if isSigned cs then cs.drop 1 else cs
  1 < ds.length && ds.head? == some '0' && ds.all Char.isDigit

/-- The unsigned integer of so many bits that a text denotes. -/
def unsigned? (bits : Nat) (cs : List Char) : Option Nat :=
  let body := if cs.head? == some '+' then cs.drop 1 else cs
  let inBase (p : List Char × Nat) : Option (Option Nat) :=
    if p.1.isPrefixOf body then some (digits? p.2 (body.drop 2)) else none
  let n? :=
    match bases.findSome? inBase with
    | some n => n
    | none => if isSigned body || isPaddedNumber cs then none else digits? 10 body
  n?.filter (· < 1 <<< bits)

/-- The signed integer of so many bits that a text denotes. -/
def signed? (bits : Nat) (cs : List Char) : Option Int :=
  let bound := 1 <<< (bits - 1)
  let negative? (n? : Option Nat) : Option Int := (n?.filter (· ≤ bound)).map fun n => -(n : Int)
  let inBase (p : List Char × Nat) : Option (Option Int) :=
    if ('-' :: p.1).isPrefixOf cs then some (negative? (digits? p.2 (cs.drop 3))) else none
  match bases.findSome? inBase with
  | some i => i
  | none =>
    if isPaddedNumber cs then none
    else
      match cs with
      | '-' :: r => negative? (digits? 10 r)
      | '+' :: r => ((digits? 10 r).filter (· < bound)).map fun n => (n : Int)
      | r => ((digits? 10 r).filter (· < bound)).map fun n => (n : Int)

/-- The integer that a text denotes, in the narrowest type that holds it. -/
def integer? (cs : List Char) : Option Found :=
  ((unsigned? 64 cs).map fun n => Found.integer n) <|>
  ((signed? 64 cs).map Found.integer) <|>
  ((unsigned? 128 cs).map fun n => Found.wideInteger n) <|>
  ((signed? 128 cs).map Found.wideInteger)

/-- The float that a text denotes. Infinity and NaN have names of their own, and a number literal
counts if its value is finite. -/
def float? (cs : List Char) : Option Binary64 :=
  let s := String.ofList cs
  let body := if cs.head? == some '+' then cs.drop 1 else cs
  if cs.head? == some '+' && isSigned body then none
  else if [".inf", ".Inf", ".INF"].contains (String.ofList body) then
    some ⟨false, Binary64.infinityCode⟩
  else if ["-.inf", "-.Inf", "-.INF"].contains s then some ⟨true, Binary64.infinityCode⟩
  else if [".nan", ".NaN", ".NAN"].contains s then some Binary64.nan
  else (Literal.binary64? body).filter Binary64.isFinite

namespace Found

/-- What a plain scalar without a tag stands for. -/
def ofPlain (s : String) : Found :=
  let cs := s.toList
  if cs.isEmpty || isNull s then unit
  else
    match bool? s, integer? cs with
    | some b, _ => bool b
    | none, some i => i
    | none, none =>
      if isPaddedNumber cs then text s
      else
        match float? cs with
        | some x => float x
        | none => text s

/-- What a scalar with a tag of the standard types stands for, if it has such a tag. -/
def ofTagged? (tag : Tag) (s : String) : Option (Except Fault Found) :=
  let checked (found : Option Found) (expected : String) : Except Fault Found :=
    match found with
    | some f => .ok f
    | none => .error (.invalidValue (text s) expected)
  if tag = Tag.bool then some (checked ((bool? s).map bool) "a boolean")
  else if tag = Tag.int then some (checked (integer? s.toList) "an integer")
  else if tag = Tag.float then some (checked ((float? s.toList).map float) "a float")
  else if tag = Tag.null then some (checked (if isNull s then some unit else none) "null")
  else none

/-- What a scalar stands for. A tag of the document's own leaves a plain scalar what it is; any other
tag makes it text. -/
def ofScalar (tag : Option Tag) (s : String) (style : ScalarStyle) : Except Fault Found :=
  match tag with
  | none => .ok (if style = .plain then ofPlain s else text s)
  | some t =>
    match ofTagged? t s with
    | some r => r
    | none => .ok (if style = .plain && t.isOwn then ofPlain s else text s)

end Found
end ExchangeBench.Yaml
