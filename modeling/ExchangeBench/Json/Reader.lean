import ExchangeBench.Decimal.Literal
import ExchangeBench.Json
import ExchangeBench.Text.Hexadecimal

/-!
# Reading JSON

A reader for the documents that `Json.pretty` writes, and for any other JSON text. A number that is
written with digits only is a count, and any other number is the double nearest to it. An object has
its fields in the order of the text.

* `Json.Reader.value`: a value at the beginning of a text, and what follows it.
* `Json.read?`: the value that a whole text holds.
-/

namespace ExchangeBench.Json

namespace Reader

/-- Whether a character may stand between the parts of a document. -/
def isSpace (c : Char) : Bool :=
  c == ' ' || c == '\t' || c == '\n' || c == '\r'

/-- The text behind leading white space. -/
def skip (cs : List Char) : List Char :=
  cs.dropWhile isSpace

/-- The number of four hexadecimal digits, and what follows them. -/
def unit? : List Char → Option (Nat × List Char)
  | a :: b :: c :: d :: r => do
    let ds ← [a, b, c, d].mapM Text.hexValue?
    return (ds.foldl (fun n d => 16 * n + d) 0, r)
  | _ => none

/-- The character of a code point, which a surrogate is not. -/
def char? (n : Nat) : Option Char :=
  if n.isValidChar then some (Char.ofNat n) else none

/-- The character that four hexadecimal digits stand for, or four and another four behind an escape
where the first are a high surrogate. -/
def escapedUnit? (cs : List Char) : Option (Char × List Char) := do
  let (high, r) ← unit? cs
  if 0xd800 ≤ high && high < 0xdc00 then
    match r with
    | '\\' :: 'u' :: r =>
      let (low, r) ← unit? r
      if 0xdc00 ≤ low && low < 0xe000 then
        return (← char? (0x10000 + (high - 0xd800) * 0x400 + (low - 0xdc00)), r)
      else none
    | _ => none
  else return (← char? high, r)

/-- The character that an escape stands for, from the character behind the backslash on. -/
def escaped? : List Char → Option (Char × List Char)
  | '"' :: r => some ('"', r)
  | '\\' :: r => some ('\\', r)
  | '/' :: r => some ('/', r)
  | 'b' :: r => some ('\x08', r)
  | 'f' :: r => some ('\x0c', r)
  | 'n' :: r => some ('\n', r)
  | 'r' :: r => some ('\r', r)
  | 't' :: r => some ('\t', r)
  | 'u' :: r => escapedUnit? r
  | _ => none

/-- The characters up to a closing quotation mark, and what follows it. -/
def quoted? : Nat → List Char → Option (List Char × List Char)
  | 0, _ => none
  | _ + 1, [] => none
  | fuel + 1, c :: r =>
    if c = '"' then some ([], r)
    else if c = '\\' then do
      let (c, r) ← escaped? r
      let (cs, r) ← quoted? fuel r
      return (c :: cs, r)
    else if c.toNat < 0x20 then none
    else do
      let (cs, r) ← quoted? fuel r
      return (c :: cs, r)

/-- The text behind a fixed word. -/
def word? (w cs : List Char) : Option (List Char) :=
  if w.isPrefixOf cs then some (cs.drop w.length) else none

/-- Whether a character may occur in a number. -/
def isNumberChar (c : Char) : Bool :=
  c.isDigit || c == '+' || c == '-' || c == '.' || c == 'e' || c == 'E'

/-- Whether digits begin as those of a number do: not with a zero, unless it is the only one. -/
def startsAsNumber : List Char → Bool
  | '0' :: c :: _ => !c.isDigit
  | c :: _ => c.isDigit
  | [] => false

/-- Whether every point has digits behind it. -/
def pointsFollowed : List Char → Bool
  | '.' :: c :: r => c.isDigit && pointsFollowed (c :: r)
  | ['.'] => false
  | _ :: r => pointsFollowed r
  | [] => true

/-- The number that some characters denote. -/
def number? (cs : List Char) : Option Json :=
  let digits := match cs with
    | '-' :: r => r
    | cs => cs
  if !startsAsNumber digits || !pointsFollowed digits then none
  else if cs.all Char.isDigit then some (.count (Text.value cs))
  else
    match Literal.binary64? cs with
    | some x => if x.isFinite then some (.number x) else none
    | none => none

mutual

/-- A value at the beginning of a text, and what follows it. -/
def value : Nat → List Char → Option (Json × List Char)
  | 0, _ => none
  | fuel + 1, cs =>
    match skip cs with
    | '\x7b' :: r =>
      match skip r with
      | '\x7d' :: r => some (.object [], r)
      | r => do
        let (fs, r) ← fields fuel r
        return (.object fs, r)
    | '[' :: r =>
      match skip r with
      | ']' :: r => some (.list [], r)
      | r => do
        let (vs, r) ← items fuel r
        return (.list vs, r)
    | '"' :: r => do
      let (s, r) ← quoted? (r.length + 1) r
      return (.text (String.ofList s), r)
    | 'n' :: r => do return (.null, ← word? "ull".toList r)
    | 't' :: r => do return (.bool true, ← word? "rue".toList r)
    | 'f' :: r => do return (.bool false, ← word? "alse".toList r)
    | cs => do return (← number? (cs.takeWhile isNumberChar), cs.dropWhile isNumberChar)

/-- The items of a list, from the first on, and what follows the list. -/
def items : Nat → List Char → Option (List Json × List Char)
  | 0, _ => none
  | fuel + 1, cs => do
    let (v, r) ← value fuel cs
    match skip r with
    | ',' :: r =>
      let (vs, r) ← items fuel r
      return (v :: vs, r)
    | ']' :: r => return ([v], r)
    | _ => none

/-- The fields of an object, from the first on, and what follows the object. -/
def fields : Nat → List Char → Option (List (String × Json) × List Char)
  | 0, _ => none
  | fuel + 1, cs =>
    match skip cs with
    | '"' :: r => do
      let (k, r) ← quoted? (r.length + 1) r
      match skip r with
      | ':' :: r =>
        let (v, r) ← value fuel r
        match skip r with
        | ',' :: r =>
          let (fs, r) ← fields fuel r
          return ((String.ofList k, v) :: fs, r)
        | '\x7d' :: r => return ([(String.ofList k, v)], r)
        | _ => none
      | _ => none
    | _ => none

end

end Reader

/-- The value that a text holds. -/
def read? (s : String) : Option Json :=
  match Reader.value (2 * s.toList.length + 2) s.toList with
  | some (v, r) => if (Reader.skip r).isEmpty then some v else none
  | none => none

end ExchangeBench.Json
