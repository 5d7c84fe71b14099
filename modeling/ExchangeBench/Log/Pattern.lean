import ExchangeBench.Text.Alphanumeric
import ExchangeBench.Text.Hexadecimal

/-!
# Patterns

A rule of the log may ask that the value of a field matches a pattern, which is a regular expression:
alternatives, groups, classes in brackets, escapes, and the repetitions `*`, `+` and `?`. It can have
no counted repetition, since a brace ends the field, no look-around, no reference to a group, and no
word boundary.

`Pattern.isWellFormed` says whether a text is a pattern. Every function below reads one part of it and
gives what follows.
-/

namespace ExchangeBench.Log.Pattern

/-! ## Escapes -/

/-- What an escape stands for. -/
inductive Escaped where
  /-- A character, by its code point. -/
  | char (code : Nat)
  /-- A class of characters. -/
  | charClass
  /-- A place in the text, such as its beginning. -/
  | place

/-- The letters that stand for a control character, and its code point. -/
def controls : List (Char × Nat) :=
  [('a', 7), ('f', 12), ('t', 9), ('n', 10), ('r', 13), ('v', 11)]

/-- The character of so many hexadecimal digits. -/
def coded? (n : Nat) (cs : List Char) : Option (Escaped × List Char) := do
  let ds ← (cs.take n).mapM Text.hexValue?
  let code := ds.foldl (fun v d => 16 * v + d) 0
  if ds.length = n && code.isValidChar then some (.char code, cs.drop n) else none

/-- What stands behind a backslash. -/
def escaped? : List Char → Option (Escaped × List Char)
  | [] => none
  | c :: r =>
    match controls.lookup c with
    | some code => some (.char code, r)
    | none =>
      if c == 'x' then coded? 2 r
      else if c == 'u' then coded? 4 r
      else if c == 'U' then coded? 8 r
      else if "dDsSwW".toList.contains c then some (.charClass, r)
      else if c == 'A' || c == 'z' then some (.place, r)
      else if c == 'p' || c == 'P' then
        -- A category of Unicode by its first letter.
        if (r.head?.map Char.toLower).any "clmnpsz".toList.contains then some (.charClass, r.drop 1)
        else none
      else if c.toNat < 128 && !c.isAlphanum && c != '<' && c != '>' then some (.char c.toNat, r)
      else none

/-! ## Classes -/

/-- The classes that have a name between colons. -/
def named : List String :=
  ["alnum", "alpha", "ascii", "blank", "cntrl", "digit", "graph", "lower", "print", "punct", "space",
   "upper", "word", "xdigit"]

/-- What follows the name of a class, if there is one behind the bracket. -/
def namedClass? : List Char → Option (List Char)
  | ':' :: r =>
    let r := if r.head? == some '^' then r.drop 1 else r
    let name := r.takeWhile (· ≠ ':')
    match r.dropWhile (· ≠ ':') with
    | ':' :: ']' :: r => if named.contains (String.ofList name) then some r else none
    | _ => none
  | _ => none

/-- What follows an opening bracket: its sign of negation, dashes, and a closing bracket that stands
for itself. -/
def classStart (cs : List Char) : List Char :=
  let cs := if cs.head? == some '^' then cs.drop 1 else cs
  let r := cs.dropWhile (· == '-')
  if r.length = cs.length && r.head? == some ']' then r.drop 1 else r

/-- A character or a class inside brackets. A character has its code point. -/
def classItem? : List Char → Option (Option Nat × List Char)
  | [] => none
  | c :: r =>
    if c == '\\' then
      match escaped? r with
      | some (.char code, r) => some (some code, r)
      | some (.charClass, r) => some (none, r)
      | _ => none
    else some (some c.toNat, r)

/-- A character, a class, or a range of characters inside brackets. -/
def classRange? (cs : List Char) : Option (List Char) := do
  let (low, r) ← classItem? cs
  match r with
  | '-' :: d :: r =>
    if d == ']' || d == '-' then some ('-' :: d :: r)
    else
      match low, ← classItem? (d :: r) with
      | some low, (some high, r) => if low ≤ high then some r else none
      | _, _ => none
  | r => some r

/-- What follows a class, inside so many brackets. -/
def classRest? : (fuel depth : Nat) → List Char → Option (List Char)
  | 0, _, _ | _, 0, _ | _, _, [] => none
  | fuel + 1, depth + 1, c :: r =>
    if c == '[' then
      match namedClass? r with
      | some r => classRest? fuel (depth + 1) r
      | none => classRest? fuel (depth + 2) (classStart r)
    else if c == ']' then if depth = 0 then some r else classRest? fuel depth r
    else if (c == '&' || c == '-' || c == '~') && r.head? == some c then
      -- Two classes are combined.
      classRest? fuel (depth + 1) (r.drop 1)
    else (classRange? (c :: r)).bind (classRest? fuel (depth + 1))

/-! ## Groups -/

/-- Whether a text can be the name of a group. -/
def isGroupName : List Char → Bool
  | [] => false
  | c :: r =>
    (c == '_' || (Text.isAlphanumeric c && !c.isDigit)) &&
      r.all fun d => "_.[]".toList.contains d || Text.isAlphanumeric d

/-- What follows the name of a group. -/
def afterName? (cs : List Char) : Option (List Char) :=
  match cs.dropWhile (· ≠ '>') with
  | _ :: r => if isGroupName (cs.takeWhile (· ≠ '>')) then some r else none
  | [] => none

/-- Whether a text sets flags, each at most once, behind a dash if they are unset. -/
def areFlags (cs : List Char) : Bool :=
  cs.all "imsUuRx-".toList.contains && cs.Nodup && cs.getLast? ≠ some '-'

/-- What follows the beginning of a group, and whether it opens one: flags may stand alone. -/
def groupStart? : List Char → Option (Bool × List Char)
  | '?' :: 'P' :: '<' :: r => (afterName? r).map fun r => (true, r)
  | '?' :: '<' :: r => (afterName? r).map fun r => (true, r)
  | '?' :: r =>
    let flags := r.takeWhile fun c => c ≠ ':' && c ≠ ')'
    match r.drop flags.length with
    | ':' :: r => if areFlags flags then some (true, r) else none
    | ')' :: r => if areFlags flags && !flags.isEmpty then some (false, r) else none
    | _ => none
  | r => some (true, r)

/-! ## Patterns -/

/-- Whether a text continues a pattern inside so many groups. Only behind an operand may a repetition
follow. -/
def continues : (fuel depth : Nat) → (operand : Bool) → List Char → Bool
  | 0, _, _, _ => false
  | _, depth, _, [] => depth == 0
  | fuel + 1, depth, operand, c :: r =>
    if c == '(' then
      match groupStart? r with
      | some (opens, r) => continues fuel (if opens then depth + 1 else depth) false r
      | none => false
    else if c == ')' then 0 < depth && continues fuel (depth - 1) true r
    else if c == '|' then continues fuel depth false r
    else if c == '*' || c == '+' || c == '?' then
      operand && continues fuel depth true (if r.head? == some '?' then r.drop 1 else r)
    else if c == '\x7b' then false
    else if c == '[' then
      match classRest? (r.length + 1) 1 (classStart r) with
      | some r => continues fuel depth true r
      | none => false
    else if c == '\\' then
      match escaped? r with
      | some (_, r) => continues fuel depth true r
      | none => false
    else continues fuel depth true r

/-- Whether a text is a pattern. -/
def isWellFormed (cs : List Char) : Bool :=
  continues (cs.length + 1) 0 false cs

end ExchangeBench.Log.Pattern
