import ExchangeBench.Decimal.Literal
import ExchangeBench.Log
import ExchangeBench.Log.Pattern
import ExchangeBench.Text.Blank
import ExchangeBench.Text.Bytes
import ExchangeBench.Text.Positive

/-!
# Rules of the log

A rule admits the events down to a level. It is written `target[span{field=value}]=level`: the target
is how the event's own target begins, the span is what the program was in the middle of, and the field
is a detail that the event has. Every part may be left out, and a level may stand alone.

The parts are found in the text without the blanks around it, but they are cut out of the text as it
stands, at the same byte positions.

* `Rule.parse`: a rule from its text.
* `Rule.admits`: whether a rule lets an event through, if it applies to it.
* `Rule.isNarrower`: which of two rules goes first.
-/

namespace ExchangeBench.Log

/-- The number that a word denotes: decimal digits, which a plus sign may precede. -/
def number? (word : List Char) : Option Nat :=
  let digits := Text.unsigned word
  if !digits.isEmpty && digits.all Char.isDigit then some (Text.value digits) else none

/-- The words for the levels of a rule. -/
def words : List (String × Nat) :=
  [("off", 0), ("error", 1), ("warn", 2), ("info", 3), ("debug", 4), ("trace", 5)]

/-- The rank of a level that is written as a number, or as a word in any case. -/
def rankOf? (word : List Char) : Option Nat :=
  ((number? word).filter (· ≤ Level.trace.rank)) <|>
    words.lookup (String.ofList (word.map Char.toLower))

/-- What a rule asks of the details of an event: one under a name, perhaps with a certain value. -/
structure FieldRule where
  name : String
  value : Option String
  deriving DecidableEq

/-- The events of a part of the program are written down to a level; rank 0 admits none. -/
structure Rule where
  /-- How the target of an event begins. -/
  target : String
  /-- What the program has to be in the middle of. -/
  span : Option String
  field : Option FieldRule
  rank : Nat
  deriving DecidableEq

namespace Rule

/-- Why a rule cannot be read. -/
inductive Fault where
  | form
  | level
  /-- The value of a field is neither a truth value nor a number nor a pattern. -/
  | value
  /-- A part would begin or end inside a character, at this byte position. -/
  | split (index : Nat)
  deriving DecidableEq

/-- The wording of a fault. -/
def Fault.message : Fault → String
  | form => "invalid filter directive"
  | level =>
    "error parsing level filter: expected one of \"off\", \"error\", \"warn\", \"info\", " ++
      "\"debug\", \"trace\", or a number 0-5"
  | value => "invalid field filter: error building NFA"
  | split index => "byte index " ++ Text.ofNat index ++ " is not a char boundary"

/-! ## Parts -/

/-- The text from a byte position on. -/
def cutFrom (text : List Char) (start : Nat) : Except Fault (List Char) :=
  match Text.splitBytes? start text with
  | some (_, r) => .ok r
  | none => .error (.split start)

/-- The text between two byte positions. -/
def cut (text : List Char) (start stop : Nat) : Except Fault (List Char) := do
  match Text.splitBytes? (stop - start) (← cutFrom text start) with
  | some (part, _) => return part
  | none => throw (.split stop)

/-- A rule for every event. -/
def wide : Rule := ⟨"", none, none, Level.trace.rank⟩

/-- Adds a level, which begins at a position. Where none is written every event is admitted. -/
def withLevel (text : List Char) (start : Nat) (r : Rule) : Except Fault Rule := do
  let word ← cutFrom text start
  if word.isEmpty then return r
  else
    match rankOf? word with
    | some rank => return { r with rank }
    | none => throw .level

/-- Adds what stands behind the brackets at a position. -/
def behindBrackets (text : List Char) (start : Nat) (r : Rule) : List Char → Except Fault Rule
  | [] => .ok r
  | c :: _ => if c == '=' then withLevel text (start + 1) r else .error .form

/-- The parts of a text between equals signs. -/
def sides (text : List Char) : List String :=
  (String.ofList text).splitOn "="

/-- Whether a text can be asked of a value. -/
def isValue (text : String) : Bool :=
  text == "true" || text == "false" || (Literal.read? text.toList).isSome ||
    Pattern.isWellFormed text.toList

/-- What a rule asks of a field. Behind a second equals sign nothing counts. -/
def fieldRule (text : List Char) : Except Fault FieldRule :=
  match sides text with
  | name :: value :: _ => if isValue value then .ok ⟨name, some value⟩ else .error .value
  | [name] => .ok ⟨name, none⟩
  | [] => .error .form

/-- Adds the field behind a brace, and what follows it. -/
def withField (text : List Char) (start : Nat) (r : Rule) (rest : List Char) :
    Except Fault Rule := do
  let inside := rest.takeWhile (· ≠ '\x7d')
  let stop := start + Text.byteCount inside
  match rest.dropWhile (· ≠ '\x7d') with
  | [] => throw .form
  | _ :: after =>
    let part ← cut text start stop
    if part.isEmpty then throw .form
    let field ← fieldRule part
    match after with
    | ']' :: after => behindBrackets text (stop + 2) { r with field := some field } after
    | _ => throw .form

/-- Adds the span behind a bracket, and what follows it. -/
def withSpan (text : List Char) (start : Nat) (r : Rule) (rest : List Char) :
    Except Fault Rule := do
  let inside := rest.takeWhile fun c => c ≠ ']' && c ≠ '\x7b'
  let stop := start + Text.byteCount inside
  match rest.drop inside.length with
  | [] => throw .form
  | c :: after =>
    let name := String.ofList (← cut text start stop)
    if c == ']' then behindBrackets text (stop + 1) { r with span := some name } after
    else
      let span := if name.isEmpty then none else some name
      withField text (stop + 1) { r with span } after

/-- Reads a rule from its target or its level on. -/
def fromTarget (text rest : List Char) : Except Fault Rule := do
  let inside := rest.takeWhile fun c => c ≠ '=' && c ≠ '['
  let stop := Text.byteCount inside
  match rest.drop inside.length with
  | [] =>
    match rankOf? text with
    | some rank => return { wide with rank }
    | none => return { wide with target := String.ofList text }
  | c :: after =>
    let r := { wide with target := String.ofList (← cut text 0 stop) }
    if c == '=' then withLevel text (stop + 1) r else withSpan text (stop + 1) r after

/-- Whether a rule may begin with a character, a bracket apart. -/
def isStart (c : Char) : Bool :=
  Text.isAlphanumeric c || c == '-' || c == ':' || c == '_'

/-- Reads a rule. -/
def parse (text : List Char) : Except Fault Rule :=
  match Text.trim text with
  | [] => .error .form
  | c :: r =>
    if c == '[' then withSpan text 1 wide r
    else if isStart c then fromTarget text (c :: r)
    else .error .form

/-! ## Events -/

/-- Whether a rule can be decided by an event alone: it asks for no span, since nothing is told from
the middle of one, and for no value. -/
def isPlain (r : Rule) : Bool :=
  r.span.isNone && !(r.field.bind FieldRule.value).isSome

/-- Whether a rule applies to an event. -/
def applies (r : Rule) (e : Event) : Bool :=
  r.isPlain && r.target.toList.isPrefixOf e.target.toList &&
    r.field.all fun f => e.fields.contains f.name

/-- Whether a rule lets an event through, if it applies to it. -/
def admits (r : Rule) (e : Event) : Bool :=
  e.level.rank ≤ r.rank

/-- The name of the field that a rule asks for, if it asks for one. -/
def fieldName (r : Rule) : Option String :=
  r.field.map FieldRule.name

/-- Whether a name goes before another, where one that is missing goes last. -/
def nameBefore : Option String → Option String → Bool
  | some a, some b => b < a
  | some _, none => true
  | none, _ => false

/-- Whether a rule is narrower than another rule for the same event: it has the longer target, or else
a field, or else the field with the later name. -/
def isNarrower (a b : Rule) : Bool :=
  b.target.length < a.target.length ||
    (a.target.length == b.target.length && nameBefore a.fieldName b.fieldName)

end Rule
end ExchangeBench.Log
