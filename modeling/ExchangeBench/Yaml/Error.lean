import ExchangeBench.Decimal.Layout
import ExchangeBench.Text.Shown
import ExchangeBench.Yaml.Mark

/-!
# YAML errors

What is wrong with a text that is not YAML (`Malformed`), or with a YAML text that does not have the
form asked for (`Fault`), and how each is worded.
-/

namespace ExchangeBench.Yaml

/-- What was being read when a text turned out to be no YAML, and where that began. -/
structure Reading where
  activity : String
  start : Mark
  deriving DecidableEq

/-- Why a text is no YAML. -/
structure Malformed where
  problem : String
  place : Mark
  /-- The number of bytes before a character that no text may hold. -/
  offset : Nat
  reading : Option Reading
  deriving DecidableEq

namespace Malformed

/-- A problem at a place. -/
def here (place : Mark) (problem : String) : Malformed :=
  ⟨problem, place, 0, none⟩

/-- A problem at a place, met while something was being read. -/
def during (activity : String) (start place : Mark) (problem : String) : Malformed :=
  ⟨problem, place, 0, some ⟨activity, start⟩⟩

/-- The wording of what was being read. It mentions a place of its own only. -/
def readingText (place : Mark) : Option Reading → String
  | none => ""
  | some r =>
    ", " ++ r.activity ++
      if r.start.line = place.line && r.start.column = place.column then "" else r.start.suffix

/-- The wording of a problem. -/
def text (m : Malformed) : String :=
  let position :=
    if m.place.isOrigin then
      if m.offset = 0 then "" else " at position " ++ Text.ofNat m.offset
    else m.place.suffix
  m.problem ++ position ++ readingText m.place m.reading

end Malformed

/-- What stands where something else was asked for. -/
inductive Found where
  | bool (b : Bool)
  | integer (i : Int)
  /-- An integer beyond 64 bits. -/
  | wideInteger (i : Int)
  | float (x : Binary64)
  | text (s : String)
  | unit
  | sequence
  | mapping
  deriving DecidableEq

namespace Found

/-- The decimal text of an integer. -/
def integerText (i : Int) : String :=
  (if i < 0 then "-" else "") ++ Text.ofNat i.natAbs

/-- The wording of what stands there. -/
def wording : Found → String
  | bool b => "boolean `" ++ (if b then "true" else "false") ++ "`"
  | integer i => "integer `" ++ integerText i ++ "`"
  | wideInteger i =>
    "integer `" ++ integerText i ++ "` as " ++ (if i < 0 then "i128" else "u128")
  | float x => "floating point `" ++ Layout.pointed.text x ++ "`"
  | text s => "string " ++ Text.shown s
  | unit => "unit value"
  | sequence => "sequence"
  | mapping => "map"

end Found

/-- In which way a value does not have the form asked for. -/
inductive Fault where
  | invalidType (found : Found) (expected : String)
  | invalidValue (found : Found) (expected : String)
  | unknownField (name : String) (expected : List String)
  | duplicateField (name : String)
  | missingField (name : String)
  | unknownVariant (name : String) (expected : List String)
  /-- No form of a choice between several fits. -/
  | noForm (choice : String)
  /-- A tag of its own where a choice between several forms is asked for. -/
  | taggedForm
  deriving DecidableEq

namespace Fault

/-- The names that are known, for a message. -/
def oneOf : List String → String
  | [] => "there are none"
  | [a] => "expected `" ++ a ++ "`"
  | [a, b] => "expected `" ++ a ++ "` or `" ++ b ++ "`"
  | as => "expected one of " ++ ", ".intercalate (as.map fun a => "`" ++ a ++ "`")

/-- The wording of a fault. -/
def text : Fault → String
  | invalidType found expected =>
    "invalid type: " ++ found.wording ++ ", expected " ++ expected
  | invalidValue found expected =>
    "invalid value: " ++ found.wording ++ ", expected " ++ expected
  | unknownField name expected => "unknown field `" ++ name ++ "`, " ++ oneOf expected
  | duplicateField name => "duplicate field `" ++ name ++ "`"
  | missingField name => "missing field `" ++ name ++ "`"
  | unknownVariant name expected => "unknown variant `" ++ name ++ "`, " ++ oneOf expected
  | noForm choice => "data did not match any variant of untagged enum " ++ choice
  | taggedForm => "untagged and internally tagged enums do not support enum input"

end Fault

/-- Where in a document a value stands: the way to it from the root, written like `a.b[1]`. -/
structure Place where
  path : String
  mark : Mark
  deriving DecidableEq

/-- Why a text does not give the value asked for. -/
inductive Error where
  | malformed (m : Malformed)
  /-- A fault, with the place of the value once it is known. -/
  | fault (f : Fault) (place : Option Place)
  | endOfStream
  | moreThanOneDocument
  | recursionLimit (mark : Mark)
  | repetitionLimit
  | unknownAnchor (mark : Mark)
  deriving DecidableEq

namespace Error

/-- Gives a fault the place of a value, unless it has a place already. -/
def located (path : String) (mark : Mark) : Error → Error
  | fault f none => fault f (some ⟨path, mark⟩)
  | e => e

/-- The wording of an error. -/
def text : Error → String
  | malformed m => m.text
  | fault f none => f.text
  | fault f (some p) => (if p.path = "." then "" else p.path ++ ": ") ++ f.text ++ p.mark.suffix
  | endOfStream => "EOF while parsing a value"
  | moreThanOneDocument =>
    "deserializing from YAML containing more than one document is not supported"
  | recursionLimit mark => "recursion limit exceeded" ++ mark.suffix
  | repetitionLimit => "repetition limit exceeded"
  | unknownAnchor mark => "unknown anchor" ++ mark.suffix

end Error
end ExchangeBench.Yaml
