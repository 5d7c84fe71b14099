import ExchangeBench.Count
import ExchangeBench.Decimal.Layout
import ExchangeBench.Text.Hexadecimal

/-!
# JSON documents

The values that a report is made of, and their text. `Json.record` makes an object with ascending
keys, each once; `Json.pretty` writes a document on several lines, two spaces to a level.

* `Text.keyed`: values under text keys in ascending order, each key once. A value that is put under a
  key replaces the one that was there.
* `Text.quoted`: text between quotation marks. Only what has to be escaped is: the quotation mark, the
  backslash, and the characters below the space. Five of the latter have a short escape; the others are
  written with four lower-case hexadecimal digits.
-/

namespace ExchangeBench

namespace Text

variable {β : Type}

/-- Puts a value under a key. -/
def insertKey (k : String) (v : β) : List (String × β) → List (String × β)
  | [] => [(k, v)]
  | (k', v') :: r =>
    if k = k' then (k, v) :: r
    else if k < k' then (k, v) :: (k', v') :: r
    else (k', v') :: insertKey k v r

/-- Puts values under their keys, one after another. -/
def keyed (fields : List (String × β)) : List (String × β) :=
  fields.foldl (fun fs f => insertKey f.1 f.2 fs) []

/-- One character as it stands between quotation marks. -/
def escape (c : Char) : List Char :=
  if c = '"' then ['\\', '"']
  else if c = '\\' then ['\\', '\\']
  else if c = '\n' then ['\\', 'n']
  else if c = '\r' then ['\\', 'r']
  else if c = '\t' then ['\\', 't']
  else if c.toNat = 8 then ['\\', 'b']
  else if c.toNat = 12 then ['\\', 'f']
  else if c.toNat < 32 then ['\\', 'u', '0', '0', hexDigit (c.toNat / 16), hexDigit (c.toNat % 16)]
  else [c]

/-- A text between quotation marks. -/
def quoted (s : String) : List Char :=
  '"' :: s.toList.flatMap escape ++ ['"']

end Text

/-- A JSON value. Numbers are counts or finite doubles. -/
inductive Json where
  | null
  | bool (b : Bool)
  | count (n : Nat)
  | number (x : Binary64)
  | text (s : String)
  | list (items : List Json)
  | object (fields : List (String × Json))

namespace Json

/-- A double, or null for one that is not finite. -/
def ofFloat (x : Float) : Json :=
  let b := Binary64.ofFloat x
  if b.isFinite then .number b else .null

/-- A double, or null where there is none. -/
def ofFloat? : Option Float → Json
  | some x => ofFloat x
  | none => .null

/-- An object with some fields. Of fields with one key the last counts. -/
def record (fields : List (String × Json)) : Json :=
  .object (Text.keyed fields)

/-- The start of a line at a level. -/
def newline (level : Nat) : List Char :=
  '\n' :: List.replicate (2 * level) ' '

mutual

/-- The text of a value that stands at a level. -/
def write (level : Nat) : Json → List Char
  | null => "null".toList
  | bool b => (if b then "true" else "false").toList
  | count n => Text.decimal n
  | number x => Layout.report.write x
  | text s => Text.quoted s
  | list [] => ['[', ']']
  | list (v :: vs) =>
    '[' :: newline (level + 1) ++ write (level + 1) v ++ writeItems (level + 1) vs ++
      newline level ++ [']']
  | object [] => ['\x7b', '\x7d']
  | object (f :: fs) =>
    '\x7b' :: newline (level + 1) ++ writeField (level + 1) f ++ writeFields (level + 1) fs ++
      newline level ++ ['\x7d']

/-- The text of the items behind the first. -/
def writeItems (level : Nat) : List Json → List Char
  | [] => []
  | v :: vs => ',' :: newline level ++ write level v ++ writeItems level vs

/-- The text of a field. -/
def writeField (level : Nat) : String × Json → List Char
  | (k, v) => Text.quoted k ++ ':' :: ' ' :: write level v

/-- The text of the fields behind the first. -/
def writeFields (level : Nat) : List (String × Json) → List Char
  | [] => []
  | f :: fs => ',' :: newline level ++ writeField level f ++ writeFields level fs

end

/-- The text of a document, ending in a newline. -/
def pretty (v : Json) : String :=
  String.ofList (v.write 0 ++ ['\n'])

end Json
end ExchangeBench
