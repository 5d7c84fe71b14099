import ExchangeBench.Json
import ExchangeBench.Text.Hexadecimal

/-!
# The grammar of JSON

The texts that RFC 8259 allows, and what each of them denotes. It is a relation between texts and values,
without a reader: a list is any list of items with commas and white space between them, a character may be
escaped in any way, and a number may be written with an exponent or without. A number that is written with
digits only denotes a count, any other number the double nearest to it, and one that no finite double is
near to denotes nothing. Keys may occur more than once, and fields keep the order of the text.

- `Grammar.Whole`, `Grammar.Fraction`, `Grammar.Exponent`, `Grammar.Number`: the parts of a number, and
  numbers.
- `Grammar.Chars`, `Grammar.Quoted`: the characters between quotation marks.
- `Grammar.Part`, `Grammar.Denotes`: values with and without white space, items, and fields.
- `Json.DenotedBy`: the texts of a document.
-/

namespace ExchangeBench.Json

namespace Grammar

/-- White space: blanks, tabs and the ends of lines. -/
def Blank (cs : List Char) : Prop :=
  ∀ c ∈ cs, c = ' ' ∨ c = '\t' ∨ c = '\n' ∨ c = '\r'

/-- Decimal digits, at least one. -/
def Digits (ds : List Char) : Prop :=
  ds ≠ [] ∧ ∀ c ∈ ds, c.isDigit = true

/-! ## Numbers -/

/-- A minus, or nothing. -/
inductive Minus : List Char → Bool → Prop
  | absent : Minus [] false
  | present : Minus ['-'] true

/-- The digits of a whole number, which begin with a zero only if that is all of them. -/
structure Whole (ds : List Char) : Prop where
  digits : Digits ds
  unpadded : ∀ r, ds = '0' :: r → r = []

/-- A point with digits behind it, or nothing. -/
inductive Fraction : List Char → List Char → Prop
  | absent : Fraction [] []
  | present {ds : List Char} (hds : Digits ds) : Fraction ('.' :: ds) ds

/-- The sign of an exponent, which may be left out; whether it is a minus. -/
inductive ExponentSign : List Char → Bool → Prop
  | absent : ExponentSign [] false
  | plus : ExponentSign ['+'] false
  | minus : ExponentSign ['-'] true

/-- An exponent of ten, or nothing. -/
inductive Exponent : List Char → Int → Prop
  | absent : Exponent [] 0
  | present {mark : Char} {sign ds : List Char} {negative : Bool} (hmark : mark = 'e' ∨ mark = 'E')
      (hsign : ExponentSign sign negative) (hds : Digits ds) :
      Exponent (mark :: sign ++ ds) (if negative then -(Text.value ds : Int) else Text.value ds)

/-- The number of a whole part and the digits behind the point, times a power of ten. -/
def ratio (ds part : List Char) (e : Int) : Rat :=
  Binary64.scaled (Text.value (ds ++ part)) 10 (e - part.length)

/-- What a number denotes: a count if there are digits only, and the nearest double otherwise. -/
inductive Number : List Char → Json → Prop
  | count {ds : List Char} (hds : Whole ds) : Number ds (.count (Text.value ds))
  | double {sign ds fs part es : List Char} {negative : Bool} {e : Int} (hsign : Minus sign negative)
      (hds : Whole ds) (hfs : Fraction fs part) (hes : Exponent es e) (hmore : sign ++ fs ++ es ≠ [])
      (hfinite : Binary64.nearestCode (ratio ds part e) < Binary64.infinityCode) :
      Number (sign ++ ds ++ fs ++ es) (.number ⟨negative, Binary64.nearestCode (ratio ds part e)⟩)

/-! ## Strings -/

/-- The character that a backslash and one other character stand for. -/
def shortEscape? : Char → Option Char
  | '"' => some '"'
  | '\\' => some '\\'
  | '/' => some '/'
  | 'b' => some '\x08'
  | 'f' => some '\x0c'
  | 'n' => some '\n'
  | 'r' => some '\r'
  | 't' => some '\t'
  | _ => none

/-- Four hexadecimal digits and their number. -/
inductive CodeUnit : List Char → Nat → Prop
  | of {a b c d : Char} {i j k l : Nat} (ha : Text.hexValue? a = some i) (hb : Text.hexValue? b = some j)
      (hc : Text.hexValue? c = some k) (hd : Text.hexValue? d = some l) :
      CodeUnit [a, b, c, d] (16 * (16 * (16 * i + j) + k) + l)

/-- The characters that a text between quotation marks stands for. Characters below the blank have to be
escaped, and one beyond 16 bits is escaped as two surrogates, which stand for nothing on their own. -/
inductive Chars : List Char → List Char → Prop
  | nil : Chars [] []
  | plain {c : Char} {cs s : List Char} (hvisible : 0x20 ≤ c.toNat) (hquote : c ≠ '"')
      (hbackslash : c ≠ '\\') (h : Chars cs s) : Chars (c :: cs) (c :: s)
  | short {e c : Char} {cs s : List Char} (he : shortEscape? e = some c) (h : Chars cs s) :
      Chars ('\\' :: e :: cs) (c :: s)
  | unit {us cs s : List Char} {n : Nat} (hus : CodeUnit us n) (hn : n.isValidChar) (h : Chars cs s) :
      Chars ('\\' :: 'u' :: us ++ cs) (Char.ofNat n :: s)
  | pair {us ls cs s : List Char} {high low : Nat} (hus : CodeUnit us (0xd800 + high))
      (hhigh : high < 0x400) (hls : CodeUnit ls (0xdc00 + low)) (hlow : low < 0x400) (h : Chars cs s) :
      Chars ('\\' :: 'u' :: us ++ '\\' :: 'u' :: ls ++ cs)
        (Char.ofNat (0x10000 + high * 0x400 + low) :: s)

/-- The string that a text with its quotation marks denotes. -/
inductive Quoted : List Char → String → Prop
  | of {cs s : List Char} (h : Chars cs s) : Quoted ('"' :: cs ++ ['"']) (String.ofList s)

/-! ## Values -/

/-- What a part of a text can be. -/
inductive Part where
  /-- A value without white space around it. -/
  | value (v : Json)
  /-- A value with white space on either side, or none. -/
  | element (v : Json)
  /-- The items of a list, at least one. -/
  | items (vs : List Json)
  /-- The fields of an object, at least one. -/
  | fields (fs : List (String × Json))

/-- **What a text denotes.** -/
inductive Denotes : List Char → Part → Prop
  | null : Denotes "null".toList (.value .null)
  | yes : Denotes "true".toList (.value (.bool true))
  | no : Denotes "false".toList (.value (.bool false))
  | number {cs : List Char} {v : Json} (h : Number cs v) : Denotes cs (.value v)
  | text {cs : List Char} {s : String} (h : Quoted cs s) : Denotes cs (.value (.text s))
  | emptyList {ws : List Char} (hws : Blank ws) : Denotes ('[' :: ws ++ [']']) (.value (.list []))
  | list {cs : List Char} {vs : List Json} (h : Denotes cs (.items vs)) :
      Denotes ('[' :: cs ++ [']']) (.value (.list vs))
  | emptyObject {ws : List Char} (hws : Blank ws) :
      Denotes ('\x7b' :: ws ++ ['\x7d']) (.value (.object []))
  | object {cs : List Char} {fs : List (String × Json)} (h : Denotes cs (.fields fs)) :
      Denotes ('\x7b' :: cs ++ ['\x7d']) (.value (.object fs))
  | element {ws cs ws' : List Char} {v : Json} (hws : Blank ws) (h : Denotes cs (.value v))
      (hws' : Blank ws') : Denotes (ws ++ cs ++ ws') (.element v)
  | item {cs : List Char} {v : Json} (h : Denotes cs (.element v)) : Denotes cs (.items [v])
  | items {cs ds : List Char} {v : Json} {vs : List Json} (h : Denotes cs (.element v))
      (hs : Denotes ds (.items vs)) : Denotes (cs ++ ',' :: ds) (.items (v :: vs))
  | field {ws ks ws' cs : List Char} {k : String} {v : Json} (hws : Blank ws) (hk : Quoted ks k)
      (hws' : Blank ws') (h : Denotes cs (.element v)) :
      Denotes (ws ++ ks ++ ws' ++ ':' :: cs) (.fields [(k, v)])
  | fields {ws ks ws' cs ds : List Char} {k : String} {v : Json} {fs : List (String × Json)}
      (hws : Blank ws) (hk : Quoted ks k) (hws' : Blank ws') (h : Denotes cs (.element v))
      (hs : Denotes ds (.fields fs)) :
      Denotes (ws ++ ks ++ ws' ++ ':' :: cs ++ ',' :: ds) (.fields ((k, v) :: fs))

end Grammar

/-- A text is one of a document: it denotes the document, with white space around it or none. -/
def DenotedBy (s : String) (v : Json) : Prop :=
  Grammar.Denotes s.toList (.element v)

end ExchangeBench.Json
