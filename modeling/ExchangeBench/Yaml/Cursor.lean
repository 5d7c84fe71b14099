import ExchangeBench.Text.Hexadecimal
import ExchangeBench.Yaml.Error

/-!
# Reading a YAML text

The classes of characters that matter in YAML, and a cursor that moves over a text and keeps its
mark. `Scan` is the monad of functions that move a cursor and may find the text malformed.

A text is taken in by pieces, and a piece is checked as a whole when the cursor first looks into it.
So a cursor has the characters in front of the first bad piece, and the fault that waits behind them.
-/

namespace ExchangeBench.Yaml

/-- Whether a text may hold a character at all. -/
def isAllowed (c : Char) : Bool :=
  let n := c.toNat
  n == 0x09 || n == 0x0a || n == 0x0d || (0x20 ≤ n && n ≤ 0x7e) || n == 0x85 ||
    (0xa0 ≤ n && n ≤ 0xd7ff) || (0xe000 ≤ n && n ≤ 0xfffd) || (0x10000 ≤ n && n ≤ 0x10ffff)

/-- Whether a character ends a line. -/
def isBreak (c : Char) : Bool :=
  c == '\r' || c == '\n' || c.toNat == 0x85 || c.toNat == 0x2028 || c.toNat == 0x2029

/-- Space or tab. -/
def isBlank (c : Char) : Bool :=
  c == ' ' || c == '\t'

/-- Whether a character may stand in the name of an anchor, a directive or a tag handle. -/
def isWord (c : Char) : Bool :=
  c.isAlphanum || c == '_' || c == '-'

/-- Whether a place in a text, which may be its end, ends a line. -/
def isBreakOrEnd : Option Char → Bool
  | none => true
  | some c => isBreak c

/-- Whether a place in a text, which may be its end, separates words. -/
def isBlankOrEnd : Option Char → Bool
  | none => true
  | some c => isBlank c || isBreak c

/-- The rest of a text, and its place. -/
structure Cursor where
  rest : List Char
  mark : Mark
  /-- The number of bytes of the whole text. -/
  size : Nat
  /-- What is wrong with the text behind the rest. -/
  fault : Option Malformed
  deriving DecidableEq

/-- The most bytes of a piece. A character that would be split goes to the next piece. -/
def pieceSize : Nat := 16384

/-- The first character that no text may hold, if there is one: how many characters stand before its
piece, and how many bytes before itself. `room` is what the current piece has left. -/
def firstFault? (room pieceStart index offset : Nat) : List Char → Option (Nat × Nat)
  | [] => none
  | c :: r =>
    let isNext := room < c.utf8Size
    let room := if isNext then pieceSize else room
    let pieceStart := if isNext then index else pieceStart
    if isAllowed c then
      firstFault? (room - c.utf8Size) pieceStart (index + 1) (offset + c.utf8Size) r
    else some (pieceStart, offset)

namespace Cursor

/-- The beginning of a text. -/
def start (cs : List Char) : Cursor :=
  match firstFault? pieceSize 0 0 0 cs with
  | none => ⟨cs, Mark.start, Text.byteCount cs, none⟩
  | some (n, offset) =>
    ⟨cs.take n, Mark.start, Text.byteCount cs,
      some ⟨"control characters are not allowed", Mark.start, offset, none⟩⟩

/-- A bound on the number of characters left. -/
def left (c : Cursor) : Nat := c.size - c.mark.index

/-- The character so many places ahead. -/
def peek (c : Cursor) (n : Nat) : Option Char := c.rest[n]?

/-- Moves over characters that do not end a line. -/
def skip (c : Cursor) (n : Nat) : Cursor :=
  { c with rest := c.rest.drop n, mark := c.mark.past (c.rest.take n) }

/-- Moves over a line break, and gives the character that it counts as: a line feed, unless it is one
of Unicode's separators. -/
def breakLine (c : Cursor) : List Char × Cursor :=
  match c.rest with
  | '\r' :: '\n' :: r => (['\n'], { c with rest := r, mark := c.mark.nextLine 2 })
  | b :: r =>
    if isBreak b then
      let counted := if b.toNat == 0x2028 || b.toNat == 0x2029 then b else '\n'
      ([counted], { c with rest := r, mark := c.mark.nextLine b.utf8Size })
    else ([], c)
  | [] => ([], c)

/-- Moves over the characters of a class, which holds no line breaks. -/
def span (p : Char → Bool) (c : Cursor) : List Char × Cursor :=
  let taken := c.rest.takeWhile p
  (taken, { c with rest := c.rest.drop taken.length, mark := c.mark.past taken })

end Cursor

/-- A function that moves a cursor and may find the text malformed. -/
abbrev Scan := StateT Cursor (Except Malformed)

namespace Scan

/-- The current place. -/
def mark : Scan Mark := do return (← get).mark

/-- Makes sure of so many characters, or of the end of the text. -/
def need (n : Nat) : Scan Unit := do
  let k ← get
  match k.fault with
  | some m => if (k.rest.take n).length < n then throw m
  | none => return

/-- The character so many places ahead. -/
def peek (n : Nat) : Scan (Option Char) := do
  need (n + 1)
  return (← get).peek n

/-- Whether the character so many places ahead is this one. -/
def isAt (n : Nat) (c : Char) : Scan Bool := do return (← peek n) == some c

/-- A bound on the number of characters left. -/
def left : Scan Nat := do return (← get).left

/-- Moves over characters that do not end a line. -/
def skip (n : Nat) : Scan Unit := modify (·.skip n)

/-- Moves over a line break, if there is one, and gives the character it counts as. -/
def breakLine : Scan (List Char) := do
  need 2
  modifyGet Cursor.breakLine

/-- Moves over the characters of a class. -/
def span (p : Char → Bool) : Scan (List Char) := do
  let taken ← modifyGet (Cursor.span p)
  need 1
  return taken

/-- Refuses the text at the current place, with what was being read. -/
def refuse {α : Type} (activity : String) (start : Mark) (problem : String) : Scan α := do
  throw (Malformed.during activity start (← mark) problem)

/-- Moves to the end of the line, over blanks and a comment, and refuses anything else there. -/
def restOfLine (activity : String) (start : Mark) : Scan Unit := do
  let _ ← span isBlank
  if ← isAt 0 '#' then
    let _ ← span (!isBreak ·)
  if isBreakOrEnd (← peek 0) then
    let _ ← breakLine
  else refuse activity start "did not find expected comment or line break"

/-- Whether a line begins here with a document marker of three of these characters. -/
def isDocumentMarker (c : Char) : Scan Bool := do
  let k ← get
  return k.mark.column == 0 && k.peek 0 == some c && k.peek 1 == some c && k.peek 2 == some c &&
    isBlankOrEnd (k.peek 3)

end Scan
end ExchangeBench.Yaml
