import ExchangeBench.Yaml.Cursor
import ExchangeBench.Yaml.Token

/-!
# Scalars in a YAML text

The three ways to write a scalar: as a block with its own indentation, between quotation marks, and
plainly. Line breaks inside a scalar are folded: one break alone becomes a space, and further ones are
kept.
-/

namespace ExchangeBench.Yaml.Token

/-- The text of a scalar so far, and the blanks and breaks behind it that are not yet part of it, each
with its last character first. -/
structure Folding where
  text : List Char
  blanks : List Char
  leadingBreak : List Char
  trailingBreaks : List Char
  /-- Whether a line break came since the last character. -/
  brokeLine : Bool

namespace Folding

/-- No text yet. -/
def empty : Folding := ⟨[], [], [], [], false⟩

/-- Adds characters to the text. -/
def push (f : Folding) (cs : List Char) : Folding :=
  { f with text := cs.reverse ++ f.text }

/-- Adds characters to the text, given with the last one first. -/
def take (f : Folding) (cs : List Char) : Folding :=
  { f with text := cs ++ f.text }

/-- Makes the pending breaks part of the text, as they are. -/
def keepBreaks (f : Folding) : Folding :=
  { f.take (f.trailingBreaks ++ f.leadingBreak) with leadingBreak := [], trailingBreaks := [] }

/-- Makes the pending breaks part of the text, folded. -/
def foldBreaks (f : Folding) : Folding :=
  if f.leadingBreak = ['\n'] then
    { f with leadingBreak := if f.trailingBreaks.isEmpty then [' '] else [] }.keepBreaks
  else f.keepBreaks

/-- Makes everything pending part of the text. -/
def join (f : Folding) : Folding :=
  if f.brokeLine then { f.foldBreaks with blanks := [], brokeLine := false }
  else { f.take f.blanks with blanks := [] }

/-- Takes in a blank. Blanks at the beginning of a line are dropped. -/
def blank (f : Folding) (c : Char) : Folding :=
  if f.brokeLine then f else { f with blanks := c :: f.blanks }

/-- Takes in a line break. Blanks at the end of a line are dropped. -/
def lineBreak (f : Folding) (b : List Char) : Folding :=
  if f.brokeLine then { f with trailingBreaks := b ++ f.trailingBreaks }
  else { f with blanks := [], leadingBreak := b, brokeLine := true }

/-- The text. -/
def toText (f : Folding) : String := String.ofList f.text.reverse

end Folding

/-! ## Block scalars -/

/-- What becomes of the line breaks at the end of a block scalar. -/
inductive Chomping where
  | strip
  | clip
  | keep
  deriving DecidableEq

/-- The indentation of a block scalar is known, or its first line decides it. -/
structure BlockHeader where
  chomping : Chomping
  increment : Nat

/-- Reads the sign for the line breaks at the end, if there is one. -/
def chomping? : Scan (Option Chomping) := do
  if ← Scan.isAt 0 '+' then
    Scan.skip 1
    return some .keep
  else if ← Scan.isAt 0 '-' then
    Scan.skip 1
    return some .strip
  else return none

/-- Reads the digit for the indentation, if there is one. -/
def increment? (start : Mark) : Scan (Option Nat) := do
  match ← Scan.peek 0 with
  | some c =>
    if c == '0' then
      Scan.refuse "while scanning a block scalar" start "found an indentation indicator equal to 0"
    else if c.isDigit then
      Scan.skip 1
      return some (c.toNat - 48)
    else return none
  | none => return none

/-- Reads the sign and the digit of a block scalar, in either order. -/
def blockHeader (start : Mark) : Scan BlockHeader := do
  match ← chomping? with
  | some chomping => return ⟨chomping, (← increment? start).getD 0⟩
  | none =>
    match ← increment? start with
    | some increment => return ⟨(← chomping?).getD .clip, increment⟩
    | none => return ⟨.clip, 0⟩

/-- The empty lines before a line of a block scalar: their line breaks, the last one first, the place
behind that, and the deepest indentation seen. With an indentation of zero every space is indentation. -/
def emptyLines (indent : Nat) (start : Mark) :
    Nat → (breaks : List Char) → (stop : Mark) → (deepest : Nat) → Scan (List Char × Mark × Nat)
  | 0, breaks, stop, deepest => return (breaks, stop, deepest)
  | fuel + 1, breaks, stop, deepest => do
    let column := (← Scan.mark).column
    let k ← get
    let spaces := (k.rest.takeWhile (· == ' ')).length
    Scan.skip (if indent = 0 then spaces else min spaces (indent - column))
    let column := (← Scan.mark).column
    let deepest := max deepest column
    if (indent = 0 || column < indent) && (← Scan.isAt 0 '\t') then
      Scan.refuse "while scanning a block scalar" start
        "found a tab character where an indentation space is expected"
    else if (← Scan.peek 0).any isBreak then
      let b ← Scan.breakLine
      emptyLines indent start fuel (b ++ breaks) (← Scan.mark) deepest
    else return (breaks, stop, deepest)

/-- `emptyLines` from the current place on. -/
def skipEmptyLines (indent : Nat) (start : Mark) : Scan (List Char × Mark × Nat) := do
  emptyLines indent start ((← Scan.left) + 1) [] (← Scan.mark) 0

/-- The lines of a block scalar. `ledByBlank` says whether the line before began with a blank, which
keeps its break from being folded. -/
def blockLines (folded : Bool) (indent : Nat) (start : Mark) :
    Nat → (f : Folding) → (ledByBlank : Bool) → (stop : Mark) → Scan (Folding × Mark)
  | 0, f, _, stop => return (f, stop)
  | fuel + 1, f, ledByBlank, stop => do
    if (← Scan.mark).column ≠ indent || (← Scan.peek 0).isNone then return (f, stop)
    else
      let blank := (← Scan.peek 0).any isBlank
      let f :=
        if folded && f.leadingBreak = ['\n'] && !ledByBlank && !blank then f.foldBreaks
        else f.keepBreaks
      let line ← Scan.span (!isBreak ·)
      let leadingBreak ← Scan.breakLine
      let (trailingBreaks, stop, _) ← skipEmptyLines indent start
      blockLines folded indent start fuel { f.push line with leadingBreak, trailingBreaks } blank stop

/-- Reads a block scalar inside a collection of the given indentation, which is -1 outside of any. -/
def blockScalar (folded : Bool) (parentIndent : Int) : Scan Token := do
  let start ← Scan.mark
  Scan.skip 1
  let header ← blockHeader start
  Scan.restOfLine "while scanning a block scalar" start
  let given := if header.increment = 0 then 0 else (max 0 parentIndent).toNat + header.increment
  let (breaks, stop, deepest) ← skipEmptyLines given start
  let indent := if given = 0 then max (max deepest (parentIndent + 1).toNat) 1 else given
  let f := { Folding.empty with trailingBreaks := breaks }
  let (f, stop) ← blockLines folded indent start ((← Scan.left) + 1) f false stop
  let f := if header.chomping = .strip then f else f.push f.leadingBreak
  let f := if header.chomping = .keep then f.take f.trailingBreaks else f
  return ⟨.scalar f.toText (if folded then .folded else .literal), start, stop⟩

/-! ## Quoted scalars -/

/-- The character that a single letter stands for behind a backslash. -/
def escapedChar? (c : Char) : Option Char :=
  match c with
  | '0' => some (Char.ofNat 0)
  | 'a' => some (Char.ofNat 7)
  | 'b' => some (Char.ofNat 8)
  | 't' | '\t' => some '\t'
  | 'n' => some '\n'
  | 'v' => some (Char.ofNat 11)
  | 'f' => some (Char.ofNat 12)
  | 'r' => some '\r'
  | 'e' => some (Char.ofNat 27)
  | ' ' => some ' '
  | '"' => some '"'
  | '/' => some '/'
  | '\\' => some '\\'
  | 'N' => some (Char.ofNat 0x85)
  | '_' => some (Char.ofNat 0xa0)
  | 'L' => some (Char.ofNat 0x2028)
  | 'P' => some (Char.ofNat 0x2029)
  | _ => none

/-- The number of hexadecimal digits that a letter behind a backslash asks for. -/
def codeLength? (c : Char) : Option Nat :=
  match c with
  | 'x' => some 2
  | 'u' => some 4
  | 'U' => some 8
  | _ => none

/-- The number of the next so many hexadecimal digits. -/
def hexCode (n : Nat) : Scan (Option Nat) := do
  Scan.need n
  let cs := (← get).rest.take n
  match cs.mapM Text.hexValue? with
  | some ds => return if ds.length = n then some (ds.foldl (fun v d => 16 * v + d) 0) else none
  | none => return none

/-- Reads a backslash and what belongs to it. -/
def escapeSequence (start : Mark) : Scan Char := do
  let activity := "while parsing a quoted scalar"
  let next ← Scan.peek 1
  match next.bind escapedChar?, next.bind codeLength? with
  | some d, _ =>
    Scan.skip 2
    return d
  | none, some n =>
    Scan.skip 2
    match ← hexCode n with
    | none => Scan.refuse activity start "did not find expected hexadecimal number"
    | some v =>
      if (0xd800 ≤ v && v ≤ 0xdfff) || 0x10ffff < v then
        Scan.refuse activity start "found invalid Unicode character escape code"
      else
        Scan.skip n
        return Char.ofNat v
  | none, none => Scan.refuse activity start "found unknown escape character"

/-- The blanks and breaks between two words of a scalar. -/
def between : Nat → Folding → Scan Folding
  | 0, f => return f
  | fuel + 1, f => do
    match ← Scan.peek 0 with
    | some c =>
      if isBlank c then
        Scan.skip 1
        between fuel (f.blank c)
      else if isBreak c then
        let b ← Scan.breakLine
        between fuel (f.lineBreak b)
      else return f
    | none => return f

/-- The inside of a quoted scalar, up to its closing quotation mark. -/
def quotedText (single : Bool) (start : Mark) : Nat → Folding → Scan Folding
  | 0, f => return f
  | fuel + 1, f => do
    let activity := "while scanning a quoted scalar"
    Scan.need 4
    let quote := if single then '\'' else '"'
    -- Only the first character of a line can begin a document marker, so the check repeats safely.
    if (← Scan.isDocumentMarker '-') || (← Scan.isDocumentMarker '.') then
      Scan.refuse activity start "found unexpected document indicator"
    else
      match ← Scan.peek 0 with
      | none => Scan.refuse activity start "found unexpected end of stream"
      | some c =>
        if single && c == quote && (← Scan.isAt 1 quote) then
          Scan.skip 2
          quotedText single start fuel (f.push [quote])
        else if c == quote then return f
        else if !single && c == '\\' && (← Scan.peek 1).any isBreak then
          Scan.skip 1
          let _ ← Scan.breakLine
          let f ← between ((← Scan.left) + 1) { f with brokeLine := true }
          quotedText single start fuel f.join
        else if !single && c == '\\' then
          let d ← escapeSequence start
          quotedText single start fuel (f.push [d])
        else if isBlank c || isBreak c then
          let f ← between ((← Scan.left) + 1) f
          quotedText single start fuel f.join
        else
          Scan.skip 1
          quotedText single start fuel (f.push [c])

/-- Reads a scalar between quotation marks. -/
def quotedScalar (single : Bool) : Scan Token := do
  let start ← Scan.mark
  Scan.skip 1
  let f ← quotedText single start ((← Scan.left) + 1) Folding.empty
  Scan.skip 1
  return ⟨.scalar f.toText (if single then .singleQuoted else .doubleQuoted), start, ← Scan.mark⟩

/-! ## Plain scalars -/

/-- The blanks and breaks behind a word of a plain scalar. A tab may not stand in for indentation. -/
def plainBetween (indent : Int) (start : Mark) : Nat → Folding → Scan Folding
  | 0, f => return f
  | fuel + 1, f => do
    match ← Scan.peek 0 with
    | some c =>
      if isBlank c then
        if f.brokeLine && (← Scan.mark).column < indent && c == '\t' then
          Scan.refuse "while scanning a plain scalar" start
            "found a tab character that violates indentation"
        else
          Scan.skip 1
          plainBetween indent start fuel (f.blank c)
      else if isBreak c then
        let b ← Scan.breakLine
        plainBetween indent start fuel (f.lineBreak b)
      else return f
    | none => return f

/-- A word of a plain scalar, and the place behind it. Inside flow brackets the brackets and the comma
end it too. -/
def plainWord (inFlow : Bool) (start : Mark) : Nat → Folding → Mark → Scan (Folding × Mark)
  | 0, f, stop => return (f, stop)
  | fuel + 1, f, stop => do
    match ← Scan.peek 0 with
    | none => return (f, stop)
    | some c =>
      let next ← Scan.peek 1
      if isBlank c || isBreak c then return (f, stop)
      else if inFlow && c == ':' && next.any fun d => ",?[]\x7b\x7d".toList.contains d then
        Scan.refuse "while scanning a plain scalar" start "found unexpected ':'"
      else if (c == ':' && isBlankOrEnd next) || (inFlow && ",[]\x7b\x7d".toList.contains c) then
        return (f, stop)
      else
        Scan.skip 1
        plainWord inFlow start fuel (f.join.push [c]) (← Scan.mark)

/-- The words of a plain scalar. -/
def plainWords (inFlow : Bool) (indent : Int) (start : Mark) :
    Nat → Folding → Mark → Scan (Folding × Mark)
  | 0, f, stop => return (f, stop)
  | fuel + 1, f, stop => do
    Scan.need 4
    if (← Scan.isDocumentMarker '-') || (← Scan.isDocumentMarker '.') || (← Scan.isAt 0 '#') then
      return (f, stop)
    else
      let (f, stop) ← plainWord inFlow start ((← Scan.left) + 1) f stop
      if (← Scan.peek 0).any fun c => isBlank c || isBreak c then
        let f ← plainBetween indent start ((← Scan.left) + 1) f
        if !inFlow && (← Scan.mark).column < indent then return (f, stop)
        else plainWords inFlow indent start fuel f stop
      else return (f, stop)

/-- Reads a plain scalar inside a collection of the given indentation, and says whether it was followed
by a line break. -/
def plainScalar (inFlow : Bool) (parentIndent : Int) : Scan (Token × Bool) := do
  let start ← Scan.mark
  let (f, stop) ←
    plainWords inFlow (parentIndent + 1) start ((← Scan.left) + 1) Folding.empty start
  return (⟨.scalar f.toText .plain, start, stop⟩, f.brokeLine)

end ExchangeBench.Yaml.Token
