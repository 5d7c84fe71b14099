import ExchangeBench.Yaml.Cursor
import ExchangeBench.Yaml.Tag
import ExchangeBench.Yaml.Token

/-!
# Anchors, tags and directives in a YAML text

Anchors and aliases name a node, tags give it a type, and directives stand before a document.
-/

namespace ExchangeBench.Yaml.Token

/-- Reads the name of an anchor or an alias. -/
def anchorOrAlias (isAlias : Bool) : Scan Token := do
  let start ← Scan.mark
  Scan.skip 1
  let name ← Scan.span isWord
  let next ← Scan.peek 0
  if name.isEmpty || !(isBlankOrEnd next || next.any "?:,]\x7d%@\x60".toList.contains) then
    Scan.refuse (if isAlias then "while scanning an alias" else "while scanning an anchor") start
      "did not find expected alphabetic or numeric character"
  else
    let name := String.ofList name
    return ⟨if isAlias then .alias name else .anchor name, start, ← Scan.mark⟩

/-! ## Tags -/

/-- Whether a character may stand in a tag. Comma and square brackets may do so only where the tag is
given in full. -/
def isUriChar (full : Bool) (c : Char) : Bool :=
  isWord c || ";/?:@&=+$.!~*'()%".toList.contains c || (full && ",[]".toList.contains c)

/-- The number of bytes of a character whose first byte this is; zero for a byte that begins none. -/
def sequenceLength (b : Nat) : Nat :=
  if b < 0x80 then 1
  else if b / 32 = 6 then 2
  else if b / 16 = 14 then 3
  else if b / 8 = 30 then 4
  else 0

/-- One byte written as a percent sign and two digits. -/
def uriByte (activity : String) (start : Mark) : Scan Nat := do
  Scan.need 3
  let k ← get
  match k.peek 0, (k.peek 1).bind Text.hexValue?, (k.peek 2).bind Text.hexValue? with
  | some '%', some a, some b =>
    Scan.skip 3
    return 16 * a + b
  | _, _, _ => Scan.refuse activity start "did not find URI escaped octet"

/-- The bytes of a character behind the first one. -/
def uriBytes (activity : String) (start : Mark) : Nat → Scan (List Nat)
  | 0 => return []
  | n + 1 => do
    let before ← get
    let b ← uriByte activity start
    if b / 64 = 2 then return b :: (← uriBytes activity start n)
    else
      set before
      Scan.refuse activity start "found an incorrect trailing UTF-8 octet"

/-- The bytes of one character, written with percent signs. Only their form is checked, so they may
denote no character. -/
def uriEscape (activity : String) (start : Mark) : Scan (List UInt8) := do
  let before ← get
  let first ← uriByte activity start
  let n := sequenceLength first
  if n = 0 then
    set before
    Scan.refuse activity start "found an incorrect leading UTF-8 octet"
  else
    return (first :: (← uriBytes activity start (n - 1))).map UInt8.ofNat

/-- The bytes of a tag. -/
def uriChars (full : Bool) (activity : String) (start : Mark) : Nat → Scan (List UInt8)
  | 0 => return []
  | fuel + 1 => do
    match ← Scan.peek 0 with
    | some c =>
      if !isUriChar full c then return []
      else if c == '%' then
        let bytes ← uriEscape activity start
        return bytes ++ (← uriChars full activity start fuel)
      else
        Scan.skip 1
        return String.utf8EncodeChar c ++ (← uriChars full activity start fuel)
    | none => return []

/-- Reads a tag, whose beginning may have been read as a handle already. -/
def tagUri (full directive : Bool) (head : List Char) (start : Mark) : Scan (List UInt8) := do
  let activity := if directive then "while parsing a %TAG directive" else "while parsing a tag"
  let bytes ← uriChars full activity start ((← Scan.left) + 1)
  if head.isEmpty && bytes.isEmpty then
    Scan.refuse activity start "did not find expected tag URI"
  else return Text.bytes (head.drop 1) ++ bytes

/-- Reads a tag handle: an exclamation mark, and a word with another one behind it. -/
def tagHandle (directive : Bool) (start : Mark) : Scan (List Char) := do
  let activity := if directive then "while scanning a tag directive" else "while scanning a tag"
  if !(← Scan.isAt 0 '!') then Scan.refuse activity start "did not find expected '!'"
  else
    Scan.skip 1
    let word ← Scan.span isWord
    if ← Scan.isAt 0 '!' then
      Scan.skip 1
      return '!' :: word ++ ['!']
    else if directive && !word.isEmpty then
      Scan.refuse "while parsing a tag directive" start "did not find expected '!'"
    else return '!' :: word

/-- Reads the handle of a tag and what stands behind it. -/
def tagParts (start : Mark) : Scan (List Char × List UInt8) := do
  if ← Scan.isAt 1 '<' then
    Scan.skip 2
    let rest ← tagUri true false [] start
    if ← Scan.isAt 0 '>' then
      Scan.skip 1
      return ([], rest)
    else Scan.refuse "while scanning a tag" start "did not find the expected '>'"
  else
    let handle ← tagHandle false start
    if 1 < handle.length && handle.getLast? == some '!' then
      return (handle, ← tagUri false false [] start)
    else
      let rest ← tagUri false false handle start
      -- A lone exclamation mark is a tag without a handle.
      return if (Tag.cut rest).isEmpty then ([], [Tag.ownMark]) else (['!'], rest)

/-- Reads a tag. -/
def tagged (inFlow : Bool) : Scan Token := do
  let start ← Scan.mark
  let (handle, rest) ← tagParts start
  let next ← Scan.peek 0
  if isBlankOrEnd next || (inFlow && next == some ',') then
    return ⟨.tag (String.ofList handle) rest, start, ← Scan.mark⟩
  else
    Scan.refuse "while scanning a tag" start "did not find expected whitespace or line break"

/-! ## Directives -/

/-- Reads a part of a version. -/
def versionNumber (start : Mark) : Scan Nat := do
  let activity := "while scanning a %YAML directive"
  let digits := (← get).rest.takeWhile Char.isDigit
  Scan.need (digits.length + 1)
  if 9 < digits.length then
    Scan.skip 9
    Scan.refuse activity start "found extremely long version number"
  else if digits.isEmpty then Scan.refuse activity start "did not find expected version number"
  else
    Scan.skip digits.length
    return Text.value digits

/-- Reads the version behind `%YAML`. -/
def versionDirective (start : Mark) : Scan TokenKind := do
  let _ ← Scan.span isBlank
  let major ← versionNumber start
  if ← Scan.isAt 0 '.' then
    Scan.skip 1
    return .versionDirective major (← versionNumber start)
  else
    Scan.refuse "while scanning a %YAML directive" start "did not find expected digit or '.' character"

/-- Reads the handle and the tag behind `%TAG`. -/
def tagDirective (start : Mark) : Scan TokenKind := do
  let activity := "while scanning a %TAG directive"
  let _ ← Scan.span isBlank
  let handle ← tagHandle true start
  if !(← Scan.peek 0).any isBlank then
    Scan.refuse activity start "did not find expected whitespace"
  else
    let _ ← Scan.span isBlank
    let meaning ← tagUri true true [] start
    if isBlankOrEnd (← Scan.peek 0) then
      return .tagDirective (String.ofList handle) meaning
    else Scan.refuse activity start "did not find expected whitespace or line break"

/-- Reads the name of a directive. -/
def directiveName (start : Mark) : Scan (List Char) := do
  let activity := "while scanning a directive"
  let name ← Scan.span isWord
  if name.isEmpty then Scan.refuse activity start "could not find expected directive name"
  else if isBlankOrEnd (← Scan.peek 0) then return name
  else Scan.refuse activity start "found unexpected non-alphabetical character"

/-- Reads a directive and the rest of its line. -/
def directive : Scan Token := do
  let activity := "while scanning a directive"
  let start ← Scan.mark
  Scan.skip 1
  let name ← directiveName start
  let kind ←
    if name = "YAML".toList then versionDirective start
    else if name = "TAG".toList then tagDirective start
    else Scan.refuse activity start "found unknown directive name"
  let stop ← Scan.mark
  Scan.restOfLine activity start
  return ⟨kind, start, stop⟩

end ExchangeBench.Yaml.Token
