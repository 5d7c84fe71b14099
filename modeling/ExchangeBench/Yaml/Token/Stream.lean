import ExchangeBench.Yaml.Token.Scalar
import ExchangeBench.Yaml.Token.Tag

/-!
# The tokens of a YAML text

Tokens are found one after another, but some become known late: only the colon behind it shows that a
scalar was a key, and then the tokens that open a mapping and a key belong in front of it. So the
lexer keeps the places where a key may have begun (`SimpleKey`), one per level of brackets. A place
expires at the end of its line, or 1024 bytes further on.

`TokenStream.ofText` gives the tokens of a text. Where the text is malformed it gives the tokens that
were settled before that, those in front of any place that may still turn out to be a key, and the
problem.
-/

namespace ExchangeBench.Yaml

/-- A place where a key may have begun. -/
structure SimpleKey where
  /-- How many tokens stand before it. -/
  position : Nat
  mark : Mark
  /-- Whether it has to be a key, because it stands at the indentation of a block mapping. -/
  required : Bool
  deriving DecidableEq

/-- The tokens of a text, and the problem that ends them, if there is one. -/
structure TokenStream where
  tokens : List Token
  problem : Option Malformed
  deriving DecidableEq

/-- A lexer at work. -/
structure Lexer where
  cursor : Cursor
  /-- The tokens found so far, the last one first. -/
  tokens : List Token
  /-- How many tokens were found. -/
  count : Nat
  /-- How many of the tokens are settled. -/
  settled : Nat
  /-- The place of a possible key at each level of brackets, the innermost first. -/
  keys : List (Option SimpleKey)
  /-- The indentation of the innermost block collection, -1 outside of any. -/
  indent : Int
  /-- The indentations around it. -/
  outerIndents : List Int
  /-- Whether a key may begin here. -/
  keyAllowed : Bool
  ended : Bool

namespace Lexer

/-- A function that drives a lexer and may find the text malformed. -/
abbrev Lex := StateT Lexer (Except Malformed)

/-- Before the first token of a text. -/
def start (cs : List Char) : Lexer :=
  { cursor := Cursor.start cs
    tokens := [⟨.streamStart, Mark.start, Mark.start⟩]
    count := 1
    settled := 1
    keys := [none]
    indent := -1
    outerIndents := []
    keyAllowed := true
    ended := false }

/-- Whether the lexer is inside flow brackets. -/
def inFlow (l : Lexer) : Bool := 1 < l.keys.length

/-- Runs a function on the text. -/
def scan {α : Type} (f : Scan α) : Lex α := do
  let l ← get
  let (a, cursor) ← f.run l.cursor
  set { l with cursor }
  return a

/-- Adds a token. -/
def emit (t : Token) : Lex Unit :=
  modify fun l => { l with tokens := t :: l.tokens, count := l.count + 1 }

/-- Puts a token in front of those behind a position. -/
def insert (position : Nat) (t : Token) : Lex Unit :=
  modify fun l =>
    let behind := l.count - position
    { l with
      tokens := l.tokens.take behind ++ t :: l.tokens.drop behind
      count := l.count + 1 }

/-- Adds a token at the current place that has no extent. -/
def emitHere (kind : TokenKind) : Lex Unit := do
  let m := (← get).cursor.mark
  emit ⟨kind, m, m⟩

/-- Adds a token of so many characters. -/
def emitChars (kind : TokenKind) (n : Nat) : Lex Unit := do
  let first := (← get).cursor.mark
  scan (Scan.skip n)
  emit ⟨kind, first, (← get).cursor.mark⟩

/-- Says whether a key may begin next. -/
def allowKey (b : Bool) : Lex Unit :=
  modify fun l => { l with keyAllowed := b }

/-- The problem of a place where there had to be a key. -/
def missingColon {α : Type} (k : SimpleKey) (here : Mark) : Lex α :=
  throw (Malformed.during "while scanning a simple key" k.mark here "could not find expected ':'")

/-- Gives up the possible key at the innermost level. -/
def dropKey : Lex Unit := do
  let l ← get
  match l.keys with
  | some k :: r =>
    if k.required then missingColon k l.cursor.mark else set { l with keys := none :: r }
  | _ => return

/-- Notes that a key may begin here, if it may. -/
def noteKey : Lex Unit := do
  let l ← get
  if l.keyAllowed then
    dropKey
    modify fun l => { l with
      keys := some {
        position := l.count
        mark := l.cursor.mark
        required := !l.inFlow && l.indent == l.cursor.mark.column } :: l.keys.drop 1 }

/-- Whether a possible key has expired. -/
def isStale (here : Mark) (k : SimpleKey) : Bool :=
  k.mark.line < here.line || k.mark.index + 1024 < here.index

/-- Gives up the possible keys that have expired. -/
def dropStaleKeys : Lex Unit := do
  let l ← get
  let here := l.cursor.mark
  match l.keys.reverse.findSome? (Option.filter fun k => isStale here k && k.required) with
  | some k => missingColon k here
  | none => set { l with keys := l.keys.map (Option.filter fun k => !isStale here k) }

/-- Opens a block collection at a column, if it is deeper than the one around it. The token that opens
it goes to a position, or to the end. -/
def roll (column : Nat) (position : Option Nat) (kind : TokenKind) (place : Mark) : Lex Unit := do
  let l ← get
  if !l.inFlow && l.indent < column then
    set { l with indent := column, outerIndents := l.indent :: l.outerIndents }
    match position with
    | some n => insert n ⟨kind, place, place⟩
    | none => emit ⟨kind, place, place⟩

/-- Closes the block collections that are deeper than a column. -/
def unroll (column : Int) : List Int → Lex Unit
  | [] => return
  | outer :: outers => do
    let l ← get
    if !l.inFlow && column < l.indent then
      emitHere .blockEnd
      modify fun l => { l with indent := outer, outerIndents := outers }
      unroll column outers

/-- `unroll` for the collections that are open. -/
def unrollTo (column : Int) : Lex Unit := do
  unroll column (← get).outerIndents

/-- Moves over blanks, comments and line breaks to the next token. A byte order mark may begin a line.
In a block, a tab may not stand where a key may begin. -/
def skipToToken : Nat → Lex Unit
  | 0 => return
  | fuel + 1 => do
    let l ← get
    let first ← scan (Scan.peek 0)
    if l.cursor.mark.column = 0 && first.any (·.toNat == 0xfeff) then scan (Scan.skip 1)
    let tabs := l.inFlow || !l.keyAllowed
    let _ ← scan (Scan.span fun c => c == ' ' || (tabs && c == '\t'))
    if ← scan (Scan.isAt 0 '#') then
      let _ ← scan (Scan.span (!isBreak ·))
    if (← scan (Scan.peek 0)).any isBreak then
      let _ ← scan Scan.breakLine
      unless l.inFlow do allowKey true
      skipToToken fuel

/-- The end of the text. -/
def streamEnd : Lex Unit := do
  modify fun l =>
    if l.cursor.mark.column = 0 then l
    else { l with cursor.mark := { l.cursor.mark with line := l.cursor.mark.line + 1, column := 0 } }
  unrollTo (-1)
  dropKey
  allowKey false
  emitHere .streamEnd
  modify fun l => { l with ended := true }

/-- A directive. -/
def directive : Lex Unit := do
  unrollTo (-1)
  dropKey
  allowKey false
  emit (← scan Token.directive)

/-- The marker of a document's beginning or end. -/
def documentMarker (kind : TokenKind) : Lex Unit := do
  unrollTo (-1)
  dropKey
  allowKey false
  emitChars kind 3

/-- An opening bracket. -/
def openFlow (kind : TokenKind) : Lex Unit := do
  noteKey
  modify fun l => { l with keys := none :: l.keys }
  allowKey true
  emitChars kind 1

/-- A closing bracket. -/
def closeFlow (kind : TokenKind) : Lex Unit := do
  dropKey
  modify fun l => { l with keys := if l.inFlow then l.keys.drop 1 else l.keys }
  allowKey false
  emitChars kind 1

/-- A comma inside brackets. -/
def flowEntry : Lex Unit := do
  dropKey
  allowKey true
  emitChars .flowEntry 1

/-- A dash in front of an item. -/
def blockEntry : Lex Unit := do
  let l ← get
  if !l.inFlow then
    if !l.keyAllowed then
      throw (Malformed.here l.cursor.mark
        "block sequence entries are not allowed in this context")
    roll l.cursor.mark.column none .blockSequenceStart l.cursor.mark
  dropKey
  allowKey true
  emitChars .blockEntry 1

/-- A question mark in front of a key. -/
def complexKey : Lex Unit := do
  let l ← get
  if !l.inFlow then
    if !l.keyAllowed then
      throw (Malformed.here l.cursor.mark "mapping keys are not allowed in this context")
    roll l.cursor.mark.column none .blockMappingStart l.cursor.mark
  dropKey
  allowKey (!l.inFlow)
  emitChars .key 1

/-- A colon behind a key. -/
def mappingValue : Lex Unit := do
  let l ← get
  match l.keys with
  | some k :: r =>
    set { l with keys := none :: r }
    insert k.position ⟨.key, k.mark, k.mark⟩
    roll k.mark.column (some k.position) .blockMappingStart k.mark
    allowKey false
  | _ =>
    if !l.inFlow then
      if !l.keyAllowed then
        throw (Malformed.here l.cursor.mark "mapping values are not allowed in this context")
      roll l.cursor.mark.column none .blockMappingStart l.cursor.mark
    allowKey (!l.inFlow)
  emitChars .value 1

/-- A token that may begin a key. -/
def keyLike (f : Scan Token) : Lex Unit := do
  noteKey
  allowKey false
  emit (← scan f)

/-- A block scalar. -/
def blockScalar (folded : Bool) : Lex Unit := do
  dropKey
  allowKey true
  emit (← scan (Token.blockScalar folded (← get).indent))

/-- A plain scalar. Behind one that ended with its line a key may begin. -/
def plainScalar : Lex Unit := do
  noteKey
  allowKey false
  let l ← get
  let (t, brokeLine) ← scan (Token.plainScalar l.inFlow l.indent)
  if brokeLine then allowKey true
  emit t

/-- Whether a plain scalar may begin with a character, given the one behind it. -/
def beginsPlain (inFlow : Bool) (c : Char) (next : Option Char) : Bool :=
  !(isBlank c || isBreak c || "-?:,[]\x7b\x7d#&*!|>'\"%@\x60".toList.contains c) ||
    (c == '-' && !next.any isBlank) ||
    (!inFlow && (c == '?' || c == ':') && !isBlankOrEnd next)

/-- The token that begins with a character. -/
def tokenAt (c : Char) (next : Option Char) : Lex Unit := do
  let l ← get
  let column := l.cursor.mark.column
  if column = 0 && c == '%' then directive
  else if ← scan (Scan.isDocumentMarker '-') then documentMarker .documentStart
  else if ← scan (Scan.isDocumentMarker '.') then documentMarker .documentEnd
  else if c == '[' then openFlow .flowSequenceStart
  else if c == '\x7b' then openFlow .flowMappingStart
  else if c == ']' then closeFlow .flowSequenceEnd
  else if c == '\x7d' then closeFlow .flowMappingEnd
  else if c == ',' then flowEntry
  else if c == '-' && isBlankOrEnd next then blockEntry
  else if c == '?' && (l.inFlow || isBlankOrEnd next) then complexKey
  else if c == ':' && (l.inFlow || isBlankOrEnd next) then mappingValue
  else if c == '*' then keyLike (Token.anchorOrAlias true)
  else if c == '&' then keyLike (Token.anchorOrAlias false)
  else if c == '!' then keyLike (Token.tagged l.inFlow)
  else if c == '|' && !l.inFlow then blockScalar false
  else if c == '>' && !l.inFlow then blockScalar true
  else if c == '\'' then keyLike (Token.quotedScalar true)
  else if c == '"' then keyLike (Token.quotedScalar false)
  else if beginsPlain l.inFlow c next then plainScalar
  else
    throw (Malformed.during "while scanning for the next token" l.cursor.mark l.cursor.mark
      "found character that cannot start any token")

/-- Finds the next token, and those that go with it. -/
def next : Lex Unit := do
  skipToToken ((← get).cursor.left + 1)
  dropStaleKeys
  unrollTo (← get).cursor.mark.column
  scan (Scan.need 4)
  match (← get).cursor.peek 0 with
  | none => streamEnd
  | some c => tokenAt c ((← get).cursor.peek 1)

/-- Settles the tokens in front of the first place that may still be a key. -/
def settle : Lex Unit := do
  dropStaleKeys
  modify fun l => { l with
    settled := l.keys.foldl (fun n k => match k with
      | some k => min n k.position
      | none => n) l.count }

/-- Finds tokens until the text ends or is malformed. -/
def run : Nat → Lexer → TokenStream
  | 0, l => ⟨l.tokens.reverse, none⟩
  | fuel + 1, l =>
    if l.ended then ⟨l.tokens.reverse, none⟩
    else
      match (next *> settle : Lex Unit).run l with
      | .ok ((), l) => run fuel l
      | .error m => ⟨(l.tokens.drop (l.count - l.settled)).reverse, some m⟩

end Lexer

namespace TokenStream

/-- The tokens of a text. -/
def ofText (s : String) : TokenStream :=
  Lexer.run (s.toList.length + 2) (Lexer.start s.toList)

end TokenStream
end ExchangeBench.Yaml
