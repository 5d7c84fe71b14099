import ExchangeBench.Yaml.Token.Stream

/-!
# The events of a YAML text

The structure of a text as a sequence of events: documents and collections begin and end, scalars and
aliases stand alone. What may come next is decided by an expectation (`Expect`) and one token; a
collection leaves behind on a stack what is expected after it. Nodes that are left out, such as the
value of a key without one, appear as empty scalars.

`EventStream.ofTokens` gives the events of a stream of tokens, up to the first problem.
-/

namespace ExchangeBench.Yaml

/-- The sorts of events. -/
inductive EventKind where
  | streamStart
  | streamEnd
  | documentStart
  | documentEnd
  | alias (name : String)
  | scalar (anchor : Option String) (tag : Option Tag) (text : String) (style : ScalarStyle)
  | sequenceStart (anchor : Option String) (tag : Option Tag)
  | sequenceEnd
  | mappingStart (anchor : Option String) (tag : Option Tag)
  | mappingEnd
  deriving DecidableEq

/-- An event and where it begins. -/
structure Event where
  kind : EventKind
  mark : Mark
  deriving DecidableEq

/-- The events of a text, and the problem that ends them, if there is one. -/
structure EventStream where
  events : List Event
  problem : Option Malformed
  deriving DecidableEq

/-- What may come next. -/
inductive Expect where
  | streamStart
  /-- The first document, which may begin without a marker. -/
  | firstDocument
  | nextDocument
  | documentContent
  | documentEnd
  | blockNode
  | blockSequenceFirst
  | blockSequenceEntry
  /-- An entry of a sequence that is not deeper than the key it belongs to. -/
  | indentlessEntry
  | blockMappingFirst
  | blockMappingKey
  | blockMappingValue
  | flowSequenceFirst
  | flowSequenceEntry
  | flowPairKey
  | flowPairValue
  | flowPairEnd
  | flowMappingFirst
  | flowMappingKey
  | flowMappingValue
  /-- The value of a key without a colon. -/
  | flowMappingNoValue
  | nothing
  deriving DecidableEq

/-- The recognition of a text's structure under way. -/
structure Recognizer where
  tokens : List Token
  /-- What ends the tokens. -/
  problem : Option Malformed
  expect : Expect
  /-- What is expected behind the collections that are open. -/
  pending : List Expect
  /-- Where the collections that are open began. -/
  opened : List Mark
  /-- The tag handles of the document and what they stand for. -/
  handles : List (String × List UInt8)

namespace Recognizer

/-- A step of the recognition, which may find the text malformed. -/
abbrev Step := StateT Recognizer (Except Malformed)

/-- The next token. Where there is none, the text was malformed before. -/
def peek : Step Token := do
  let r ← get
  match r.tokens with
  | t :: _ => return t
  | [] => throw (r.problem.getD (Malformed.here Mark.start "unexpected end of tokens"))

/-- Moves over a token. -/
def skip : Step Unit :=
  modify fun r => { r with tokens := r.tokens.drop 1 }

/-- Moves over a token and looks at the one behind it. -/
def advance : Step Token := do
  skip
  peek

/-- Says what is expected next. -/
def proceed (e : Expect) : Step Unit :=
  modify fun r => { r with expect := e }

/-- Says what is expected after the next node. -/
def later (e : Expect) : Step Unit :=
  modify fun r => { r with pending := e :: r.pending }

/-- Expects what was left behind for now. -/
def resume : Step Unit :=
  modify fun r => { r with expect := r.pending.headD .nothing, pending := r.pending.drop 1 }

/-- Notes where a collection began. -/
def openAt (m : Mark) : Step Unit :=
  modify fun r => { r with opened := m :: r.opened }

/-- Ends a collection at the current token. -/
def close (kind : EventKind) (t : Token) : Step Event := do
  resume
  modify fun r => { r with opened := r.opened.drop 1 }
  skip
  return ⟨kind, t.start⟩

/-- An empty scalar in the place of a node that is left out. -/
def emptyScalar (m : Mark) : Step Event :=
  return ⟨.scalar none none "" .plain, m⟩

/-- Refuses a token inside the innermost collection. -/
def refuseIn (activity problem : String) (t : Token) : Step Event := do
  throw (Malformed.during activity ((← get).opened.headD Mark.start) t.start problem)

/-! ## Documents -/

/-- The tag handles that every document has. -/
def defaultHandles : List (String × List UInt8) :=
  [("!", Text.bytes "!".toList), ("!!", Text.bytes "tag:yaml.org,2002:".toList)]

/-- The directives in front of a document. -/
def directives : Nat → (versioned : Bool) → List (String × List UInt8) → Step Unit
  | 0, _, _ => return
  | fuel + 1, versioned, handles => do
    let t ← peek
    match t.kind with
    | .versionDirective major minor =>
      if versioned then throw (Malformed.here t.start "found duplicate %YAML directive")
      else if major ≠ 1 || (minor ≠ 1 && minor ≠ 2) then
        throw (Malformed.here t.start "found incompatible YAML document")
      else
        skip
        directives fuel true handles
    | .tagDirective handle meaning =>
      if (handles.lookup handle).isSome then
        throw (Malformed.here t.start "found duplicate %TAG directive")
      else
        skip
        directives fuel versioned (handles ++ [(handle, meaning)])
    | _ =>
      modify fun r => { r with handles := handles ++ defaultHandles }

/-- The directives in front of a document that is about to begin. -/
def allDirectives : Step Unit := do
  directives ((← get).tokens.length + 1) false []

/-- Moves over further markers of a document's end. -/
def skipDocumentEnds : Nat → Step Unit
  | 0 => return
  | fuel + 1 => do
    if (← peek).kind = .documentEnd then
      skip
      skipDocumentEnds fuel

/-- Whether a token stands between documents. -/
def isDocumentBoundary : TokenKind → Bool
  | .versionDirective .. | .tagDirective .. | .documentStart | .streamEnd => true
  | _ => false

/-- The beginning of a document, or the end of the text. -/
def documentStart (mayBeImplicit : Bool) : Step Event := do
  if !mayBeImplicit then skipDocumentEnds ((← get).tokens.length + 1)
  let t ← peek
  if mayBeImplicit && !isDocumentBoundary t.kind then
    allDirectives
    later .documentEnd
    proceed .blockNode
    return ⟨.documentStart, t.start⟩
  else if t.kind = .streamEnd then
    proceed .nothing
    skip
    return ⟨.streamEnd, t.start⟩
  else
    allDirectives
    let u ← peek
    if u.kind ≠ .documentStart then
      throw (Malformed.here u.start "did not find expected <document start>")
    else
      later .documentEnd
      proceed .documentContent
      skip
      return ⟨.documentStart, t.start⟩

/-- The end of a document, with or without a marker. -/
def documentEnd : Step Event := do
  let t ← peek
  if t.kind = .documentEnd then skip
  modify fun r => { r with handles := [] }
  proceed .nextDocument
  return ⟨.documentEnd, t.start⟩

/-! ## Nodes -/

/-- The properties in front of a node: where they begin, its anchor, and its tag with its place. -/
structure Properties where
  start : Mark
  anchor : Option String
  tag : Option (String × List UInt8 × Mark)

/-- Reads an anchor and a tag in either order, each at most once. -/
def properties : Step Properties := do
  let t ← peek
  match t.kind with
  | .anchor name =>
    let u ← advance
    match u.kind with
    | .tag handle rest =>
      skip
      return ⟨t.start, some name, some (handle, rest, u.start)⟩
    | _ => return ⟨t.start, some name, none⟩
  | .tag handle rest =>
    let u ← advance
    match u.kind with
    | .anchor name =>
      skip
      return ⟨t.start, some name, some (handle, rest, t.start)⟩
    | _ => return ⟨t.start, none, some (handle, rest, t.start)⟩
  | _ => return ⟨t.start, none, none⟩

/-- A tag in full. -/
def resolveTag (start : Mark) : Option (String × List UInt8 × Mark) → Step (Option Tag)
  | none => return none
  | some (handle, rest, place) => do
    if handle.isEmpty then return some (Tag.ofParts [] rest)
    else
      match (← get).handles.lookup handle with
      | some meaning => return some (Tag.ofParts meaning rest)
      | none =>
        throw (Malformed.during "while parsing a node" start place "found undefined tag handle")

/-- A node: an alias, a scalar, or the beginning of a collection. -/
def node (block indentlessSequence : Bool) : Step Event := do
  let t ← peek
  match t.kind with
  | .alias name =>
    resume
    skip
    return ⟨.alias name, t.start⟩
  | _ =>
    let p ← properties
    let t ← peek
    let tag ← resolveTag p.start p.tag
    match t.kind with
    | .blockEntry =>
      if indentlessSequence then
        proceed .indentlessEntry
        return ⟨.sequenceStart p.anchor tag, p.start⟩
      else absent p tag t
    | .scalar text style =>
      resume
      skip
      return ⟨.scalar p.anchor tag text style, p.start⟩
    | .flowSequenceStart =>
      proceed .flowSequenceFirst
      return ⟨.sequenceStart p.anchor tag, p.start⟩
    | .flowMappingStart =>
      proceed .flowMappingFirst
      return ⟨.mappingStart p.anchor tag, p.start⟩
    | .blockSequenceStart =>
      if block then
        proceed .blockSequenceFirst
        return ⟨.sequenceStart p.anchor tag, p.start⟩
      else absent p tag t
    | .blockMappingStart =>
      if block then
        proceed .blockMappingFirst
        return ⟨.mappingStart p.anchor tag, p.start⟩
      else absent p tag t
    | _ => absent p tag t
where
  /-- Properties alone stand for an empty scalar. -/
  absent (p : Properties) (tag : Option Tag) (t : Token) : Step Event := do
    if p.anchor.isSome || tag.isSome then
      resume
      return ⟨.scalar p.anchor tag "" .plain, p.start⟩
    else
      throw (Malformed.during
        (if block then "while parsing a block node" else "while parsing a flow node")
        p.start t.start "did not find expected node content")

/-- A node, or an empty scalar where one of these tokens shows that it is left out. -/
def nodeUnless (stops : List TokenKind) (block indentlessSequence : Bool) (after : Expect)
    (place : Mark) : Step Event := do
  if stops.contains (← peek).kind then
    proceed after
    emptyScalar place
  else
    later after
    node block indentlessSequence

/-! ## Block collections -/

/-- Moves into a collection. -/
def enter : Step Unit := do
  openAt (← peek).start
  skip

/-- An entry of a block sequence, or its end. -/
def blockSequenceEntry : Step Event := do
  let t ← peek
  match t.kind with
  | .blockEntry =>
    skip
    nodeUnless [.blockEntry, .blockEnd] true false .blockSequenceEntry t.stop
  | .blockEnd => close .sequenceEnd t
  | _ => refuseIn "while parsing a block collection" "did not find expected '-' indicator" t

/-- An entry of a sequence without indentation of its own, or its end. -/
def indentlessEntry : Step Event := do
  let t ← peek
  match t.kind with
  | .blockEntry =>
    skip
    nodeUnless [.blockEntry, .key, .value, .blockEnd] true false .indentlessEntry t.stop
  | _ =>
    resume
    return ⟨.sequenceEnd, t.start⟩

/-- A key of a block mapping, or its end. -/
def blockMappingKey : Step Event := do
  let t ← peek
  match t.kind with
  | .key =>
    skip
    nodeUnless [.key, .value, .blockEnd] true true .blockMappingValue t.stop
  | .blockEnd => close .mappingEnd t
  | _ => refuseIn "while parsing a block mapping" "did not find expected key" t

/-- The value of a key in a block mapping. -/
def blockMappingValue : Step Event := do
  let t ← peek
  match t.kind with
  | .value =>
    skip
    nodeUnless [.key, .value, .blockEnd] true true .blockMappingKey t.stop
  | _ =>
    proceed .blockMappingKey
    emptyScalar t.start

/-! ## Flow collections -/

/-- Moves over the comma in front of every entry but the first. -/
def flowComma (first : Bool) (activity problem : String) : Step Unit := do
  let t ← peek
  if !first then
    if t.kind = .flowEntry then skip
    else
      let _ ← refuseIn activity problem t

/-- An entry of a flow sequence, or its end. -/
def flowSequenceEntry (first : Bool) : Step Event := do
  let t ← peek
  if t.kind = .flowSequenceEnd then close .sequenceEnd t
  else
    flowComma first "while parsing a flow sequence" "did not find expected ',' or ']'"
    let t ← peek
    match t.kind with
    | .key =>
      proceed .flowPairKey
      skip
      return ⟨.mappingStart none none, t.start⟩
    | .flowSequenceEnd => close .sequenceEnd t
    | _ =>
      later .flowSequenceEntry
      node false false

/-- The key of a pair in a flow sequence. A key that is left out swallows the token behind it. -/
def flowPairKey : Step Event := do
  let t ← peek
  if [TokenKind.value, .flowEntry, .flowSequenceEnd].contains t.kind then
    skip
    proceed .flowPairValue
    emptyScalar t.stop
  else
    later .flowPairValue
    node false false

/-- The value of a pair in a flow sequence. -/
def flowPairValue : Step Event := do
  let t ← peek
  if t.kind = .value then
    let u ← advance
    nodeUnless [.flowEntry, .flowSequenceEnd] false false .flowPairEnd u.start
  else
    proceed .flowPairEnd
    emptyScalar t.start

/-- The end of a pair in a flow sequence. -/
def flowPairEnd : Step Event := do
  proceed .flowSequenceEntry
  return ⟨.mappingEnd, (← peek).start⟩

/-- A key of a flow mapping, or its end. -/
def flowMappingKey (first : Bool) : Step Event := do
  let t ← peek
  if t.kind = .flowMappingEnd then close .mappingEnd t
  else
    flowComma first "while parsing a flow mapping" "did not find expected ',' or '\x7d'"
    let t ← peek
    match t.kind with
    | .key =>
      let u ← advance
      nodeUnless [.value, .flowEntry, .flowMappingEnd] false false .flowMappingValue u.start
    | .flowMappingEnd => close .mappingEnd t
    | _ =>
      later .flowMappingNoValue
      node false false

/-- The value of a key in a flow mapping. -/
def flowMappingValue : Step Event := do
  let t ← peek
  if t.kind = .value then
    let u ← advance
    nodeUnless [.flowEntry, .flowMappingEnd] false false .flowMappingKey u.start
  else
    proceed .flowMappingKey
    emptyScalar t.start

/-- The value of a key without a colon. -/
def flowMappingNoValue : Step Event := do
  proceed .flowMappingKey
  emptyScalar (← peek).start

/-! ## The stream -/

/-- The next event. -/
def step : Step Event := do
  match (← get).expect with
  | .streamStart =>
    let t ← peek
    proceed .firstDocument
    skip
    return ⟨.streamStart, t.start⟩
  | .firstDocument => documentStart true
  | .nextDocument => documentStart false
  | .documentContent =>
    let t ← peek
    if isDocumentBoundary t.kind || t.kind = .documentEnd then
      resume
      emptyScalar t.start
    else node true false
  | .documentEnd => documentEnd
  | .blockNode => node true false
  | .blockSequenceFirst =>
    enter
    blockSequenceEntry
  | .blockSequenceEntry => blockSequenceEntry
  | .indentlessEntry => indentlessEntry
  | .blockMappingFirst =>
    enter
    blockMappingKey
  | .blockMappingKey => blockMappingKey
  | .blockMappingValue => blockMappingValue
  | .flowSequenceFirst =>
    enter
    flowSequenceEntry true
  | .flowSequenceEntry => flowSequenceEntry false
  | .flowPairKey => flowPairKey
  | .flowPairValue => flowPairValue
  | .flowPairEnd => flowPairEnd
  | .flowMappingFirst =>
    enter
    flowMappingKey true
  | .flowMappingKey => flowMappingKey false
  | .flowMappingValue => flowMappingValue
  | .flowMappingNoValue => flowMappingNoValue
  | .nothing => return ⟨.streamEnd, Mark.start⟩

/-- The events up to the end of the text or the first problem. -/
def run : Nat → Recognizer → EventStream
  | 0, _ => ⟨[], none⟩
  | fuel + 1, r =>
    if r.expect = .nothing then ⟨[], none⟩
    else
      match step.run r with
      | .error m => ⟨[], some m⟩
      | .ok (e, r) =>
        let s := run fuel r
        ⟨e :: s.events, s.problem⟩

end Recognizer

namespace EventStream

/-- The events of some tokens. No token gives rise to more than three. -/
def ofTokens (s : TokenStream) : EventStream :=
  Recognizer.run (3 * s.tokens.length + 8)
    { tokens := s.tokens
      problem := s.problem
      expect := .streamStart
      pending := []
      opened := []
      handles := [] }

/-- The events of a text. -/
def ofText (s : String) : EventStream :=
  ofTokens (TokenStream.ofText s)

end EventStream
end ExchangeBench.Yaml
