import ExchangeBench.Yaml.Node
import ExchangeBench.Yaml.Value

/-!
# Decoding documents

Functions that read values of a wanted form from the nodes of a document, in the order of the text, so
that the first error in the text is the one reported. A fault without a place gets the place of the
innermost node that is being read when it leaves that node.

Aliases are followed where a value is read. To follow one counts as a repetition, of which a document
may have a hundred per event, and collections nest at most 128 deep.
-/

namespace ExchangeBench.Yaml

/-- What decoding needs to know about the document. -/
structure Source where
  anchors : List (Nat × Node)
  /-- The problem that a cut stands for. -/
  problem : Error
  /-- The most aliases that may be followed. -/
  repetitions : Nat

/-- A function that reads from a document, counts the aliases followed, and may fail. -/
abbrev Decode := ReaderT Source (StateT Nat (Except Error))

/-- Where the node being read stands. -/
structure Position where
  path : String
  /-- How much deeper collections may nest. -/
  depth : Nat

namespace Position

/-- The root of a document. -/
def root : Position := ⟨".", 128⟩

/-- The position of a value behind a key. Only a scalar key is named. -/
def child (p : Position) (key : Node) : Position :=
  let name :=
    match key with
    | .scalar _ text _ _ => text
    | _ => "?"
  { p with path := if p.path = "." then name else p.path ++ "." ++ name }

/-- The position of an item. -/
def item (p : Position) (index : Nat) : Position :=
  { p with path := p.path ++ "[" ++ Text.ofNat index ++ "]" }

end Position

namespace Decode

variable {β σ : Type}

/-- Fails with a fault that has no place yet. -/
def fault (f : Fault) : Decode β := throw (.fault f none)

/-- Gives faults that leave a node the place of that node. -/
def within (p : Position) (mark : Mark) (d : Decode β) : Decode β := fun source n =>
  match (d.run source).run n with
  | .error e => .error (e.located p.path mark)
  | r => r

/-- Fails with a fault at a node. -/
def faultAt (p : Position) (mark : Mark) (f : Fault) : Decode β :=
  throw ((Error.fault f none).located p.path mark)

/-- The node that a node stands for. -/
def follow : Node → Decode Node
  | .cut => do throw (← read).problem
  | .alias number _ => do
    let source ← read
    let followed ← modifyGet fun n => (n + 1, n + 1)
    if source.repetitions < followed then throw .repetitionLimit
    else return (source.anchors.lookup number).getD .cut
  | n => return n

/-- Refuses a node as not of the form expected. -/
def refuse (p : Position) (expected : String) : Node → Decode β
  | .scalar tag text style mark =>
    match Found.ofScalar tag text style with
    | .ok found => faultAt p mark (.invalidType found expected)
    | .error f => faultAt p mark f
  | .sequence _ _ mark => faultAt p mark (.invalidType .sequence expected)
  | .mapping _ _ mark => faultAt p mark (.invalidType .mapping expected)
  | .void _ => throw .endOfStream
  | .cut | .alias .. => do throw (← read).problem

/-! ## Scalars -/

/-- Whether a scalar may denote a value of a standard type: if it is plain, or a literal block with
the type's tag. -/
def mayDenote (tag : Option Tag) (style : ScalarStyle) (typeTag : Tag) : Bool :=
  style == .plain || (style == .literal && tag == some typeTag)

/-- A truth value. -/
def bool (p : Position) (n : Node) : Decode Bool := do
  let n ← follow n
  match n with
  | .scalar tag s style _ =>
    if mayDenote tag style Tag.bool then
      match bool? s with
      | some b => return b
      | none => refuse p "a boolean" n
    else refuse p "a boolean" n
  | _ => refuse p "a boolean" n

/-- A natural number up to a largest one. -/
def natural (expected : String) (largest : Nat) (p : Position) (n : Node) : Decode Nat := do
  let n ← follow n
  match n with
  | .scalar tag s style mark =>
    if mayDenote tag style Tag.int then
      match unsigned? 64 s.toList with
      | some i =>
        if i ≤ largest then return i
        else faultAt p mark (.invalidValue (.integer i) expected)
      | none => refuse p expected n
    else refuse p expected n
  | _ => refuse p expected n

/-- The text of a scalar, whatever it denotes, and the scalar's place. -/
def textAt (expected : String) (p : Position) (n : Node) : Decode (String × Mark) := do
  let n ← follow n
  match n with
  | .scalar _ s _ mark => return (s, mark)
  | _ => refuse p expected n

/-- The text of a scalar, whatever it denotes. -/
def text (p : Position) (n : Node) : Decode String := do
  return (← textAt "a string" p n).1

/-- The node, unless it is null or left out. -/
def optional (n : Node) : Decode (Option Node) := do
  let n ← follow n
  match n with
  | .scalar tag s style _ =>
    if style ≠ .plain then return some n
    else
      match tag with
      | some t =>
        if t = Tag.null then
          if isNull s then return none else fault (.invalidValue (.text s) "null")
        else return some n
      | none => return if s.isEmpty || isNull s then none else some n
  | .void _ => return none
  | _ => return some n

/-- One of several named values, from a node that is no alias. -/
def oneOfNode (names : List String) (ofName? : String → Option β) (p : Position) (n : Node) :
    Decode β := do
  let known (name : String) : Decode β :=
    match ofName? name with
    | some v => return v
    | none => fault (.unknownVariant name names)
  let collection (tag : Option Tag) (found : Found) (mark : Mark) : Decode β :=
    match tag.bind Tag.ownName? with
    | none => faultAt p mark (.invalidType found "a YAML tag starting with '!'")
    | some name => do
      let _ ← known name
      faultAt p mark (.invalidType found "unit")
  match n with
  | .scalar tag s style mark =>
    match tag.bind Tag.ownName? with
    | none => within p mark (known s)
    | some name => do
      let v ← known name
      if style = .plain && (s.isEmpty || isNull s) then return v
      else faultAt p mark (.invalidValue (.text s) "null")
  | .sequence tag _ mark => collection tag .sequence mark
  | .mapping tag _ mark => collection tag .mapping mark
  | .void _ => throw .endOfStream
  | .cut | .alias .. => do throw (← read).problem

/-- One of several named values: its name as a scalar, or as the tag of a node that is null. A tag
that is not known gets no place of its own, but an alias that leads to it has one. -/
def oneOf (names : List String) (ofName? : String → Option β) (p : Position) (n : Node) :
    Decode β := do
  let v := oneOfNode names ofName? p (← follow n)
  match n with
  | .alias _ mark => within p mark v
  | _ => v

/-! ## Collections -/

/-- Goes one level deeper. -/
def deeper (p : Position) (mark : Mark) (d : Position → Decode β) : Decode β :=
  match p.depth with
  | 0 => throw (.recursionLimit mark)
  | depth + 1 => d { p with depth }

/-- Whether a node is a scalar that is left out. -/
def isLeftOut : Node → Bool
  | .scalar _ s style _ => s.isEmpty && style == .plain
  | .void _ => true
  | _ => false

/-- The place of a node. -/
def markOf : Node → Mark
  | .scalar _ _ _ m | .sequence _ _ m | .mapping _ _ m | .alias _ m | .void m => m
  | .cut => Mark.start

/-- Reads the items of a list from an index on. -/
def items (f : Position → Node → Decode β) (p : Position) : Nat → List Node → Decode (List β)
  | _, [] => return []
  | i, n :: r => do
    let v ← f (p.item i) n
    return v :: (← items f p (i + 1) r)

/-- A list. A value that is left out is an empty one. -/
def list (f : Position → Node → Decode β) (p : Position) (n : Node) : Decode (List β) := do
  let n ← follow n
  match n with
  | .sequence _ ns mark => within p mark (deeper p mark fun p => items f p 0 ns)
  | _ => if isLeftOut n then return [] else refuse p "a sequence" n

/-- Reads the entries of a mapping one after another. -/
def entries (step : Position → σ → Node → Node → Decode σ) (p : Position) :
    σ → List (Node × Node) → Decode σ
  | s, [] => return s
  | s, (k, v) :: r => do
    let s ← step p s k v
    entries step p s r

/-- A mapping. A value that is left out is an empty one. -/
def mapping (expected : String) (init : σ) (step : Position → σ → Node → Node → Decode σ)
    (finish : σ → Decode β) (p : Position) (n : Node) : Decode β := do
  let n ← follow n
  match n with
  | .mapping _ es mark =>
    within p mark do finish (← deeper p mark fun p => entries step p init es)
  | _ => if isLeftOut n then within p (markOf n) (finish init) else refuse p expected n

/-! ## Records -/

/-- A field of a record: its name, whether it was read already, and how it is read. -/
structure Field (σ : Type) where
  name : String
  isRead : σ → Bool
  read : Position → Node → σ → Decode σ

/-- A record with a fixed set of fields, in any order, each at most once. -/
def record (expected : String) (fields : List (Field σ)) (init : σ) (finish : σ → Decode β) :
    Position → Node → Decode β :=
  mapping expected init (fun p s k v => do
    let (name, mark) ← textAt "field identifier" p k
    match fields.find? (·.name == name) with
    | none => faultAt p mark (.unknownField name (fields.map Field.name))
    | some f =>
      if f.isRead s then fault (.duplicateField name)
      else f.read (p.child k) v s) finish

/-- A field that has to be there. -/
def required (name : String) : Option β → Decode β
  | some v => return v
  | none => fault (.missingField name)

/-! ## Documents -/

/-- The value of a text that holds one document of the wanted form. -/
def ofText (s : String) (d : Position → Node → Decode β) : Except Error β :=
  let doc := Document.ofText s
  let source : Source := ⟨doc.anchors, doc.problem.getD .endOfStream, 100 * doc.size⟩
  match ((d Position.root doc.root).run source).run 0 with
  | .error e => .error e
  | .ok (v, _) =>
    match doc.problem with
    | some e => .error e
    | none => if doc.continues then .error .moreThanOneDocument else .ok v

end Decode
end ExchangeBench.Yaml
