import ExchangeBench.Yaml.Event

/-!
# YAML documents

The first document of a text as a tree of nodes. A text that is malformed still has a document, up to
the problem: where the tree ends early stands a `cut`, so that whoever reads the tree in order meets
the problem where the text has it.

Aliases are numbers. An anchor gets the number of different names that were known before it, and an
alias stands for the node that got its number last.
-/

namespace ExchangeBench.Yaml

/-- A node of a document. -/
inductive Node where
  | scalar (tag : Option Tag) (text : String) (style : ScalarStyle) (mark : Mark)
  | sequence (tag : Option Tag) (items : List Node) (mark : Mark)
  | mapping (tag : Option Tag) (entries : List (Node × Node)) (mark : Mark)
  | alias (number : Nat) (mark : Mark)
  /-- The place of a document that a text without documents does not have. -/
  | void (mark : Mark)
  /-- The text is malformed from here on. -/
  | cut

/-- The first document of a text. -/
structure Document where
  root : Node
  /-- The nodes that aliases stand for. -/
  anchors : List (Nat × Node)
  /-- What ends the document early, if anything does. -/
  problem : Option Error
  /-- Whether the text goes on behind the document. -/
  continues : Bool
  /-- The number of events that the document is made of. -/
  size : Nat

namespace Document

/-- A collection that is not complete. -/
structure Frame where
  isMapping : Bool
  tag : Option Tag
  mark : Mark
  /-- Which event began it. -/
  position : Nat
  /-- The nodes inside, the last one first. -/
  children : List Node

/-- A document that is not complete. -/
structure Builder where
  /-- The open collections, the innermost first. -/
  frames : List Frame
  root : Option Node
  /-- The names of anchors and their numbers. -/
  names : List (String × Nat)
  /-- Which event began the node of a number, the last one first. -/
  positions : List (Nat × Nat)
  /-- The complete nodes, with the event that began them. -/
  nodes : List (Nat × Node)
  size : Nat

namespace Builder

/-- Before the first event. -/
def start : Builder := ⟨[], none, [], [], [], 0⟩

/-- Keys and values in turn. A key at the end has its value cut off. -/
def pairs : List Node → List (Node × Node)
  | k :: v :: r => (k, v) :: pairs r
  | [k] => [(k, .cut)]
  | [] => []

/-- The node of a collection. -/
def Frame.node (f : Frame) : Node :=
  let children := f.children.reverse
  if f.isMapping then .mapping f.tag (pairs children) f.mark else .sequence f.tag children f.mark

/-- Adds a complete node that an event began. -/
def add (b : Builder) (position : Nat) (n : Node) : Builder :=
  let b := { b with nodes := (position, n) :: b.nodes }
  match b.frames with
  | [] => { b with root := some n }
  | f :: fs => { b with frames := { f with children := n :: f.children } :: fs }

/-- Notes an anchor of the node that the current event begins. -/
def anchor (b : Builder) : Option String → Builder
  | none => b
  | some name =>
    let number := b.names.length
    { b with
      names := (name, number) :: b.names.filter (·.1 ≠ name)
      positions := (number, b.size) :: b.positions }

/-- Opens a collection. -/
def enter (b : Builder) (isMapping : Bool) (tag : Option Tag) (mark : Mark) : Builder :=
  { b with frames := ⟨isMapping, tag, mark, b.size, []⟩ :: b.frames }

/-- Closes the innermost collection. -/
def leave (b : Builder) : Builder :=
  match b.frames with
  | [] => b
  | f :: fs => ({ b with frames := fs }).add f.position (Frame.node f)

/-- Counts an event. -/
def count (b : Builder) : Builder := { b with size := b.size + 1 }

/-- Closes collections that are cut off, the innermost first. -/
def closeAll : List Frame → Builder → Builder
  | [], b => b
  | _ :: fs, b => closeAll fs (b.add b.size .cut).leave

/-- The document that ends here. -/
def finish (b : Builder) (problem : Option Error) (continues : Bool) : Document :=
  let b := closeAll b.frames b
  { root := b.root.getD .cut
    anchors := b.positions.filterMap fun (number, position) =>
      (b.nodes.lookup position).map fun n => (number, n)
    problem
    continues
    size := b.size }

end Builder

/-- Whether a text goes on behind its first document. -/
def goesOn (rest : List Event) : Bool :=
  match rest with
  | ⟨.streamEnd, _⟩ :: _ => false
  | _ => true

/-- The document of some events, which a problem may end. -/
def build (problem : Option Malformed) : List Event → Builder → Document
  | [], b => b.finish (problem.map .malformed) false
  | e :: es, b =>
    match e.kind with
    | .streamStart | .documentStart => build problem es b
    | .streamEnd => ({ b.count with root := some (.void e.mark) }).finish none false
    | .documentEnd => b.finish none (goesOn es)
    | .alias name =>
      match b.names.lookup name with
      | none => b.finish (some (.unknownAnchor e.mark)) false
      | some number => build problem es (b.add b.size (.alias number e.mark)).count
    | .scalar anchor tag text style =>
      let b := b.anchor anchor
      build problem es (b.add b.size (.scalar tag text style e.mark)).count
    | .sequenceStart anchor tag => build problem es ((b.anchor anchor).enter false tag e.mark).count
    | .mappingStart anchor tag => build problem es ((b.anchor anchor).enter true tag e.mark).count
    | .sequenceEnd | .mappingEnd => build problem es b.leave.count

/-- The first document of some events. -/
def ofEvents (s : EventStream) : Document :=
  build s.problem s.events Builder.start

/-- The first document of a text. -/
def ofText (s : String) : Document :=
  ofEvents (EventStream.ofText s)

end Document
end ExchangeBench.Yaml
