import ExchangeBench.Text.Bytes

/-!
# YAML tags

A tag gives a node a type. What a tag escapes need not be text, so a tag consists of bytes, and it
ends in front of the first zero byte.

* `Tag.ofParts`: a tag from the part that its handle stands for and the part behind the handle.
* `Tag.ownName?`: the name that a tag of the document's own gives.
-/

namespace ExchangeBench.Yaml

/-- A tag in full. -/
structure Tag where
  bytes : List UInt8
  deriving DecidableEq

namespace Tag

/-- The tag that a text spells. -/
def ofText (s : String) : Tag := ⟨Text.bytes s.toList⟩

/-- The bytes in front of the first zero. -/
def cut (bytes : List UInt8) : List UInt8 :=
  bytes.takeWhile (· ≠ 0)

/-- The tag of two parts, each of which ends in front of its first zero. -/
def ofParts (start rest : List UInt8) : Tag :=
  ⟨cut start ++ cut rest⟩

/-- The byte that tags of the document's own begin with. -/
def ownMark : UInt8 := 0x21

/-- Whether a tag is of the document's own, which an exclamation mark shows. -/
def isOwn (t : Tag) : Bool :=
  t.bytes.head? == some ownMark

/-- The name behind the exclamation mark of a tag of the document's own; where nothing stands behind
it, the mark is the name. Bytes that are no text give no name. -/
def ownName? (t : Tag) : Option String :=
  let name := if t.bytes = [ownMark] then t.bytes else t.bytes.drop 1
  if t.isOwn then String.fromUTF8? ⟨name.toArray⟩ else none

/-- The tag of truth values. -/
def bool : Tag := ofText "tag:yaml.org,2002:bool"

/-- The tag of integers. -/
def int : Tag := ofText "tag:yaml.org,2002:int"

/-- The tag of floats. -/
def float : Tag := ofText "tag:yaml.org,2002:float"

/-- The tag of null. -/
def null : Tag := ofText "tag:yaml.org,2002:null"

end Tag
end ExchangeBench.Yaml
