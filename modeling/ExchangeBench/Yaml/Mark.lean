import ExchangeBench.Text.Bytes
import ExchangeBench.Text.Natural

/-!
# Places in a text

A mark is a place in a YAML text: how many bytes stand before it, and its line and column, both
counted from zero. A column counts characters. Messages count lines and columns from one.
-/

namespace ExchangeBench.Yaml

/-- A place in a text. -/
structure Mark where
  index : Nat
  line : Nat
  column : Nat
  deriving DecidableEq

namespace Mark

/-- The beginning of a text. -/
def start : Mark := ⟨0, 0, 0⟩

instance : Inhabited Mark := ⟨start⟩

/-- Whether a mark is at the beginning of the first line. -/
def isOrigin (m : Mark) : Bool :=
  m.line == 0 && m.column == 0

/-- The place behind some characters of the same line. -/
def past (m : Mark) (cs : List Char) : Mark :=
  ⟨m.index + Text.byteCount cs, m.line, m.column + cs.length⟩

/-- The beginning of the next line, behind a line break of so many bytes. -/
def nextLine (m : Mark) (n : Nat) : Mark :=
  ⟨m.index + n, m.line + 1, 0⟩

/-- A mark in a message. -/
def text (m : Mark) : String :=
  "line " ++ Text.ofNat (m.line + 1) ++ " column " ++ Text.ofNat (m.column + 1)

/-- A mark at the end of a message; the origin is not mentioned. -/
def suffix (m : Mark) : String :=
  if m.isOrigin then "" else " at " ++ m.text

end Mark
end ExchangeBench.Yaml
