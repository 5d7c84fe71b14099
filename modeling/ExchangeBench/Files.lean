/-!
# Directory trees

Files and directories in memory, under the names that paths give them. A path is looked up name by
name from the root or from the working directory; every name but the last has to lead to a directory.

* `Path.ofText`, `Path.parent?`: the names of a path, and the path of the directory it is in.
* `Tree.locate`: where a path leads.
* `Tree.read`, `Tree.write`: the content of a file, and a new content. Directories that are missing
  on the way to a new file are made.
-/

namespace ExchangeBench.Files

/-- Why a file cannot be read or written. -/
inductive Fault where
  | notFound
  | alreadyExists
  | notADirectory
  | isADirectory
  | nameTooLong
  /-- A path with a NUL in it. -/
  | notAPath
  deriving DecidableEq

/-- The wording of a fault. -/
def Fault.text : Fault → String
  | notFound => "No such file or directory (os error 2)"
  | alreadyExists => "File exists (os error 17)"
  | notADirectory => "Not a directory (os error 20)"
  | isADirectory => "Is a directory (os error 21)"
  | nameTooLong => "File name too long (os error 36)"
  | notAPath => "file name contained an unexpected NUL byte"

/-! ## Paths -/

/-- A path, as the names on the way. -/
structure Path where
  /-- Whether the way begins at the root. -/
  absolute : Bool
  names : List String
  /-- Whether the path ends in a slash, as only a directory's may. -/
  slash : Bool
  deriving DecidableEq

namespace Path

/-- The longest name, in bytes. -/
def maxName : Nat := 255

/-- The longest path, in bytes. -/
def maxLength : Nat := 4095

/-- The pieces of a text between slashes. -/
def pieces : List Char → List (List Char)
  | [] => [[]]
  | c :: r =>
    if c = '/' then [] :: pieces r
    else
      match pieces r with
      | [] => [[c]]
      | p :: ps => (c :: p) :: ps

/-- The path that a text denotes. Empty names and dots lead nowhere, except that a path may begin
with a dot. -/
def ofText (text : String) : Path :=
  let absolute := text.toList.head? == some '/'
  let names := (pieces text.toList).filter (!·.isEmpty)
  let kept := match names with
    | [] => []
    | n :: ns => (if n = ['.'] && absolute then [] else [n]) ++ ns.filter (· ≠ ['.'])
  ⟨absolute, kept.map String.ofList, text.toList.getLast? == some '/' || names.getLast? == some ['.']⟩

/-- The text of a path. -/
def text (p : Path) : String :=
  (if p.absolute then "/" else "") ++ "/".intercalate p.names

/-- The path of the directory that a path leads into; there is none above the root or above nothing. -/
def parent? (p : Path) : Option Path :=
  if p.names.isEmpty then none else some { p with names := p.names.dropLast, slash := false }

/-- Whether there is no name on the way. -/
def isEmpty (p : Path) : Bool :=
  p.names.isEmpty && !p.absolute

/-- Whether the system takes the path. -/
def check (p : Path) : Except Fault Unit :=
  if p.names.any fun n => n.toList.any (· == '\x00') then .error .notAPath
  else if maxLength < p.text.utf8ByteSize then .error .nameTooLong
  else if p.isEmpty then .error .notFound
  else .ok ()

end Path

/-! ## Trees -/

/-- What stands at a place. -/
inductive Entry where
  | directory
  | file (content : ByteArray)

/-- A place, as the names of directories from the root down. -/
abbrev Place := List String

/-- Entries by their places. The root is a directory, and so is the working directory. -/
structure Tree where
  entries : List (Place × Entry)
  working : Place

namespace Tree

/-- A tree in which there is nothing but the way to the working directory. -/
def empty (working : Place) : Tree :=
  ⟨(List.range working.length).map fun n => (working.take (n + 1), .directory), working⟩

/-- What stands at a place. -/
def get? (t : Tree) (place : Place) : Option Entry :=
  if place.isEmpty then some .directory else t.entries.lookup place

/-- Puts an entry at a place. -/
def put (t : Tree) (place : Place) (e : Entry) : Tree :=
  { t with entries := (place, e) :: t.entries.filter fun f => f.1 ≠ place }

/-- The place that a name leads to from another. -/
def follow (t : Tree) (place : Place) (name : String) : Except Fault Place :=
  match t.get? place with
  | none => .error .notFound
  | some (.file _) => .error .notADirectory
  | some .directory =>
    if Path.maxName < name.utf8ByteSize then .error .nameTooLong
    else if name = "." then .ok place
    else if name = ".." then .ok place.dropLast
    else .ok (place ++ [name])

/-- The place that a path leads to. There need not be anything there. -/
def locate (t : Tree) (p : Path) : Except Fault Place := do
  p.check
  p.names.foldlM t.follow (if p.absolute then [] else t.working)

/-- Whether a path leads to a directory. -/
def isDirectory (t : Tree) (p : Path) : Bool :=
  match t.locate p with
  | .error _ => false
  | .ok place =>
    match t.get? place with
    | some .directory => true
    | _ => false

/-- Makes a directory. -/
def makeDirectory (t : Tree) (p : Path) : Except Fault Tree := do
  let place ← t.locate p
  match t.get? place with
  | none => return t.put place .directory
  | some _ => throw .alreadyExists

/-- Makes a directory, unless it is there. -/
def ensureDirectory (t : Tree) (p : Path) : Except Fault Tree :=
  match t.makeDirectory p with
  | .ok t => .ok t
  | .error e => if t.isDirectory p then .ok t else .error e

/-- Makes the directory that the first so many names of a path lead to, and those on the way to it.
What was made is left also where the rest cannot be. -/
def makeDirectories (t : Tree) (p : Path) : Nat → Tree × Except Fault Unit
  | 0 => (t, .ok ())
  | n + 1 =>
    let q := { p with names := p.names.take (n + 1), slash := false }
    match t.ensureDirectory q with
    | .ok t => (t, .ok ())
    | .error .notFound =>
      match t.makeDirectories p n with
      | (t, .error e) => (t, .error e)
      | (t, .ok ()) =>
        match t.ensureDirectory q with
        | .ok t => (t, .ok ())
        | .error e => (t, .error e)
    | .error e => (t, .error e)

/-- The content of a file. -/
def read (t : Tree) (p : Path) : Except Fault ByteArray := do
  match t.get? (← t.locate p) with
  | none => throw .notFound
  | some .directory => throw .isADirectory
  | some (.file content) => if p.slash then throw .notADirectory else return content

/-- Gives a file a content, in a directory that is there. -/
def store (t : Tree) (p : Path) (content : ByteArray) : Except Fault Tree := do
  let place ← t.locate p
  match t.get? place with
  | some .directory => throw .isADirectory
  | _ => if p.slash then throw .isADirectory else return t.put place (.file content)

/-- Makes the directory that a path leads into. There is nothing to make for a mere name. -/
def makeParent (t : Tree) (p : Path) : Tree × Except Fault Unit :=
  match p.parent? with
  | none => (t, .ok ())
  | some parent => t.makeDirectories parent parent.names.length

/-- Gives a file a content, in a directory that is made if it is missing. -/
def write (t : Tree) (p : Path) (content : ByteArray) : Tree × Except Fault Unit :=
  match t.makeParent p with
  | (t, .error e) => (t, .error e)
  | (t, .ok ()) =>
    match t.store p content with
    | .error e => (t, .error e)
    | .ok t => (t, .ok ())

end Tree
end ExchangeBench.Files
