/-!
# Texts as bytes

A text in UTF-8, where a character takes one to four bytes.

* `byteCount`: the number of bytes of a text.
* `splitBytes?`: a text cut in two behind so many bytes.
* `length_bytes`: the bytes are as many as are counted.
* `append_of_splitBytes?`: a cut loses nothing.
-/

namespace ExchangeBench.Text

/-- The bytes of some characters. -/
def bytes (cs : List Char) : List UInt8 :=
  cs.flatMap String.utf8EncodeChar

/-- The number of bytes of some characters. -/
def byteCount (cs : List Char) : Nat :=
  cs.foldl (fun n c => n + c.utf8Size) 0

/-- What stands in front of a byte position and behind it, unless it is inside a character. A position
beyond the end counts as the end. -/
def splitBytes? : Nat → List Char → Option (List Char × List Char)
  | 0, cs => some ([], cs)
  | _ + 1, [] => some ([], [])
  | n + 1, c :: r =>
    if n + 1 < c.utf8Size then none
    else (splitBytes? (n + 1 - c.utf8Size) r).map fun p => (c :: p.1, p.2)

theorem foldl_utf8Size (cs : List Char) (n : Nat) :
    cs.foldl (fun n c => n + c.utf8Size) n = n + byteCount cs := by
  induction cs generalizing n with
  | nil => simp [byteCount]
  | cons c r ih =>
    simp only [byteCount, List.foldl_cons]
    rw [ih (n + c.utf8Size), ih (0 + c.utf8Size)]
    omega

theorem byteCount_cons (c : Char) (r : List Char) :
    byteCount (c :: r) = c.utf8Size + byteCount r := by
  rw [byteCount, List.foldl_cons, foldl_utf8Size]
  omega

/-- The bytes of a text are as many as are counted. -/
theorem length_bytes (cs : List Char) : (bytes cs).length = byteCount cs := by
  induction cs with
  | nil => rfl
  | cons c r ih =>
    rw [byteCount_cons, ← ih]
    simp [bytes]

/-- A cut loses nothing. -/
theorem append_of_splitBytes? {n : Nat} {cs : List Char} {p : List Char × List Char}
    (h : splitBytes? n cs = some p) : p.1 ++ p.2 = cs := by
  fun_induction splitBytes? n cs generalizing p with
  | case1 cs => cases h; rfl
  | case2 n => cases h; rfl
  | case3 n c r hc => simp at h
  | case4 n c r hc ih =>
    obtain ⟨q, hq, rfl⟩ := Option.map_eq_some_iff.1 h
    simp [ih hq]

end ExchangeBench.Text
