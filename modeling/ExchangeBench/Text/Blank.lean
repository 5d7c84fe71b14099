/-!
# Blank characters

White space as the Unicode property `White_Space` counts it, and trimming by it.

* `isBlank`: the property itself, a table of ranges.
* `trim`: a text without the blanks at its two ends.
* `trim_append_blank`, `blank_append_trim`: blanks at an end do not change the trimmed text.
-/

namespace ExchangeBench.Text

/-- The code points with the property `White_Space`, as closed ascending ranges. -/
def blankRanges : List (Nat × Nat) :=
  [(0x09, 0x0d), (0x20, 0x20), (0x85, 0x85), (0xa0, 0xa0), (0x1680, 0x1680), (0x2000, 0x200a),
   (0x2028, 0x2029), (0x202f, 0x202f), (0x205f, 0x205f), (0x3000, 0x3000)]

/-- Whether a character is white space. -/
def isBlank (c : Char) : Bool :=
  blankRanges.any fun r => r.1 ≤ c.toNat && c.toNat ≤ r.2

/-- A text without the blanks it ends in. -/
def trimEnd (cs : List Char) : List Char :=
  (cs.reverse.dropWhile isBlank).reverse

/-- A text without the blanks at its two ends. -/
def trim (cs : List Char) : List Char :=
  trimEnd (cs.dropWhile isBlank)

/-- `trim` on strings. -/
def trimmed (s : String) : String :=
  String.ofList (trim s.toList)

/-- Blanks in front do not matter. -/
theorem blank_append_trim {b : List Char} (hb : ∀ c ∈ b, isBlank c) (cs : List Char) :
    trim (b ++ cs) = trim cs := by
  rw [trim, trim, List.dropWhile_append_of_pos hb]

theorem trimEnd_append_blank {b : List Char} (hb : ∀ c ∈ b, isBlank c) (cs : List Char) :
    trimEnd (cs ++ b) = trimEnd cs := by
  unfold trimEnd
  rw [List.reverse_append, List.dropWhile_append_of_pos fun c hc => hb c (List.mem_reverse.1 hc)]

/-- Blanks behind do not matter. -/
theorem trim_append_blank {b : List Char} (hb : ∀ c ∈ b, isBlank c) (cs : List Char) :
    trim (cs ++ b) = trim cs := by
  unfold trim
  rw [List.dropWhile_append]
  split
  · next h =>
    have hbn : b.dropWhile isBlank = [] := by
      simpa using @List.dropWhile_append_of_pos _ _ _ [] hb
    rw [hbn, List.isEmpty_iff.1 h]
  · exact trimEnd_append_blank hb _

end ExchangeBench.Text
