import ExchangeBench.Text.Bytes

/-!
# Cuts between characters

A search goes through the characters of a text with their byte positions. What it finds is the position
of a character, and there the text can be cut.

- `Text.charPositions`, `Text.firstByte`: the characters with their positions, and the first that passes a
  test.
- `Text.splitBytes?_firstByte`: the cut there is what stands in front of it and the rest.
- `Text.toList_toUTF8_inj`: no two strings have the same encoding.
-/

namespace ExchangeBench.Text

/-- The characters of a text with the bytes in front of each, counted from a position on. -/
def charPositions : Nat → List Char → List (Nat × Char)
  | _, [] => []
  | n, c :: r => (n, c) :: charPositions (n + c.utf8Size) r

/-- The byte position of the first character that passes a test, or that of the end. -/
def firstByte (test : Char → Bool) (cs : List Char) : Nat :=
  ((charPositions 0 cs).find? fun e => test e.2).elim (byteCount cs) Prod.fst

variable {test : Char → Bool}

/-- The first character that passes a test stands behind those that do not. -/
theorem elim_find?_charPositions (n : Nat) (cs : List Char) :
    ((charPositions n cs).find? fun e => test e.2).elim (n + byteCount cs) Prod.fst =
      n + byteCount (cs.takeWhile fun c => !test c) := by
  induction cs generalizing n with
  | nil => rfl
  | cons c r ih =>
    rw [charPositions, List.find?_cons]
    cases hc : test c with
    | true => simp [hc, byteCount]
    | false =>
      simp only [List.takeWhile_cons, hc, Bool.not_false, if_true, byteCount_cons]
      rw [← Nat.add_assoc, ← Nat.add_assoc, ih]

theorem firstByte_eq (cs : List Char) :
    firstByte test cs = byteCount (cs.takeWhile fun c => !test c) := by
  have h := @elim_find?_charPositions test 0 cs
  rwa [Nat.zero_add, Nat.zero_add] at h

/-- A text in two parts can be cut between them. -/
theorem splitBytes?_append (cs ds : List Char) :
    splitBytes? (byteCount cs) (cs ++ ds) = some (cs, ds) := by
  induction cs with
  | nil => rw [byteCount, List.foldl_nil, List.nil_append, splitBytes?]
  | cons c r ih =>
    have hsize : 0 < c.utf8Size := c.utf8Size_pos
    obtain ⟨n, hn⟩ : ∃ n, byteCount (c :: r) = n + 1 := ⟨byteCount (c :: r) - 1, by
      rw [byteCount_cons]
      omega⟩
    have hrest : n + 1 - c.utf8Size = byteCount r := by
      rw [← hn, byteCount_cons]
      omega
    have hle : ¬ n + 1 < c.utf8Size := by
      rw [← hn, byteCount_cons]
      omega
    rw [hn, List.cons_append, splitBytes?, if_neg hle, hrest, ih]
    rfl

/-- **A text can be cut in front of the first character that passes a test.** That byte position is
between two characters, or at an end. -/
theorem splitBytes?_firstByte (cs : List Char) :
    splitBytes? (firstByte test cs) cs =
      some (cs.takeWhile fun c => !test c, cs.dropWhile fun c => !test c) := by
  have hsplit := splitBytes?_append (cs.takeWhile fun c => !test c) (cs.dropWhile fun c => !test c)
  rwa [List.takeWhile_append_dropWhile, ← firstByte_eq] at hsplit

/-! ## Strings as bytes -/

/-- The rest of an array of bytes is put behind those that were read, which stand in reverse. -/
theorem toList_loop (b : ByteArray) (i : Nat) (r : List UInt8) :
    ByteArray.toList.loop b i r = r.reverse ++ b.data.toList.drop i := by
  induction i, r using ByteArray.toList.loop.induct b with
  | case1 i r hlt ih =>
    have hlt' : i < b.data.toList.length := hlt
    have hget : b.get! i = b.data.toList[i] := getElem!_pos b.data i hlt
    rw [ByteArray.toList.loop, if_pos hlt, ih, List.drop_eq_getElem_cons hlt', List.reverse_cons,
      List.append_assoc, hget]
    rfl
  | case2 i r hge =>
    rw [ByteArray.toList.loop, if_neg hge, List.drop_of_length_le (Nat.le_of_not_lt hge),
      List.append_nil]

/-- Different strings have different encodings. -/
theorem toList_toUTF8_inj {s t : String} : s.toUTF8.toList = t.toUTF8.toList ↔ s = t := by
  refine ⟨fun h => ?_, fun h => h ▸ rfl⟩
  rw [ByteArray.toList, ByteArray.toList, toList_loop, toList_loop] at h
  exact String.toByteArray_inj.mp (ByteArray.ext (Array.toList_inj.mp h))

end ExchangeBench.Text
