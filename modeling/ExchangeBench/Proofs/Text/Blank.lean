import Mathlib.Data.List.TakeWhile
import ExchangeBench.Text.Blank

/-!
# Trimmed texts

Trimming takes blanks off at the two ends, and nothing else. What is left begins and ends with a
character that is no blank, or it is empty.

- `Text.exists_trim`: a text is its trimmed text between blanks.
- `Text.trim_eq_self`: which texts are trimmed, and `Text.trim_trim`.
- `Text.trim_padded`: trimmed texts are found again between blanks.
-/

namespace ExchangeBench.Text

variable {b cs e : List Char}

/-- Blanks are no digits. -/
theorem isDigit_of_isBlank {c : Char} (h : isBlank c = true) : c.isDigit = false := by
  simp only [isBlank, blankRanges, List.any_cons, List.any_nil, Bool.or_eq_true, Bool.and_eq_true,
    decide_eq_true_eq, Bool.false_eq_true, or_false, Char.toNat] at h
  simp only [Char.isDigit, Bool.and_eq_false_iff, decide_eq_false_iff_not, ge_iff_le,
    UInt32.le_iff_toNat_le]
  have hzero : '0'.val.toNat = 48 := rfl
  have hnine : '9'.val.toNat = 57 := rfl
  omega

/-- Behind the blanks in front, a text is its trimmed text and blanks. -/
theorem exists_dropWhile_eq (cs : List Char) :
    ∃ e, (∀ c ∈ e, isBlank c = true) ∧ cs.dropWhile isBlank = trim cs ++ e := by
  refine ⟨((cs.dropWhile isBlank).reverse.takeWhile isBlank).reverse,
    fun c hc => List.mem_takeWhile_imp (List.mem_reverse.mp hc), ?_⟩
  rw [trim, trimEnd, ← List.reverse_append, List.takeWhile_append_dropWhile, List.reverse_reverse]

/-- A text is its trimmed text between blanks. -/
theorem exists_trim (cs : List Char) : ∃ b e, (∀ c ∈ b, isBlank c = true) ∧
    (∀ c ∈ e, isBlank c = true) ∧ cs = b ++ trim cs ++ e := by
  obtain ⟨e, he, hdrop⟩ := exists_dropWhile_eq cs
  refine ⟨cs.takeWhile isBlank, e, fun c hc => List.mem_takeWhile_imp hc, he, ?_⟩
  rw [List.append_assoc, ← hdrop, List.takeWhile_append_dropWhile]

/-- A text that neither begins nor ends with a blank is trimmed. -/
theorem trim_eq_self (hfirst : ∀ c ∈ cs.head?, isBlank c = false)
    (hlast : ∀ c ∈ cs.getLast?, isBlank c = false) : trim cs = cs := by
  have hdrop : ∀ {ds : List Char}, (∀ c ∈ ds.head?, isBlank c = false) →
      ds.dropWhile isBlank = ds := by
    intro ds hds
    cases ds with
    | nil => rfl
    | cons d ds => exact List.dropWhile_cons_of_neg (Bool.eq_false_iff.mp (hds d rfl))
  rw [trim, hdrop hfirst, trimEnd, hdrop, List.reverse_reverse]
  rwa [List.head?_reverse]

/-- A trimmed text does not begin with a blank. -/
theorem isBlank_of_mem_head?_trim {c : Char} (h : c ∈ (trim cs).head?) : isBlank c = false := by
  obtain ⟨e, -, hdrop⟩ := exists_dropWhile_eq cs
  have hhead := List.head?_dropWhile_not isBlank cs
  rw [hdrop, List.head?_append, Option.mem_def.mp h] at hhead
  simpa using hhead

/-- A trimmed text does not end with a blank. -/
theorem isBlank_of_mem_getLast?_trim {c : Char} (h : c ∈ (trim cs).getLast?) :
    isBlank c = false := by
  rw [trim, trimEnd, List.getLast?_reverse] at h
  have hhead := List.head?_dropWhile_not isBlank (cs.dropWhile isBlank).reverse
  rw [Option.mem_def.mp h] at hhead
  simpa using hhead

theorem trim_trim (cs : List Char) : trim (trim cs) = trim cs :=
  trim_eq_self (fun _ => isBlank_of_mem_head?_trim) fun _ => isBlank_of_mem_getLast?_trim

/-- Blanks on either side do not matter. -/
theorem trim_padded (hb : ∀ c ∈ b, isBlank c = true) (he : ∀ c ∈ e, isBlank c = true) :
    trim (b ++ cs ++ e) = trim cs := by
  rw [List.append_assoc, blank_append_trim hb, trim_append_blank he]

/-- A trimmed text that ends in blanks is empty, or there are none. -/
theorem eq_nil_of_trim_append (htrim : trim (cs ++ e) = cs ++ e) (he : ∀ c ∈ e, isBlank c = true) :
    e = [] := by
  by_contra hne
  have hlast : e.getLast hne ∈ (trim (cs ++ e)).getLast? := by
    rw [htrim, List.getLast?_append, List.getLast?_eq_some_getLast hne]
    rfl
  have hblank := he _ (List.getLast_mem hne)
  rw [isBlank_of_mem_getLast?_trim hlast] at hblank
  cases hblank

end ExchangeBench.Text
