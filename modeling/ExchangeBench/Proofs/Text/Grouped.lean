import Mathlib.Data.List.Basic
import Mathlib.Data.List.Induction
import ExchangeBench.Text.Natural

/-!
# Numbers in groups of three

Groups are counted from the right, so the first one has the digits that are left over, and three of its
own if none are left over. A number has just one text of this kind. From the left, a comma stands before
a digit if it is not the first one and the number of digits from it on is a multiple of three.

- `Text.placed`, `Text.grouped_eq_flatMap`: where commas stand, from the left.
- `Text.InThrees`: which groups there can be.
- `Text.grouped_eq_intercalate`: groups of these lengths with the digits of a number are its groups.
- `Text.eq_grouped_iff`: the text of a number is told by its groups and by what it is without commas.
- `Text.grouped_injective`: different numbers are written differently.
-/

namespace ExchangeBench.Text

variable {n : Nat}

/-! ## Commas from the left -/

/-- The digit at a position among so many, after a comma if it is not the first one and the number of
digits from it on is a multiple of three. -/
def placed (length : Nat) : Char × Nat → List Char
  | (c, i) => if 0 < i ∧ (length - i) % 3 = 0 then [',', c] else [c]

/-- What stands between a digit and so many that follow it. -/
def separator (rest : Nat) : List Char :=
  if 0 < rest ∧ rest % 3 = 0 then [','] else []

@[simp] theorem reverse_separator (rest : Nat) : (separator rest).reverse = separator rest := by
  unfold separator
  split <;> rfl

theorem placed_eq_separator {rest k : Nat} (hrest : 0 < rest) (hk : 0 < k) (c : Char) :
    placed (k + rest) (c, k) = separator rest ++ [c] := by
  simp only [placed, separator, hk, hrest, true_and, Nat.add_sub_cancel_left]
  split <;> rfl

/-- **One more digit** on the left, which comes last where digits are counted from the right. -/
theorem groupThrees_concat (cs : List Char) (c : Char) :
    groupThrees (cs ++ [c]) = groupThrees cs ++ separator cs.length ++ [c] := by
  fun_induction groupThrees cs with
  | case1 x y z d r ih =>
    -- what follows a whole group is divided as if there were no such group
    have hperiod : separator (r.length + 1 + 3) = separator (r.length + 1) := by
      simp [separator]
    show x :: y :: z :: ',' :: groupThrees (d :: r ++ [c]) =
      x :: y :: z :: ',' :: groupThrees (d :: r) ++ separator (r.length + 1 + 3) ++ [c]
    rw [ih, hperiod]
    rfl
  | case2 cs hfew =>
    match cs with
    | [] | [x] | [x, y] => rfl
    | [x, y, z] => simp [groupThrees, separator]
    | x :: y :: z :: d :: r => exact absurd rfl (hfew x y z d r)

/-- The same from the left: the first digit, what comes behind it, and the other digits. -/
theorem reverse_groupThrees_cons (c : Char) (cs : List Char) :
    (groupThrees (c :: cs).reverse).reverse =
      c :: (separator cs.length ++ (groupThrees cs.reverse).reverse) := by
  rw [List.reverse_cons, groupThrees_concat]
  simp

/-- Some last digits with their commas. How many digits there are in front does not matter. -/
theorem flatMap_placed {k : Nat} (hk : 0 < k) (cs : List Char) :
    (cs.zipIdx k).flatMap (placed (k + cs.length)) =
      separator cs.length ++ (groupThrees cs.reverse).reverse := by
  induction cs generalizing k with
  | nil => rfl
  | cons c cs ih =>
    have hrest : (cs.zipIdx (k + 1)).flatMap (placed (k + (cs.length + 1))) =
        separator cs.length ++ (groupThrees cs.reverse).reverse := by
      rw [← ih (Nat.succ_pos k), Nat.succ_add, Nat.add_succ]
    rw [List.zipIdx_cons, List.flatMap_cons, List.length_cons, hrest,
      placed_eq_separator (Nat.succ_pos _) hk, reverse_groupThrees_cons, List.append_assoc]
    rfl

/-- **Commas from the left.** -/
theorem grouped_eq_flatMap (n : Nat) :
    grouped n = (decimal n).zipIdx.flatMap (placed (decimal n).length) := by
  unfold grouped
  cases decimal n with
  | nil => rfl
  | cons c cs =>
    have hlater := flatMap_placed Nat.one_pos cs
    rw [List.zipIdx_cons, List.flatMap_cons, Nat.zero_add, List.length_cons, Nat.add_comm, hlater,
      reverse_groupThrees_cons]
    rfl

/-! ## Groups -/

/-- Groups that the digits of a number can be in: one of one to three digits, and then groups of
three. -/
def InThrees : List (List Char) → Prop
  | [] => False
  | first :: later => 1 ≤ first.length ∧ first.length ≤ 3 ∧ ∀ g ∈ later, g.length = 3

instance : (gs : List (List Char)) → Decidable (InThrees gs)
  | [] => instDecidableFalse
  | first :: later =>
    inferInstanceAs (Decidable (1 ≤ first.length ∧ first.length ≤ 3 ∧ ∀ g ∈ later, g.length = 3))

/-- Any digits can be put in such groups. -/
theorem exists_inThrees {cs : List Char} (hne : cs ≠ []) : ∃ gs, InThrees gs ∧ gs.flatten = cs := by
  -- a digit in front joins the first group, unless that is full
  induction cs with
  | nil => exact absurd rfl hne
  | cons c cs ih =>
    by_cases hnil : cs = []
    · exact ⟨[[c]], ⟨Nat.le_refl 1, Nat.succ_pos 2, List.forall_mem_nil _⟩, by rw [hnil]; rfl⟩
    · obtain ⟨_ | ⟨first, later⟩, hgs, hflatten⟩ := ih hnil
      · exact hgs.elim
      · obtain ⟨hpos, hle, hlater⟩ := hgs
        by_cases hfull : first.length = 3
        · refine ⟨[c] :: first :: later, ⟨Nat.le_refl 1, Nat.succ_pos 2, ?_⟩, ?_⟩
          · exact List.forall_mem_cons.mpr ⟨hfull, hlater⟩
          · rw [List.flatten_cons, hflatten]
            rfl
        · refine ⟨(c :: first) :: later, ⟨Nat.succ_pos _, ?_, hlater⟩, ?_⟩
          · rw [List.length_cons]
            omega
          · rw [List.flatten_cons, List.cons_append, ← List.flatten_cons, hflatten]

/-- One more group at the end comes after a comma. -/
theorem intercalate_concat (sep : Char) (first : List Char) (later : List (List Char))
    (g : List Char) :
    [sep].intercalate (first :: (later ++ [g])) =
      [sep].intercalate (first :: later) ++ sep :: g := by
  induction later generalizing first with
  | nil => simp
  | cons second later ih =>
    rw [List.cons_append, List.intercalate_cons_cons, ih, List.intercalate_cons_cons,
      ← List.append_assoc]

/-- Digits in such groups get commas between the groups. -/
theorem groupThrees_reverse_flatten {gs : List (List Char)} (h : InThrees gs) :
    groupThrees gs.flatten.reverse = ([','].intercalate gs).reverse := by
  obtain _ | ⟨first, later⟩ := gs
  · exact h.elim
  obtain ⟨hpos, hle, hlater⟩ := h
  -- digits are taken from the right, so the last group comes first
  induction later using List.reverseRecOn with
  | nil =>
    match first with
    | [x] | [x, y] | [x, y, z] => rfl
  | append_singleton later g ih =>
    obtain ⟨hbefore, hg⟩ := List.forall_mem_append.mp hlater
    obtain ⟨x, y, z, rfl⟩ := List.length_eq_three.mp (hg g (List.mem_singleton_self g))
    have hne : (first :: later).flatten.reverse ≠ [] := by
      intro hnil
      rw [List.reverse_eq_nil_iff, List.flatten_cons, List.append_eq_nil_iff] at hnil
      rw [hnil.1] at hpos
      exact absurd hpos (by decide)
    obtain ⟨d, r, hrest⟩ := List.exists_cons_of_ne_nil hne
    have hsplit : (first :: (later ++ [[x, y, z]])).flatten.reverse = z :: y :: x :: d :: r := by
      rw [← List.cons_append, List.flatten_append, List.reverse_append, hrest]
      rfl
    rw [hsplit, groupThrees, ← hrest, ih hbefore, intercalate_concat, List.reverse_append]
    simp

/-- **The groups of a number** are all groups of these lengths that have its digits. -/
theorem grouped_eq_intercalate {gs : List (List Char)} (h : InThrees gs)
    (hflatten : gs.flatten = decimal n) : grouped n = [','].intercalate gs := by
  rw [grouped, ← hflatten, groupThrees_reverse_flatten h, List.reverse_reverse]

/-! ## What a text is without commas -/

/-- Taking a character out of a text leaves what stands between its occurrences. -/
theorem flatten_splitOn (sep : Char) (cs : List Char) :
    (cs.splitOn sep).flatten = cs.filter (· ≠ sep) := by
  induction cs with
  | nil => rfl
  | cons c cs ih =>
    rw [List.splitOn_cons_eq_if_modifyHead, List.filter_cons]
    by_cases hc : c = sep
    · rw [if_pos (beq_iff_eq.mpr hc), List.flatten_cons, List.nil_append, ih,
        if_neg (by simp [hc])]
    · obtain ⟨g, gs, hgs⟩ := List.exists_cons_of_ne_nil (List.splitOn_ne_nil sep cs)
      rw [if_neg (mt beq_iff_eq.mp hc), if_pos (by simp [hc]), ← ih, hgs]
      rfl

/-- The groups are found again between the commas. -/
theorem exists_splitOn_grouped (n : Nat) : ∃ gs, InThrees gs ∧ gs.flatten = decimal n ∧
    (grouped n).splitOn ',' = gs := by
  obtain ⟨gs, hgs, hflatten⟩ := exists_inThrees (decimal_ne_nil n)
  refine ⟨gs, hgs, hflatten, ?_⟩
  have hcomma : ∀ g ∈ gs, ',' ∉ g := fun g hg hmem =>
    not_mem_decimal (by decide) (hflatten ▸ List.mem_flatten_of_mem hg hmem)
  have hne : gs ≠ [] := by
    rintro rfl
    exact hgs
  rw [grouped_eq_intercalate hgs hflatten, List.splitOn_intercalate ',' hcomma hne]

theorem inThrees_grouped (n : Nat) : InThrees ((grouped n).splitOn ',') := by
  obtain ⟨gs, hgs, -, hsplit⟩ := exists_splitOn_grouped n
  rwa [hsplit]

/-- Without its commas, the text is the digits. -/
theorem filter_grouped (n : Nat) : (grouped n).filter (· ≠ ',') = decimal n := by
  obtain ⟨gs, -, hflatten, hsplit⟩ := exists_splitOn_grouped n
  rw [← flatten_splitOn, hsplit, hflatten]

/-- **One text for each number.** It has the digits and such groups, and nothing else has. -/
theorem eq_grouped_iff {cs : List Char} :
    cs = grouped n ↔ cs.filter (· ≠ ',') = decimal n ∧ InThrees (cs.splitOn ',') := by
  constructor
  · rintro rfl
    exact ⟨filter_grouped n, inThrees_grouped n⟩
  · rintro ⟨hdigits, hgs⟩
    rw [grouped_eq_intercalate hgs ((flatten_splitOn ',' cs).trans hdigits),
      List.intercalate_splitOn]

/-- Three digits are one group, and four are two. -/
example : grouped 999 = "999".toList ∧ grouped 1000 = "1,000".toList := ⟨by cbv, by cbv⟩

/-- All other characters are digits. -/
theorem isDigit_of_mem_grouped {c : Char} (h : c ∈ grouped n) (hc : c ≠ ',') : c.isDigit = true := by
  have hmem : c ∈ (grouped n).filter (· ≠ ',') := List.mem_filter.mpr ⟨h, decide_eq_true hc⟩
  rw [filter_grouped] at hmem
  exact isDigit_of_mem_decimal hmem

theorem grouped_injective : Function.Injective grouped := fun m n heq =>
  decimal_injective (by rw [← filter_grouped m, heq, filter_grouped])

/-! ## The ends -/

theorem head?_groupThrees (cs : List Char) : (groupThrees cs).head? = cs.head? := by
  unfold groupThrees
  split <;> rfl

theorem getLast?_groupThrees (cs : List Char) : (groupThrees cs).getLast? = cs.getLast? := by
  fun_induction groupThrees cs with
  | case1 x y z d r ih => simp [List.getLast?_cons, ih]
  | case2 => rfl

/-- A number begins with its first digit. -/
theorem head?_grouped (n : Nat) : (grouped n).head? = (decimal n).head? := by
  rw [grouped, List.head?_reverse, getLast?_groupThrees, List.getLast?_reverse]

/-- A number ends with its last digit. -/
theorem getLast?_grouped (n : Nat) : (grouped n).getLast? = (decimal n).getLast? := by
  rw [grouped, List.getLast?_reverse, head?_groupThrees, List.head?_reverse]

theorem head?_grouped_ne (n : Nat) : (grouped n).head? ≠ some ',' := by
  rw [head?_grouped]
  exact fun h => not_mem_decimal (by decide) (List.mem_of_head? h)

theorem getLast?_grouped_ne (n : Nat) : (grouped n).getLast? ≠ some ',' := by
  rw [getLast?_grouped]
  exact fun h => not_mem_decimal (by decide) (List.mem_of_getLast? h)

end ExchangeBench.Text
