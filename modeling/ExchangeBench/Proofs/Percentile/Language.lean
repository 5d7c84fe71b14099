import ExchangeBench.Percentile.Set
import ExchangeBench.Proofs.Decimal.Literal
import ExchangeBench.Proofs.Text.Blank

/-!
# Which texts are sets of percentiles

A list of percentiles is number literals between commas, with blanks around them. All items are read
before any is checked for its range, so an item that is no literal is reported rather than an earlier one
that is out of range.

- `Binary64.InRange`, `Percentile.ofBinary64_eq_ok_iff`: the doubles that are percentiles.
- `PercentileSet.splitAt_eq_splitOn`, `firstOccurrences_eq_eraseDups`: items, and what is left of them.
- `PercentileSet.parse_eq_ok_iff`, `PercentileSet.parse_eq_error_iff`: what is read of a text.
- `PercentileSet.parse_padded`: a printed set is read back.
- `PercentileSet.parse_language`: all of it.
-/

namespace ExchangeBench

/-! ## Numbers in range -/

namespace Binary64

/-- A double is a number from 0 to 100. -/
structure InRange (x : Binary64) : Prop where
  isFinite : x.isFinite = true
  nonneg : 0 ≤ x.toRat
  le_hundred : x.toRat ≤ 100

theorem magnitude_hundred : magnitude 0x4059000000000000 = 100 := by decide +kernel

theorem magnitude_pos {c : Nat} (hc : c < infinityCode) (hne : c ≠ 0) : 0 < magnitude c := by
  refine (Decimal.magnitude_nonneg c).lt_of_ne' fun h => hne ?_
  exact magnitude_injective hc (by decide) (h.trans magnitude_zero.symm)

/-- Numbers in range are told by their codes. -/
theorem inRange_iff {x : Binary64} :
    x.InRange ↔ x.code ≤ 0x4059000000000000 ∧ (x.code = 0 ∨ x.negative = false) := by
  obtain ⟨negative, code⟩ := x
  constructor
  · rintro ⟨hfinite, hnonneg, hle⟩
    have hcode : code < infinityCode := of_decide_eq_true hfinite
    cases negative with
    | true =>
      have hzero : code = 0 := by
        by_contra hne
        have hpos := magnitude_pos hcode hne
        have hneg : 0 ≤ -magnitude code := hnonneg
        linarith
      exact ⟨hzero.trans_le (Nat.zero_le _), .inl hzero⟩
    | false =>
      refine ⟨?_, .inr rfl⟩
      by_contra hlarge
      rw [Nat.not_le] at hlarge
      -- a larger code would be that of the same number
      have heq : magnitude code = magnitude 0x4059000000000000 :=
        le_antisymm (hle.trans magnitude_hundred.ge) (magnitude_le_magnitude hlarge.le)
      exact hlarge.ne' (magnitude_injective hcode (by decide) heq)
  · rintro ⟨hle, hsign⟩
    have hvalue : (⟨negative, code⟩ : Binary64).toRat = magnitude code := by
      rcases hsign with rfl | rfl
      · rw [toRat, magnitude_zero, neg_zero, ite_self]
      · rfl
    refine ⟨decide_eq_true (hle.trans_lt (by decide)), ?_, ?_⟩
    · exact hvalue ▸ Decimal.magnitude_nonneg code
    · exact hvalue ▸ (magnitude_le_magnitude hle).trans_eq magnitude_hundred

theorem InRange.toRat_eq {x : Binary64} (h : x.InRange) : x.toRat = magnitude x.code := by
  rw [← abs_toRat, abs_of_nonneg h.nonneg]

end Binary64

namespace Percentile

open Binary64

theorem eq_of_toRat_eq {p q : Percentile} (h : p.toBinary64.toRat = q.toBinary64.toRat) : p = q :=
  eq_of_code (magnitude_injective p.isFinite q.isFinite h)

theorem exists_ofBinary64 {x : Binary64} (h : x.InRange) :
    ∃ p, ofBinary64 x = .ok p ∧ p.toBinary64.toRat = x.toRat := by
  obtain ⟨hle, hsign⟩ := inRange_iff.mp h
  rw [h.toRat_eq]
  unfold ofBinary64 ofBinary64?
  rw [dif_pos hle]
  by_cases hzero : x.isZero = true
  · rw [if_pos hzero]
    refine ⟨_, rfl, ?_⟩
    rw [beq_iff_eq.mp hzero]
    exact if_neg Bool.false_ne_true
  · have hpositive : x.negative = false := hsign.resolve_left fun hcode => hzero (beq_iff_eq.mpr hcode)
    rw [if_neg hzero, hpositive]
    exact ⟨_, rfl, if_neg Bool.false_ne_true⟩

/-- Doubles out of range are refused with their plain text. -/
theorem ofBinary64_of_not_inRange {x : Binary64} (h : ¬ x.InRange) :
    ofBinary64 x = .error (.invalidPercentile (Layout.plain.text x)) := by
  rw [inRange_iff, not_and_or, not_or] at h
  unfold ofBinary64 ofBinary64?
  rcases h with hlarge | ⟨hne, hnegative⟩
  · rw [dif_neg hlarge]
  · have hzero : x.isZero = false := beq_false_of_ne hne
    rw [Bool.not_eq_false] at hnegative
    simp only [hzero, hnegative, Bool.false_eq_true, if_false, if_true, dite_eq_ite, ite_self]

/-- **A double is accepted if it is in range**, as the percentile that is the same number. -/
theorem ofBinary64_eq_ok_iff {x : Binary64} {p : Percentile} :
    ofBinary64 x = .ok p ↔ x.InRange ∧ p.toBinary64.toRat = x.toRat := by
  by_cases hrange : x.InRange
  · obtain ⟨q, hq, hvalue⟩ := exists_ofBinary64 hrange
    rw [hq, and_iff_right hrange, ← hvalue, Except.ok.injEq]
    exact ⟨fun h => h ▸ rfl, fun h => (eq_of_toRat_eq h).symm⟩
  · rw [ofBinary64_of_not_inRange hrange]
    exact iff_of_false nofun fun h => hrange h.1

theorem ofBinary64_eq_error_iff {x : Binary64} {e : BenchError} :
    ofBinary64 x = .error e ↔ ¬ x.InRange ∧ e = .invalidPercentile (Layout.plain.text x) := by
  by_cases hrange : x.InRange
  · obtain ⟨q, hq, -⟩ := exists_ofBinary64 hrange
    rw [hq]
    exact iff_of_false nofun fun h => h.1 hrange
  · rw [ofBinary64_of_not_inRange hrange, and_iff_right hrange, Except.error.injEq]
    exact eq_comm

theorem inRange (p : Percentile) : p.toBinary64.InRange :=
  inRange_iff.mpr ⟨p.le_hundred, .inr rfl⟩

/-- The text of a percentile is digits, or digits on either side of a point. -/
theorem numeral_text (p : Percentile) : Numeral '.' p.text.toList := by
  have hnan : p.toBinary64.isNaN = false := decide_eq_false (Nat.not_lt.mpr p.isFinite.le)
  have hinfinite : p.toBinary64.code ≠ infinityCode := p.isFinite.ne
  rw [text, Layout.text, String.toList_ofList, Layout.write, hnan]
  simp only [if_neg hinfinite]
  exact Layout.numeral_writeDecimal _

theorem binary64?_text (p : Percentile) :
    Literal.binary64? p.text.toList = some p.toBinary64 := by
  rw [text, Layout.text, String.toList_ofList]
  exact Literal.binary64?_write p.inRange.isFinite

end Percentile

/-! ## First occurrences -/

theorem firstOccurrences_filter {α : Type} [DecidableEq α] (p : α → Bool) (l : List α) :
    firstOccurrences (l.filter p) = (firstOccurrences l).filter p := by
  induction l with
  | nil => rfl
  | cons a l ih =>
    rw [firstOccurrences, List.filter_cons, List.filter_cons]
    split
    · rw [firstOccurrences, ih, List.filter_filter, List.filter_filter]
      simp only [Bool.and_comm]
    next hp =>
      -- the element that is filtered out anyway need not be filtered out again
      rw [ih, List.filter_filter]
      refine List.filter_congr fun b _ => ?_
      by_cases hb : b = a
      · rw [hb, Bool.eq_false_of_not_eq_true hp, Bool.false_and]
      · rw [decide_eq_true hb, Bool.and_true]

theorem firstOccurrences_eq_eraseDups {α : Type} [DecidableEq α] (l : List α) :
    firstOccurrences l = l.eraseDups := by
  induction hn : l.length using Nat.strong_induction_on generalizing l with
  | _ n ih =>
    cases l with
    | nil => rfl
    | cons a l =>
      have hlt : (l.filter fun b => !b == a).length < n := by
        rw [← hn, List.length_cons]
        exact Nat.lt_succ_of_le (List.length_filter_le _ _)
      rw [List.eraseDups_cons, ← ih _ hlt _ rfl, firstOccurrences_filter, firstOccurrences]
      congr 1
      refine List.filter_congr fun b _ => ?_
      rw [Bool.beq_eq_decide_eq, decide_not]

/-- Where nothing occurs twice all occurrences are first. -/
theorem firstOccurrences_of_nodup {α : Type} [DecidableEq α] {l : List α} (h : l.Nodup) :
    firstOccurrences l = l := by
  induction l with
  | nil => rfl
  | cons a l ih =>
    obtain ⟨ha, hl⟩ := List.nodup_cons.mp h
    rw [firstOccurrences, ih hl, List.filter_eq_self.mpr]
    rintro b hb
    exact decide_eq_true fun heq => ha (heq ▸ hb)

/-- First occurrences stay first under a one-to-one function. -/
theorem firstOccurrences_map {α β : Type} [DecidableEq α] [DecidableEq β] {f : α → β}
    (hf : Function.Injective f) (l : List α) :
    firstOccurrences (l.map f) = (firstOccurrences l).map f := by
  induction l with
  | nil => rfl
  | cons a l ih =>
    rw [List.map_cons, firstOccurrences, ih, firstOccurrences, List.map_cons, List.filter_map]
    congr 2
    refine List.filter_congr fun b _ => ?_
    simp only [Function.comp_apply, hf.ne_iff]

/-! ## Reading all of a list -/

section All

variable {α β ε : Type} {f : α → Except ε β}

theorem mapM_cons_of_error {a : α} {e : ε} (h : f a = .error e) (l : List α) :
    (a :: l).mapM f = .error e := by
  rw [List.mapM_cons, h]
  rfl

theorem mapM_cons_of_ok {a : α} {b : β} (h : f a = .ok b) (l : List α) :
    (a :: l).mapM f = (l.mapM f).map (b :: ·) := by
  rw [List.mapM_cons, h]
  cases l.mapM f <;> rfl

theorem mapM_eq_ok_iff {l : List α} {bs : List β} :
    l.mapM f = .ok bs ↔ l.map f = bs.map .ok := by
  induction l generalizing bs with
  | nil =>
    rw [List.mapM_nil, List.map_nil]
    cases bs with
    | nil => exact iff_of_true rfl rfl
    | cons => exact iff_of_false nofun nofun
  | cons a l ih =>
    rw [List.map_cons]
    cases hf : f a with
    | error e =>
      rw [mapM_cons_of_error hf]
      cases bs <;> exact iff_of_false nofun nofun
    | ok b =>
      rw [mapM_cons_of_ok hf]
      cases bs with
      | nil => cases l.mapM f <;> exact iff_of_false nofun nofun
      | cons b' bs =>
        rw [List.map_cons, List.cons.injEq, ← ih]
        cases l.mapM f <;> simp [Except.map]

/-- The first failure is the one that is reported. -/
theorem mapM_eq_error_iff {l : List α} {e : ε} :
    l.mapM f = .error e ↔ ∃ before a after, ∃ bs : List β, l = before ++ a :: after ∧
      before.map f = bs.map .ok ∧ f a = .error e := by
  constructor
  · intro h
    induction l with
    | nil => cases h
    | cons a l ih =>
      cases hf : f a with
      | error e' =>
        rw [mapM_cons_of_error hf] at h
        cases h
        exact ⟨[], a, l, [], rfl, rfl, hf⟩
      | ok b =>
        rw [mapM_cons_of_ok hf] at h
        have hrest : l.mapM f = .error e := by
          cases hl : l.mapM f with
          | error => rw [hl] at h; exact h
          | ok => rw [hl] at h; cases h
        obtain ⟨before, a', after, bs, rfl, hbefore, herror⟩ := ih hrest
        refine ⟨a :: before, a', after, b :: bs, rfl, ?_, herror⟩
        rw [List.map_cons, hf, hbefore, List.map_cons]
  · rintro ⟨before, a, after, bs, rfl, hbefore, herror⟩
    rw [List.mapM_append, mapM_eq_ok_iff.mpr hbefore, mapM_cons_of_error herror]
    rfl

end All

/-! ## Sets of doubles -/

namespace PercentileSet

open Binary64

theorem eq_of_requested {s t : PercentileSet} (h : s.requested = t.requested) : s = t := by
  cases s
  cases t
  cases h
  rfl

/-- The numbers that were asked for. -/
def numbers (s : PercentileSet) : List ℚ :=
  s.requested.map fun p => p.toBinary64.toRat

theorem map_ofBinary64_eq_iff {xs : List Binary64} {ps : List Percentile} :
    xs.map Percentile.ofBinary64 = ps.map .ok ↔
      (∀ x ∈ xs, x.InRange) ∧ (ps.map fun p => p.toBinary64.toRat) = xs.map toRat := by
  induction xs generalizing ps with
  | nil => cases ps <;> simp
  | cons x xs ih =>
    cases ps with
    | nil => simp
    | cons p ps =>
      rw [List.map_cons, List.map_cons, List.cons.injEq, Percentile.ofBinary64_eq_ok_iff, ih,
        List.map_cons, List.map_cons, List.cons.injEq, List.forall_mem_cons]
      exact and_and_and_comm

theorem exists_map_ofBinary64 {xs : List Binary64} (h : ∀ x ∈ xs, x.InRange) :
    ∃ ps : List Percentile, xs.map Percentile.ofBinary64 = ps.map .ok := by
  induction xs with
  | nil => exact ⟨[], rfl⟩
  | cons x xs ih =>
    rw [List.forall_mem_cons] at h
    obtain ⟨p, hp, -⟩ := Percentile.exists_ofBinary64 h.1
    obtain ⟨ps, hps⟩ := ih h.2
    exact ⟨p :: ps, by rw [List.map_cons, hp, hps]; rfl⟩

theorem ofList?_eq_some_iff {ps : List Percentile} {s : PercentileSet} :
    ofList? ps = some s ↔ ps ≠ [] ∧ s.requested = firstOccurrences ps := by
  cases ps with
  | nil => exact iff_of_false nofun fun h => h.1 rfl
  | cons p ps =>
    rw [ofList?, Option.some.injEq, and_iff_right (List.cons_ne_nil p ps)]
    exact ⟨fun h => h ▸ rfl, fun h => eq_of_requested h.symm⟩

theorem ofBinary64s_eq_ok_iff_mapM {xs : List Binary64} {s : PercentileSet} :
    ofBinary64s xs = .ok s ↔
      ∃ ps, xs.mapM Percentile.ofBinary64 = .ok ps ∧ ofList? ps = some s := by
  unfold ofBinary64s
  cases xs.mapM Percentile.ofBinary64 with
  | error e => exact iff_of_false nofun fun ⟨_, h, _⟩ => nomatch h
  | ok ps => cases hps : ofList? ps <;> simp [hps]

/-- The first double that is out of range is refused, and so is the empty list. -/
theorem ofBinary64s_eq_error_iff {xs : List Binary64} {e : BenchError} :
    ofBinary64s xs = .error e ↔ (xs = [] ∧ e = .emptyPercentiles) ∨
      ∃ before x after, xs = before ++ x :: after ∧ (∀ y ∈ before, y.InRange) ∧ ¬ x.InRange ∧
        e = .invalidPercentile (Layout.plain.text x) := by
  have hrefused : xs.mapM Percentile.ofBinary64 = .error e ↔
      ∃ before x after, xs = before ++ x :: after ∧ (∀ y ∈ before, y.InRange) ∧ ¬ x.InRange ∧
        e = .invalidPercentile (Layout.plain.text x) := by
    rw [mapM_eq_error_iff]
    constructor
    · rintro ⟨before, x, after, ps, hxs, hbefore, herror⟩
      exact ⟨before, x, after, hxs, (map_ofBinary64_eq_iff.mp hbefore).1,
        Percentile.ofBinary64_eq_error_iff.mp herror⟩
    · rintro ⟨before, x, after, hxs, hbefore, herror⟩
      obtain ⟨ps, hps⟩ := exists_map_ofBinary64 hbefore
      exact ⟨before, x, after, ps, hxs, hps, Percentile.ofBinary64_eq_error_iff.mpr herror⟩
  rw [← hrefused]
  unfold ofBinary64s
  cases hps : xs.mapM Percentile.ofBinary64 with
  | error e' =>
    have hsome : xs ≠ [] := by
      rintro rfl
      cases hps
    simp [hsome]
  | ok ps =>
    cases ps with
    | nil =>
      have hnil : xs = [] := List.map_eq_nil_iff.mp (mapM_eq_ok_iff.mp hps)
      simp [hnil, ofList?, eq_comm]
    | cons p ps =>
      refine iff_of_false nofun ?_
      rintro (⟨rfl, -⟩ | h)
      · cases hps
      · cases h

/-- **Doubles make a set if there are some and all are in range.** It has their numbers, the first
occurrence of each. -/
theorem ofBinary64s_eq_ok_iff {xs : List Binary64} {s : PercentileSet} :
    ofBinary64s xs = .ok s ↔
      xs ≠ [] ∧ (∀ x ∈ xs, x.InRange) ∧ s.numbers = (xs.map toRat).eraseDups := by
  have hinjective : Function.Injective fun p : Percentile => p.toBinary64.toRat :=
    fun _ _ => Percentile.eq_of_toRat_eq
  rw [ofBinary64s_eq_ok_iff_mapM, ← firstOccurrences_eq_eraseDups, numbers]
  constructor
  · rintro ⟨ps, hps, hs⟩
    obtain ⟨hne, hrequested⟩ := ofList?_eq_some_iff.mp hs
    obtain ⟨hrange, hnumbers⟩ := map_ofBinary64_eq_iff.mp (mapM_eq_ok_iff.mp hps)
    refine ⟨?_, hrange, ?_⟩
    · rintro rfl
      exact hne (List.map_eq_nil_iff.mp hnumbers)
    · rw [hrequested, ← firstOccurrences_map hinjective, hnumbers]
  · rintro ⟨hne, hrange, hnumbers⟩
    obtain ⟨ps, hps⟩ := exists_map_ofBinary64 hrange
    obtain ⟨-, hmap⟩ := map_ofBinary64_eq_iff.mp hps
    refine ⟨ps, mapM_eq_ok_iff.mpr hps, ofList?_eq_some_iff.mpr ⟨?_, ?_⟩⟩
    · rintro rfl
      exact hne (List.map_eq_nil_iff.mp hps)
    · rw [← hmap, firstOccurrences_map hinjective] at hnumbers
      exact List.map_injective_iff.mpr hinjective hnumbers

/-! ## Items -/

theorem splitAt_eq_splitOn (sep : Char) (cs : List Char) : splitAt sep cs = cs.splitOn sep := by
  induction cs with
  | nil => rfl
  | cons c cs ih =>
    rw [splitAt, List.splitOn_cons_eq_if_modifyHead, ih]
    by_cases hc : c = sep
    · simp [hc]
    · rw [if_neg hc, if_neg (by simpa using hc)]
      cases hsplit : cs.splitOn sep with
      | nil => exact absurd hsplit (List.splitOn_ne_nil sep cs)
      | cons item items => rfl

theorem parseItem_eq_ok_iff {item : List Char} {x : Binary64} :
    parseItem item = .ok x ↔ Literal.binary64? (Text.trim item) = some x := by
  simp only [parseItem]
  cases Literal.binary64? (Text.trim item) <;> simp

theorem parseItem_eq_error_iff {item : List Char} {e : BenchError} :
    parseItem item = .error e ↔ Literal.binary64? (Text.trim item) = none ∧
      e = .invalidPercentile (String.ofList (Text.trim item)) := by
  simp only [parseItem]
  cases Literal.binary64? (Text.trim item) <;> simp [eq_comm]

theorem map_parseItem_eq_iff {items : List (List Char)} {xs : List Binary64} :
    items.map parseItem = xs.map .ok ↔
      (items.map Text.trim).map Literal.binary64? = xs.map some := by
  induction items generalizing xs with
  | nil => cases xs <;> simp
  | cons item items ih =>
    cases xs with
    | nil => simp
    | cons x xs =>
      rw [List.map_cons, List.map_cons, List.cons.injEq, parseItem_eq_ok_iff, ih, List.map_cons,
        List.map_cons, List.map_cons, List.cons.injEq]

/-! ## Texts -/

/-- The items of a text: what stands between commas, without the blanks around it. -/
def items (s : String) : List (List Char) :=
  (s.toList.splitOn ',').map Text.trim

/-- **A text is a set if all its items are literals of numbers in range.** -/
theorem parse_eq_ok_iff {s : String} {set : PercentileSet} :
    parse s = .ok set ↔ ∃ xs : List Binary64, (items s).map Literal.binary64? = xs.map some ∧
      (∀ x ∈ xs, x.InRange) ∧ set.numbers = (xs.map toRat).eraseDups := by
  have hread : parse s = .ok set ↔
      ∃ xs, (splitAt ',' s.toList).mapM parseItem = .ok xs ∧ ofBinary64s xs = .ok set := by
    unfold parse
    cases (splitAt ',' s.toList).mapM parseItem with
    | error e => exact iff_of_false nofun fun ⟨_, h, _⟩ => nomatch h
    | ok xs => simp
  rw [hread, splitAt_eq_splitOn]
  refine exists_congr fun xs => ?_
  rw [mapM_eq_ok_iff, map_parseItem_eq_iff, ofBinary64s_eq_ok_iff]
  refine and_congr_right fun hitems => and_iff_right ?_
  rintro rfl
  exact List.splitOn_ne_nil ',' s.toList (List.map_eq_nil_iff.mp (List.map_eq_nil_iff.mp hitems))

theorem mapM_parseItem_eq_error_iff {s : String} {e : BenchError} :
    (s.toList.splitOn ',').mapM parseItem = .error e ↔
      ∃ before item after, ∃ xs : List Binary64, items s = before ++ item :: after ∧
        before.map Literal.binary64? = xs.map some ∧ Literal.binary64? item = none ∧
        e = .invalidPercentile (String.ofList item) := by
  rw [mapM_eq_error_iff]
  constructor
  · rintro ⟨before, item, after, xs, hsplit, hbefore, herror⟩
    refine ⟨before.map Text.trim, Text.trim item, after.map Text.trim, xs, ?_,
      map_parseItem_eq_iff.mp hbefore, parseItem_eq_error_iff.mp herror⟩
    rw [items, hsplit, List.map_append, List.map_cons]
  · rintro ⟨before', item', after', xs, hsplit, hbefore, herror⟩
    obtain ⟨before, rest, hs, rfl, hrest⟩ := List.map_eq_append_iff.mp hsplit
    obtain ⟨item, after, rfl, rfl, -⟩ := List.map_eq_cons_iff.mp hrest
    exact ⟨before, item, after, xs, hs, map_parseItem_eq_iff.mpr hbefore,
      parseItem_eq_error_iff.mpr herror⟩

/-- **The first item that is no literal is refused**, and only then the first number that is out of
range. -/
theorem parse_eq_error_iff {s : String} {e : BenchError} :
    parse s = .error e ↔
      (∃ before item after, ∃ xs : List Binary64, items s = before ++ item :: after ∧
        before.map Literal.binary64? = xs.map some ∧ Literal.binary64? item = none ∧
        e = .invalidPercentile (String.ofList item)) ∨
      ∃ before x after, (items s).map Literal.binary64? = (before ++ x :: after).map some ∧
        (∀ y ∈ before, y.InRange) ∧ ¬ x.InRange ∧ e = .invalidPercentile (Layout.plain.text x) := by
  have hread : parse s = .error e ↔ (s.toList.splitOn ',').mapM parseItem = .error e ∨
      ∃ xs, (s.toList.splitOn ',').mapM parseItem = .ok xs ∧ ofBinary64s xs = .error e := by
    rw [parse, splitAt_eq_splitOn]
    cases (s.toList.splitOn ',').mapM parseItem with
    | error e => simp
    | ok xs => simp
  rw [hread, mapM_parseItem_eq_error_iff]
  refine or_congr_right ⟨?_, ?_⟩
  · rintro ⟨xs, hxs, herror⟩
    rw [mapM_eq_ok_iff, map_parseItem_eq_iff] at hxs
    rcases ofBinary64s_eq_error_iff.mp herror with ⟨rfl, -⟩ | ⟨before, x, after, rfl, hrefused⟩
    · -- there is an item, however empty the text is
      have hnone := List.map_eq_nil_iff.mp (List.map_eq_nil_iff.mp hxs)
      exact absurd hnone (List.splitOn_ne_nil ',' s.toList)
    · exact ⟨before, x, after, hxs, hrefused⟩
  · rintro ⟨before, x, after, hxs, hrefused⟩
    exact ⟨before ++ x :: after, mapM_eq_ok_iff.mpr (map_parseItem_eq_iff.mpr hxs),
      ofBinary64s_eq_error_iff.mpr (.inr ⟨before, x, after, rfl, hrefused⟩)⟩

/-! ## Printed sets -/

/-- An item is the text of a percentile between blanks. -/
def Padded (p : Percentile) (item : List Char) : Prop :=
  ∃ b e, (∀ c ∈ b, Text.isBlank c = true) ∧ (∀ c ∈ e, Text.isBlank c = true) ∧
    item = b ++ p.text.toList ++ e

/-- Trimming a padded text leaves the text. -/
theorem Padded.trim_eq {p : Percentile} {item : List Char} (h : Padded p item) :
    Text.trim item = p.text.toList := by
  obtain ⟨b, e, hb, he, rfl⟩ := h
  have hclear : ∀ c ∈ p.text.toList, Text.isBlank c = false := by
    intro c hc
    rcases p.numeral_text.isDigit_or_eq hc with hdigit | rfl
    · by_contra hblank
      rw [Text.isDigit_of_isBlank (Bool.eq_true_of_not_eq_false hblank)] at hdigit
      cases hdigit
    · decide
  rw [Text.trim_padded hb he]
  exact Text.trim_eq_self (fun c hc => hclear c (List.mem_of_mem_head? hc))
    fun c hc => hclear c (List.mem_of_mem_getLast? hc)

/-- A padded text has no comma. -/
theorem Padded.comma_notMem {p : Percentile} {item : List Char} (h : Padded p item) :
    ',' ∉ item := by
  obtain ⟨b, e, hb, he, rfl⟩ := h
  simp only [List.mem_append, not_or]
  refine ⟨⟨fun hc => ?_, fun hc => ?_⟩, fun hc => ?_⟩
  · cases hb _ hc
  · rcases p.numeral_text.isDigit_or_eq hc with hdigit | hpoint
    · cases hdigit
    · cases hpoint
  · cases he _ hc

theorem map_trim_of_padded {ps : List Percentile} {padded : List (List Char)}
    (h : List.Forall₂ Padded ps padded) :
    (∀ item ∈ padded, ',' ∉ item) ∧ padded.map Text.trim = ps.map fun p => p.text.toList := by
  induction h with
  | nil => exact ⟨List.forall_mem_nil _, rfl⟩
  | cons hp _ ih =>
    refine ⟨List.forall_mem_cons.mpr ⟨hp.comma_notMem, ih.1⟩, ?_⟩
    rw [List.map_cons, List.map_cons, hp.trim_eq, ih.2]

/-- **A printed set is read back**, whatever blanks there are around its items. -/
theorem parse_padded {set : PercentileSet} {padded : List (List Char)}
    (h : List.Forall₂ Padded set.requested padded) :
    parse (String.ofList ([','].intercalate padded)) = .ok set := by
  obtain ⟨hcomma, htrim⟩ := map_trim_of_padded h
  have hne : padded ≠ [] := by
    rintro rfl
    exact set.nonempty (List.forall₂_nil_right_iff.mp h)
  have hitems : items (String.ofList ([','].intercalate padded)) =
      set.requested.map fun p => p.text.toList := by
    rw [items, String.toList_ofList, List.splitOn_intercalate ',' hcomma hne, htrim]
  refine parse_eq_ok_iff.mpr ⟨set.requested.map Percentile.toBinary64, ?_, ?_, ?_⟩
  · rw [hitems, List.map_map, List.map_map]
    exact List.map_congr_left fun p _ => p.binary64?_text
  · intro x hx
    obtain ⟨p, -, rfl⟩ := List.mem_map.mp hx
    exact p.inRange
  · have hnodup : set.numbers.Nodup := set.nodup.map fun _ _ => Percentile.eq_of_toRat_eq
    rw [List.map_map, ← firstOccurrences_eq_eraseDups]
    exact (firstOccurrences_of_nodup hnodup).symm

/-- **Which texts are sets of percentiles**, item by item between the commas. A text is one if all its
items are literals of numbers from 0 to 100, and the set has these numbers in order, the first occurrence
of each. It is never empty, and none of its percentiles is a negative zero. If there is an item that is
no literal, the first of these is refused with its text. Otherwise it is the first number that is out of
range, or no number at all, with its plain text. And the plain texts of a set between commas, with any
blanks around them, are read as this set. -/
theorem parse_language (s : String) :
    let items := (s.toList.splitOn ',').map Text.trim
    (∀ set, parse s = .ok set ↔ ∃ xs : List Binary64, items.map Literal.binary64? = xs.map some ∧
      (∀ x ∈ xs, x.InRange) ∧
      (set.requested.map fun p => p.toBinary64.toRat) = (xs.map toRat).eraseDups) ∧
    (∀ set, parse s = .ok set →
      set.requested ≠ [] ∧ ∀ p ∈ set.requested, p.toBinary64.negative = false) ∧
    (∀ e, parse s = .error e ↔
      (∃ before item after, ∃ xs : List Binary64, items = before ++ item :: after ∧
        before.map Literal.binary64? = xs.map some ∧ Literal.binary64? item = none ∧
        e = .invalidPercentile (String.ofList item)) ∨
      ∃ before x after, items.map Literal.binary64? = (before ++ x :: after).map some ∧
        (∀ y ∈ before, y.InRange) ∧ ¬ x.InRange ∧ e = .invalidPercentile (Layout.plain.text x)) ∧
    ∀ (set : PercentileSet) (padded : List (List Char)),
      List.Forall₂ Padded set.requested padded → s = String.ofList ([','].intercalate padded) →
        parse s = .ok set := by
  intro items
  refine ⟨fun set => parse_eq_ok_iff, fun set _ => ⟨set.nonempty, fun p _ => rfl⟩,
    fun e => parse_eq_error_iff, ?_⟩
  rintro set padded hpadded rfl
  exact parse_padded hpadded

/-- The default set, with blanks around its second item. -/
theorem parse_language_of_default :
    let padded := ["50".toList, "\t95\u3000".toList, "99".toList]
    List.Forall₂ Padded PercentileSet.default.requested padded ∧
    parse "50,\t95\u3000,99" = .ok .default := by
  intro padded
  have hpadded : List.Forall₂ Padded PercentileSet.default.requested padded := by
    refine .cons ⟨[], [], nofun, nofun, ?_⟩ (.cons ⟨['\t'], ['\u3000'], List.all_eq_true.mp ?_,
      List.all_eq_true.mp ?_, ?_⟩ (.cons ⟨[], [], nofun, nofun, ?_⟩ .nil))
    all_goals decide +kernel
  obtain ⟨-, -, -, hread⟩ := parse_language "50,\t95\u3000,99"
  exact ⟨hpadded, hread .default padded hpadded (by decide +kernel)⟩

example : parse "101,x" = .error (.invalidPercentile "x") := by decide +kernel

end PercentileSet
end ExchangeBench
