import ExchangeBench.Proofs.Json.Reader

/-!
# Written documents are JSON

What is written of a document is a text of it. Numbers are written with the fewest digits that read back
as the same double, with a point or an exponent, so none of them is taken for a count; strings with the
escapes that there have to be; lists and objects line by line, which the grammar does not mind. A number
that is no finite double has no text, and a key that is there twice would be read twice, so both are kept
out of the documents that this is about.

- `Json.Canonical`: documents of finite numbers, with the keys of every object in ascending order.
- `Grammar.Fractional`, `Layout.fractional_writeDecimal`: decimals of a report as parts of the grammar.
- `Grammar.number_write`, `Grammar.quoted_quoted`: numbers and strings.
- `Json.denotes_write`, `Json.denotedBy_pretty`: values, and documents with the end of their line.
-/

namespace ExchangeBench

/-- Documents that can be written and read back: numbers are finite, and every object has its keys in
ascending order, each once. -/
inductive Json.Canonical : Json → Prop
  | null : Canonical .null
  | bool (b : Bool) : Canonical (.bool b)
  | count (n : Nat) : Canonical (.count n)
  | number {x : Binary64} (hx : x.isFinite = true) : Canonical (.number x)
  | text (s : String) : Canonical (.text s)
  | list {vs : List Json} (h : ∀ v ∈ vs, Canonical v) : Canonical (.list vs)
  | object {fs : List (String × Json)} (hkeys : (fs.map Prod.fst).Pairwise (· < ·))
      (h : ∀ f ∈ fs, Canonical f.2) : Canonical (.object fs)

/-! ## Numbers -/

namespace Text

/-- Only zero begins with a zero. -/
theorem head?_decimal {n : Nat} (hn : n ≠ 0) : (decimal n).head? ≠ some '0' := by
  induction n using decimal.induct with
  | case1 n hlt =>
    -- the number is its only digit
    intro hhead
    have hvalue := value_decimal n
    rw [decimal, if_pos hlt, List.head?_cons, Option.some.injEq] at hhead
    rw [decimal, if_pos hlt, hhead] at hvalue
    exact hn hvalue.symm
  | case2 n hlt ih =>
    rw [decimal, if_neg hlt, List.head?_append_of_ne_nil _ (decimal_ne_nil _)]
    exact ih (by omega)

end Text

namespace Json.Grammar

variable {ds : List Char} {x : ℚ} {p : Int}

theorem digits_decimal (n : Nat) : Digits (Text.decimal n) :=
  ⟨Text.decimal_ne_nil n, fun _ hc => Text.isDigit_of_mem_decimal hc⟩

theorem Whole.of_head? (hds : Digits ds) (hhead : ds.head? ≠ some '0') : Whole ds :=
  ⟨hds, fun _ hr => absurd (congrArg List.head? hr) hhead⟩

theorem whole_singleton {d : Char} (hd : d.isDigit = true) : Whole [d] :=
  ⟨⟨List.cons_ne_nil d [], List.forall_mem_singleton.mpr hd⟩, fun _ hr => (List.cons.inj hr).2.symm⟩

theorem whole_decimal (n : Nat) : Whole (Text.decimal n) := by
  by_cases hn : n = 0
  · have hzero : Text.decimal 0 = ['0'] := by
      rw [Text.decimal]
      rfl
    rw [hn, hzero]
    exact whole_singleton rfl
  · exact .of_head? (digits_decimal n) (Text.head?_decimal hn)

/-- A text without a sign that has a point or an exponent, and its number. -/
def Fractional (cs : List Char) (x : ℚ) : Prop :=
  ∃ ds fs part es e, cs = ds ++ fs ++ es ∧ Whole ds ∧ Fraction fs part ∧ Exponent es e ∧
    fs ++ es ≠ [] ∧ ratio ds part e = x

/-- Digits on either side of a point are one. The reader of literals knows its number. -/
theorem fractional_of_point {part : List Char} (hds : Whole ds) (hpart : Digits part)
    (hread : (Literal.readDecimal? (ds ++ '.' :: part)).bind Literal.Body.toRat? = some x) :
    Fractional (ds ++ '.' :: part) x := by
  have hvalue := Literal.readDecimal?_append hds.digits (.present hpart) .absent
  rw [List.append_nil] at hvalue
  rw [hvalue, Option.bind_some, Literal.Body.toRat?, Option.some.injEq] at hread
  exact ⟨ds, _, part, [], 0, (List.append_nil _).symm, hds, .present hpart, .absent, by simp, hread⟩

end Json.Grammar

namespace Layout

open Json.Grammar

variable {ds : List Char} {p : Int}

/-- Digits set out with a point have digits on either side of it. -/
theorem fractional_withPoint (hds : Digits ds) (hhead : ds.head? ≠ some '0') (p : Int) :
    Fractional (withPoint ['.', '0'] ds p) (Binary64.scaled (Text.value ds) 10 (p - ds.length)) := by
  have hread := readDecimal?_withPoint p (.inr rfl) hds.2 hds.1
  have hzeros : ∀ n, ∀ c ∈ List.replicate n '0', c.isDigit = true := fun _ _ => Text.isDigit_of_mem_zeros
  unfold withPoint at *
  split at hread
  next hbehind =>
    rw [if_pos hbehind]
    -- zeros between the point and the digits
    have hpart : Digits (List.replicate (-p).toNat '0' ++ ds) :=
      ⟨List.append_ne_nil_of_right_ne_nil _ hds.1, List.forall_mem_append.mpr ⟨hzeros _, hds.2⟩⟩
    exact fractional_of_point (whole_singleton rfl) hpart hread
  next hbehind =>
    rw [if_neg hbehind]
    split at hread
    next hbefore =>
      rw [if_pos hbefore]
      -- zeros between the digits and the point
      have hwhole : Digits (ds ++ List.replicate (p - ds.length).toNat '0') :=
        ⟨List.append_ne_nil_of_left_ne_nil hds.1 _, List.forall_mem_append.mpr ⟨hds.2, hzeros _⟩⟩
      have hhead' : (ds ++ List.replicate (p - ds.length).toNat '0').head? ≠ some '0' := by
        rwa [List.head?_append_of_ne_nil _ hds.1]
      have hpart : Digits ['0'] := ⟨List.cons_ne_nil _ _, List.forall_mem_singleton.mpr rfl⟩
      exact fractional_of_point (.of_head? hwhole hhead') hpart hread
    next hbefore =>
      rw [if_neg hbefore]
      obtain ⟨n, hn⟩ : ∃ n, p.toNat = n + 1 := Nat.exists_eq_add_one_of_ne_zero (by omega)
      have hwhole : Digits (ds.take p.toNat) := by
        refine ⟨?_, fun c hc => hds.2 c (List.mem_of_mem_take hc)⟩
        rw [← List.length_pos_iff, List.length_take]
        omega
      have hhead' : (ds.take p.toNat).head? ≠ some '0' := by
        rwa [hn, List.head?_take, if_neg (Nat.succ_ne_zero n)]
      have hpart : Digits (ds.drop p.toNat) := by
        refine ⟨?_, fun c hc => hds.2 c (List.mem_of_mem_drop hc)⟩
        rw [← List.length_pos_iff, List.length_drop]
        omega
      exact fractional_of_point (.of_head? hwhole hhead') hpart hread

/-- An exponent counts from the point behind the first digit. -/
theorem fractional_withExponent (hds : Digits ds) (p : Int) :
    Fractional (withExponent ds p) (Binary64.scaled (Text.value ds) 10 (p - ds.length)) := by
  obtain ⟨d, part, rfl⟩ := List.exists_cons_of_ne_nil hds.1
  have hd : Whole [d] := whole_singleton (hds.2 d List.mem_cons_self)
  have hexponent : Exponent ('e' :: (if p - 1 < 0 then '-' else '+') :: Text.decimal (p - 1).natAbs)
      (p - 1) := by
    have hdigits := digits_decimal (p - 1).natAbs
    have hvalue := Text.value_decimal (p - 1).natAbs
    by_cases hneg : p - 1 < 0
    · have hminus := Exponent.present (.inl rfl) .minus hdigits
      have hexponent : -((p - 1).natAbs : Int) = p - 1 := by omega
      rw [hvalue, if_pos rfl, hexponent] at hminus
      rw [if_pos hneg]
      exact hminus
    · have hplus := Exponent.present (.inl rfl) .plus hdigits
      have hexponent : ((p - 1).natAbs : Int) = p - 1 := by omega
      rw [hvalue, if_neg Bool.false_ne_true, hexponent] at hplus
      rw [if_neg hneg]
      exact hplus
  have hlength : p - 1 - part.length = p - (d :: part).length := by
    rw [List.length_cons]
    push_cast
    ring
  unfold withExponent
  dsimp only
  split
  next hempty =>
    obtain rfl : part = [] := List.isEmpty_iff.mp hempty
    exact ⟨[d], [], [], _, p - 1, rfl, hd, .absent, hexponent, by simp, by
      rw [ratio, hlength]; rfl⟩
  next hsome =>
    have hpart : Digits part :=
      ⟨fun hnil => hsome (List.isEmpty_iff.mpr hnil), fun c hc => hds.2 c (List.mem_cons_of_mem d hc)⟩
    refine ⟨[d], '.' :: part, part, _, p - 1, ?_, hd, .present hpart, hexponent, by simp, ?_⟩
    · simp
    · rw [ratio, hlength]
      rfl

/-- **A decimal of a report has a point or an exponent**, and is its number. -/
theorem fractional_writeDecimal (d : Decimal) : Fractional (report.writeDecimal d) d.toRat := by
  unfold writeDecimal
  split
  next hzero =>
    have hread : (Literal.readDecimal? (['0'] ++ '.' :: ['0'])).bind Literal.Body.toRat? =
        some d.toRat := by
      rw [Decimal.toRat_eq, hzero, Nat.cast_zero, zero_mul]
      rfl
    exact fractional_of_point (whole_singleton rfl)
      ⟨List.cons_ne_nil _ _, List.forall_mem_singleton.mpr rfl⟩ hread
  next hne =>
    have hrat : d.toRat = Binary64.scaled (Text.value (Text.decimal d.coefficient)) 10
        ((Text.decimal d.coefficient).length + d.exponent - (Text.decimal d.coefficient).length) := by
      rw [Text.value_decimal, add_sub_cancel_left]
      rfl
    have hds := digits_decimal d.coefficient
    dsimp only
    rw [hrat]
    split
    · exact fractional_withPoint hds (Text.head?_decimal hne) _
    · exact fractional_withExponent hds _

end Layout

namespace Json.Grammar

variable {cs s ws : List Char}

/-- **A finite double of a report is a number**, and denotes the double. -/
theorem number_write {x : Binary64} (hx : x.isFinite = true) :
    Number (Layout.report.write x) (.number x) := by
  obtain ⟨negative, code⟩ := x
  have hcode : code < Binary64.infinityCode := of_decide_eq_true hx
  have hnan : (⟨negative, code⟩ : Binary64).isNaN = false :=
    decide_eq_false (Nat.not_lt.mpr hcode.le)
  obtain ⟨ds, fs, part, es, e, hdecimal, hds, hfs, hes, hmore, hratio⟩ :=
    Layout.fractional_writeDecimal (Decimal.shortest .evenDigit code)
  have hnearest : Binary64.nearestCode (ratio ds part e) = code := by
    rw [hratio]
    exact Decimal.nearestCode_shortest .evenDigit hcode
  have hsign : Minus (if negative then ['-'] else []) negative := by
    cases negative
    · exact .absent
    · exact .present
  have hmore' : (if negative then ['-'] else []) ++ fs ++ es ≠ [] := by
    rw [List.append_assoc]
    exact List.append_ne_nil_of_right_ne_nil _ hmore
  have hnumber := Number.double hsign hds hfs hes hmore' (hnearest.symm ▸ hcode)
  rw [hnearest, List.append_assoc, List.append_assoc, ← List.append_assoc ds, ← hdecimal] at hnumber
  rw [Layout.write, hnan]
  simp only [if_neg hcode.ne]
  exact hnumber

/-! ## Strings -/

theorem codeUnit_of_lt {n : Nat} (hn : n < 32) :
    CodeUnit ['0', '0', Text.hexDigit (n / 16), Text.hexDigit (n % 16)] n := by
  have hhigh : n / 16 < 16 := by omega
  have hlow : n % 16 < 16 := by omega
  have hzero : Text.hexValue? '0' = some 0 := rfl
  have hunit := CodeUnit.of hzero hzero (Text.hexValue?_hexDigit hhigh) (Text.hexValue?_hexDigit hlow)
  have hn' : 16 * (16 * (16 * 0 + 0) + n / 16) + n % 16 = n := by omega
  rwa [hn'] at hunit

/-- A character is written as itself or as an escape of it. -/
theorem chars_escape (c : Char) (h : Chars cs s) : Chars (Text.escape c ++ cs) (c :: s) := by
  have hcode : Char.ofNat c.toNat = c := Char.ofNat_toNat c
  unfold Text.escape
  split
  next heq => exact .short (congrArg some heq.symm) h
  next hquote =>
  split
  next heq => exact .short (congrArg some heq.symm) h
  next hbackslash =>
  split
  next heq => exact .short (congrArg some heq.symm) h
  split
  next heq => exact .short (congrArg some heq.symm) h
  split
  next heq => exact .short (congrArg some heq.symm) h
  split
  next heq =>
    rw [heq] at hcode
    exact .short (congrArg some hcode) h
  split
  next heq =>
    rw [heq] at hcode
    exact .short (congrArg some hcode) h
  split
  next hlt =>
    have hunit := Chars.unit (codeUnit_of_lt hlt) (.inl (by omega)) h
    rwa [hcode] at hunit
  next hge => exact .plain (Nat.not_lt.mp hge) hquote hbackslash h

theorem chars_flatMap_escape (s : List Char) : Chars (s.flatMap Text.escape) s := by
  induction s with
  | nil => exact .nil
  | cons c s ih =>
    rw [List.flatMap_cons]
    exact chars_escape c ih

/-- **A string is written as itself.** -/
theorem quoted_quoted (s : String) : Quoted (Text.quoted s) s := by
  have hquoted := Quoted.of (chars_flatMap_escape s.toList)
  rwa [String.ofList_toList] at hquoted

/-! ## Values -/

theorem blank_newline (level : Nat) : Blank (newline level) := by
  intro c hc
  rcases List.mem_cons.mp hc with rfl | hc
  · exact .inr (.inr (.inl rfl))
  · exact .inl (List.eq_of_mem_replicate hc)

theorem blank_nil : Blank [] :=
  List.forall_mem_nil _

variable {v : Json} {vs : List Json} {f : String × Json} {fs : List (String × Json)} {level : Nat}

/-- Items on lines of their own. -/
theorem denotes_items (hws : Blank ws) (hv : Denotes (write level v) (.value v))
    (hvs : ∀ v ∈ vs, Denotes (write level v) (.value v)) :
    Denotes (newline level ++ write level v ++ writeItems level vs ++ ws) (.items (v :: vs)) := by
  induction vs generalizing v with
  | nil =>
    rw [writeItems, List.append_nil]
    exact .item (.element (blank_newline level) hv hws)
  | cons w vs ih =>
    obtain ⟨hw, hvs⟩ := List.forall_mem_cons.mp hvs
    have hfirst := Denotes.element (blank_newline level) hv blank_nil
    have hrest := Denotes.items hfirst (ih hw hvs)
    rw [List.append_nil] at hrest
    rw [writeItems]
    simpa using hrest

/-- Fields on lines of their own, a blank behind the colon. -/
theorem denotes_fields (hws : Blank ws) (hf : Denotes (write level f.2) (.value f.2))
    (hfs : ∀ f ∈ fs, Denotes (write level f.2) (.value f.2)) :
    Denotes (newline level ++ writeField level f ++ writeFields level fs ++ ws) (.fields (f :: fs)) := by
  have hblank : Blank [' '] := List.forall_mem_singleton.mpr (.inl rfl)
  induction fs generalizing f with
  | nil =>
    obtain ⟨k, v⟩ := f
    have hvalue := Denotes.element hblank hf hws
    have hfield := Denotes.field (blank_newline level) (quoted_quoted k) blank_nil hvalue
    rw [writeFields, writeField]
    simpa using hfield
  | cons g fs ih =>
    obtain ⟨k, v⟩ := f
    obtain ⟨hg, hfs⟩ := List.forall_mem_cons.mp hfs
    have hvalue := Denotes.element hblank hf blank_nil
    have hfields := Denotes.fields (blank_newline level) (quoted_quoted k) blank_nil hvalue (ih hg hfs)
    rw [writeField, writeFields]
    simpa using hfields

/-- **What is written of a value denotes it**, at every level. -/
theorem denotes_write (h : Canonical v) (level : Nat) : Denotes (write level v) (.value v) := by
  induction h generalizing level with
  | null => exact .null
  | bool b =>
    cases b
    · exact .no
    · exact .yes
  | count n =>
    have hcount := Number.count (whole_decimal n)
    rw [Text.value_decimal] at hcount
    rw [write]
    exact .number hcount
  | number hx => exact .number (number_write hx)
  | text s => exact .text (quoted_quoted s)
  | @list vs _ ih =>
    cases vs with
    | nil => exact .emptyList blank_nil
    | cons v vs =>
      obtain ⟨hv, hvs⟩ := List.forall_mem_cons.mp ih
      have hitems := denotes_items (blank_newline level) (hv (level + 1)) fun w hw => hvs w hw (level + 1)
      rw [write]
      exact .list hitems
  | @object fs _ _ ih =>
    cases fs with
    | nil => exact .emptyObject blank_nil
    | cons f fs =>
      obtain ⟨hf, hfs⟩ := List.forall_mem_cons.mp ih
      have hfields := denotes_fields (blank_newline level) (hf (level + 1)) fun g hg => hfs g hg (level + 1)
      rw [write]
      exact .object hfields

end Json.Grammar

namespace Json

variable {v : Json}

/-- **A written document denotes the document.** -/
theorem denotedBy_pretty (h : Canonical v) : DenotedBy v.pretty v := by
  have hend : Grammar.Blank ['\n'] := List.forall_mem_singleton.mpr (.inr (.inr (.inl rfl)))
  have hline := Grammar.Denotes.element Grammar.blank_nil (Grammar.denotes_write h 0) hend
  rwa [DenotedBy, pretty, String.toList_ofList]

/-- A written document ends with the line that it ends on. -/
theorem exists_pretty_object (fs : List (String × Json)) :
    ∃ cs, (object fs).pretty.toList = cs ++ ['\x7d', '\n'] := by
  rw [pretty, String.toList_ofList]
  cases fs with
  | nil => exact ⟨['\x7b'], rfl⟩
  | cons f fs =>
    rw [write]
    exact ⟨_, List.append_assoc _ _ _⟩

end Json
end ExchangeBench
