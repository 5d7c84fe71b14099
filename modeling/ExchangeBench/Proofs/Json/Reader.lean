import Mathlib.Data.List.DropRight
import ExchangeBench.Json.Reader
import ExchangeBench.Proofs.Decimal.Literal
import ExchangeBench.Proofs.Json.Grammar

/-!
# The reader reads every JSON text

What the grammar allows is read, and as what it denotes. So a text denotes one document at most. The
reader takes a number to reach as far as there are characters of numbers, which is no further than the
grammar takes it, because the text goes on with white space, a comma or a closing bracket.

- `Reader.number?_of_number`, `Reader.quoted?_of_chars`: numbers and strings.
- `Reader.Reads`: what the reader makes of a part of a text, whatever stands behind it.
- `Reader.reads_of_denotes`: every part is read, by induction on the grammar.
- `Json.read?_of_denotedBy`, `Json.DenotedBy.unique`: documents are read, and a text denotes one of them.
-/

namespace ExchangeBench

/-- Characters that pass a test are taken up to the first one that does not. -/
theorem Text.takeWhile_append {test : Char → Bool} {cs r : List Char} (hcs : ∀ c ∈ cs, test c = true)
    (hr : ∀ c t, r = c :: t → test c = false) :
    (cs ++ r).takeWhile test = cs ∧ (cs ++ r).dropWhile test = r := by
  rw [List.takeWhile_append_of_pos hcs, List.dropWhile_append_of_pos hcs]
  cases r with
  | nil => exact ⟨List.append_nil cs, rfl⟩
  | cons c t =>
    have hc : ¬ test c = true := Bool.eq_false_iff.mp (hr c t rfl)
    rw [List.takeWhile_cons_of_neg hc, List.dropWhile_cons_of_neg hc, List.append_nil]
    exact ⟨rfl, rfl⟩

/-! ## Numbers as literals -/

namespace Literal

open Json.Grammar

variable {sign ds fs part es r : List Char} {e : Int} {negative : Bool}

theorem readExponent?_append (hsign : ExponentSign sign negative) (hds : Digits ds) :
    readExponent? (sign ++ ds) =
      some (if negative then -(Text.value ds : Int) else Text.value ds) := by
  obtain ⟨hne, hdigits⟩ := hds
  have hsplit : splitSign (sign ++ ds) = (negative, ds) := by
    cases hsign with
    | absent =>
      obtain ⟨d, ds, rfl⟩ := List.exists_cons_of_ne_nil hne
      exact (read?_of_isDigit (.inl (hdigits d List.mem_cons_self)) ds).1
    | plus => rfl
    | minus => rfl
  have hall : ds.all Char.isDigit = true := List.all_eq_true.mpr hdigits
  rw [readExponent?, hsplit]
  simp [hne, hall]

/-- What follows the digits of a number begins with none. -/
theorem not_isDigit_of_exponent (hes : Exponent es e) : ∀ c t, es = c :: t → c.isDigit = false := by
  intro c t heq
  cases hes with
  | absent => cases heq
  | present hmark _ _ =>
    obtain ⟨rfl, -⟩ := List.cons.inj heq
    rcases hmark with rfl | rfl <;> rfl

theorem not_isDigit_of_fraction (hfs : Fraction fs part) (hes : Exponent es e) :
    ∀ c t, fs ++ es = c :: t → c.isDigit = false := by
  cases hfs with
  | absent => exact not_isDigit_of_exponent hes
  | present =>
    intro c t heq
    obtain ⟨rfl, -⟩ := List.cons.inj heq
    rfl

/-- **A number is read as a literal**, whichever of its parts are left out. -/
theorem readDecimal?_append (hds : Digits ds) (hfs : Fraction fs part) (hes : Exponent es e) :
    readDecimal? (ds ++ fs ++ es) = some (.decimal (ds ++ part) (e - part.length)) := by
  obtain ⟨htake, hdrop⟩ := Text.takeWhile_append hds.2 (not_isDigit_of_fraction hfs hes)
  rw [List.append_assoc, readDecimal?, htake, hdrop]
  cases hfs with
  | absent =>
    cases hes with
    | absent => simp [hds.1]
    | present hmark hsign hds' =>
      have hread := readExponent?_append hsign hds'
      rcases hmark with rfl | rfl <;> simp [hread, hds.1]
  | present hpart =>
    obtain ⟨htake', hdrop'⟩ := Text.takeWhile_append hpart.2 (not_isDigit_of_exponent hes)
    simp only [List.cons_append, htake', hdrop']
    cases hes with
    | absent => simp [hds.1]
    | present hmark hsign hds' =>
      have hread := readExponent?_append hsign hds'
      rcases hmark with rfl | rfl <;> simp [hread, hds.1]

/-- The double that a number denotes, if it is finite. -/
theorem binary64?_append (hsign : Minus sign negative) (hds : Digits ds) (hfs : Fraction fs part)
    (hes : Exponent es e) :
    binary64? (sign ++ ds ++ fs ++ es) = some ⟨negative, Binary64.nearestCode (ratio ds part e)⟩ := by
  have hread := readDecimal?_append hds hfs hes
  have hvalue := toBinary64_of_readDecimal? negative hread rfl
  obtain ⟨d, ds, rfl⟩ := List.exists_cons_of_ne_nil hds.1
  obtain ⟨hsplit, hbody⟩ := read?_of_isDigit (.inl (hds.2 d List.mem_cons_self)) (ds ++ fs ++ es)
  have hsplit' : splitSign (sign ++ d :: ds ++ fs ++ es) = (negative, d :: ds ++ fs ++ es) := by
    cases hsign with
    | absent => exact hsplit
    | present => rfl
  have hbody' : readBody? (d :: ds ++ fs ++ es) = readDecimal? (d :: ds ++ fs ++ es) := hbody
  rw [binary64?, read?, hsplit']
  simp only [hbody', hread, Option.map_some, hvalue]
  rfl

end Literal

namespace Json.Reader

open Grammar

variable {sign ds fs part es ws cs r : List Char} {e : Int} {negative : Bool} {v : Json} {c : Char}

/-! ## Numbers -/

/-- Digits of a whole number begin as the reader wants them to. -/
theorem startsAsNumber_append (hds : Whole ds) (hr : ∀ c t, r = c :: t → c.isDigit = false) :
    startsAsNumber (ds ++ r) = true := by
  obtain ⟨⟨hne, hdigits⟩, hunpadded⟩ := hds
  obtain ⟨d, ds, rfl⟩ := List.exists_cons_of_ne_nil hne
  have hd : d.isDigit = true := hdigits d List.mem_cons_self
  rw [List.cons_append]
  unfold startsAsNumber
  split
  next c t heq =>
    -- a zero is the only digit
    obtain ⟨rfl, htail⟩ := List.cons.inj heq
    rw [hunpadded ds rfl, List.nil_append] at htail
    rw [hr c t htail, Bool.not_false]
  next heq =>
    obtain ⟨rfl, -⟩ := List.cons.inj heq
    exact hd
  next heq => cases heq

theorem pointsFollowed_cons (hc : c ≠ '.') : pointsFollowed (c :: r) = pointsFollowed r := by
  conv_lhs => unfold pointsFollowed
  split
  next heq => exact absurd (List.cons.inj heq).1 hc
  next heq => exact absurd (List.cons.inj heq).1 hc
  next heq => rw [(List.cons.inj heq).2]
  next heq => cases heq

/-- Only points matter. -/
theorem pointsFollowed_append (hcs : ∀ c ∈ cs, c ≠ '.') : pointsFollowed (cs ++ r) = pointsFollowed r := by
  induction cs with
  | nil => rfl
  | cons c cs ih =>
    rw [List.cons_append, pointsFollowed_cons (hcs c List.mem_cons_self)]
    exact ih fun d hd => hcs d (List.mem_cons_of_mem c hd)

theorem ne_point_of_isDigit (hc : c.isDigit = true) : c ≠ '.' := by
  rintro rfl
  cases hc

theorem pointsFollowed_exponent (hes : Exponent es e) : pointsFollowed es = true := by
  have hpoints : ∀ c ∈ es, c ≠ '.' := by
    cases hes with
    | absent => exact List.forall_mem_nil _
    | @present mark sign ds negative hmark hsign hds =>
      have hsign' : ∀ c ∈ sign, c ≠ '.' := by
        cases hsign with
        | absent => exact List.forall_mem_nil _
        | plus => exact List.forall_mem_singleton.mpr (by decide)
        | minus => exact List.forall_mem_singleton.mpr (by decide)
      refine List.forall_mem_cons.mpr ⟨?_, List.forall_mem_append.mpr
        ⟨hsign', fun c hc => ne_point_of_isDigit (hds.2 c hc)⟩⟩
      rcases hmark with rfl | rfl <;> decide
  have happend := pointsFollowed_append (r := []) hpoints
  rwa [List.append_nil] at happend

theorem pointsFollowed_number (hds : Digits ds) (hfs : Fraction fs part) (hes : Exponent es e) :
    pointsFollowed (ds ++ fs ++ es) = true := by
  have hexponent := pointsFollowed_exponent hes
  rw [List.append_assoc, pointsFollowed_append fun c hc => ne_point_of_isDigit (hds.2 c hc)]
  cases hfs with
  | absent => exact hexponent
  | present hpart =>
    have hdigits := pointsFollowed_append (r := es) fun c hc => ne_point_of_isDigit (hpart.2 c hc)
    obtain ⟨d, part, rfl⟩ := List.exists_cons_of_ne_nil hpart.1
    have hd : d.isDigit = true := hpart.2 d List.mem_cons_self
    rw [List.cons_append, List.cons_append] at *
    rw [pointsFollowed, hd, hdigits, hexponent, Bool.and_self]

/-- The sign is taken off for the checks, and the rest has to pass them. -/
theorem number?_eq (hsign : Minus sign negative) (hstarts : startsAsNumber cs = true)
    (hpoints : pointsFollowed cs = true) :
    number? (sign ++ cs) =
      if (sign ++ cs).all Char.isDigit then some (.count (Text.value (sign ++ cs)))
      else
        match Literal.binary64? (sign ++ cs) with
        | some x => if x.isFinite then some (.number x) else none
        | none => none := by
  cases hsign with
  | present =>
    rw [List.singleton_append, number?, hstarts, hpoints]
    rfl
  | absent =>
    rw [List.nil_append, number?, hstarts, hpoints]
    · rfl
    · rintro r rfl
      cases hstarts

/-- **A number is read as what it denotes.** -/
theorem number?_of_number (h : Number cs v) : number? cs = some v := by
  cases h with
  | count hds =>
    have hstarts := startsAsNumber_append (r := []) hds fun c t heq => nomatch heq
    have hpoints := pointsFollowed_number hds.digits .absent .absent
    have hall : ([] ++ cs).all Char.isDigit = true := List.all_eq_true.mpr hds.digits.2
    rw [List.append_nil] at hstarts hpoints
    rw [List.append_nil] at hpoints
    have hread := number?_eq .absent hstarts hpoints
    rwa [if_pos hall] at hread
  | @double sign ds fs part es negative e hsign hds hfs hes hmore hfinite =>
    have hstarts : startsAsNumber (ds ++ fs ++ es) = true := by
      rw [List.append_assoc]
      exact startsAsNumber_append hds (Literal.not_isDigit_of_fraction hfs hes)
    have hpoints := pointsFollowed_number hds.digits hfs hes
    have hread := number?_eq hsign hstarts hpoints
    rw [← List.append_assoc, ← List.append_assoc] at hread
    -- the sign, the point or the mark of the exponent is no digit
    have hall : ¬ (sign ++ ds ++ fs ++ es).all Char.isDigit = true := by
      intro hall
      refine hmore ?_
      rw [List.all_append, List.all_append, List.all_append, Bool.and_eq_true, Bool.and_eq_true,
        Bool.and_eq_true] at hall
      obtain ⟨⟨⟨hsign', -⟩, hfs'⟩, hes'⟩ := hall
      cases hsign with
      | present => cases hsign'
      | absent =>
        cases hfs with
        | present => cases hfs'
        | absent =>
          cases hes with
          | present hmark => rcases hmark with rfl | rfl <;> cases hes'
          | absent => rfl
    have hvalue := Literal.binary64?_append hsign hds.digits hfs hes
    have hfinite' : (⟨negative, Binary64.nearestCode (ratio ds part e)⟩ : Binary64).isFinite = true :=
      decide_eq_true hfinite
    rw [hread, if_neg hall, hvalue]
    exact if_pos hfinite'

/-! ## Strings -/

variable {us s : List Char} {n fuel : Nat} {ch : Char}

theorem escaped?_of_short (h : shortEscape? c = some ch) : escaped? (c :: r) = some (ch, r) := by
  unfold shortEscape? at h
  split at h
  case h_9 => cases h
  all_goals
    cases h
    rfl

theorem unit?_append (h : CodeUnit us n) : unit? (us ++ r) = some (n, r) := by
  cases h with
  | of ha hb hc hd => simp [unit?, ha, hb, hc, hd]

theorem char?_of_isValidChar (hn : n.isValidChar) : char? n = some (Char.ofNat n) :=
  if_pos hn

/-- A code point that is no surrogate is read on its own. -/
theorem escapedUnit?_of_unit (h : CodeUnit us n) (hn : n.isValidChar) :
    escapedUnit? (us ++ r) = some (Char.ofNat n, r) := by
  have hhigh : ¬ (0xd800 ≤ n ∧ n < 0xdc00) := by
    rcases hn with hn | ⟨hn, -⟩ <;> omega
  unfold escapedUnit?
  simp only [unit?_append h, Bool.and_eq_true, decide_eq_true_eq, Option.pure_def, Option.bind_eq_bind,
    Option.bind_some, char?_of_isValidChar hn, ite_eq_right_iff, and_imp]
  intro hle hlt
  exact absurd ⟨hle, hlt⟩ hhigh

/-- Two surrogates are read together. -/
theorem escapedUnit?_of_pair {ls : List Char} {high low : Nat} (hus : CodeUnit us (0xd800 + high))
    (hhigh : high < 0x400) (hls : CodeUnit ls (0xdc00 + low)) (hlow : low < 0x400) :
    escapedUnit? (us ++ '\\' :: 'u' :: (ls ++ r)) =
      some (Char.ofNat (0x10000 + high * 0x400 + low), r) := by
  have hvalid : (0x10000 + high * 0x400 + low).isValidChar := Or.inr ⟨by omega, by omega⟩
  unfold escapedUnit?
  simp only [unit?_append hus, Bool.and_eq_true, decide_eq_true_eq, Option.pure_def,
    Option.bind_eq_bind, Option.bind_some, le_add_iff_nonneg_right, zero_le, true_and,
    unit?_append hls, add_tsub_cancel_left, char?_of_isValidChar hvalid]
  rw [if_pos (by omega), if_pos (by omega)]

/-- **A string is read as what it stands for**, up to the quotation mark behind it. -/
theorem quoted?_of_chars (h : Chars cs s) (hfuel : cs.length < fuel) :
    quoted? fuel (cs ++ '"' :: r) = some (s, r) := by
  -- one step of the reader for each character or escape of the text
  induction h generalizing fuel with
  | nil =>
    obtain ⟨fuel, rfl⟩ := Nat.exists_eq_add_one_of_ne_zero (Nat.ne_zero_of_lt hfuel)
    rfl
  | @plain c cs s hvisible hquote hbackslash h ih =>
    obtain ⟨fuel, rfl⟩ := Nat.exists_eq_add_one_of_ne_zero (Nat.ne_zero_of_lt hfuel)
    have hrest := ih (Nat.lt_of_succ_lt_succ hfuel)
    rw [List.cons_append, quoted?, if_neg hquote, if_neg hbackslash, if_neg (Nat.not_lt.mpr hvisible),
      hrest]
    rfl
  | @short e c cs s he h ih =>
    obtain ⟨fuel, rfl⟩ := Nat.exists_eq_add_one_of_ne_zero (Nat.ne_zero_of_lt hfuel)
    have hlength : cs.length < fuel := by
      rw [List.length_cons, List.length_cons] at hfuel
      omega
    have hrest := ih hlength
    rw [List.cons_append, List.cons_append, quoted?, if_neg (by decide), if_pos rfl,
      escaped?_of_short he]
    simp only [Option.bind_eq_bind, Option.bind_some, hrest]
    rfl
  | @unit us cs s n hus hn h ih =>
    obtain ⟨fuel, rfl⟩ := Nat.exists_eq_add_one_of_ne_zero (Nat.ne_zero_of_lt hfuel)
    have hlength : cs.length < fuel := by
      rw [List.length_append, List.length_cons, List.length_cons] at hfuel
      omega
    have hrest := ih hlength
    have hescaped : escaped? ('u' :: (us ++ (cs ++ '"' :: r))) = some (Char.ofNat n, cs ++ '"' :: r) :=
      escapedUnit?_of_unit hus hn
    rw [List.append_assoc, List.cons_append, List.cons_append, quoted?, if_neg (by decide), if_pos rfl,
      hescaped]
    simp only [Option.bind_eq_bind, Option.bind_some, hrest]
    rfl
  | @pair us ls cs s high low hus hhigh hls hlow h ih =>
    obtain ⟨fuel, rfl⟩ := Nat.exists_eq_add_one_of_ne_zero (Nat.ne_zero_of_lt hfuel)
    have hlength : cs.length < fuel := by
      simp only [List.length_append, List.length_cons] at hfuel
      omega
    have hrest := ih hlength
    have hescaped : escaped? ('u' :: (us ++ '\\' :: 'u' :: (ls ++ (cs ++ '"' :: r)))) =
        some (Char.ofNat (0x10000 + high * 0x400 + low), cs ++ '"' :: r) :=
      escapedUnit?_of_pair hus hhigh hls hlow
    have hshape : '\\' :: 'u' :: us ++ '\\' :: 'u' :: ls ++ cs ++ '"' :: r =
        '\\' :: 'u' :: (us ++ '\\' :: 'u' :: (ls ++ (cs ++ '"' :: r))) := by simp
    rw [hshape, quoted?, if_neg (by decide), if_pos rfl, hescaped]
    simp only [Option.bind_eq_bind, Option.bind_some, hrest]
    rfl

/-! ## White space -/

theorem isSpace_of_blank (hws : Blank ws) : ∀ c ∈ ws, isSpace c = true := by
  intro c hc
  rcases hws c hc with rfl | rfl | rfl | rfl <;> rfl

theorem skip_append (hws : Blank ws) : skip (ws ++ cs) = skip cs :=
  List.dropWhile_append_of_pos (isSpace_of_blank hws)

theorem skip_cons (hc : isSpace c = false) : skip (c :: cs) = c :: cs :=
  List.dropWhile_cons_of_neg (Bool.eq_false_iff.mp hc)

theorem skip_skip (cs : List Char) : skip (skip cs) = skip cs :=
  List.dropWhile_idempotent isSpace cs

/-- White space in front makes no difference to the parts of a text. -/
theorem value_skip (fuel : Nat) (cs : List Char) : value fuel (skip cs) = value fuel cs := by
  cases fuel with
  | zero => rfl
  | succ fuel => rw [value, value, skip_skip]

theorem items_skip (fuel : Nat) (cs : List Char) : items fuel (skip cs) = items fuel cs := by
  cases fuel with
  | zero => rfl
  | succ fuel => rw [items, items, value_skip]

theorem fields_skip (fuel : Nat) (cs : List Char) : fields fuel (skip cs) = fields fuel cs := by
  cases fuel with
  | zero => rfl
  | succ fuel => rw [fields, fields, skip_skip]

/-! ## Values -/

variable {rest t ks ws' r' : List Char} {k : String} {vs : List Json} {fs : List (String × Json)}
  {p : Part}

/-- No number goes on here. -/
def NoNumber (cs : List Char) : Prop :=
  ∀ c t, cs = c :: t → isNumberChar c = false

theorem noNumber_cons (hc : isNumberChar c = false) (cs : List Char) : NoNumber (c :: cs) := by
  intro c' t heq
  rwa [← (List.cons.inj heq).1]

theorem noNumber_append (hws : Blank ws) (hrest : NoNumber rest) : NoNumber (ws ++ rest) := by
  cases ws with
  | nil => exact hrest
  | cons c ws =>
    refine noNumber_cons ?_ _
    rcases hws c List.mem_cons_self with rfl | rfl | rfl | rfl <;> rfl

theorem isNumberChar_of_isDigit (hc : c.isDigit = true) : isNumberChar c = true := by
  simp [isNumberChar, hc]

theorem isNumberChar_of_number (h : Number cs v) : ∀ c ∈ cs, isNumberChar c = true := by
  have hdigits : ∀ {ds : List Char}, Digits ds → ∀ c ∈ ds, isNumberChar c = true :=
    fun hds c hc => isNumberChar_of_isDigit (hds.2 c hc)
  cases h with
  | count hds => exact hdigits hds.digits
  | @double sign ds fs part es negative e hsign hds hfs hes hmore hfinite =>
    have hsign' : ∀ c ∈ sign, isNumberChar c = true := by
      cases hsign with
      | absent => exact List.forall_mem_nil _
      | present => exact List.forall_mem_singleton.mpr rfl
    have hfs' : ∀ c ∈ fs, isNumberChar c = true := by
      cases hfs with
      | absent => exact List.forall_mem_nil _
      | present hpart => exact List.forall_mem_cons.mpr ⟨rfl, hdigits hpart⟩
    have hes' : ∀ c ∈ es, isNumberChar c = true := by
      cases hes with
      | absent => exact List.forall_mem_nil _
      | @present mark sign ds negative hmark hsign hds =>
        have hmark' : isNumberChar mark = true := by rcases hmark with rfl | rfl <;> rfl
        have hsign' : ∀ c ∈ sign, isNumberChar c = true := by
          cases hsign with
          | absent => exact List.forall_mem_nil _
          | plus => exact List.forall_mem_singleton.mpr rfl
          | minus => exact List.forall_mem_singleton.mpr rfl
        exact List.forall_mem_cons.mpr ⟨hmark', List.forall_mem_append.mpr ⟨hsign', hdigits hds⟩⟩
    rw [List.forall_mem_append, List.forall_mem_append, List.forall_mem_append]
    exact ⟨⟨⟨hsign', hdigits hds.digits⟩, hfs'⟩, hes'⟩

theorem ne_of_isNumberChar {d : Char} (hc : isNumberChar c = true) (hd : isNumberChar d = false) :
    c ≠ d := by
  rintro rfl
  exact absurd hc (Bool.eq_false_iff.mp hd)

theorem isSpace_of_isNumberChar (hc : isNumberChar c = true) : isSpace c = false := by
  have hne : ∀ {d : Char}, isNumberChar d = false → (c == d) = false := fun hd =>
    beq_false_of_ne (ne_of_isNumberChar hc hd)
  rw [isSpace, hne rfl, hne rfl, hne rfl, hne rfl]
  rfl

theorem exists_cons_of_number (h : Number cs v) : ∃ c t, isNumberChar c = true ∧ cs = c :: t := by
  have hchars := isNumberChar_of_number h
  cases cs with
  | nil => cases number?_of_number h
  | cons c t => exact ⟨c, t, hchars c List.mem_cons_self, rfl⟩

/-- A number reaches as far as there are characters of numbers. -/
theorem value_number (h : Number cs v) (hrest : NoNumber rest) :
    value (fuel + 1) (cs ++ rest) = some (v, rest) := by
  obtain ⟨htake, hdrop⟩ := Text.takeWhile_append (isNumberChar_of_number h) hrest
  obtain ⟨c, t, hc, rfl⟩ := exists_cons_of_number h
  have hne : ∀ {d : Char}, isNumberChar d = false → c ≠ d := ne_of_isNumberChar hc
  have hskip : skip (c :: t ++ rest) = c :: t ++ rest := skip_cons (isSpace_of_isNumberChar hc)
  rw [value, hskip]
  split
  next heq => exact absurd (List.cons.inj heq).1 (hne rfl)
  next heq => exact absurd (List.cons.inj heq).1 (hne rfl)
  next heq => exact absurd (List.cons.inj heq).1 (hne rfl)
  next heq => exact absurd (List.cons.inj heq).1 (hne rfl)
  next heq => exact absurd (List.cons.inj heq).1 (hne rfl)
  next heq => exact absurd (List.cons.inj heq).1 (hne rfl)
  next =>
    rw [htake, hdrop, number?_of_number h]
    rfl

theorem value_word :
    value (fuel + 1) ("null".toList ++ rest) = some (.null, rest) ∧
    value (fuel + 1) ("true".toList ++ rest) = some (.bool true, rest) ∧
    value (fuel + 1) ("false".toList ++ rest) = some (.bool false, rest) := by
  refine ⟨rfl, rfl, rfl⟩

theorem value_text (h : Quoted cs k) : value (fuel + 1) (cs ++ rest) = some (.text k, rest) := by
  cases h with
  | @of cs s h =>
    have hlength : cs.length < (cs ++ '"' :: rest).length + 1 := by
      rw [List.length_append]
      omega
    have hread := quoted?_of_chars (r := rest) h hlength
    rw [List.append_assoc, List.cons_append, List.singleton_append, value, skip_cons rfl]
    simp only [hread, Option.bind_eq_bind, Option.bind_some]
    rfl

theorem value_list (hskip : skip r = c :: t) (hc : c ≠ ']') (hitems : items fuel r = some (vs, rest)) :
    value (fuel + 1) ('[' :: r) = some (.list vs, rest) := by
  rw [← items_skip] at hitems
  rw [value, skip_cons rfl]
  simp only [hskip]
  split
  next heq => exact absurd (List.cons.inj heq).1 hc
  next =>
    rw [← hskip, hitems]
    rfl

theorem value_object (hskip : skip r = c :: t) (hc : c ≠ '\x7d')
    (hfields : fields fuel r = some (fs, rest)) :
    value (fuel + 1) ('\x7b' :: r) = some (.object fs, rest) := by
  rw [← fields_skip] at hfields
  rw [value, skip_cons rfl]
  simp only [hskip]
  split
  next heq => exact absurd (List.cons.inj heq).1 hc
  next =>
    rw [← hskip, hfields]
    rfl

theorem value_emptyList (hws : Blank ws) :
    value (fuel + 1) ('[' :: (ws ++ ']' :: rest)) = some (.list [], rest) := by
  rw [value, skip_cons rfl]
  simp only [skip_append hws, skip_cons (c := ']') rfl]

theorem value_emptyObject (hws : Blank ws) :
    value (fuel + 1) ('\x7b' :: (ws ++ '\x7d' :: rest)) = some (.object [], rest) := by
  rw [value, skip_cons rfl]
  simp only [skip_append hws, skip_cons (c := '\x7d') rfl]

/-- A field is its key, and a value up to what goes on behind it. -/
theorem fields_field (hws : Blank ws) (hk : Quoted ks k) (hws' : Blank ws')
    (hvalue : value fuel r = some (v, r')) :
    fields (fuel + 1) (ws ++ ks ++ ws' ++ ':' :: r) =
      match skip r' with
      | ',' :: r => do
        let (fs, r) ← fields fuel r
        return ((k, v) :: fs, r)
      | '\x7d' :: r => some ([(k, v)], r)
      | _ => none := by
  cases hk with
  | @of cs s h =>
    have hshape : ws ++ ('"' :: cs ++ ['"']) ++ ws' ++ ':' :: r =
        ws ++ '"' :: (cs ++ '"' :: (ws' ++ ':' :: r)) := by simp
    have hlength : cs.length < (cs ++ '"' :: (ws' ++ ':' :: r)).length + 1 := by
      rw [List.length_append]
      omega
    have hread := quoted?_of_chars (r := ws' ++ ':' :: r) h hlength
    rw [hshape, fields, skip_append hws, skip_cons rfl]
    simp only [hread, Option.bind_eq_bind, Option.bind_some, skip_append hws', skip_cons (c := ':') rfl,
      hvalue]
    rfl

/-! ## Parts of a text -/

/-- What the reader makes of a part of a text: it reads it, whatever stands behind it, and leaves white
space at its end to what follows. -/
def Reads (cs : List Char) : Part → Prop
  | .value v => ∀ rest fuel, NoNumber rest → cs.length ≤ fuel → value fuel (cs ++ rest) = some (v, rest)
  | .element v => ∀ rest fuel, NoNumber rest → cs.length ≤ fuel →
      ∃ r, value fuel (cs ++ rest) = some (v, r) ∧ skip r = skip rest
  | .items vs => ∀ rest fuel, cs.length < fuel → items fuel (cs ++ ']' :: rest) = some (vs, rest)
  | .fields fs => ∀ rest fuel, cs.length < fuel → fields fuel (cs ++ '\x7d' :: rest) = some (fs, rest)

/-- A part of a text begins with what opens a value or a key, behind white space. -/
theorem exists_skip_of_denotes (h : Denotes cs p) (rest : List Char) :
    ∃ c t, skip (cs ++ rest) = c :: t ∧ c ≠ ']' ∧ c ≠ '\x7d' := by
  induction h generalizing rest with
  | null => exact ⟨'n', _, rfl, by decide, by decide⟩
  | yes => exact ⟨'t', _, rfl, by decide, by decide⟩
  | no => exact ⟨'f', _, rfl, by decide, by decide⟩
  | number h =>
    obtain ⟨c, t, hc, rfl⟩ := exists_cons_of_number h
    exact ⟨c, t ++ rest, skip_cons (isSpace_of_isNumberChar hc), ne_of_isNumberChar hc rfl,
      ne_of_isNumberChar hc rfl⟩
  | text h =>
    cases h with
    | of => exact ⟨'"', _, rfl, by decide, by decide⟩
  | emptyList | list => exact ⟨'[', _, rfl, by decide, by decide⟩
  | emptyObject | object => exact ⟨'\x7b', _, rfl, by decide, by decide⟩
  | element hws _ _ ih =>
    rw [List.append_assoc, List.append_assoc, skip_append hws]
    exact ih _
  | item _ ih => exact ih rest
  | items _ _ ih _ =>
    rw [List.append_assoc]
    exact ih _
  | field hws hk _ _ _ =>
    cases hk with
    | of =>
      rw [List.append_assoc, List.append_assoc, List.append_assoc, skip_append hws]
      exact ⟨'"', _, rfl, by decide, by decide⟩
  | fields hws hk _ _ _ _ _ =>
    cases hk with
    | of =>
      rw [List.append_assoc, List.append_assoc, List.append_assoc, List.append_assoc, skip_append hws]
      exact ⟨'"', _, rfl, by decide, by decide⟩

/-- **Every part of a text is read.** Each list and each object takes one unit of fuel, and so does each
item and each field; the text has more characters than that. -/
theorem reads_of_denotes (h : Denotes cs p) : Reads cs p := by
  induction h with
  | null =>
    intro rest fuel _ hfuel
    obtain ⟨fuel, rfl⟩ := Nat.exists_eq_add_one_of_ne_zero (Nat.ne_zero_of_lt hfuel)
    exact value_word.1
  | yes =>
    intro rest fuel _ hfuel
    obtain ⟨fuel, rfl⟩ := Nat.exists_eq_add_one_of_ne_zero (Nat.ne_zero_of_lt hfuel)
    exact value_word.2.1
  | no =>
    intro rest fuel _ hfuel
    obtain ⟨fuel, rfl⟩ := Nat.exists_eq_add_one_of_ne_zero (Nat.ne_zero_of_lt hfuel)
    exact value_word.2.2
  | number h =>
    intro rest fuel hrest hfuel
    obtain ⟨c, t, -, rfl⟩ := exists_cons_of_number h
    obtain ⟨fuel, rfl⟩ := Nat.exists_eq_add_one_of_ne_zero (Nat.ne_zero_of_lt hfuel)
    exact value_number h hrest
  | @text cs s h =>
    intro rest fuel _ hfuel
    have hne : 0 < cs.length := by
      cases h with
      | of => exact Nat.zero_lt_succ _
    obtain ⟨fuel, rfl⟩ := Nat.exists_eq_add_one_of_ne_zero (Nat.ne_zero_of_lt (hne.trans_le hfuel))
    exact value_text h
  | emptyList hws =>
    intro rest fuel _ hfuel
    obtain ⟨fuel, rfl⟩ := Nat.exists_eq_add_one_of_ne_zero (Nat.ne_zero_of_lt hfuel)
    rw [List.append_assoc, List.cons_append, List.singleton_append]
    exact value_emptyList hws
  | @list cs vs h ih =>
    intro rest fuel _ hfuel
    obtain ⟨fuel, rfl⟩ := Nat.exists_eq_add_one_of_ne_zero (Nat.ne_zero_of_lt hfuel)
    obtain ⟨c, t, hskip, hc, -⟩ := exists_skip_of_denotes h (']' :: rest)
    rw [List.append_assoc, List.cons_append, List.singleton_append]
    refine value_list hskip hc (ih rest fuel ?_)
    simp only [List.length_append, List.length_cons] at hfuel
    omega
  | emptyObject hws =>
    intro rest fuel _ hfuel
    obtain ⟨fuel, rfl⟩ := Nat.exists_eq_add_one_of_ne_zero (Nat.ne_zero_of_lt hfuel)
    rw [List.append_assoc, List.cons_append, List.singleton_append]
    exact value_emptyObject hws
  | @object cs fs h ih =>
    intro rest fuel _ hfuel
    obtain ⟨fuel, rfl⟩ := Nat.exists_eq_add_one_of_ne_zero (Nat.ne_zero_of_lt hfuel)
    obtain ⟨c, t, hskip, -, hc⟩ := exists_skip_of_denotes h ('\x7d' :: rest)
    rw [List.append_assoc, List.cons_append, List.singleton_append]
    refine value_object hskip hc (ih rest fuel ?_)
    simp only [List.length_append, List.length_cons] at hfuel
    omega
  | @element ws cs ws' v hws h hws' ih =>
    intro rest fuel hrest hfuel
    rw [List.length_append, List.length_append] at hfuel
    refine ⟨ws' ++ rest, ?_, skip_append hws'⟩
    rw [← value_skip, List.append_assoc, List.append_assoc, skip_append hws, value_skip]
    exact ih (ws' ++ rest) fuel (noNumber_append hws' hrest) (by omega)
  | @item cs v h ih =>
    intro rest fuel hfuel
    obtain ⟨fuel, rfl⟩ := Nat.exists_eq_add_one_of_ne_zero (Nat.ne_zero_of_lt hfuel)
    obtain ⟨r, hvalue, hskip⟩ := ih (']' :: rest) fuel (noNumber_cons rfl _) (by omega)
    rw [items, hvalue]
    simp only [Option.bind_eq_bind, Option.bind_some, hskip, skip_cons (c := ']') rfl]
    rfl
  | @items cs ds v vs h hs ih ihs =>
    intro rest fuel hfuel
    obtain ⟨fuel, rfl⟩ := Nat.exists_eq_add_one_of_ne_zero (Nat.ne_zero_of_lt hfuel)
    rw [List.length_append, List.length_cons] at hfuel
    obtain ⟨r, hvalue, hskip⟩ := ih (',' :: (ds ++ ']' :: rest)) fuel (noNumber_cons rfl _) (by omega)
    have hitems := ihs rest fuel (by omega)
    rw [List.append_assoc, List.cons_append, items, hvalue]
    simp only [Option.bind_eq_bind, Option.bind_some, hskip, skip_cons (c := ',') rfl, hitems]
    rfl
  | @field ws ks ws' cs k v hws hk hws' h ih =>
    intro rest fuel hfuel
    obtain ⟨fuel, rfl⟩ := Nat.exists_eq_add_one_of_ne_zero (Nat.ne_zero_of_lt hfuel)
    simp only [List.length_append, List.length_cons] at hfuel
    obtain ⟨r, hvalue, hskip⟩ := ih ('\x7d' :: rest) fuel (noNumber_cons rfl _) (by omega)
    rw [List.append_assoc, List.cons_append, fields_field hws hk hws' hvalue]
    simp only [hskip, skip_cons (c := '\x7d') rfl]
  | @fields ws ks ws' cs ds k v fs hws hk hws' h hs ih ihs =>
    intro rest fuel hfuel
    obtain ⟨fuel, rfl⟩ := Nat.exists_eq_add_one_of_ne_zero (Nat.ne_zero_of_lt hfuel)
    simp only [List.length_append, List.length_cons] at hfuel
    obtain ⟨r, hvalue, hskip⟩ := ih (',' :: (ds ++ '\x7d' :: rest)) fuel (noNumber_cons rfl _) (by omega)
    have hfields := ihs rest fuel (by omega)
    have hshape : ws ++ ks ++ ws' ++ ':' :: cs ++ ',' :: ds ++ '\x7d' :: rest =
        ws ++ ks ++ ws' ++ ':' :: (cs ++ ',' :: (ds ++ '\x7d' :: rest)) := by simp
    rw [hshape, fields_field hws hk hws' hvalue]
    simp only [hskip, skip_cons (c := ',') rfl, hfields]
    rfl

end Json.Reader

namespace Json

variable {s : String} {v w : Json}

/-- **Every text of a document is read as the document.** -/
theorem read?_of_denotedBy (h : DenotedBy s v) : read? s = some v := by
  obtain ⟨r, hvalue, hskip⟩ := Reader.reads_of_denotes h [] (2 * s.toList.length + 2)
    (fun c t heq => nomatch heq) (by omega)
  rw [List.append_nil] at hvalue
  rw [read?, hvalue]
  simp only [hskip]
  rfl

/-- **A text denotes one document at most.** -/
theorem DenotedBy.unique (h : DenotedBy s v) (h' : DenotedBy s w) : v = w := by
  rw [← Option.some_inj, ← read?_of_denotedBy h, ← read?_of_denotedBy h']

end Json
end ExchangeBench
