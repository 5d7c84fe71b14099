import ExchangeBench.Duration.Text
import ExchangeBench.Proofs.Text.Blank
import ExchangeBench.Proofs.Text.Bytes

/-!
# Which texts are durations

A duration is digits, blanks and the name of a unit, with blanks around them. The reader looks for the
first character that is no digit and cuts the text there; what it finds is what was put together,
because no name of a unit has a digit or a blank in it.

- `TimeUnit.ofName?_eq_some_iff`: a name is that of one unit.
- `Duration.Parts`, `Duration.Spells`: the grammar, without the reader.
- `Duration.Parts.cut`, `Duration.exists_parts`: the reader's cut finds the parts.
- `Duration.parse_grammar`: what is read of each text.
-/

namespace ExchangeBench.Duration

/-! ## Units -/

namespace TimeUnit

/-- A name is that of one unit, and the unit is found by it. -/
theorem ofName?_eq_some_iff {name : String} {u : TimeUnit} :
    ofName? name = some u ↔ name ∈ u.names := by
  constructor
  · intro h
    have hfound := List.find?_some h
    exact List.contains_iff_mem.mp hfound
  · have hnames : ∀ n ∈ u.names, ofName? n = some u := by cases u <;> decide +kernel
    exact hnames name

/-- A name has no digits and no blanks. -/
theorem of_mem_names {name : String} {u : TimeUnit} (h : name ∈ u.names) :
    ∀ c ∈ name.toList, c.isDigit = false ∧ Text.isBlank c = false := by
  have hnames : ∀ n ∈ u.names, (n.toList.all fun c => !c.isDigit && !Text.isBlank c) = true := by
    cases u <;> decide +kernel
  intro c hc
  have hchar := List.all_eq_true.mp (hnames name h) c hc
  rwa [Bool.and_eq_true, Bool.not_eq_true', Bool.not_eq_true'] at hchar

end TimeUnit

/-! ## The grammar -/

/-- A text is digits, blanks and a name, and the number fits in 64 bits. -/
structure Parts (text digits gap name : List Char) (names : List String) : Prop where
  text_eq : text = digits ++ (gap ++ name)
  digits_ne_nil : digits ≠ []
  isDigit : ∀ c ∈ digits, c.isDigit = true
  fits : Text.value digits < UInt64.size
  isBlank : ∀ c ∈ gap, Text.isBlank c = true
  mem_names : String.ofList name ∈ names

/-- A text spells a number of what has some names. -/
def Spells (text : List Char) (v : Nat) (names : List String) : Prop :=
  ∃ digits gap name, Parts text digits gap name names ∧ Text.value digits = v

variable {text digits gap name : List Char} {names : List String} {u : TimeUnit}

/-- The digits are those that the text begins with, and the name is what follows, trimmed. -/
theorem Parts.cut (h : Parts text digits gap name u.names) :
    text.takeWhile Char.isDigit = digits ∧ text.dropWhile Char.isDigit = gap ++ name ∧
      Text.trim (gap ++ name) = name := by
  have hname : ∀ c ∈ name, c.isDigit = false ∧ Text.isBlank c = false := by
    have hmem := TimeUnit.of_mem_names h.mem_names
    rwa [String.toList_ofList] at hmem
  have hrest : ∀ c ∈ gap ++ name, ¬ c.isDigit = true := by
    intro c hc
    rw [Bool.not_eq_true]
    rcases List.mem_append.mp hc with hgap | hmem
    · exact Text.isDigit_of_isBlank (h.isBlank c hgap)
    · exact (hname c hmem).1
  have htake : (gap ++ name).takeWhile Char.isDigit = [] :=
    List.takeWhile_eq_nil_iff.mpr fun hpos => hrest _ (List.getElem_mem hpos)
  have hdrop : (gap ++ name).dropWhile Char.isDigit = gap ++ name :=
    List.dropWhile_eq_self_iff.mpr fun hpos => hrest _ (List.getElem_mem hpos)
  refine ⟨?_, ?_, ?_⟩
  · rw [h.text_eq, List.takeWhile_append_of_pos h.isDigit, htake, List.append_nil]
  · rw [h.text_eq, List.dropWhile_append_of_pos h.isDigit, hdrop]
  · rw [Text.blank_append_trim h.isBlank]
    exact Text.trim_eq_self (fun c hc => (hname c (List.mem_of_mem_head? hc)).2)
      fun c hc => (hname c (List.mem_of_mem_getLast? hc)).2

/-- What the reader takes for the parts of a trimmed text are its parts. -/
theorem exists_parts (htrim : Text.trim text = text) (hne : text.takeWhile Char.isDigit ≠ [])
    (hfits : Text.value (text.takeWhile Char.isDigit) < UInt64.size)
    (hname : TimeUnit.ofName? (String.ofList (Text.trim (text.dropWhile Char.isDigit))) = some u) :
    Spells text (Text.value (text.takeWhile Char.isDigit)) u.names := by
  obtain ⟨gap, behind, hgap, hbehind, hrest⟩ := Text.exists_trim (text.dropWhile Char.isDigit)
  have htext : text.takeWhile Char.isDigit ++
      (gap ++ Text.trim (text.dropWhile Char.isDigit) ++ behind) = text := by
    rw [← hrest, List.takeWhile_append_dropWhile]
  -- nothing is left behind the name, as the text is trimmed
  rw [← List.append_assoc] at htext
  rw [← htext] at htrim
  rw [Text.eq_nil_of_trim_append htrim hbehind, List.append_nil] at htext
  exact ⟨_, gap, _, ⟨htext.symm, hne, fun c hc => List.mem_takeWhile_imp hc, hfits, hgap,
    TimeUnit.ofName?_eq_some_iff.mp hname⟩, rfl⟩

/-- A text spells at most one number of one unit. -/
theorem Spells.unique {v v' : Nat} {u' : TimeUnit} (h : Spells text v u.names)
    (h' : Spells text v' u'.names) :
    v = v' ∧ u = u' := by
  obtain ⟨digits, gap, name, hparts, rfl⟩ := h
  obtain ⟨digits', gap', name', hparts', rfl⟩ := h'
  obtain ⟨rfl, hrest, hname⟩ := hparts.cut
  obtain ⟨rfl, hrest', hname'⟩ := hparts'.cut
  have hunit := TimeUnit.ofName?_eq_some_iff.mpr hparts.mem_names
  have hunit' := TimeUnit.ofName?_eq_some_iff.mpr hparts'.mem_names
  rw [← hname, ← hrest] at hunit
  rw [← hname', ← hrest', hunit] at hunit'
  exact ⟨rfl, Option.some.inj hunit'⟩

/-! ## Reading -/

/-- Seconds and milliseconds always fit, and minutes do if their seconds fit in 64 bits. -/
theorem nanos_lt_limit_iff {v : Nat} (hv : v < UInt64.size) (u : TimeUnit) :
    v * u.nanos < limit ↔ (u = .minutes → 60 * v < UInt64.size) := by
  have hsize : UInt64.size = 18446744073709551616 := rfl
  rw [hsize] at hv
  cases u with
  | seconds | milliseconds =>
    simp only [TimeUnit.nanos, limit, nanosPerSecond, nanosPerMilli, hsize, reduceCtorEq,
      false_implies, iff_true]
    omega
  | minutes =>
    simp only [TimeUnit.nanos, limit, nanosPerSecond, hsize, true_implies]
    omega

theorem ofNanos?_eq_some_iff {n : Nat} {d : Duration} : ofNanos? n = some d ↔ d.nanos = n := by
  unfold ofNanos?
  constructor
  · intro h
    split at h
    · cases h
      rfl
    · cases h
  · rintro rfl
    exact dif_pos d.lt_limit

theorem ofNanos?_eq_none_iff {n : Nat} : ofNanos? n = none ↔ limit ≤ n := by
  unfold ofNanos?
  split
  next h => exact iff_of_false (Option.some_ne_none _) (Nat.not_le.mpr h)
  next h => exact iff_of_true rfl (Nat.not_lt.mp h)

/-- A text that spells a number of units is read as so many of them, if their seconds fit. -/
theorem parse_of_spells {s : String} {v : Nat} (h : Spells (Text.trim s.toList) v u.names) :
    parse s =
      match ofNanos? (v * u.nanos) with
      | none => .error (.tooLarge (String.ofList (Text.trim s.toList)))
      | some d => .ok d := by
  obtain ⟨digits, gap, name, hparts, rfl⟩ := h
  obtain ⟨hdigits, hrest, hname⟩ := hparts.cut
  have hne : (Text.trim s.toList).isEmpty = false := by
    rw [hparts.text_eq]
    simp [hparts.digits_ne_nil]
  have hread : (digits.isEmpty || decide (UInt64.size ≤ Text.value digits)) = false := by
    simp [hparts.digits_ne_nil, hparts.fits]
  unfold parse
  simp only [hdigits, hrest, hname, hne, hread, TimeUnit.ofName?_eq_some_iff.mpr hparts.mem_names]
  rfl

theorem Spells.lt_size {v : Nat} (h : Spells text v names) : v < UInt64.size := by
  obtain ⟨digits, gap, name, hparts, rfl⟩ := h
  exact hparts.fits

theorem Spells.ne_nil {v : Nat} (h : Spells text v names) : text ≠ [] := by
  obtain ⟨digits, gap, name, hparts, -⟩ := h
  rw [hparts.text_eq]
  exact List.append_ne_nil_of_left_ne_nil hparts.digits_ne_nil _

/-- Other texts are no durations, and the blank ones are told apart. -/
theorem parse_of_not_spells {s : String}
    (h : ∀ v (u : TimeUnit), ¬ Spells (Text.trim s.toList) v u.names) :
    parse s = .error (if Text.trim s.toList = [] then .empty
      else .malformed (String.ofList (Text.trim s.toList))) := by
  unfold parse
  by_cases hempty : Text.trim s.toList = []
  · simp only [hempty, List.isEmpty_nil, if_true]
  · have hne : (Text.trim s.toList).isEmpty = false := List.isEmpty_eq_false_iff.mpr hempty
    simp only [hne, Bool.false_eq_true, if_false, if_neg hempty]
    -- a number and a unit would be spelled
    split
    · rfl
    next hnumber =>
      rw [Bool.or_eq_true, not_or, List.isEmpty_iff, decide_eq_true_eq, Nat.not_le] at hnumber
      split
      · rfl
      next u hunit =>
        exact absurd (exists_parts (Text.trim_trim _) hnumber.1 hnumber.2 hunit) (h _ _)

/-- The units one by one. -/
theorem exists_spells_iff {d : Duration} :
    (∃ v, ∃ u : TimeUnit, Spells text v u.names ∧ d.nanos = v * u.nanos) ↔
      (∃ v, Spells text v (TimeUnit.names .seconds) ∧ d.nanos = v * nanosPerSecond) ∨
      (∃ v, Spells text v (TimeUnit.names .milliseconds) ∧ d.nanos = v * nanosPerMilli) ∨
      ∃ v, Spells text v (TimeUnit.names .minutes) ∧ 60 * v < UInt64.size ∧
        d.nanos = 60 * v * nanosPerSecond := by
  have hminutes : ∀ v, v * TimeUnit.nanos .minutes = 60 * v * nanosPerSecond := by
    intro v
    rw [Nat.mul_comm 60 v, Nat.mul_assoc]
    rfl
  constructor
  · rintro ⟨v, u, hspells, hd⟩
    cases u with
    | seconds => exact .inl ⟨v, hspells, hd⟩
    | milliseconds => exact .inr (.inl ⟨v, hspells, hd⟩)
    | minutes =>
      have hfits := (nanos_lt_limit_iff hspells.lt_size .minutes).mp (hd ▸ d.lt_limit) rfl
      exact .inr (.inr ⟨v, hspells, hfits, hd.trans (hminutes v)⟩)
  · rintro (⟨v, hspells, hd⟩ | ⟨v, hspells, hd⟩ | ⟨v, hspells, -, hd⟩)
    · exact ⟨v, .seconds, hspells, hd⟩
    · exact ⟨v, .milliseconds, hspells, hd⟩
    · exact ⟨v, .minutes, hspells, hd.trans (hminutes v).symm⟩

theorem forall_not_spells_iff :
    (∀ v (u : TimeUnit), ¬ Spells text v u.names) ↔
      ∀ v, ¬ Spells text v (TimeUnit.names .seconds) ∧
        ¬ Spells text v (TimeUnit.names .milliseconds) ∧
        ¬ Spells text v (TimeUnit.names .minutes) := by
  refine ⟨fun h v => ⟨h v .seconds, h v .milliseconds, h v .minutes⟩, fun h v u => ?_⟩
  obtain ⟨hseconds, hmilliseconds, hminutes⟩ := h v
  cases u with
  | seconds => exact hseconds
  | milliseconds => exact hmilliseconds
  | minutes => exact hminutes

/-- A text is read as a duration if it spells it. -/
theorem parse_eq_ok_iff {s : String} {d : Duration} :
    parse s = .ok d ↔
      ∃ v, ∃ u : TimeUnit, Spells (Text.trim s.toList) v u.names ∧ d.nanos = v * u.nanos := by
  constructor
  · intro h
    by_cases hspells : ∃ v, ∃ u : TimeUnit, Spells (Text.trim s.toList) v u.names
    · obtain ⟨v, u, hspells⟩ := hspells
      rw [parse_of_spells hspells] at h
      split at h
      · cases h
      next d' hd' =>
        cases h
        exact ⟨v, u, hspells, ofNanos?_eq_some_iff.mp hd'⟩
    · rw [parse_of_not_spells fun v u hvu => hspells ⟨v, u, hvu⟩] at h
      cases h
  · rintro ⟨v, u, hspells, hd⟩
    rw [parse_of_spells hspells, ofNanos?_eq_some_iff.mpr hd]

/-- A text is refused if it spells minutes whose seconds do not fit, or nothing at all. -/
theorem parse_eq_error_iff {s : String} {e : TextError} :
    parse s = .error e ↔
      ((∃ v, Spells (Text.trim s.toList) v (TimeUnit.names .minutes) ∧ UInt64.size ≤ 60 * v) ∧
        e = .tooLarge (String.ofList (Text.trim s.toList))) ∨
      ((∀ v (u : TimeUnit), ¬ Spells (Text.trim s.toList) v u.names) ∧
        e = if Text.trim s.toList = [] then .empty
          else .malformed (String.ofList (Text.trim s.toList))) := by
  constructor
  · intro h
    by_cases hspells : ∃ v, ∃ u : TimeUnit, Spells (Text.trim s.toList) v u.names
    · obtain ⟨v, u, hspells⟩ := hspells
      rw [parse_of_spells hspells] at h
      split at h
      next hnone =>
        cases h
        have hlarge := mt (nanos_lt_limit_iff hspells.lt_size u).mpr
          (Nat.not_lt.mpr (ofNanos?_eq_none_iff.mp hnone))
        rw [Classical.not_imp, Nat.not_lt] at hlarge
        obtain ⟨rfl, hlarge⟩ := hlarge
        exact .inl ⟨⟨v, hspells, hlarge⟩, rfl⟩
      · cases h
    · have hnone : ∀ v (u : TimeUnit), ¬ Spells (Text.trim s.toList) v u.names :=
        fun v u hvu => hspells ⟨v, u, hvu⟩
      rw [parse_of_not_spells hnone] at h
      cases h
      exact .inr ⟨hnone, rfl⟩
  · rintro (⟨⟨v, hspells, hlarge⟩, rfl⟩ | ⟨hnone, rfl⟩)
    · have hlimit := mt (nanos_lt_limit_iff hspells.lt_size .minutes).mp
        (Classical.not_imp.mpr ⟨rfl, Nat.not_lt.mpr hlarge⟩)
      rw [parse_of_spells hspells, ofNanos?_eq_none_iff.mpr (Nat.not_lt.mp hlimit)]
    · exact parse_of_not_spells hnone

/-- The positive durations are those that are not zero. -/
theorem exists_parsePositive_iff {s : String} {d : Duration} :
    (∃ p : Positive, parsePositive s = .ok p ∧ p.val = d) ↔ parse s = .ok d ∧ 0 < d.nanos := by
  have hzero : ∀ d : Duration, d.isZero = false ↔ 0 < d.nanos := by
    intro d
    rw [isZero, beq_eq_false_iff_ne, Nat.pos_iff_ne_zero]
  unfold parsePositive
  cases parse s with
  | error e => exact iff_of_false (fun ⟨_, hp, _⟩ => nomatch hp) fun hd => nomatch hd.1
  | ok d' =>
    by_cases hd' : d'.isZero = false
    · simp only [dif_pos hd', Except.ok.injEq]
      constructor
      · rintro ⟨p, rfl, rfl⟩
        exact ⟨rfl, (hzero _).mp hd'⟩
      · rintro ⟨rfl, -⟩
        exact ⟨_, rfl, rfl⟩
    · simp only [dif_neg hd', Except.ok.injEq]
      refine iff_of_false (fun ⟨_, hp, _⟩ => nomatch hp) ?_
      rintro ⟨rfl, hpos⟩
      exact hd' ((hzero _).mpr hpos)

/-- **Which texts are durations.** A text is one if, trimmed, it is digits, blanks and the name of a
unit: seconds, which need no name, milliseconds, or minutes, as long as their seconds fit in 64 bits. Of
the others, minutes that do not fit are too large, the blank text is empty, and any other text is
malformed. The number ends at a byte position between two characters, and the positive durations are
those that are not zero. -/
theorem parse_grammar (s : String) :
    let text := Text.trim s.toList
    let seconds := ["", "s", "sec", "secs", "second", "seconds"]
    let milliseconds := ["ms", "msec", "msecs", "millisecond", "milliseconds"]
    let minutes := ["m", "min", "mins", "minute", "minutes"]
    (∀ d, parse s = .ok d ↔
      (∃ v, Spells text v seconds ∧ d.nanos = v * nanosPerSecond) ∨
      (∃ v, Spells text v milliseconds ∧ d.nanos = v * nanosPerMilli) ∨
      ∃ v, Spells text v minutes ∧ 60 * v < UInt64.size ∧ d.nanos = 60 * v * nanosPerSecond) ∧
    (∀ e, parse s = .error e ↔
      (text = [] ∧ e = .empty) ∨
      ((∃ v, Spells text v minutes ∧ UInt64.size ≤ 60 * v) ∧ e = .tooLarge (String.ofList text)) ∨
      (text ≠ [] ∧ (∀ v, ¬ Spells text v seconds ∧ ¬ Spells text v milliseconds ∧
        ¬ Spells text v minutes) ∧ e = .malformed (String.ofList text))) ∧
    Text.splitBytes? (Text.firstByte (fun c => !c.isDigit) text) text =
      some (text.takeWhile Char.isDigit, text.dropWhile Char.isDigit) ∧
    ∀ d, (∃ p : Positive, parsePositive s = .ok p ∧ p.val = d) ↔ parse s = .ok d ∧ 0 < d.nanos := by
  intro text seconds milliseconds minutes
  refine ⟨fun d => parse_eq_ok_iff.trans exists_spells_iff, fun e => parse_eq_error_iff.trans ⟨?_, ?_⟩,
    ?_, fun d => exists_parsePositive_iff⟩
  · rintro (hlarge | ⟨hnone, rfl⟩)
    · exact .inr (.inl hlarge)
    · by_cases hempty : text = []
      · exact .inl ⟨hempty, if_pos hempty⟩
      · exact .inr (.inr ⟨hempty, forall_not_spells_iff.mp hnone, if_neg hempty⟩)
  · rintro (⟨hempty, rfl⟩ | hlarge | ⟨hne, hnone, rfl⟩)
    · exact .inr ⟨fun v u hvu => hvu.ne_nil hempty, (if_pos hempty).symm⟩
    · exact .inl hlarge
    · exact .inr ⟨forall_not_spells_iff.mpr hnone, (if_neg hne).symm⟩
  · have hcut := @Text.splitBytes?_firstByte (fun c => !c.isDigit) text
    simpa only [Bool.not_not] using hcut

example : parse " 007\u00a0min\u3000" = .ok ⟨420 * nanosPerSecond, by decide⟩ := by decide +kernel

end ExchangeBench.Duration
