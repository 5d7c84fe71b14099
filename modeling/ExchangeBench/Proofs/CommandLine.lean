import ExchangeBench.CommandLine
import ExchangeBench.Proofs.Config
import ExchangeBench.Proofs.Repeat.Result

/-!
# What an accepted command line can ask for

Every field of an accepted command line was read from a text: that of an option, of an environment
variable, or of a default. The readers let through less than a configuration may hold, so the check of
the configuration has little left to refuse: a phase whose end the clock cannot show, and a CPU sampling
interval that is too short.

- `CommandLine.Source`: where the text of a setting comes from.
- `Values.Reads`, `Options.Reads`: the field of a setting is what its reader makes of a text.
- `Values.reads_set`: giving a setting a value leaves the other settings alone.
- `CommandLine.sourced_of_read`, `CommandLine.sourced_of_fill`: values that were read have sources.
- `Config.validate_eq`: what is refused if the numbers are positive.
- `CommandLine.validate_of_parse`: what is refused of an accepted command line.
-/

namespace ExchangeBench

/-! ## The check of positive numbers -/

/-- A configuration with positive numbers is refused for its duration, then its warmup, then its
interval. -/
theorem Config.validate_eq {c : Config} (hconcurrency : c.concurrency ≠ 0)
    (hduration : c.duration.isZero = false) (hrepeats : c.repeats ≠ 0)
    (hcapacity : c.latencyCapacity ≠ 0) (now : Clock.Reading) :
    c.validate now =
      if ¬now + c.duration.nanos < Clock.limit then
        .error (.durationOutOfRange "duration" c.duration.secs)
      else if ¬now + c.warmup.nanos < Clock.limit then
        .error (.durationOutOfRange "warmup" c.warmup.secs)
      else if c.cpuSampleInterval.nanos < minCpuSampleInterval.nanos then
        .error (.invalidCpuInterval minCpuSampleInterval.millis c.cpuSampleInterval.millis)
      else .ok () := by
  unfold validate Clock.deadline Clock.after?
  rw [if_neg hconcurrency, if_neg (Bool.eq_false_iff.mp hduration), if_neg hrepeats,
    if_neg hcapacity]
  by_cases hend : now + c.duration.nanos < Clock.limit
  · by_cases hwarm : now + c.warmup.nanos < Clock.limit
    · rw [if_pos hend, if_pos hwarm, if_neg (not_not.mpr hend), if_neg (not_not.mpr hwarm)]
      rfl
    · rw [if_pos hend, if_neg hwarm, if_neg (not_not.mpr hend), if_pos hwarm]
      rfl
  · rw [if_neg hend, if_pos hend]
    rfl

namespace CommandLine

/-! ## Readings -/

/-- The field of a setting is what its reader makes of a text. -/
def Values.Reads (v : Values) (text : String) : Setting → Prop
  | .profile => ∃ p, path .profile text = .ok p ∧ v.profile = some p
  | .concurrency => ∃ n, Text.positive text = .ok n ∧ v.concurrency = some n
  | .duration => ∃ d, Duration.parsePositive text = .ok d ∧ v.duration = some d
  | .warmup => ∃ d, Duration.parse text = .ok d ∧ v.warmup = some d
  | .repeats => ∃ n, Text.positive text = .ok n ∧ v.repeats = some n
  | .percentiles => ∃ s, PercentileSet.parse text = .ok s ∧ v.percentiles = some s
  | .cpuSampleInterval =>
    ∃ d, Duration.parseSeconds text = .ok d ∧ v.cpuSampleInterval = some d
  | .out => ∃ p, path .out text = .ok p ∧ v.out = some p
  | .logLevel => v.logLevel = some text

/-- The same of options. -/
def Options.Reads (o : Options) (text : String) : Setting → Prop
  | .profile => Values.path .profile text = .ok o.profile
  | .concurrency => Text.positive text = .ok o.concurrency
  | .duration => Duration.parsePositive text = .ok o.duration
  | .warmup => Duration.parse text = .ok o.warmup
  | .repeats => Text.positive text = .ok o.repeats
  | .percentiles => PercentileSet.parse text = .ok o.percentiles
  | .cpuSampleInterval => Duration.parseSeconds text = .ok o.cpuSampleInterval
  | .out => Values.path .out text = .ok o.out
  | .logLevel => o.logLevel = text

/-- The values that options consist of. -/
def Options.values (o : Options) : Values where
  profile := some o.profile
  concurrency := some o.concurrency
  duration := some o.duration
  warmup := some o.warmup
  repeats := some o.repeats
  percentiles := some o.percentiles
  cpuSampleInterval := some o.cpuSampleInterval
  out := some o.out
  logLevel := some o.logLevel

namespace Values

variable {v v' : Values} {s s' : Setting} {text : String}

theorem orFault_eq_ok {ε β : Type} {fault : ε → ValueFault} {x : Except ε β} {b : β}
    (h : orFault s text fault x = .ok b) : x = .ok b := by
  cases x with
  | error e => cases h
  | ok b' => exact congrArg Except.ok (Except.ok.inj h)

/-- A setting that is given a value reads it. -/
theorem reads_of_set (h : v.set s text = .ok v') : v'.Reads text s := by
  cases s with
  | logLevel =>
    cases h
    rfl
  | profile | out =>
    obtain ⟨p, hp, h⟩ := exists_of_bind_eq_ok h
    cases h
    exact ⟨p, hp, rfl⟩
  | concurrency | duration | warmup | repeats | percentiles | cpuSampleInterval =>
    obtain ⟨b, hb, h⟩ := exists_of_bind_eq_ok h
    cases h
    exact ⟨b, orFault_eq_ok hb, rfl⟩

/-- The other settings are left alone. -/
theorem frame_of_set (h : v.set s text = .ok v') (hne : s' ≠ s) :
    v'.has s' = v.has s' ∧ ∀ t, v.Reads t s' → v'.Reads t s' := by
  cases s with
  | logLevel =>
    cases h
    cases s' <;> first | exact absurd rfl hne | exact ⟨rfl, fun _ hreads => hreads⟩
  | profile | out | concurrency | duration | warmup | repeats | percentiles | cpuSampleInterval =>
    obtain ⟨b, -, h⟩ := exists_of_bind_eq_ok h
    cases h
    cases s' <;> first | exact absurd rfl hne | exact ⟨rfl, fun _ hreads => hreads⟩

/-- Options are made of values of all settings. -/
theorem eq_values_of_options? {quiet : Bool} {o : Options} (h : v.options? quiet = some o) :
    v = o.values := by
  unfold options? at h
  simp only [Option.bind_eq_bind, Option.bind_eq_some_iff, Option.pure_def, Option.some.injEq] at h
  obtain ⟨profile, hprofile, concurrency, hconcurrency, duration, hduration, warmup, hwarmup,
    repeats, hrepeats, percentiles, hpercentiles, interval, hinterval, out, hout, level, hlevel,
    rfl⟩ := h
  obtain ⟨⟩ := v
  rw [Options.values, Values.mk.injEq]
  exact ⟨hprofile, hconcurrency, hduration, hwarmup, hrepeats, hpercentiles, hinterval, hout,
    hlevel⟩

theorem has_values (o : Options) (s : Setting) : o.values.has s = true := by
  cases s <;> rfl

theorem reads_of_reads_values {o : Options} (h : o.values.Reads text s) : o.Reads text s := by
  cases s with
  | logLevel => exact Option.some.inj h
  | profile | out | concurrency | duration | warmup | repeats | percentiles | cpuSampleInterval =>
    obtain ⟨b, hb, hfield⟩ := h
    cases hfield
    exact hb

end Values

/-! ## Sources -/

/-- The text of a setting stands in the arguments or in the environment, or it is the default. -/
inductive Source (args : List String) (environment : String → Option String) (s : Setting)
    (text : String) : Prop
  | attached (h : ("--" ++ s.name ++ "=" ++ text) ∈ args)
  | detached (h : ["--" ++ s.name, text] <:+: args)
  | variable (h : environment s.environmentName = some text)
  | default (h : s.default? = some text)

/-- Every value was read from a text that has a source. -/
def Sourced (args : List String) (environment : String → Option String) (v : Values) : Prop :=
  ∀ s, v.has s = true → ∃ text, Source args environment s text ∧ v.Reads text s

variable {args : List String} {environment : String → Option String}

theorem Sourced.set {v v' : Values} {s : Setting} {text : String} (h : Sourced args environment v)
    (hsource : Source args environment s text) (hset : v.set s text = .ok v') :
    Sourced args environment v' := by
  intro s' hhas
  by_cases hs : s' = s
  · subst hs
    exact ⟨text, hsource, Values.reads_of_set hset⟩
  · obtain ⟨hhas', hreads⟩ := Values.frame_of_set hset hs
    obtain ⟨text', hsource', hreads'⟩ := h s' (hhas' ▸ hhas)
    exact ⟨text', hsource', hreads _ hreads'⟩

/-- Settings that are filled in from a source of texts have sources. -/
theorem sourced_of_fill {source : Setting → Option String} {v v' : Values}
    (h : Sourced args environment v)
    (hsource : ∀ s text, source s = some text → Source args environment s text)
    (hfill : fill source v = .ok v') : Sourced args environment v' := by
  unfold fill at hfill
  generalize Setting.all = settings at hfill
  induction settings generalizing v with
  | nil =>
    cases hfill
    exact h
  | cons s settings ih =>
    rw [List.foldlM_cons] at hfill
    obtain ⟨v₁, hfirst, hrest⟩ := exists_of_bind_eq_ok hfill
    refine ih ?_ hrest
    split at hfirst
    next text hhas htext => exact h.set (hsource s text htext) hfirst
    next =>
      cases hfirst
      exact h

/-! ## Arguments -/

theorem Setting.name_of_ofName? {name : String} {s : Setting} (h : Setting.ofName? name = some s) :
    s.name = name := by
  have hfound := List.find?_some h
  exact eq_of_beq hfound

namespace Argument

/-- An option of a name is that of the setting with the name, or it is no setting and no word. -/
theorem ofName_spec (name : String) (value : Option String) :
    (∃ s : Setting, s.name = name ∧ ofName name value = .setting s value) ∨
      (∀ s value', ofName name value ≠ .setting s value') ∧ ∀ text, ofName name value ≠ .word text := by
  unfold ofName
  split
  next s hs => exact .inl ⟨s, Setting.name_of_ofName? hs, rfl⟩
  next =>
    refine .inr ?_
    split
    · exact ⟨nofun, nofun⟩
    split
    · exact ⟨nofun, nofun⟩
    split
    · exact ⟨nofun, nofun⟩
    · exact ⟨nofun, nofun⟩

theorem eq_of_ofName {name : String} {value value' : Option String} {s : Setting}
    (h : ofName name value = .setting s value') : s.name = name ∧ value' = value := by
  rcases ofName_spec name value with ⟨s', hname, hs⟩ | ⟨hsetting, -⟩
  · cases hs.symm.trans h
    exact ⟨hname, rfl⟩
  · exact absurd h (hsetting s value')

theorem ofName_ne_word (name : String) (value : Option String) (text : String) :
    ofName name value ≠ .word text := by
  rcases ofName_spec name value with ⟨s, -, hs⟩ | ⟨-, hword⟩
  · rw [hs]
    exact nofun
  · exact hword text

/-- An argument that sets a setting spells out its name and the value, if there is one. -/
theorem eq_of_ofText {arg : String} {s : Setting} {value : Option String}
    (h : ofText arg = .setting s value) :
    arg = "--" ++ s.name ++ (value.elim "" fun text => "=" ++ text) := by
  unfold ofText at h
  split at h
  · cases h
  next r _ harg =>
    have hsplit : r.takeWhile (· ≠ '=') ++ r.dropWhile (· ≠ '=') = r :=
      List.takeWhile_append_dropWhile
    have hdashes : "--".toList = ['-', '-'] := rfl
    rw [← String.toList_inj, harg, String.toList_append, String.toList_append, hdashes]
    split at h
    next hdrop =>
      obtain ⟨hname, rfl⟩ := eq_of_ofName h
      rw [hdrop, List.append_nil] at hsplit
      rw [hname, String.toList_ofList, hsplit, Option.elim_none, String.toList_empty,
        List.append_nil]
      rfl
    next c rest hdrop =>
      obtain ⟨hname, rfl⟩ := eq_of_ofName h
      -- the name ends at the first equals sign
      have hc : c = '=' := by
        have hhead := List.head?_dropWhile_not (fun c => decide (c ≠ '=')) r
        rw [hdrop] at hhead
        simpa using hhead
      have hequals : "=".toList = ['='] := rfl
      rw [hdrop, hc] at hsplit
      rw [hname, String.toList_ofList, Option.elim_some, String.toList_append, hequals,
        String.toList_ofList]
      exact congrArg (fun cs => '-' :: '-' :: cs) hsplit.symm
  all_goals cases h

theorem eq_of_ofText_word {arg text : String} (h : ofText arg = .word text) : arg = text := by
  unfold ofText at h
  split at h
  · cases h
  · split at h
    · exact absurd h (ofName_ne_word _ _ _)
    · exact absurd h (ofName_ne_word _ _ _)
  · cases h
  · cases h
  · cases h
  · cases h
    rfl

end Argument

/-! ## Reading -/

/-- What the values read so far come from, and the last option. If that still waits for its value, it is
the last argument; a value that it has follows it. -/
structure Progress.Sourced (args : List String) (environment : String → Option String)
    (before : List String) (p : Progress) : Prop where
  values : CommandLine.Sourced args environment p.values
  waiting : ∀ s, p.pending = some (s, none) → p.escaped = false →
    ∃ before', before = before' ++ ["--" ++ s.name]
  given : ∀ s text, p.pending = some (s, some text) → ["--" ++ s.name, text] <:+: args

namespace Progress

variable {before : List String} {p p' : Progress}

/-- A setting that is given a value has its source. -/
theorem sourced_of_give {s : Setting} {value : Option String}
    (h : CommandLine.Sourced args environment p.values)
    (hsource : ∀ text, value = some text → Source args environment s text)
    (hgive : p.give s value = .ok p') :
    CommandLine.Sourced args environment p'.values ∧ p'.pending = p.pending := by
  cases value with
  | none => cases hgive
  | some text =>
    unfold give at hgive
    dsimp only at hgive
    split at hgive
    · cases hgive
    · obtain ⟨v, hv, hgive⟩ := exists_of_bind_eq_ok hgive
      cases hgive
      exact ⟨h.set (hsource text rfl) hv, rfl⟩

/-- Settling the last option gives it its value, if it has one. -/
theorem sourced_of_settle (h : p.Sourced args environment before) (hsettle : p.settle = .ok p') :
    CommandLine.Sourced args environment p'.values ∧ p'.pending = none := by
  unfold settle at hsettle
  split at hsettle
  next hpending =>
    cases hsettle
    exact ⟨h.values, hpending⟩
  next s value hpending =>
    have hvalues : CommandLine.Sourced args environment { p with pending := none }.values := h.values
    refine sourced_of_give hvalues (fun text htext => ?_) hsettle
    exact .detached (h.given s text (htext ▸ hpending))

theorem Sourced.start : Sourced args environment [] {} where
  values _ hhas := by cases ‹Setting› <;> cases hhas
  waiting _ hpending := nomatch hpending
  given _ _ hpending := nomatch hpending

/-- Where no option waits for a value, all values were read from their sources. -/
theorem Sourced.of_settled (hvalues : CommandLine.Sourced args environment p.values)
    (hpending : p.pending = none) : p.Sourced args environment before where
  values := hvalues
  waiting s hs := by rw [hpending] at hs; cases hs
  given s text hs := by rw [hpending] at hs; cases hs

/-- What an argument that is read does: it ends the options, it is the value that the last option waits
for, or that option is settled first. -/
inductive Step (p : Progress) (arg : String) : Progress → Prop
  | escape (h : Argument.ofText arg = .escape) : Step p arg { p with escaped := true }
  | value {s : Setting} (h : Argument.ofText arg = .word arg) (hpending : p.pending = some (s, none)) :
      Step p arg { p with pending := some (s, some arg) }
  | name {s : Setting} {q : Progress} (h : Argument.ofText arg = .setting s none)
      (hsettle : p.settle = .ok q) : Step p arg { q with pending := some (s, none) }
  | pair {s : Setting} {text : String} {q p' : Progress}
      (h : Argument.ofText arg = .setting s (some text)) (hsettle : p.settle = .ok q)
      (hgive : q.give s (some text) = .ok p') : Step p arg p'
  | quiet {q : Progress} (h : Argument.ofText arg = .quiet none) (hsettle : p.settle = .ok q) :
      Step p arg { q with quiet := true }

/-- Nothing else is read, and nothing at all once the options have ended. -/
theorem step_of_read {arg : String} (hread : p.read arg = .ok p') :
    p.escaped = false ∧ p.Step arg p' := by
  unfold Progress.read at hread
  split at hread
  · cases hread
  next hescaped =>
  refine ⟨Bool.eq_false_iff.mpr hescaped, ?_⟩
  split at hread
  next harg =>
    cases hread
    exact .escape harg
  next s harg =>
    obtain ⟨q, hq, hread⟩ := exists_of_bind_eq_ok hread
    cases hread
    exact .name harg hq
  next s text harg =>
    obtain ⟨q, hq, hread⟩ := exists_of_bind_eq_ok hread
    exact .pair harg hq hread
  next harg =>
    obtain ⟨q, hq, hread⟩ := exists_of_bind_eq_ok hread
    split at hread
    · cases hread
    · cases hread
      exact .quiet harg hq
  · obtain ⟨q, hq, hread⟩ := exists_of_bind_eq_ok hread
    cases hread
  · obtain ⟨q, hq, hread⟩ := exists_of_bind_eq_ok hread
    cases hread
  · cases hread
  · cases hread
  · cases hread
  · cases hread
  next text harg =>
    obtain rfl := Argument.eq_of_ofText_word harg
    split at hread
    next s hpending =>
      cases hread
      exact .value harg hpending
    · cases hread

/-- **One argument more.** -/
theorem Sourced.read {arg : String} {rest : List String} (hargs : args = before ++ arg :: rest)
    (h : p.Sourced args environment before) (hread : p.read arg = .ok p') :
    p'.Sourced args environment (before ++ [arg]) := by
  have hmem : arg ∈ args := hargs ▸ List.mem_append_right _ List.mem_cons_self
  obtain ⟨hescaped, hstep⟩ := step_of_read hread
  cases hstep with
  | escape => exact ⟨h.values, fun s _ hopen => (nomatch hopen), h.given⟩
  | name harg hsettle =>
    refine ⟨(sourced_of_settle h hsettle).1, fun s' hs' _ => ⟨before, ?_⟩,
      fun s' text hs' => (nomatch hs')⟩
    cases hs'
    rw [Argument.eq_of_ofText harg, Option.elim_none, String.append_empty]
  | @pair s text q p' harg hsettle hgive =>
    obtain ⟨hvalues, hpending⟩ := sourced_of_settle h hsettle
    have hsource : Source args environment s text := by
      refine .attached ?_
      rw [Argument.eq_of_ofText harg, Option.elim_some, ← String.append_assoc] at hmem
      exact hmem
    obtain ⟨hvalues', hpending'⟩ := sourced_of_give hvalues
      (fun text' htext => Option.some.inj htext ▸ hsource) hgive
    exact .of_settled hvalues' (hpending'.trans hpending)
  | quiet harg hsettle =>
    obtain ⟨hvalues, hpending⟩ := sourced_of_settle h hsettle
    exact .of_settled hvalues hpending
  | @value s harg hpending =>
    refine ⟨h.values, fun s' hs' => (nomatch hs'), fun s' text' hs' => ?_⟩
    cases hs'
    obtain ⟨before', rfl⟩ := h.waiting s hpending hescaped
    refine ⟨before', rest, ?_⟩
    rw [hargs, List.append_assoc, List.append_assoc]
    rfl

/-- Reading on from somewhere in the arguments. -/
theorem Sourced.foldlM {rest : List String} (hargs : args = before ++ rest)
    (h : p.Sourced args environment before) (hread : rest.foldlM Progress.read p = .ok p') :
    p'.Sourced args environment args := by
  induction rest generalizing before p with
  | nil =>
    cases hread
    rw [hargs, List.append_nil] at h ⊢
    exact h
  | cons arg rest ih =>
    rw [List.foldlM_cons] at hread
    obtain ⟨q, hq, hrest⟩ := exists_of_bind_eq_ok hread
    exact ih (by rw [hargs, List.append_assoc]; rfl) (h.read hargs hq) hrest

end Progress

/-- The arguments that are read are the sources of the values. -/
theorem sourced_of_read {p : Progress} (h : read args = .ok p) :
    Sourced args environment p.values := by
  obtain ⟨q, hq, hsettle⟩ := exists_of_bind_eq_ok h
  exact (Progress.sourced_of_settle (Progress.Sourced.start.foldlM rfl hq) hsettle).1

/-! ## Accepted command lines -/

/-- **Every field was read from its source.** -/
theorem reads_of_parse {o : Options} (h : parse args environment = .ok o) (s : Setting) :
    ∃ text, Source args environment s text ∧ o.Reads text s := by
  unfold parse at h
  obtain ⟨p, hp, h⟩ := exists_of_bind_eq_ok h
  obtain ⟨v, hv, h⟩ := exists_of_bind_eq_ok h
  obtain ⟨w, hw, h⟩ := exists_of_bind_eq_ok h
  have hsourced : Sourced args environment w :=
    sourced_of_fill (sourced_of_fill (sourced_of_read hp) (fun _ _ => .variable) hv)
      (fun _ _ => .default) hw
  split at h
  next o' ho =>
    cases h
    obtain rfl := Values.eq_values_of_options? ho
    obtain ⟨text, hsource, hreads⟩ := hsourced s (Values.has_values o s)
    exact ⟨text, hsource, Values.reads_of_reads_values hreads⟩
  · cases h

/-- **What is refused of an accepted command line.** All its fields were read from their sources. At no
moment does the check of its configuration find anything wrong but these, in this order: the clock cannot
show the end of a measurement, it cannot show that of a warmup, or the CPU sampling interval is too
short. -/
theorem validate_of_parse {o : Options} (h : parse args environment = .ok o) :
    (∀ s, ∃ text, Source args environment s text ∧ o.Reads text s) ∧
    ∀ now : Clock.Reading,
      (o.config.validate now = .ok () ↔
        now + o.duration.val.nanos < Clock.limit ∧ now + o.warmup.nanos < Clock.limit ∧
          (Duration.ofMillis 200).nanos ≤ o.cpuSampleInterval.nanos) ∧
      ∀ e, o.config.validate now = .error e ↔
        ¬now + o.duration.val.nanos < Clock.limit ∧
            e = .durationOutOfRange "duration" o.duration.val.secs ∨
          now + o.duration.val.nanos < Clock.limit ∧ ¬now + o.warmup.nanos < Clock.limit ∧
            e = .durationOutOfRange "warmup" o.warmup.secs ∨
          now + o.duration.val.nanos < Clock.limit ∧ now + o.warmup.nanos < Clock.limit ∧
            o.cpuSampleInterval.nanos < (Duration.ofMillis 200).nanos ∧
            e = .invalidCpuInterval 200 o.cpuSampleInterval.millis := by
  refine ⟨reads_of_parse h, fun now => ?_⟩
  have hcapacity : o.config.latencyCapacity ≠ 0 := by
    show UInt64.ofNat Metrics.defaultCapacity ≠ 0
    decide
  have hvalidate : o.config.validate now =
      if ¬now + o.duration.val.nanos < Clock.limit then
        .error (.durationOutOfRange "duration" o.duration.val.secs)
      else if ¬now + o.warmup.nanos < Clock.limit then
        .error (.durationOutOfRange "warmup" o.warmup.secs)
      else if o.cpuSampleInterval.nanos < (Duration.ofMillis 200).nanos then
        .error (.invalidCpuInterval 200 o.cpuSampleInterval.millis)
      else .ok () :=
    Config.validate_eq o.concurrency.property o.duration.property o.repeats.property hcapacity now
  rw [hvalidate]
  -- each of the three tests decides, if those before it find nothing
  by_cases hend : now + o.duration.val.nanos < Clock.limit
  · by_cases hwarm : now + o.warmup.nanos < Clock.limit
    · by_cases hshort : o.cpuSampleInterval.nanos < (Duration.ofMillis 200).nanos
      · simp [hend, hwarm, hshort, eq_comm]
      · simp [hend, hwarm, hshort, Nat.not_lt.mp hshort]
    · simp [hend, hwarm, eq_comm]
  · simp [hend, eq_comm]

/-- An interval that is too short, and a warmup from the environment that is too long later on. -/
theorem validate_of_parse_of_short_interval :
    let args := ["--profile", "p.yaml", "--concurrency=4", "--duration", "10s",
      "--cpu-sample-interval", "0.1", "--out", "r.json"]
    let environment := fun name => if name = "HSBENCH_WARMUP" then some "1m" else none
    ∃ o, parse args environment = .ok o ∧
      (∃ text, Source args environment .warmup text ∧ o.Reads text .warmup) ∧
      o.config.validate 0 = .error (.invalidCpuInterval 200 100) ∧
      o.config.validate (Clock.limit - 30000000000) =
        .error (.durationOutOfRange "warmup" 60) := by
  intro args environment
  have hfields : (parse args environment).toOption.map (fun o =>
      (o.duration.val.nanos, o.warmup.nanos, o.cpuSampleInterval.nanos)) =
        some (10000000000, 60000000000, 100000000) := by decide +kernel
  obtain ⟨o, hparse, hfields⟩ := Option.map_eq_some_iff.mp hfields
  rw [Prod.mk.injEq, Prod.mk.injEq] at hfields
  obtain ⟨hduration, hwarmup, hinterval⟩ := hfields
  have hok : parse args environment = .ok o := by
    cases hresult : parse args environment with
    | error e =>
      rw [hresult] at hparse
      cases hparse
    | ok o' =>
      rw [hresult] at hparse
      exact congrArg Except.ok (Option.some.inj hparse)
  obtain ⟨hreads, hvalidate⟩ := validate_of_parse hok
  refine ⟨o, hok, hreads .warmup, ?_, ?_⟩
  · refine ((hvalidate 0).2 _).mpr (.inr (.inr ⟨?_, ?_, ?_, ?_⟩))
    · rw [hduration]
      decide
    · rw [hwarmup]
      decide
    · rw [hinterval]
      decide
    · rw [Duration.millis, hinterval]
      rfl
  · refine ((hvalidate _).2 _).mpr (.inr (.inl ⟨?_, ?_, ?_⟩))
    · rw [hduration]
      decide
    · rw [hwarmup]
      decide
    · rw [Duration.secs, hwarmup]
      rfl

end CommandLine
end ExchangeBench
