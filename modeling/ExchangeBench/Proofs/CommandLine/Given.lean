import ExchangeBench.Proofs.CommandLine
import ExchangeBench.Proofs.Duration.Seconds

/-!
# What is given on the command line is what counts

In an accepted command line a setting that an option gives a text is read from this text: it is given
once, and neither the environment nor a default replaces it. With seconds in decimal, the sampling
interval of the run is then the one that was written, and its check compares the written number.

- `CommandLine.Given`: an option and its value among the arguments.
- `Progress.Heeds`: what was given so far was read, or it waits to be.
- `CommandLine.reads_of_given`: in an accepted command line it was read.
- `CommandLine.validate_of_inDecimals`: sampling intervals in decimal.
-/

namespace ExchangeBench

/-- A configuration with another sampling interval. -/
def Config.withInterval (c : Config) (d : Duration) : Config :=
  { c with cpuSampleInterval := d }

/-- A configuration that is accepted with some interval is accepted with any that is long enough. -/
theorem Config.validate_withInterval_iff {c : Config} {i d : Duration} {now : Clock.Reading}
    (h : (c.withInterval i).validate now = .ok ()) :
    (c.withInterval d).validate now = .ok () ↔ minCpuSampleInterval.nanos ≤ d.nanos := by
  have haccepted := validate_eq_ok_iff.mp h
  rw [validate_eq_ok_iff]
  exact ⟨fun h' => h'.cpuSampleInterval, fun hd => { haccepted with cpuSampleInterval := hd }⟩

namespace CommandLine

/-- An option gives a setting a text, in the same argument or in the next. -/
def Given (args : List String) (s : Setting) (text : String) : Prop :=
  ("--" ++ s.name ++ "=" ++ text) ∈ args ∨ ["--" ++ s.name, text] <:+: args

/-! ## Arguments -/

namespace Argument

theorem ofName_name (s : Setting) (value : Option String) :
    ofName s.name value = .setting s value := by
  have hname : Setting.ofName? s.name = some s := by cases s <;> decide
  rw [ofName, hname]

theorem ofText_name (s : Setting) : ofText ("--" ++ s.name) = .setting s none := by
  cases s <;> decide +kernel

/-- The name of an option ends at the equals sign. -/
theorem ofText_pair (s : Setting) (text : String) :
    ofText ("--" ++ s.name ++ "=" ++ text) = .setting s (some text) := by
  have hname : ∀ c ∈ s.name.toList, decide (c ≠ '=') = true :=
    List.all_eq_true.mp (by cases s <;> decide)
  have hlist : ("--" ++ s.name ++ "=" ++ text).toList =
      '-' :: '-' :: (s.name.toList ++ '=' :: text.toList) := by
    rw [String.append_assoc, String.append_assoc, String.toList_append, String.toList_append,
      String.toList_append]
    rfl
  have htake : (s.name.toList ++ '=' :: text.toList).takeWhile (· ≠ '=') = s.name.toList := by
    rw [List.takeWhile_append_of_pos hname]
    simp
  have hdrop : (s.name.toList ++ '=' :: text.toList).dropWhile (· ≠ '=') = '=' :: text.toList := by
    rw [List.dropWhile_append_of_pos hname]
    simp
  have hne : s.name.toList ++ '=' :: text.toList ≠ [] :=
    List.append_ne_nil_of_right_ne_nil _ (List.cons_ne_nil _ _)
  unfold ofText
  rw [hlist]
  split
  next heq => exact absurd (List.cons.inj (List.cons.inj heq).2).2 hne
  next r _ heq =>
    obtain rfl := (List.cons.inj (List.cons.inj heq).2).2
    simp only [htake, hdrop, String.ofList_toList, ofName_name]
  next heq => exact absurd (List.cons.inj (List.cons.inj heq).2).1 (by decide)
  next heq => exact absurd (List.cons.inj (List.cons.inj heq).2).1 (by decide)
  next hdash _ _ heq => exact absurd (List.cons.inj (List.cons.inj heq).2).1.symm hdash
  next hdashes _ _ _ => exact absurd rfl (hdashes _)

end Argument

/-! ## Values that stay -/

namespace Values

variable {v v' : Values} {s s' : Setting} {text t : String}

theorem has_of_reads (h : v.Reads text s) : v.has s = true := by
  cases s with
  | logLevel => exact Option.isSome_iff_exists.mpr ⟨text, h⟩
  | profile | concurrency | duration | warmup | repeats | percentiles | cpuSampleInterval | out =>
    obtain ⟨b, -, hb⟩ := h
    exact Option.isSome_iff_exists.mpr ⟨b, hb⟩

/-- A value that was read stays, if only settings without a value are given one. -/
theorem reads_of_set_of_not_has (h : v.Reads text s) (hhas : v.has s' = false)
    (hset : v.set s' t = .ok v') : v'.Reads text s := by
  by_cases hs : s = s'
  · rw [← hs, has_of_reads h] at hhas
    cases hhas
  · exact (frame_of_set hset hs).2 text h

end Values

/-- Filling in what is missing does not touch what is there. -/
theorem reads_of_fill {source : Setting → Option String} {v v' : Values} {s : Setting} {text : String}
    (h : v.Reads text s) (hfill : fill source v = .ok v') : v'.Reads text s := by
  unfold fill at hfill
  generalize Setting.all = settings at hfill
  induction settings generalizing v with
  | nil =>
    cases hfill
    exact h
  | cons s' settings ih =>
    rw [List.foldlM_cons] at hfill
    obtain ⟨v₁, hfirst, hrest⟩ := exists_of_bind_eq_ok hfill
    refine ih ?_ hrest
    split at hfirst
    next text' hhas htext => exact Values.reads_of_set_of_not_has h hhas hfirst
    next =>
      cases hfirst
      exact h

/-! ## Reading -/

namespace Progress

variable {p p' : Progress} {before : List String} {arg : String}

/-- A value that is given is read, and what was read before stays. -/
theorem reads_of_give {s : Setting} {t : String} (hgive : p.give s (some t) = .ok p') :
    p'.values.Reads t s ∧ ∀ s' text, p.values.Reads text s' → p'.values.Reads text s' := by
  unfold give at hgive
  dsimp only at hgive
  split at hgive
  · cases hgive
  next hhas =>
    obtain ⟨v, hv, hgive⟩ := exists_of_bind_eq_ok hgive
    cases hgive
    exact ⟨Values.reads_of_set hv, fun s' text h =>
      Values.reads_of_set_of_not_has h (Bool.eq_false_iff.mpr hhas) hv⟩

/-- Settling reads the value of the last option, which it must have. -/
theorem reads_of_settle (hsettle : p.settle = .ok p') :
    (∀ s text, p.values.Reads text s → p'.values.Reads text s) ∧
      ∀ s value, p.pending = some (s, value) → ∃ text, value = some text ∧ p'.values.Reads text s := by
  unfold settle at hsettle
  split at hsettle
  next hpending =>
    cases hsettle
    refine ⟨fun _ _ h => h, fun s value h => ?_⟩
    rw [hpending] at h
    cases h
  next s value hpending =>
    cases value with
    | none => cases hsettle
    | some text =>
      obtain ⟨hreads, hkeep⟩ := reads_of_give hsettle
      refine ⟨hkeep, fun s' value' h => ?_⟩
      rw [hpending] at h
      cases h
      exact ⟨text, rfl, hreads⟩

/-- What was given in the arguments so far was read, or it is the last option, which waits: for its
value, or with it to be settled. -/
structure Heeds (before : List String) (p : Progress) : Prop where
  attached : ∀ s text, ("--" ++ s.name ++ "=" ++ text) ∈ before → p.values.Reads text s
  waiting : ∀ s, before.getLast? = some ("--" ++ s.name) → p.pending = some (s, none)
  detached : ∀ s text, ["--" ++ s.name, text] <:+: before →
    p.values.Reads text s ∨ p.pending = some (s, some text) ∨
      p.escaped = true ∧ p.pending = some (s, none)

theorem Heeds.start : Heeds [] {} where
  attached _ _ hmem := nomatch hmem
  waiting _ hlast := nomatch hlast
  detached _ _ hgiven := nomatch List.infix_nil.mp hgiven

/-- An option and its value among the arguments are among those before the last, or they are the last
two. -/
theorem infix_append_singleton {name text : String} (h : [name, text] <:+: before ++ [arg]) :
    [name, text] <:+: before ∨ before.getLast? = some name ∧ arg = text := by
  rcases List.infix_concat_iff.mp h with hsuffix | hgiven
  · right
    rcases List.suffix_concat_iff.mp hsuffix with hnil | ⟨t, ht, hsuffix⟩
    · cases hnil
    · have hsplit : [name] ++ [text] = t ++ [arg] := ht
      obtain ⟨rfl, htext⟩ := List.append_inj' hsplit rfl
      obtain ⟨u, rfl⟩ := hsuffix
      exact ⟨List.getLast?_concat, (List.singleton_inj.mp htext).symm⟩
  · exact .inl hgiven

/-- Once the last option is settled, all that was given before was read. -/
theorem Heeds.reads_of_settle (h : p.Heeds before) (hescaped : p.escaped = false)
    (hsettle : p.settle = .ok p') {s : Setting} {text : String}
    (hgiven : ["--" ++ s.name, text] <:+: before ++ [arg]) : p'.values.Reads text s := by
  obtain ⟨hkeep, hlast⟩ := Progress.reads_of_settle hsettle
  rcases infix_append_singleton hgiven with hgiven | ⟨hname, rfl⟩
  · rcases h.detached s text hgiven with hreads | hpending | ⟨hend, -⟩
    · exact hkeep s text hreads
    · obtain ⟨text', htext, hreads⟩ := hlast s _ hpending
      cases htext
      exact hreads
    · rw [hescaped] at hend
      cases hend
  · -- an option that waits for its value cannot be settled
    obtain ⟨text', htext, -⟩ := hlast s none (h.waiting s hname)
    cases htext

/-- An argument is heeded if values stay and the argument itself is. -/
theorem Heeds.extend (h : p.Heeds before)
    (hkeep : ∀ s text, p.values.Reads text s → p'.values.Reads text s)
    (hpair : ∀ s text, Argument.ofText arg = .setting s (some text) → p'.values.Reads text s)
    (hname : ∀ s, Argument.ofText arg = .setting s none → p'.pending = some (s, none))
    (hdetached : ∀ s text, ["--" ++ s.name, text] <:+: before ++ [arg] →
      p'.values.Reads text s ∨ p'.pending = some (s, some text) ∨
        p'.escaped = true ∧ p'.pending = some (s, none)) :
    p'.Heeds (before ++ [arg]) where
  attached s text hmem := by
    rcases List.mem_append.mp hmem with hmem | hmem
    · exact hkeep s text (h.attached s text hmem)
    · exact hpair s text (List.mem_singleton.mp hmem ▸ Argument.ofText_pair s text)
  waiting s hlast := by
    rw [List.getLast?_concat, Option.some.injEq] at hlast
    exact hname s (hlast ▸ Argument.ofText_name s)
  detached := hdetached

/-- **One argument more.** -/
theorem Heeds.read (h : p.Heeds before) (hread : p.read arg = .ok p') :
    p'.Heeds (before ++ [arg]) := by
  obtain ⟨hescaped, hstep⟩ := step_of_read hread
  cases hstep with
  | escape harg =>
    refine h.extend (fun _ _ hreads => hreads) (fun s text hpair => ?_) (fun s hname => ?_)
      fun s text hgiven => ?_
    · cases harg.symm.trans hpair
    · cases harg.symm.trans hname
    · rcases infix_append_singleton hgiven with hgiven | ⟨hlast, -⟩
      · exact (h.detached s text hgiven).imp id (Or.imp id fun hend => ⟨rfl, hend.2⟩)
      · exact .inr (.inr ⟨rfl, h.waiting s hlast⟩)
  | @value s' harg hpending =>
    refine h.extend (fun _ _ hreads => hreads) (fun s text hpair => ?_) (fun s hname => ?_)
      fun s text hgiven => ?_
    · cases harg.symm.trans hpair
    · cases harg.symm.trans hname
    · rcases infix_append_singleton hgiven with hgiven | ⟨hlast, rfl⟩
      · rcases h.detached s text hgiven with hreads | hgiven | ⟨hend, -⟩
        · exact .inl hreads
        · cases hpending.symm.trans hgiven
        · cases hescaped.symm.trans hend
      · cases hpending.symm.trans (h.waiting s hlast)
        exact .inr (.inl rfl)
  | name harg hsettle =>
    refine h.extend (Progress.reads_of_settle hsettle).1 (fun s text hpair => ?_) (fun s hname => ?_)
      fun s text hgiven => .inl (h.reads_of_settle hescaped hsettle hgiven)
    · cases harg.symm.trans hpair
    · cases harg.symm.trans hname
      rfl
  | @pair s' text' q _ harg hsettle hgive =>
    obtain ⟨hreads, hkeep⟩ := reads_of_give hgive
    have hsettled := (Progress.reads_of_settle hsettle).1
    refine h.extend (fun s text h => hkeep s text (hsettled s text h)) (fun s text hpair => ?_)
      (fun s hname => ?_)
      fun s text hgiven => .inl (hkeep s text (h.reads_of_settle hescaped hsettle hgiven))
    · cases harg.symm.trans hpair
      exact hreads
    · cases harg.symm.trans hname
  | quiet harg hsettle =>
    refine h.extend (Progress.reads_of_settle hsettle).1 (fun s text hpair => ?_) (fun s hname => ?_)
      fun s text hgiven => .inl (h.reads_of_settle hescaped hsettle hgiven)
    · cases harg.symm.trans hpair
    · cases harg.symm.trans hname

/-- Reading on from somewhere in the arguments. -/
theorem Heeds.foldlM {rest : List String} (h : p.Heeds before)
    (hread : rest.foldlM Progress.read p = .ok p') : p'.Heeds (before ++ rest) := by
  induction rest generalizing before p with
  | nil =>
    cases hread
    rwa [List.append_nil]
  | cons arg rest ih =>
    rw [List.foldlM_cons] at hread
    obtain ⟨q, hq, hrest⟩ := exists_of_bind_eq_ok hread
    have hheeds := ih (h.read hq) hrest
    rwa [List.append_assoc] at hheeds

end Progress

variable {args : List String} {environment : String → Option String} {s : Setting} {text : String}

/-- What is given in arguments that are read was read. -/
theorem reads_of_read {p : Progress} (h : read args = .ok p) (hgiven : Given args s text) :
    p.values.Reads text s := by
  obtain ⟨q, hq, hsettle⟩ := exists_of_bind_eq_ok h
  have hheeds := Progress.Heeds.start.foldlM hq
  obtain ⟨hkeep, hlast⟩ := Progress.reads_of_settle hsettle
  rcases hgiven with hmem | hgiven
  · exact hkeep s text (hheeds.attached s text hmem)
  · rcases hheeds.detached s text hgiven with hreads | hpending | ⟨-, hpending⟩
    · exact hkeep s text hreads
    · obtain ⟨text', htext, hreads⟩ := hlast s _ hpending
      cases htext
      exact hreads
    · obtain ⟨text', htext, -⟩ := hlast s none hpending
      cases htext

/-- **In an accepted command line, what is given is what counts.** -/
theorem reads_of_given {o : Options} (h : parse args environment = .ok o)
    (hgiven : Given args s text) : o.Reads text s := by
  unfold parse at h
  obtain ⟨p, hp, h⟩ := exists_of_bind_eq_ok h
  obtain ⟨v, hv, h⟩ := exists_of_bind_eq_ok h
  obtain ⟨w, hw, h⟩ := exists_of_bind_eq_ok h
  have hreads := reads_of_fill (reads_of_fill (reads_of_read hp hgiven) hv) hw
  split at h
  next o' ho =>
    cases h
    obtain rfl := Values.eq_values_of_options? ho
    exact Values.reads_of_reads_values hreads
  · cases h

/-! ## Sampling intervals in decimal -/

open Duration

/-- An interval that is a number of seconds is long enough from one fifth of a second on. -/
theorem minCpuSampleInterval_le_iff {d : Duration} {x : ℚ} (hd : (d.nanos : ℚ) = x * nanosPerSecond) :
    Config.minCpuSampleInterval.nanos ≤ d.nanos ↔ 1 / 5 ≤ x := by
  have hmin : (Config.minCpuSampleInterval.nanos : ℚ) = 1 / 5 * nanosPerSecond := by
    have hnanos : Config.minCpuSampleInterval.nanos = 200000000 := by decide
    rw [hnanos]
    norm_num [nanosPerSecond]
  rw [← Nat.cast_le (α := ℚ), hmin, hd]
  exact mul_le_mul_iff_of_pos_right (Nat.cast_pos.mpr (by decide))

/-- **Seconds in decimal survive the trip through a double.** A duration below `2 ^ 23` seconds that is
written in decimal, with up to nine digits behind the point and blanks around it, is read as it is. As
the value of `--cpu-sample-interval` it is the interval of the run, and where nothing else is wrong with a
configuration, this interval is accepted just if the number is at least 0.2. -/
theorem validate_of_inDecimals {s : String} {x : ℚ} {d : Duration} (hs : InDecimals s x)
    (hlt : x < 2 ^ 23) (hd : (d.nanos : ℚ) = x * nanosPerSecond) :
    parseSeconds s = .ok d ∧
    (∀ v : Values, v.set .cpuSampleInterval s = .ok { v with cpuSampleInterval := some d }) ∧
    (∀ (c : Config) (now : Clock.Reading),
      (∃ i, (c.withInterval i).validate now = .ok ()) →
        ((c.withInterval d).validate now = .ok () ↔ 1 / 5 ≤ x)) ∧
    ∀ args environment o, parse args environment = .ok o → Given args .cpuSampleInterval s →
      o.config.cpuSampleInterval = d ∧ ∀ now : Clock.Reading,
        (∃ i, (o.config.withInterval i).validate now = .ok ()) →
          (o.config.validate now = .ok () ↔ 1 / 5 ≤ x) := by
  have hparse := parseSeconds_of_inDecimals hs hlt hd
  have hvalidate : ∀ (c : Config) (now : Clock.Reading),
      (∃ i, (c.withInterval i).validate now = .ok ()) →
        ((c.withInterval d).validate now = .ok () ↔ 1 / 5 ≤ x) := by
    rintro c now ⟨i, hi⟩
    exact (Config.validate_withInterval_iff hi).trans (minCpuSampleInterval_le_iff hd)
  refine ⟨hparse, fun v => ?_, hvalidate, fun args environment o ho hgiven => ?_⟩
  · rw [Values.set, hparse]
    rfl
  · have hreads : parseSeconds s = .ok o.cpuSampleInterval := reads_of_given ho hgiven
    obtain rfl := Except.ok.inj (hparse.symm.trans hreads)
    exact ⟨rfl, fun now => hvalidate o.config now⟩

/-- One fifth of a second, with zeros at the end and blanks around it, is just long enough. -/
theorem validate_of_inDecimals_of_one_fifth :
    let args := ["--profile", "p.yaml", "--concurrency=4", "--duration", "10s", "--warmup=1m",
      "--cpu-sample-interval", " 0.200\u3000", "--out", "r.json"]
    InDecimals " 0.200\u3000" (1 / 5) ∧
      parseSeconds " 0.200\u3000" = .ok ⟨200000000, by decide⟩ ∧
      ∃ o, parse args (fun _ => none) = .ok o ∧
        o.config.cpuSampleInterval = ⟨200000000, by decide⟩ ∧ o.config.validate 0 = .ok () := by
  intro args
  have hdecimals : InDecimals " 0.200\u3000" (1 / 5) := by
    have hvalue : (Text.value ['0'] : ℚ) + Text.value ['2'] / 10 ^ 1 = 1 / 5 := by
      have hzero : Text.value ['0'] = 0 := by decide
      have htwo : Text.value ['2'] = 2 := by decide
      rw [hzero, htwo]
      norm_num
    refine ⟨[' '], ['0', '.', '2', '0', '0'], ['\u3000'], List.forall_mem_singleton.mpr rfl,
      List.forall_mem_singleton.mpr rfl, by decide, hvalue ▸ ?_⟩
    exact @Decimals.pointed ['0'] ['2'] 2 (.inl (List.cons_ne_nil _ _))
      (List.forall_mem_singleton.mpr rfl) (List.forall_mem_singleton.mpr rfl) (by decide)
  obtain ⟨hparse, -, -, hgiven⟩ := validate_of_inDecimals (d := ⟨200000000, by decide⟩) hdecimals
    (by norm_num) (by norm_num [nanosPerSecond])
  refine ⟨hdecimals, hparse, ?_⟩
  have hothers : (parse args (fun _ => none)).toOption.map (fun o =>
      ((o.config.withInterval (.ofSecs 1)).validate 0).toOption) = some (some ()) := by
    decide +kernel
  cases hresult : parse args (fun _ => none) with
  | error e =>
    rw [hresult] at hothers
    cases hothers
  | ok o =>
    rw [hresult] at hothers
    have hvalid : ((o.config.withInterval (.ofSecs 1)).validate 0).toOption = some () :=
      Option.some.inj hothers
    obtain ⟨hinterval, hvalidate⟩ := hgiven args _ o hresult
      (.inr ⟨args.take 6, args.drop 8, by decide⟩)
    refine ⟨o, rfl, hinterval, (hvalidate 0 ⟨.ofSecs 1, ?_⟩).mpr le_rfl⟩
    cases hresult : (o.config.withInterval (.ofSecs 1)).validate 0 with
    | ok => rfl
    | error e =>
      rw [hresult] at hvalid
      cases hvalid

end CommandLine
end ExchangeBench
