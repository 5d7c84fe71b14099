import ExchangeBench.Proofs.Report.Contents
import ExchangeBench.Proofs.Report.Schema

/-!
# The text of a report determines its document

Whatever a report says, its text can be read in one way only, and what is read shows all of it. The one
condition is that the percentiles stand under keys of percentiles, which no other member of `latency_ms`
has. The reports of completed and of failed runs meet it.

- `Contents.Keyed`: the percentiles stand under keys of percentiles.
- `Contents.distinct_datum`: then nothing is said twice under one name.
- `Contents.Legible`: a text that is read in one way, and shows what was said.
- `Report.text_determines_document`: the text of a report is one.
-/

namespace ExchangeBench

namespace Contents

/-! ## Nothing is said twice under one name -/

/-- The keys of the percentiles are keys of percentiles. -/
def Latency.Keyed (l : Latency) : Prop :=
  ∀ k ∈ l.percentiles.map Prod.fst, ∃ p : Percentile, p.key = k

/-- The keys of all percentiles are keys of percentiles. -/
structure Keyed (c : Contents) : Prop where
  first : c.latency.Keyed
  repeats : ∀ r ∈ c.repeats, r.latency.Keyed

theorem Results.distinct_datum (r : Results) : r.datum.Distinct :=
  Datum.distinct_record (by simp) (by simp [Datum.isPlain])

theorem Cpu.distinct_datum (c : Cpu Float) : c.datum.Distinct :=
  Datum.distinct_record (by simp) (by simp [Datum.isPlain])

theorem Entry.distinct_datum (e : Entry) : e.datum.Distinct :=
  Datum.distinct_record (by simp) (by simp [Datum.isPlain])

theorem Workload.distinct_datum (w : Workload) : w.datum.Distinct :=
  Datum.distinct_record (by simp) (by simp [Datum.isPlain])

end Contents

theorem CrossRepeatSummary.distinct_datum (s : CrossRepeatSummary Float) : s.datum.Distinct :=
  Datum.distinct_record (by simp) (by simp [Datum.isPlain])

theorem Environment.distinct_datum (e : Environment) : e.datum.Distinct :=
  Datum.distinct_record (by simp) (by simp [Datum.isPlain])

namespace Contents

/-- Keys of percentiles begin otherwise than those of the count and the maximum. -/
theorem Latency.distinct_datum {l : Latency} (h : l.Keyed) : l.datum.Distinct := by
  have hother : ∀ name : String, name.toList.head? ≠ some 'p' → name ∉ l.percentiles.map Prod.fst := by
    intro name hname hmem
    obtain ⟨p, hp⟩ := h name hmem
    exact p.key_ne hname hp
  have hkeys : ∀ es : List (String × Option Float),
      (es.map fun e => (e.1, Datum.optional e.2)).map Prod.fst = es.map Prod.fst := fun es => by
    rw [List.map_map]
    rfl
  refine Datum.distinct_record ?_ ?_
  · rw [List.map_append, List.map_cons, hkeys]
    refine List.nodup_append.mpr ⟨List.nodup_cons.mpr ⟨hother "count" (by decide), ?_⟩,
      List.nodup_singleton _, ?_⟩
    · exact l.ascending.imp fun hlt => ne_of_lt hlt
    · intro k hk k' hk' heq
      obtain rfl : k' = "max" := List.mem_singleton.mp hk'
      subst heq
      have hne : "max" ≠ "count" := by decide
      exact hother "max" (by decide) (List.mem_of_ne_of_mem hne hk)
  · intro f hf
    rw [List.mem_append, List.mem_cons, List.mem_singleton, List.mem_map] at hf
    rcases hf with (rfl | ⟨e, -, rfl⟩) | rfl <;> rfl

theorem Repeat.distinct_datum {r : Repeat} (h : r.latency.Keyed) : r.datum.Distinct := by
  have herrors := Datum.distinct_list fun e (_ : e ∈ r.errors) => e.distinct_datum
  refine .record (by simp) ?_
  simp only [List.forall_mem_cons]
  exact ⟨.count _, r.results.distinct_datum, Latency.distinct_datum h, .flag _, r.cpu.distinct_datum,
    herrors, List.forall_mem_nil _⟩

/-- **Nothing is said twice under one name.** -/
theorem distinct_datum {c : Contents} (h : c.Keyed) : c.datum.Distinct := by
  have hpercentiles := Datum.distinct_list fun x (_ : x ∈ c.percentiles) => Datum.Distinct.double x
  have hrepeats := Datum.distinct_list fun r hr => Repeat.distinct_datum (h.repeats r hr)
  have herrors := Datum.distinct_list fun e (_ : e ∈ c.errors) => e.distinct_datum
  have hnotes := Datum.distinct_list fun s (_ : s ∈ c.notes) => Datum.Distinct.text s
  refine .record (by simp) ?_
  simp only [List.forall_mem_cons]
  exact ⟨.text _, .text _, .text _, .text _, .count _, .seconds _, .seconds _, .count _, hpercentiles,
    .double _, .text _, c.environment.distinct_datum, c.workload.distinct_datum,
    c.results.distinct_datum, Latency.distinct_datum h.first, .flag _, c.cpu.distinct_datum, hrepeats,
    c.summary.distinct_datum, herrors, hnotes, List.forall_mem_nil _⟩

/-! ## The text of a report -/

/-- **A text can be read in one way, and shows what was said.** It ends on a closing brace and one newline.
Of all documents it denotes one, and a reader finds it. In every object of the document the keys ascend, and
the document shows what was said: the texts, flags and counts as they are, lists in their order, a finite
double as the same double, and null for any other and where there is none. The lengths of the warmup and of
a phase are counts if and only if they are whole seconds, and doubles otherwise. -/
structure Legible (c : Contents) : Prop where
  ending : ∃ cs, c.text.toList = cs ++ ['\x7d', '\n']
  denotedBy_iff : ∀ v, Json.DenotedBy c.text v ↔ v = c.document
  read : Json.read? c.text = some c.document
  canonical : c.document.Canonical
  shown : c.datum.Shown c.document
  warmup : ∃ v, c.document.field? "warmup_s" = some v ∧
    ((∃ n, v = .count n) ↔ c.warmup.isWhole = true)
  duration : ∃ v, c.document.field? "duration_s" = some v ∧
    ((∃ n, v = .count n) ↔ c.duration.isWhole = true)

theorem legible_of_keyed {c : Contents} (h : c.Keyed) : c.Legible := by
  have hcanonical : c.document.Canonical := Datum.canonical_document c.datum
  have hdenoted : Json.DenotedBy c.text c.document := Json.denotedBy_pretty hcanonical
  have hshown : c.datum.Shown c.document := Datum.shown_document (distinct_datum h)
  obtain ⟨w, hw, hwarmup⟩ := hshown.exists_field? (k := "warmup_s") (x := .seconds c.warmup) (by simp)
  obtain ⟨d, hd, hduration⟩ := hshown.exists_field? (k := "duration_s") (x := .seconds c.duration)
    (by simp)
  constructor
  case ending =>
    rw [text, document, datum, Datum.document_record]
    exact Json.exists_pretty_object _
  case denotedBy_iff =>
    intro v
    constructor
    · exact fun hv => hv.unique hdenoted
    · rintro rfl
      exact hdenoted
  case read => exact Json.read?_of_denotedBy hdenoted
  case canonical => exact hcanonical
  case shown => exact hshown
  case warmup => exact ⟨w, hw, hwarmup.count_iff_isWhole⟩
  case duration => exact ⟨d, hd, hduration.count_iff_isWhole⟩

end Contents

namespace Report

/-- A report whose latencies have the keys of its percentiles says them under these. -/
theorem keyed_contents {r : Report} {cfg : Config} (h : r.Keyed cfg) : r.contents.Keyed := by
  have hkeyed : ∀ s : LatencySummary Float,
      s.percentiles.map Prod.fst = cfg.percentiles.effective.map Percentile.key →
      (Contents.Latency.ofSummary s).Keyed := by
    intro s hs k hk
    have hmem := (Text.mem_keys_keyed s.percentiles k).mp hk
    rw [hs, List.mem_map] at hmem
    obtain ⟨p, -, hp⟩ := hmem
    exact ⟨p, hp⟩
  refine ⟨hkeyed _ h.first, fun e he => ?_⟩
  obtain ⟨s, hs, rfl⟩ := List.mem_map.mp he
  exact hkeyed _ (h.repeats s hs)

/-- **The text of a report determines its document.** Whatever a report says, with percentiles under keys
of percentiles, its text can be read in one way only, and shows it. The text of a report that a run has left
is the text of its contents, and these have such keys, whether the run was completed or failed. -/
theorem text_determines_document :
    (∀ c : Contents, c.Keyed → c.Legible) ∧
    (∀ r : Report, r.contents.text = r.text ∧ r.contents.document = r.document) ∧
    (∀ (cfg : Config) (run : Run.Completed cfg Float) (header : ReportHeader)
      (environment : Environment) (timestampUtc : String),
      (ofOutcome header cfg environment timestampUtc run.outcome).contents.Keyed) ∧
    ∀ (cfg : Config) (header : ReportHeader) (environment : Environment) (timestampUtc : String)
      (key : ErrorKey), (internal header cfg environment timestampUtc key).contents.Keyed :=
  ⟨fun _ => Contents.legible_of_keyed, fun r => ⟨r.text_contents, r.document_contents⟩,
    fun _ run header environment timestampUtc =>
      keyed_contents (keyed_ofOutcome run header environment timestampUtc),
    fun cfg header environment timestampUtc key =>
      keyed_contents (keyed_internal header cfg environment timestampUtc key)⟩

/-- Two repeats, texts that have to be escaped, a negative zero, doubles that are no numbers, a warmup of half
a second and a phase of thirty. -/
def twoRepeats : Contents :=
  let latency : Contents.Latency :=
    { count := 3, percentiles := [("p99", some (-0.0)), ("p99_9", none)], max := some (0 / 0) }
  let results : Contents.Results := ⟨18446744073709551615, 0, 1 / 3⟩
  let cpu : Contents.Cpu Float := ⟨some 12.5, some 12.5, none, none, 0.5, 1, none, none, none, 8⟩
  let errors : List Contents.Entry := [⟨"\"\\", "\x00\x1f\x7f", 1⟩]
  { profilePath := "C:\\profiles\n", profileName := "\"é€😀\"", provider := "", mode := "\t"
    concurrency := 4, warmup := ⟨500000000, by decide⟩, duration := ⟨30000000000, by decide⟩
    repeatsRequested := 2, percentiles := [50, 0 / 0], cpuSampleInterval := 0.5
    timestampUtc := "", workload := ⟨"burst", 1⟩
    environment := ⟨"", "", "", "", "", "", 8, false, "", ""⟩
    results, latency, latencyTruncated := true, cpu
    repeats := [⟨1, results, latency, true, cpu, errors⟩, ⟨2, results, latency, false, cpu, []⟩]
    summary := CrossRepeatSummary.absent, errors, notes := ["a", "a"] }

/-- The two repeats are read back, the name as it was and the phase as a count, but not the warmup. -/
theorem text_determines_document_of_two_repeats :
    twoRepeats.Keyed ∧ Json.read? twoRepeats.text = some twoRepeats.document ∧
    twoRepeats.document.field? "profile_name" = some (.text "\"é€😀\"") ∧
    twoRepeats.document.field? "duration_s" = some (.count 30) ∧
    ∃ v, twoRepeats.document.field? "warmup_s" = some v ∧ ¬∃ n, v = .count n := by
  have hlatency : twoRepeats.latency.Keyed :=
    List.forall_mem_cons.mpr ⟨⟨.p99, Percentile.key_p99⟩,
      List.forall_mem_singleton.mpr ⟨.p999, Percentile.key_p999⟩⟩
  have hkeyed : twoRepeats.Keyed :=
    ⟨hlatency, List.forall_mem_cons.mpr ⟨hlatency, List.forall_mem_singleton.mpr hlatency⟩⟩
  have hlegible := text_determines_document.1 twoRepeats hkeyed
  obtain ⟨v, hv, hname⟩ := hlegible.shown.exists_field? (k := "profile_name")
    (x := .text twoRepeats.profileName) (by simp)
  obtain ⟨d, hd, hduration⟩ := hlegible.shown.exists_field? (k := "duration_s")
    (x := .seconds twoRepeats.duration) (by simp)
  obtain ⟨w, hw, hcount⟩ := hlegible.warmup
  have hphase : d = .count 30 := hduration.eq_count_of_isWhole (by decide)
  refine ⟨hkeyed, hlegible.read, ?_, ?_, w, hw, fun h => ?_⟩
  · rw [hname.eq_text] at hv
    exact hv
  · rw [hphase] at hd
    exact hd
  · exact absurd (hcount.mp h) (by decide)

end Report
end ExchangeBench
