import ExchangeBench.Proofs.Percentile.Key
import ExchangeBench.Proofs.Report.Internal
import ExchangeBench.Proofs.Run.Script

/-!
# Every report has one form

A report is put together in two ways: from the results of a completed run, or from zeros where a run
failed. Both give documents of one form, which depends on the percentiles asked for and on nothing
else.

- `Report.schema`: the form of a report, from those of its parts.
- `Report.fits_document`: a report whose latencies have the keys of its percentiles has that form.
- `Report.one_schema`: the report of a completed run and that of a failed one, side by side.
-/

namespace ExchangeBench

/-! ## The forms of the parts -/

/-- An object of plain values under some keys. -/
def Schema.flat (keys : List String) : Schema :=
  .record (keys.map fun k => (k, .value))

namespace LatencySummary

/-- The form of `latency_ms`, with a member for each percentile. -/
def schema (keys : List String) : Schema :=
  .flat ("count" :: keys ++ ["max"])

theorem fits_document (s : LatencySummary Float) :
    (schema (s.percentiles.map Prod.fst)).Fits s.document := by
  have hpercentiles : ∀ ps : List (String × Option Float), Schema.FitsFields
      ((ps.map Prod.fst ++ ["max"]).map fun k => (k, .value))
      (ps.map (fun e => (e.1, Json.ofFloat? e.2)) ++ [("max", Json.ofFloat? s.max)]) := by
    intro ps
    induction ps with
    | nil => exact .cons (Schema.fits_ofFloat? _) .nil
    | cons p ps ih => exact .cons (Schema.fits_ofFloat? _) ih
  exact .record (.cons (.count _) (hpercentiles s.percentiles))

end LatencySummary

namespace CpuSummary

/-- The form of `cpu`. -/
def schema : Schema :=
  .flat ["system_avg_percent", "system_peak_percent", "process_avg_percent", "process_peak_percent",
    "sample_count", "sample_interval_s", "load_avg_1m", "load_avg_5m", "load_avg_15m",
    "logical_cpus"]

/-- The members are the same whether there were samples or not. -/
theorem fits_document (s : CpuSummary Float) : schema.Fits s.document := by
  have hrest : Schema.FitsFields
      [("sample_interval_s", .value), ("load_avg_1m", .value), ("load_avg_5m", .value),
        ("load_avg_15m", .value), ("logical_cpus", .value)]
      [("sample_interval_s", Json.ofFloat s.sampleInterval.inSeconds),
        ("load_avg_1m", Json.ofFloat? (s.loadAverage.map LoadAverage.one)),
        ("load_avg_5m", Json.ofFloat? (s.loadAverage.map LoadAverage.five)),
        ("load_avg_15m", Json.ofFloat? (s.loadAverage.map LoadAverage.fifteen)),
        ("logical_cpus", .count s.logicalCpus)] :=
    .cons (Schema.fits_ofFloat _) <| .cons (Schema.fits_ofFloat? _) <|
      .cons (Schema.fits_ofFloat? _) <| .cons (Schema.fits_ofFloat? _) <| .cons (.count _) .nil
  unfold document
  cases s.usage with
  | available systemAvg systemPeak processAvg processPeak sampleCount =>
    exact .record <| .cons (Schema.fits_ofFloat? _) <| .cons (Schema.fits_ofFloat? _) <|
      .cons (Schema.fits_ofFloat? _) <| .cons (Schema.fits_ofFloat? _) <| .cons (.count _) hrest
  | unavailable =>
    exact .record <| .cons .null <| .cons .null <| .cons .null <| .cons .null <|
      .cons (.count _) hrest

end CpuSummary

namespace ErrorEntry

/-- The form of an element of `errors`. -/
def schema : Schema := .flat ["type", "msg_hash", "count"]

theorem fits_documents (es : List ErrorEntry) : (Schema.list schema).Fits (documents es) := by
  refine .list fun v hv => ?_
  obtain ⟨e, -, rfl⟩ := List.mem_map.mp hv
  exact .record <| .cons (.text _) <| .cons (.text _) <| .cons (.count _) .nil

end ErrorEntry

namespace RepeatResult

/-- The form of `results`. -/
def resultsSchema : Schema := .flat ["success_count", "failure_count", "throughput_hs_per_sec"]

theorem fits_resultsDocument (r : RepeatResult Float) : resultsSchema.Fits r.resultsDocument :=
  .record <| .cons (.count _) <| .cons (.count _) <| .cons (Schema.fits_ofFloat _) .nil

/-- The form of an element of `repeats`. -/
def schema (keys : List String) : Schema :=
  .record
    [("index", .value), ("results", resultsSchema), ("latency_ms", LatencySummary.schema keys),
      ("latency_truncated", .value), ("cpu", CpuSummary.schema), ("errors", .list ErrorEntry.schema)]

theorem fits_document (r : RepeatResult Float) :
    (schema (r.latency.percentiles.map Prod.fst)).Fits r.document :=
  .record <| .cons (.count _) <| .cons r.fits_resultsDocument <| .cons r.latency.fits_document <|
    .cons (.bool _) <| .cons r.cpu.fits_document <| .cons (ErrorEntry.fits_documents _) .nil

end RepeatResult

namespace CrossRepeatSummary

/-- The form of `summary`. -/
def schema : Schema :=
  .flat ["throughput_mean", "throughput_stdev", "p99_mean", "p99_9_mean", "max_latency_max"]

theorem fits_document (s : CrossRepeatSummary Float) : schema.Fits s.document :=
  .record <| .cons (Schema.fits_ofFloat? _) <| .cons (Schema.fits_ofFloat? _) <|
    .cons (Schema.fits_ofFloat? _) <| .cons (Schema.fits_ofFloat? _) <|
      .cons (Schema.fits_ofFloat? _) .nil

end CrossRepeatSummary

namespace Environment

/-- The form of `environment`. -/
def schema : Schema :=
  .flat ["platform", "os_release", "kernel_release", "machine", "host_name", "harness_version",
    "cpu_count", "in_container", "git_commit", "timestamp_utc"]

theorem fits_document (e : Environment) : schema.Fits e.document :=
  .record <| .cons (.text _) <| .cons (.text _) <| .cons (.text _) <| .cons (.text _) <|
    .cons (.text _) <| .cons (.text _) <| .cons (.count _) <| .cons (.bool _) <|
      .cons (.text _) <| .cons (.text _) .nil

end Environment

theorem Duration.fits_document (d : Duration) : Schema.value.Fits d.document := by
  unfold document
  split
  · exact .count _
  · exact Schema.fits_ofFloat _

/-! ## The form of a report -/

namespace Report

/-- The form of a report on some percentiles. -/
def schema (set : PercentileSet) : Schema :=
  let keys := set.effective.map Percentile.key
  .record
    [("profile_path", .value), ("profile_name", .value), ("provider", .value), ("mode", .value),
      ("concurrency", .value), ("warmup_s", .value), ("duration_s", .value),
      ("repeats_requested", .value), ("percentiles", .list .value),
      ("cpu_sample_interval_s", .value), ("timestamp_utc", .value),
      ("environment", Environment.schema),
      ("workload", .flat ["handshake_model", "iterations_per_handshake"]),
      ("results", RepeatResult.resultsSchema), ("latency_ms", LatencySummary.schema keys),
      ("latency_truncated", .value), ("cpu", CpuSummary.schema),
      ("repeats", .list (RepeatResult.schema keys)), ("summary", CrossRepeatSummary.schema),
      ("errors", .list ErrorEntry.schema), ("notes", .list .value)]

/-- A report on a configuration, whose latencies have the keys of its percentiles. -/
structure Keyed (r : Report) (cfg : Config) : Prop where
  config : r.config = cfg
  first : r.first.latency.percentiles.map Prod.fst =
    cfg.percentiles.effective.map Percentile.key
  repeats : ∀ s ∈ r.repeats, s.latency.percentiles.map Prod.fst =
    cfg.percentiles.effective.map Percentile.key

/-- **A report has its form** as soon as its latencies have their keys. -/
theorem fits_document {r : Report} {cfg : Config} (h : r.Keyed cfg) :
    (schema cfg.percentiles).Fits r.document := by
  obtain rfl := h.config
  have hlatency := r.first.latency.fits_document
  rw [h.first] at hlatency
  have hpercentiles : (Schema.list .value).Fits
      (.list (r.config.percentiles.effective.map fun p => .number p.toBinary64)) := by
    refine .list fun v hv => ?_
    obtain ⟨p, -, rfl⟩ := List.mem_map.mp hv
    exact .number _
  have hrepeats : (Schema.list (RepeatResult.schema
      (r.config.percentiles.effective.map Percentile.key))).Fits
      (.list (r.repeats.map RepeatResult.document)) := by
    refine .list fun v hv => ?_
    obtain ⟨s, hs, rfl⟩ := List.mem_map.mp hv
    have hs' := s.fits_document
    rwa [h.repeats s hs] at hs'
  have hnotes : (Schema.list .value).Fits (.list (r.notes.map .text)) := by
    refine .list fun v hv => ?_
    obtain ⟨s, -, rfl⟩ := List.mem_map.mp hv
    exact .text _
  exact .record <| .cons (.text _) <| .cons (.text _) <| .cons (.text _) <| .cons (.text _) <|
    .cons (.count _) <| .cons r.config.warmup.fits_document <|
    .cons r.config.duration.fits_document <| .cons (.count _) <| .cons hpercentiles <|
    .cons (Schema.fits_ofFloat _) <| .cons (.text _) <| .cons r.environment.fits_document <|
    .cons (.record <| .cons (.text _) <| .cons (.count _) .nil) <|
    .cons r.first.fits_resultsDocument <| .cons hlatency <| .cons (.bool _) <|
    .cons r.first.cpu.fits_document <| .cons hrepeats <| .cons r.summary.fits_document <|
    .cons (ErrorEntry.fits_documents _) <| .cons hnotes .nil

/-- The report of a completed run, whichever of its repeats have samples. -/
theorem keyed_ofOutcome {cfg : Config} (run : Run.Completed cfg Float) (header : ReportHeader)
    (environment : Environment) (timestampUtc : String) :
    (ofOutcome header cfg environment timestampUtc run.outcome).Keyed cfg := by
  have hkeys : ∀ s ∈ run.outcome.repeats, s.latency.percentiles.map Prod.fst =
      cfg.percentiles.effective.map Percentile.key := by
    intro s hs
    obtain ⟨k, hk, hsk⟩ := run.exists_index hs
    exact LatencySummary.keys_of_ofSamples (run.latency_eq hk hsk)
  refine ⟨rfl, ?_, hkeys⟩
  show ((run.outcome.repeats.head?.getD _).latency.percentiles.map Prod.fst) = _
  cases hhead : run.outcome.repeats.head? with
  | none => exact (List.map_map ..).trans (List.map_id _)
  | some s => exact hkeys s (List.mem_of_head? hhead)

/-- The report of a failed run. -/
theorem keyed_internal (header : ReportHeader) (cfg : Config) (environment : Environment)
    (timestampUtc : String) (key : ErrorKey) :
    (internal header cfg environment timestampUtc key).Keyed cfg := by
  let P (s : RepeatResult Float) := s.latency.percentiles.map Prod.fst =
    cfg.percentiles.effective.map Percentile.key
  have hzeroed : ∀ i, P (RepeatResult.zeroed i cfg environment.cpuCount) := fun i =>
    (List.map_map ..).trans (List.map_id _)
  refine ⟨rfl, first_internal (P := P) key hzeroed, fun s hs => ?_⟩
  obtain ⟨i, -, rfl⟩ := List.mem_map.mp hs
  exact hzeroed i

/-! ## What a document shows of its percentiles and repeats -/

/-- The objects `latency_ms` of a document: the one at the top, and one in each repeat. -/
def latencies (document : Json) : List Json :=
  (document :: (document.field? "repeats").elim [] Json.items).filterMap (Json.field? "latency_ms")

theorem latencies_document (r : Report) :
    latencies r.document =
      r.first.latency.document :: r.repeats.map fun s => s.latency.document := by
  have htop : r.document.field? "latency_ms" = some r.first.latency.document := by
    rw [document, Json.field?_record]
    rfl
  have hrepeats : r.document.field? "repeats" =
      some (.list (r.repeats.map RepeatResult.document)) := by
    rw [document, Json.field?_record]
    rfl
  have hrepeat : ∀ s : RepeatResult Float,
      s.document.field? "latency_ms" = some s.latency.document := by
    intro s
    rw [RepeatResult.document, Json.field?_record]
    rfl
  rw [latencies, hrepeats, List.filterMap_cons, htop]
  show r.first.latency.document ::
    (r.repeats.map RepeatResult.document).filterMap (Json.field? "latency_ms") = _
  rw [List.filterMap_map]
  refine congrArg _ (List.filterMap_eq_map_iff_forall_eq_some.mpr fun s _ => hrepeat s)

/-- The fields that `latency_ms` is made of. -/
def latencyFields (s : LatencySummary Float) : List (String × Json) :=
  ("count", .count s.count) :: s.percentiles.map (fun e => (e.1, Json.ofFloat? e.2)) ++
    [("max", Json.ofFloat? s.max)]

theorem keys_latencyFields_perm {s : LatencySummary Float} {set : PercentileSet}
    (h : s.percentiles.map Prod.fst = set.effective.map Percentile.key) :
    ((latencyFields s).map Prod.fst).Perm ("count" :: "max" :: set.effective.map Percentile.key) := by
  have hfields : (latencyFields s).map Prod.fst =
      "count" :: set.effective.map Percentile.key ++ ["max"] := by
    rw [← h]
    simp [latencyFields]
  rw [hfields]
  exact List.Perm.cons _ (List.perm_append_singleton _ _)

/-- A latency summary with the keys of some percentiles has one member for each of them, next to its
count and its maximum. -/
theorem keys_latency {s : LatencySummary Float} {set : PercentileSet}
    (h : s.percentiles.map Prod.fst = set.effective.map Percentile.key) :
    s.document.keys.Nodup ∧
      s.document.keys.Perm ("count" :: "max" :: set.effective.map Percentile.key) := by
  have hfields := keys_latencyFields_perm h
  exact ⟨Json.nodup_keys_record _,
    (Json.keys_record_perm (hfields.nodup_iff.mpr set.nodup_members)).trans hfields⟩

/-- A document shows the repeats of its report, its percentiles, and latencies with a member for each
of these. -/
structure Shows (document : Json) (cfg : Config) : Prop where
  repeats : ∃ repeats, document.field? "repeats" = some (.list repeats) ∧
    repeats.map (Json.field? "index") = (Run.indices cfg).map fun k => some (.count k)
  percentiles : document.field? "percentiles" =
    some (.list ((cfg.percentiles.effective.map Percentile.toBinary64).map .number))
  latencies : ∀ latency ∈ latencies document, latency.keys.Nodup ∧
    latency.keys.Perm ("count" :: "max" ::
      (cfg.percentiles.effective.map Percentile.toBinary64).map percentileKey)

theorem shows_document {r : Report} {cfg : Config} (hkeyed : r.Keyed cfg)
    (hindices : r.repeats.map RepeatResult.index = Run.indices cfg) : Shows r.document cfg := by
  obtain rfl := hkeyed.config
  have hpercentiles : r.config.percentiles.effective.map Percentile.key =
      (r.config.percentiles.effective.map Percentile.toBinary64).map percentileKey := by
    rw [List.map_map]
    rfl
  constructor
  case repeats =>
    refine ⟨r.repeats.map RepeatResult.document, ?_, ?_⟩
    · rw [document, Json.field?_record]
      rfl
    · rw [← hindices, List.map_map, List.map_map]
      refine List.map_congr_left fun s _ => ?_
      show s.document.field? "index" = _
      rw [RepeatResult.document, Json.field?_record]
      rfl
  case percentiles =>
    rw [document, Json.field?_record, List.map_map]
    rfl
  case latencies =>
    intro latency hlatency
    rw [latencies_document, List.mem_cons, List.mem_map] at hlatency
    rw [← hpercentiles]
    rcases hlatency with rfl | ⟨s, hs, rfl⟩
    · exact keys_latency hkeyed.first
    · exact keys_latency (hkeyed.repeats s hs)

/-! ## A second repeat with a latency -/

namespace SecondRepeat

/-- One attempt is made in it, and its sampler is late. -/
def busy : Run.Script Float :=
  Run.TwoRepeats.script 10 []
    [.look (Run.TwoRepeats.reading 11), .prepare (.done ()), .execute (.done ()) 5, .record]
    [.success 5] .late

theorem plays_busy : busy.Plays (Run.TwoRepeats.config default) 2 :=
  Run.TwoRepeats.plays (fun _ _ => ⟨_, rfl, rfl⟩) (fun _ _ => rfl) (by decide)

end SecondRepeat

/-- **One form for all reports.** Where a configuration has a run that completes, there is room for the
repeats of a failed run, too. The reports of the two have one form, so the same keys in every object;
they show the same number of repeats with the same indices, and the same percentiles; and every object
`latency_ms` in them has just a count, a maximum and one member for each of the percentiles. -/
theorem one_schema {cfg : Config} (run : Run.Completed cfg Float) (header header' : ReportHeader)
    (environment environment' : Environment) (timestampUtc timestampUtc' : String)
    (failure : Failure) :
    let normal := (ofOutcome header cfg environment timestampUtc run.outcome).document
    let internal := (Report.internal header' cfg environment' timestampUtc' failure.key).document
    Run.canReserve cfg.repeats.toNat = true ∧
    (schema cfg.percentiles).Fits normal ∧ (schema cfg.percentiles).Fits internal ∧
    Shows normal cfg ∧ Shows internal cfg := by
  intro normal internal
  have hnormal := keyed_ofOutcome run header environment timestampUtc
  have hinternal := keyed_internal header' cfg environment' timestampUtc' failure.key
  obtain ⟨-, hroom, -⟩ := Run.Progress.start_eq_ok (Run.Course.start_eq_ok run.started).1
  exact ⟨hroom, fits_document hnormal, fits_document hinternal,
    shows_document hnormal run.map_index,
    shows_document hinternal (map_index_zeroedRepeats cfg environment')⟩

/-- The report of two repeats, of which only the second one has latencies and a sampler, and that of a
panic in the same benchmark. In both there are three objects `latency_ms`, with the same members. -/
theorem one_schema_of_two_repeats :
    let cfg := Run.TwoRepeats.config default
    let header : ReportHeader := ⟨"path", "name", "provider", "mode"⟩
    let environment : Environment := ⟨"linux", "1", "2", "x86_64", "host", "3", 4, false, "c0", "t"⟩
    ∃ (run : Run.Completed cfg Float) (r r' : RepeatResult Float),
      run.outcome.repeats = [r, r'] ∧ r.latency.count = 0 ∧ r'.latency.count = 1 ∧
      let normal := (ofOutcome header cfg environment "t" run.outcome).document
      let internal := (Report.internal header cfg environment "t" (Failure.key ⟨.panic, "p"⟩)).document
      (schema cfg.percentiles).Fits normal ∧ (schema cfg.percentiles).Fits internal ∧
      ∀ document ∈ [normal, internal],
        (∃ repeats, document.field? "repeats" = some (.list repeats) ∧
          repeats.map (Json.field? "index") = [some (.count 1), some (.count 2)]) ∧
        (latencies document).length = 3 ∧
        ∀ latency ∈ latencies document, latency.keys.Perm ["count", "max", "p50", "p95", "p99"] := by
  intro cfg header environment
  obtain ⟨run, -, -, hrecords, -, hrecords'⟩ :=
    Run.TwoRepeats.exists_run Run.TwoRepeats.plays_quiet SecondRepeat.plays_busy
  obtain ⟨r, r', hboth, -, -, hr, hr'⟩ := Run.TwoRepeats.exists_repeats run
  have hnone := LatencySummary.count_of_ofSamples (run.latency_eq (by decide) hr)
  have hone := LatencySummary.count_of_ofSamples (run.latency_eq (by decide) hr')
  rw [Run.Completed.metrics, hrecords] at hnone
  rw [Run.Completed.metrics, hrecords'] at hone
  obtain ⟨-, hnormal, hinternal, hshown, hshown'⟩ := one_schema run header header environment
    environment "t" "t" ⟨.panic, "p"⟩
  have hkeys : (cfg.percentiles.effective.map Percentile.toBinary64).map percentileKey =
      ["p50", "p95", "p99"] := by decide +kernel
  have hmembers : ∀ report : Report, Shows report.document cfg →
      report.repeats.map RepeatResult.index = Run.indices cfg →
      (∃ repeats, report.document.field? "repeats" = some (.list repeats) ∧
        repeats.map (Json.field? "index") = [some (.count 1), some (.count 2)]) ∧
      (latencies report.document).length = 3 ∧ ∀ latency ∈ latencies report.document,
        latency.keys.Perm ["count", "max", "p50", "p95", "p99"] := by
    intro report hshows hindices
    refine ⟨hshows.repeats, ?_, fun latency hlatency => ?_⟩
    · have htwo : report.repeats.length = 2 := by
        rw [← List.length_map (f := RepeatResult.index), hindices]
        rfl
      rw [latencies_document, List.length_cons, List.length_map, htwo]
    · rw [← hkeys]
      exact (hshows.latencies latency hlatency).2
  refine ⟨run, r, r', hboth, hnone, hone, hnormal, hinternal, fun document hdocument => ?_⟩
  rcases List.mem_pair.mp hdocument with rfl | rfl
  · exact hmembers _ hshown run.map_index
  · exact hmembers _ hshown' (map_index_zeroedRepeats cfg environment)

end Report
end ExchangeBench
