import ExchangeBench.Proofs.Percentile.Effective
import ExchangeBench.Proofs.Report.Datum

/-!
# What a report says

A report is made from the results of a run, and not everything can become of these: the numbers at the top
are those of the first repeat, the failures stand in order, and the percentiles are effective ones. The text
of a report depends on none of this. `Contents` are all that a text of this form can say, whether a run has
led to it or not, and a report is one case of them.

- `Contents`, `Contents.datum`: what a report says, and under which names.
- `Contents.document`, `Contents.text`: its document and its text.
- `Report.contents`, `Report.document_contents`, `Report.text_contents`: the contents of a report have its
  document and its text.
-/

namespace ExchangeBench

namespace Contents

/-- What `results` says. -/
structure Results where
  successCount : Count
  failureCount : Count
  throughput : Float

/-- What `latency_ms` says. The percentiles stand under ascending keys, whichever these are. -/
structure Latency where
  count : Nat
  percentiles : List (String × Option Float)
  ascending : (percentiles.map Prod.fst).Pairwise (· < ·) := by decide
  max : Option Float

/-- What `cpu` says. -/
structure Cpu (α : Type) where
  systemAvg : Option α
  systemPeak : Option α
  processAvg : Option α
  processPeak : Option α
  /-- In seconds. -/
  sampleInterval : α
  sampleCount : Nat
  loadOne : Option α
  loadFive : Option α
  loadFifteen : Option α
  logicalCpus : Nat

/-- What an element of `errors` says. -/
structure Entry where
  kind : String
  fingerprint : String
  count : Count

/-- What an element of `repeats` says. -/
structure Repeat where
  index : Nat
  results : Results
  latency : Latency
  latencyTruncated : Bool
  cpu : Cpu Float
  errors : List Entry

/-- What `workload` says. -/
structure Workload where
  handshakeModel : String
  iterationsPerHandshake : UInt32

end Contents

/-- **What a report says**, whatever it was made from. -/
structure Contents where
  profilePath : String
  profileName : String
  provider : String
  mode : String
  concurrency : UInt64
  warmup : Duration
  duration : Duration
  repeatsRequested : UInt64
  percentiles : List Float
  /-- In seconds. -/
  cpuSampleInterval : Float
  timestampUtc : String
  environment : Environment
  workload : Contents.Workload
  results : Contents.Results
  latency : Contents.Latency
  latencyTruncated : Bool
  cpu : Contents.Cpu Float
  repeats : List Contents.Repeat
  summary : CrossRepeatSummary Float
  errors : List Contents.Entry
  notes : List String

/-! ## Names -/

namespace Contents

def Results.datum (r : Results) : Datum :=
  .record
    [("success_count", .count r.successCount.toNat),
     ("failure_count", .count r.failureCount.toNat),
     ("throughput_hs_per_sec", .double r.throughput)]

/-- The percentiles stand beside their count and their maximum. -/
def Latency.datum (l : Latency) : Datum :=
  .record
    (("count", .count l.count) :: l.percentiles.map (fun e => (e.1, .optional e.2)) ++
      [("max", .optional l.max)])

def Cpu.datum (c : Cpu Float) : Datum :=
  .record
    [("system_avg_percent", .optional c.systemAvg),
     ("system_peak_percent", .optional c.systemPeak),
     ("process_avg_percent", .optional c.processAvg),
     ("process_peak_percent", .optional c.processPeak),
     ("sample_count", .count c.sampleCount),
     ("sample_interval_s", .double c.sampleInterval),
     ("load_avg_1m", .optional c.loadOne),
     ("load_avg_5m", .optional c.loadFive),
     ("load_avg_15m", .optional c.loadFifteen),
     ("logical_cpus", .count c.logicalCpus)]

def Entry.datum (e : Entry) : Datum :=
  .record [("type", .text e.kind), ("msg_hash", .text e.fingerprint), ("count", .count e.count.toNat)]

def Repeat.datum (r : Repeat) : Datum :=
  .record
    [("index", .count r.index),
     ("results", r.results.datum),
     ("latency_ms", r.latency.datum),
     ("latency_truncated", .flag r.latencyTruncated),
     ("cpu", r.cpu.datum),
     ("errors", .list (r.errors.map Entry.datum))]

def Workload.datum (w : Workload) : Datum :=
  .record
    [("handshake_model", .text w.handshakeModel),
     ("iterations_per_handshake", .count w.iterationsPerHandshake.toNat)]

end Contents

def CrossRepeatSummary.datum (s : CrossRepeatSummary Float) : Datum :=
  .record
    [("throughput_mean", .optional s.throughputMean),
     ("throughput_stdev", .optional s.throughputStdev),
     ("p99_mean", .optional s.p99Mean),
     ("p99_9_mean", .optional s.p999Mean),
     ("max_latency_max", .optional s.maxLatencyMax)]

def Environment.datum (e : Environment) : Datum :=
  .record
    [("platform", .text e.platform),
     ("os_release", .text e.osRelease),
     ("kernel_release", .text e.kernelRelease),
     ("machine", .text e.machine),
     ("host_name", .text e.hostName),
     ("harness_version", .text e.harnessVersion),
     ("cpu_count", .count e.cpuCount),
     ("in_container", .flag e.inContainer),
     ("git_commit", .text e.gitCommit),
     ("timestamp_utc", .text e.timestampUtc)]

namespace Contents

/-- **What a report says, each part under its name.** -/
def datum (c : Contents) : Datum :=
  .record
    [("profile_path", .text c.profilePath),
     ("profile_name", .text c.profileName),
     ("provider", .text c.provider),
     ("mode", .text c.mode),
     ("concurrency", .count c.concurrency.toNat),
     ("warmup_s", .seconds c.warmup),
     ("duration_s", .seconds c.duration),
     ("repeats_requested", .count c.repeatsRequested.toNat),
     ("percentiles", .list (c.percentiles.map .double)),
     ("cpu_sample_interval_s", .double c.cpuSampleInterval),
     ("timestamp_utc", .text c.timestampUtc),
     ("environment", c.environment.datum),
     ("workload", c.workload.datum),
     ("results", c.results.datum),
     ("latency_ms", c.latency.datum),
     ("latency_truncated", .flag c.latencyTruncated),
     ("cpu", c.cpu.datum),
     ("repeats", .list (c.repeats.map Repeat.datum)),
     ("summary", c.summary.datum),
     ("errors", .list (c.errors.map Entry.datum)),
     ("notes", .list (c.notes.map .text))]

/-- The document of some contents. -/
def document (c : Contents) : Json :=
  c.datum.document

/-- The text of some contents. -/
def text (c : Contents) : String :=
  c.document.pretty

/-! ## The contents of a report -/

/-- Percentiles are put under their keys. -/
def Latency.ofSummary (s : LatencySummary Float) : Latency where
  count := s.count
  percentiles := Text.keyed s.percentiles
  ascending := Text.ascending_keyed s.percentiles
  max := s.max

/-- What is said of a phase in which no sampler ran: no percentages and no samples. -/
def Cpu.unsampled {α : Type} [Scalar α] (s : CpuSummary α) : Cpu α where
  systemAvg := none
  systemPeak := none
  processAvg := none
  processPeak := none
  sampleInterval := s.sampleInterval.inSeconds
  sampleCount := 0
  loadOne := s.loadAverage.map LoadAverage.one
  loadFive := s.loadAverage.map LoadAverage.five
  loadFifteen := s.loadAverage.map LoadAverage.fifteen
  logicalCpus := s.logicalCpus

def Cpu.ofSummary {α : Type} [Scalar α] (s : CpuSummary α) : Cpu α :=
  match s.usage with
  | .available systemAvg systemPeak processAvg processPeak sampleCount =>
    { Cpu.unsampled s with systemAvg, systemPeak, processAvg, processPeak, sampleCount }
  | .unavailable => Cpu.unsampled s

def Entry.ofErrorEntry (e : ErrorEntry) : Entry :=
  ⟨e.kind.name, e.fingerprint, e.count⟩

def Results.ofResult (r : RepeatResult Float) : Results :=
  ⟨r.successCount, r.failureCount, r.throughput⟩

def Repeat.ofResult (r : RepeatResult Float) : Repeat where
  index := r.index
  results := .ofResult r
  latency := .ofSummary r.latency
  latencyTruncated := r.latencyTruncated
  cpu := .ofSummary r.cpu
  errors := (ErrorEntry.ofTally r.errors).map .ofErrorEntry

/-- Attempts come in bursts of one iteration each. -/
def Workload.burst : Workload :=
  ⟨"burst", 1⟩

end Contents

/-- What a report says. -/
def Report.contents (r : Report) : Contents where
  profilePath := r.header.profilePath
  profileName := r.header.profileName
  provider := r.header.provider
  mode := r.header.mode
  concurrency := r.config.concurrency
  warmup := r.config.warmup
  duration := r.config.duration
  repeatsRequested := r.config.repeats
  percentiles := r.config.percentiles.effective.map Percentile.value
  cpuSampleInterval := r.config.cpuSampleInterval.inSeconds
  timestampUtc := r.timestampUtc
  environment := r.environment
  workload := .burst
  results := .ofResult r.first
  latency := .ofSummary r.first.latency
  latencyTruncated := r.first.latencyTruncated
  cpu := .ofSummary r.first.cpu
  repeats := r.repeats.map .ofResult
  summary := r.summary
  errors := r.errors.map .ofErrorEntry
  notes := r.notes

/-! ## The document of a report -/

namespace Contents

/-- It does not matter that percentiles were put under their keys before. -/
theorem Latency.document_ofSummary (s : LatencySummary Float) :
    (Latency.ofSummary s).datum.document = s.document := by
  rw [Latency.datum, Datum.document_record]
  refine congrArg Json.object (Text.keyed_eq_of_lookup fun k => ?_)
  simp only [Latency.ofSummary, List.map_cons, List.map_append, List.map_map, List.map_nil,
    Function.comp_def, Datum.document, List.cons_append, List.reverse_cons, List.reverse_append,
    List.lookup_append, ← List.map_reverse, Text.lookup_map, Text.lookup_reverse_keyed]

theorem Cpu.document_ofSummary (s : CpuSummary Float) : (Cpu.ofSummary s).datum.document = s.document := by
  unfold Cpu.ofSummary CpuSummary.document
  cases s.usage with
  | available => rfl
  | unavailable => rfl

theorem Entry.documents_ofErrorEntry (es : List ErrorEntry) :
    (Datum.list ((es.map Entry.ofErrorEntry).map Entry.datum)).document = ErrorEntry.documents es := by
  rw [Datum.document_list, List.map_map, List.map_map]
  rfl

theorem Repeat.document_ofResult (r : RepeatResult Float) :
    (Repeat.ofResult r).datum.document = r.document := by
  simp only [Repeat.datum, Repeat.ofResult, Datum.document_record, List.map_cons, List.map_nil,
    Latency.document_ofSummary, Cpu.document_ofSummary, Entry.documents_ofErrorEntry]
  rfl

theorem Repeat.documents_ofResult (rs : List (RepeatResult Float)) :
    (Datum.list ((rs.map Repeat.ofResult).map Repeat.datum)).document =
      .list (rs.map RepeatResult.document) := by
  rw [Datum.document_list, List.map_map, List.map_map]
  exact congrArg Json.list (List.map_congr_left fun r _ => Repeat.document_ofResult r)

/-- A percentile is as good a double as its value. -/
theorem documents_value (ps : List Percentile) :
    (Datum.list ((ps.map Percentile.value).map .double)).document =
      .list (ps.map fun p => .number p.toBinary64) := by
  rw [Datum.document_list, List.map_map, List.map_map]
  refine congrArg Json.list (List.map_congr_left fun p _ => ?_)
  show Json.ofFloat p.value = _
  rw [Json.ofFloat, p.ofFloat_value]
  exact if_pos p.inRange.isFinite

end Contents

namespace Report

/-- **The contents of a report have its document.** -/
theorem document_contents (r : Report) : r.contents.document = r.document := by
  have hnotes : (Datum.list (r.notes.map .text)).document = .list (r.notes.map .text) := by
    rw [Datum.document_list, List.map_map]
    rfl
  simp only [Contents.document, Contents.datum, contents, Datum.document_record, List.map_cons,
    List.map_nil, Contents.Latency.document_ofSummary, Contents.Cpu.document_ofSummary,
    Contents.Repeat.documents_ofResult, Contents.Entry.documents_ofErrorEntry,
    Contents.documents_value, hnotes]
  rfl

/-- **The contents of a report have its text.** -/
theorem text_contents (r : Report) : r.contents.text = r.text :=
  congrArg Json.pretty r.document_contents

end Report
end ExchangeBench
