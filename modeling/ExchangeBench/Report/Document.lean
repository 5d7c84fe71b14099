import ExchangeBench.Report

/-!
# The document of a report

A report as JSON: which members each object has, and which of them can be null. Durations are whole
numbers where they are whole seconds. The latencies of a phase are an object with a member per
percentile, beside their count and maximum.
-/

namespace ExchangeBench

namespace Duration

/-- Seconds, as a whole number where they are one. -/
def document (d : Duration) : Json :=
  if d.isWhole then .count d.secs else Json.ofFloat d.inSeconds

end Duration

namespace LatencySummary

/-- The object `latency_ms`. -/
def document (s : LatencySummary Float) : Json :=
  Json.record
    (("count", .count s.count) ::
      s.percentiles.map (fun e => (e.1, Json.ofFloat? e.2)) ++
      [("max", Json.ofFloat? s.max)])

end LatencySummary

namespace CpuSummary

/-- The object `cpu`. -/
def document (s : CpuSummary Float) : Json :=
  let usage : List (String × Json) :=
    match s.usage with
    | .available systemAvg systemPeak processAvg processPeak sampleCount =>
      [("system_avg_percent", Json.ofFloat? systemAvg),
       ("system_peak_percent", Json.ofFloat? systemPeak),
       ("process_avg_percent", Json.ofFloat? processAvg),
       ("process_peak_percent", Json.ofFloat? processPeak),
       ("sample_count", .count sampleCount)]
    | .unavailable =>
      [("system_avg_percent", .null), ("system_peak_percent", .null),
       ("process_avg_percent", .null), ("process_peak_percent", .null),
       ("sample_count", .count 0)]
  Json.record
    (usage ++
      [("sample_interval_s", Json.ofFloat s.sampleInterval.inSeconds),
       ("load_avg_1m", Json.ofFloat? (s.loadAverage.map LoadAverage.one)),
       ("load_avg_5m", Json.ofFloat? (s.loadAverage.map LoadAverage.five)),
       ("load_avg_15m", Json.ofFloat? (s.loadAverage.map LoadAverage.fifteen)),
       ("logical_cpus", .count s.logicalCpus)])

end CpuSummary

namespace ErrorEntry

/-- An element of `errors`. -/
def document (e : ErrorEntry) : Json :=
  Json.record
    [("type", .text e.kind.name), ("msg_hash", .text e.fingerprint), ("count", .count e.count.toNat)]

/-- The list `errors`. -/
def documents (es : List ErrorEntry) : Json :=
  .list (es.map document)

end ErrorEntry

namespace RepeatResult

/-- The object `results`. -/
def resultsDocument (r : RepeatResult Float) : Json :=
  Json.record
    [("success_count", .count r.successCount.toNat),
     ("failure_count", .count r.failureCount.toNat),
     ("throughput_hs_per_sec", Json.ofFloat r.throughput)]

/-- An element of `repeats`. -/
def document (r : RepeatResult Float) : Json :=
  Json.record
    [("index", .count r.index),
     ("results", r.resultsDocument),
     ("latency_ms", r.latency.document),
     ("latency_truncated", .bool r.latencyTruncated),
     ("cpu", r.cpu.document),
     ("errors", ErrorEntry.documents (ErrorEntry.ofTally r.errors))]

end RepeatResult

namespace CrossRepeatSummary

/-- The object `summary`. -/
def document (s : CrossRepeatSummary Float) : Json :=
  Json.record
    [("throughput_mean", Json.ofFloat? s.throughputMean),
     ("throughput_stdev", Json.ofFloat? s.throughputStdev),
     ("p99_mean", Json.ofFloat? s.p99Mean),
     ("p99_9_mean", Json.ofFloat? s.p999Mean),
     ("max_latency_max", Json.ofFloat? s.maxLatencyMax)]

end CrossRepeatSummary

namespace Environment

/-- The object `environment`. -/
def document (e : Environment) : Json :=
  Json.record
    [("platform", .text e.platform),
     ("os_release", .text e.osRelease),
     ("kernel_release", .text e.kernelRelease),
     ("machine", .text e.machine),
     ("host_name", .text e.hostName),
     ("harness_version", .text e.harnessVersion),
     ("cpu_count", .count e.cpuCount),
     ("in_container", .bool e.inContainer),
     ("git_commit", .text e.gitCommit),
     ("timestamp_utc", .text e.timestampUtc)]

end Environment

namespace Report

/-- The object `workload`: attempts come in bursts of one iteration each. -/
def workload : Json :=
  Json.record [("handshake_model", .text "burst"), ("iterations_per_handshake", .count 1)]

/-- A report as a document. -/
def document (r : Report) : Json :=
  Json.record
    [("profile_path", .text r.header.profilePath),
     ("profile_name", .text r.header.profileName),
     ("provider", .text r.header.provider),
     ("mode", .text r.header.mode),
     ("concurrency", .count r.config.concurrency.toNat),
     ("warmup_s", r.config.warmup.document),
     ("duration_s", r.config.duration.document),
     ("repeats_requested", .count r.config.repeats.toNat),
     ("percentiles", .list (r.config.percentiles.effective.map fun p => .number p.toBinary64)),
     ("cpu_sample_interval_s", Json.ofFloat r.config.cpuSampleInterval.inSeconds),
     ("timestamp_utc", .text r.timestampUtc),
     ("environment", r.environment.document),
     ("workload", workload),
     ("results", r.first.resultsDocument),
     ("latency_ms", r.first.latency.document),
     ("latency_truncated", .bool r.first.latencyTruncated),
     ("cpu", r.first.cpu.document),
     ("repeats", .list (r.repeats.map RepeatResult.document)),
     ("summary", r.summary.document),
     ("errors", ErrorEntry.documents r.errors),
     ("notes", .list (r.notes.map .text))]

/-- The text of a report. -/
def text (r : Report) : String :=
  r.document.pretty

end Report
end ExchangeBench
