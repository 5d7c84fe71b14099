import ExchangeBench.Environment
import ExchangeBench.Json
import ExchangeBench.Run

/-!
# Reports

What a benchmark run leaves behind: who was measured and how, the host, every repeat, a summary
across them, the failures by class, and notes. A run that fails outside of any attempt leaves a
report of the same shape, without numbers.

* `ErrorEntry.ofTally`: the failures of a tally in the order of a report.
* `Report.ofOutcome`, `Report.internal`: the report of a completed run, and of one that failed.
* `Report.ofRun`: the report of a run, however it ended.
-/

namespace ExchangeBench

/-- What was benchmarked. -/
structure ReportHeader where
  profilePath : String
  profileName : String
  provider : String
  mode : String
  deriving DecidableEq

/-- A class of failures and how often it occurred. -/
structure ErrorEntry where
  kind : FailureKind
  fingerprint : String
  count : Count
  deriving DecidableEq

namespace ErrorEntry

/-- The order of entries: the more frequent first, then by the kind's name, then by fingerprint. -/
def precedes (a b : ErrorEntry) : Bool :=
  if a.count ≠ b.count then b.count < a.count
  else if a.kind ≠ b.kind then a.kind.name < b.kind.name
  else a.fingerprint ≤ b.fingerprint

/-- The entries of some counted classes, in order. -/
def ofList (l : List (ErrorKey × Count)) : List ErrorEntry :=
  (l.map fun e => ⟨e.1.kind, e.1.fingerprint, e.2⟩).mergeSort precedes

/-- The entries of a tally, in order. -/
def ofTally (t : Tally) : List ErrorEntry :=
  ofList t.entries

end ErrorEntry

/-- The failures of all repeats. -/
def mergeErrors {α : Type} (rs : List (RepeatResult α)) : Tally :=
  rs.foldl (fun t r => t.merge r.errors) Tally.empty

/-- The complete record of a benchmark. -/
structure Report where
  header : ReportHeader
  config : Config
  timestampUtc : String
  environment : Environment
  /-- The repeat whose numbers stand at the top. -/
  first : RepeatResult Float
  repeats : List (RepeatResult Float)
  summary : CrossRepeatSummary Float
  errors : List ErrorEntry
  notes : List String

namespace Report

/-- What every report is built on: the first repeat stands at the top, or zeros where there is
none. -/
def skeleton (header : ReportHeader) (config : Config) (environment : Environment)
    (timestampUtc : String) (repeats : List (RepeatResult Float)) : Report where
  header
  config
  timestampUtc
  environment
  first := repeats.head?.getD (RepeatResult.zeroed 1 config environment.cpuCount)
  repeats
  summary := CrossRepeatSummary.absent
  errors := []
  notes := []

/-- The report of some repeats with their summary and notes. -/
def build (header : ReportHeader) (config : Config) (environment : Environment)
    (timestampUtc : String) (repeats : List (RepeatResult Float))
    (summary : CrossRepeatSummary Float) (notes : List String) : Report :=
  { skeleton header config environment timestampUtc repeats with
    summary
    errors := ErrorEntry.ofTally (mergeErrors repeats)
    notes }

/-- The report of a completed run. -/
def ofOutcome (header : ReportHeader) (config : Config) (environment : Environment)
    (timestampUtc : String) (outcome : RunOutcome Float) : Report :=
  build header config environment timestampUtc outcome.repeats outcome.summary
    (outcome.notes.map Note.text)

/-- The repeats of a run that failed: as many as were asked for, all without numbers. -/
def zeroedRepeats (config : Config) (environment : Environment) : List (RepeatResult Float) :=
  (Run.indices config).map fun i => RepeatResult.zeroed i config environment.cpuCount

/-- The report of a run that failed outside of any attempt. -/
def internal (header : ReportHeader) (config : Config) (environment : Environment)
    (timestampUtc : String) (key : ErrorKey) : Report :=
  { skeleton header config environment timestampUtc (zeroedRepeats config environment) with
    errors := ErrorEntry.ofTally (Tally.empty.insert key 1)
    notes := [Note.internalError.text] }

/-- The failure that a report shows for an interrupted run. -/
def failureOf : Interruption → Failure
  | .error e => ⟨.internal, e.message⟩
  | .panic p => Failure.ofPanic p

/-- The report of an interrupted run. A payload that panics when it is discarded does so here, and a
buffer for the repeats that cannot be reserved panics here. -/
def ofInterruption (header : ReportHeader) (config : Config) (environment : Environment)
    (timestampUtc : String) (i : Interruption) : Except Payload Report :=
  match i with
  | .panic (.volatile p) => .error p
  | i =>
    if Run.canReserve config.repeats.toNat then
      .ok (internal header config environment timestampUtc (failureOf i).key)
    else .error .capacityOverflow

/-- The report of a run of a configuration, however it ended; only a configuration that is refused
leaves none. -/
def ofRun (header : ReportHeader) (config : Config) (environment : Environment)
    (timestampUtc : String) (now : Clock.Reading) (ending : Except Interruption (RunOutcome Float)) :
    Except Interruption Report :=
  match config.validate now with
  | .error e => .error (.error e)
  | .ok () =>
    match ending with
    | .ok outcome => .ok (ofOutcome header config environment timestampUtc outcome)
    | .error i => RepeatResult.orPanic (ofInterruption header config environment timestampUtc i)

end Report
end ExchangeBench
