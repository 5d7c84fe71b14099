import ExchangeBench.CommandLine
import ExchangeBench.Host
import ExchangeBench.Log.Filter
import ExchangeBench.Profile.Decode
import ExchangeBench.Report.Document

/-!
# The program

The program loads a profile, checks the configuration, runs the benchmark, writes the report, and
echoes it. A benchmark that fails on its own leaves a report all the same; only what comes before and
after it makes the program fail.

* `Command.conduct`: the repeats of a run, one by one.
* `Command.report`: the report of a run.
* `Command.run`: the program for an accepted command line.
* `Command.invoke`: the program from its arguments to its exit code.
-/

namespace ExchangeBench

/-- What a report says of a profile that was read from a path. -/
def Profile.reportHeader (p : Profile) (path : String) : ReportHeader :=
  ⟨path, p.name, p.provider, p.mode.name⟩

namespace Command

variable {m : Type → Type} [Monad m]

/-- Why the program fails. -/
inductive Failing where
  | profile (path : String) (e : ProfileError)
  | config (e : BenchError)
  /-- A panic that nothing contains. -/
  | panicked (p : Payload)
  | write (path : String) (e : BenchError)
  | echo (reason : String)

/-- The wording of a failing. -/
def Failing.message : Failing → String
  | profile path e => "failed to load profile: " ++ path ++ ": " ++ e.fullMessage
  | config e => "invalid run configuration: " ++ e.message
  | panicked p => p.message
  | write path e => "failed to write report: " ++ path ++ ": " ++ e.message
  | echo reason => "failed to echo report to stdout: " ++ reason

/-- How the process ends. -/
inductive ExitCode where
  /-- The report is written. -/
  | success
  /-- The input was refused, or the report could not be written. -/
  | failure
  /-- The command line is wrong. -/
  | usage
  /-- A panic left the program. -/
  | crash
  /-- A panic left the program, and panicked again when it was discarded: the process is aborted. -/
  | abort
  deriving DecidableEq

/-- The number of an exit code. That of an aborted process is the one a shell gives it. -/
def ExitCode.number : ExitCode → Nat
  | success => 0
  | failure => 1
  | usage => 2
  | crash => 101
  | abort => 134

/-- The exit code of a panic that leaves the program. -/
def ExitCode.ofPanic : Payload → ExitCode
  | .volatile _ => abort
  | .text _ | .nonText => crash

/-! ## Events -/

/-- Whether the log is written with styles, which a variable can refuse. -/
def hasStyles (host : Host m) : Bool :=
  (host.environmentValue "NO_COLOR").all String.isEmpty

/-- Writes an event to the log, if the filter admits it. -/
def note (host : Host m) (filter : Log.Filter) (e : Log.Event) : m (Except Payload Unit) := do
  if filter.admits e then host.log (e.line (← host.timestamp) (hasStyles host))
  else return .ok ()

/-- A number as a detail of an event. -/
def shownFloat (x : Float) : String :=
  Layout.pointed.text (Binary64.ofFloat x)

/-- A remark as a detail of an event. -/
def shownValue : MetadataValue → String
  | .bool b => "Bool(" ++ (if b then "true" else "false") ++ ")"
  | .int i => "Int(" ++ (if i < 0 then "-" else "") ++ Text.ofNat i.natAbs ++ ")"
  | .text s => "Str(" ++ Text.shown s ++ ")"

/-- Remarks as a detail of an event. -/
def shownMetadata (es : List (String × MetadataValue)) : String :=
  "\x7b" ++ ", ".intercalate (es.map fun e => Text.shown e.1 ++ ": " ++ shownValue e.2) ++ "\x7d"

/-- The run begins. -/
def starting (p : Profile) (cfg : Config) : Log.Event where
  level := .info
  target := "hsbench::run"
  message := "starting benchmark"
  details := [
    ("profile", p.name), ("mode", p.mode.name), ("metadata", shownMetadata p.metadata),
    ("concurrency", Text.ofNat cfg.concurrency.toNat),
    ("duration_s", shownFloat cfg.duration.inSeconds),
    ("warmup_s", shownFloat cfg.warmup.inSeconds), ("repeats", Text.ofNat cfg.repeats.toNat)]

/-- An event of a repeat. -/
def inRepeat (level : Log.Level) (index : Nat) (message : String)
    (details : List (String × String)) : Log.Event :=
  ⟨level, "hsbench_core::runner::repeat", message, ("repeat", Text.ofNat index) :: details⟩

/-- A warmup begins. -/
def warming (cfg : Config) (index : Nat) : Log.Event :=
  inRepeat .debug index "warmup" [("warmup_ms", Text.ofNat cfg.warmup.millis)]

/-- A measurement begins. -/
def measuring (cfg : Config) (index : Nat) : Log.Event :=
  inRepeat .debug index "measurement started"
    [("concurrency", Text.ofNat cfg.concurrency.toNat)]

/-- What there is to tell once the source of CPU samples of a repeat is opened. -/
def beginning (cfg : Config) (index : Nat) (opening : Opening) : List Log.Event :=
  (if opening = .unavailable then [inRepeat .debug index "cpu sampling unavailable" []] else []) ++
    [measuring cfg index]

/-- What there is to tell of how a sampler has ended. After a panic nobody waits for it. -/
def exitEvents (m : Measurement Float) : List Log.Event :=
  match m.phase, m.opening, m.sampler with
  | .error (.panic _), _, _ => []
  | _, .opened, .timedOut =>
    [⟨.warn, "hsbench_core::runner::cpu", "cpu sampler did not stop in time; detaching",
      [("timeout_ms", Text.ofNat Sampler.joinTimeout.millis)]⟩]
  | _, .opened, .lost =>
    [⟨.warn, "hsbench_core::runner::cpu", "cpu sampler exited without reporting samples", []⟩]
  | _, _, _ => []

/-- A measurement is complete. -/
def measured (r : RepeatResult Float) : Log.Event :=
  inRepeat .info r.index "measurement complete"
    [("success", Text.ofNat r.successCount.toNat), ("failure", Text.ofNat r.failureCount.toNat),
     ("throughput", shownFloat r.throughput)]

/-- The run has failed. -/
def failed (f : Failure) : Log.Event :=
  ⟨.error, "hsbench_core::report", "benchmark run failed: " ++ f.message, [("kind", f.kind.name)]⟩

/-- The report is written. -/
def written (path : String) : Log.Event :=
  ⟨.info, "hsbench::run", "report written", [("path", path)]⟩

/-! ## The benchmark -/

/-- Writes events to the log in the course of a run. A panic of the log ends the run. -/
def noteAll (host : Host m) (filter : Log.Filter) (es : List Log.Event) :
    ExceptT Interruption m Unit :=
  es.forM fun e => do RepeatResult.orPanic (← (note host filter e : m (Except Payload Unit)))

/-- Lets the warmup of a repeat happen, if the configuration has one. -/
def conductWarmup (host : Host m) (filter : Log.Filter) (cfg : Config) (h : Handshake)
    (index : Nat) : ExceptT Interruption m Unit := do
  if cfg.warmup.isZero then return ()
  else
    noteAll host filter [warming cfg index]
    RepeatResult.warmedUp cfg (← host.warmUp cfg h)

/-- Whether a measurement that has begun so can go on to its phase. -/
def begun (cfg : Config) (start : Clock.Reading) (opening : Opening) : Except Interruption Unit := do
  let _ ← RepeatResult.orInterrupt (Clock.deadline start cfg.duration "duration")
  let _ ← RepeatResult.samplesOf (Sampler.Exit.lost : Sampler.Exit Float) opening

/-- Lets the measurement of a repeat happen. -/
def conductMeasurement (host : Host m) (filter : Log.Filter) (cfg : Config) (h : Handshake)
    (index : Nat) : ExceptT Interruption m (RepeatResult Float × SamplerState) := do
  let (start, opening) ← host.beginMeasurement cfg
  begun cfg start opening
  noteAll host filter (beginning cfg index opening)
  let measurement := { ← host.measure cfg h start opening with start, opening }
  noteAll host filter (exitEvents measurement)
  RepeatResult.measured cfg index measurement

/-- Lets one repeat happen and takes in its result. -/
def conductRepeat (host : Host m) (filter : Log.Filter) (cfg : Config) (h : Handshake)
    (p : Run.Progress Float) (index : Nat) : ExceptT Interruption m (Run.Progress Float) := do
  conductWarmup host filter cfg h index
  let (r, state) ← conductMeasurement host filter cfg h index
  noteAll host filter [measured r]
  return p.add r state

/-- Lets so many repeats happen, counted on from an index. -/
def conductFrom (host : Host m) (filter : Log.Filter) (cfg : Config) (h : Handshake) :
    Nat → Nat → Run.Progress Float → ExceptT Interruption m (Run.Progress Float)
  | 0, _, p => return p
  | n + 1, index, p => do
    conductFrom host filter cfg h n (index + 1) (← conductRepeat host filter cfg h p index)

/-- Lets the repeats of a run happen, one after another. -/
def conduct (host : Host m) (filter : Log.Filter) (cfg : Config) (h : Handshake) :
    ExceptT Interruption m (RunOutcome Float) := do
  let p ← Run.Progress.start cfg (← host.clock)
  return (← conductFrom host filter cfg h cfg.repeats.toNat 1 p).finish cfg

/-- Tells of a run that has failed. A payload that panics when it is discarded has done so before. -/
def noteEnding (host : Host m) (filter : Log.Filter) :
    Except Interruption (RunOutcome Float) → m (Except Payload Unit)
  | .ok _ | .error (.panic (.volatile _)) => return .ok ()
  | .error i => note host filter (failed (Report.failureOf i))

/-- The failing of a benchmark that leaves no report. -/
def failingOf : Interruption → Failing
  | .error e => .config e
  | .panic p => .panicked p

/-- Runs the benchmark of a profile and makes its report. -/
def report (host : Host m) (filter : Log.Filter) (header : ReportHeader) (cfg : Config)
    (h : Handshake) : m (Except Failing Report) := do
  let now ← host.clock
  match cfg.validate now with
  | .error e => return .error (.config e)
  | .ok () =>
    let environment ← host.environment
    let ending ← (conduct host filter cfg h).run
    match ← noteEnding host filter ending with
    | .error p => return .error (.panicked p)
    | .ok () =>
      match Report.ofRun header cfg environment (← host.timestamp) now ending with
      | .error i => return .error (failingOf i)
      | .ok r => return .ok r

/-! ## The program -/

/-- Writes a report to its file, and to standard output unless that is not wanted. -/
def deliver (host : Host m) (filter : Log.Filter) (o : CommandLine.Options) (r : Report) :
    m (Except Failing Unit) := do
  let text := r.text
  match ← host.writeFile o.out text with
  | .error reason => return .error (.write o.out (.io reason))
  | .ok () =>
    match ← note host filter (written o.out) with
    | .error p => return .error (.panicked p)
    | .ok () =>
      if o.quiet then return .ok ()
      else
        match ← host.print text with
        | .error reason => return .error (.echo reason)
        | .ok () => return .ok ()

/-- Runs the benchmark of a profile that is loaded, with a configuration that is accepted, and delivers
its report. -/
def carryOut (host : Host m) (filter : Log.Filter) (o : CommandLine.Options) (p : Profile) :
    m (Except Failing Unit) := do
  match ← note host filter (starting p o.config) with
  | .error payload => return .error (.panicked payload)
  | .ok () =>
    match ← report host filter (p.reportHeader o.profile) o.config p.keyExchange with
    | .error f => return .error f
    | .ok r => deliver host filter o r

/-- Runs the program for an accepted command line. -/
def run (host : Host m) (filter : Log.Filter) (o : CommandLine.Options) :
    m (Except Failing Unit) := do
  match Profile.load o.profile (← host.readFile o.profile) with
  | .error e => return .error (.profile o.profile e)
  | .ok p =>
    match o.config.validate (← host.clock) with
    | .error e => return .error (.config e)
    | .ok () => carryOut host filter o p

/-- The exit code of a run. -/
def ExitCode.ofRun : Except Failing Unit → ExitCode
  | .ok () => success
  | .error (.panicked p) => ofPanic p
  | .error _ => failure

/-- The version, as it is printed. -/
def versionText : String :=
  "hsbench " ++ Environment.version ++ "\n"

/-- One option with its description. -/
def helpLine (usage description : String) : String :=
  "  " ++ usage ++ "\n          " ++ description ++ "\n"

/-- The description of a setting. -/
def describe : CommandLine.Setting → String
  | .profile => "Path to the profile YAML"
  | .concurrency => "Number of concurrent workers"
  | .duration => "Measurement duration per repeat (e.g. 30, 30s, 1m)"
  | .warmup => "Warmup duration before each measurement; 0 disables warmup"
  | .repeats => "Number of warmup + measurement cycles"
  | .percentiles => "Comma-separated percentiles in [0, 100]; p50/p95/p99 are always reported"
  | .cpuSampleInterval => "CPU sampling interval in seconds (minimum 0.2)"
  | .out => "Where to write the JSON report (parent directories are created)"
  | .logLevel => "Log filter used when RUST_LOG is not set (e.g. info, debug)"

/-- The help, as it is printed. -/
def helpText : String :=
  "Handshake capacity benchmark\n\nUsage: hsbench [OPTIONS]\n\nOptions:\n" ++
    String.join (CommandLine.Setting.all.map fun s =>
      helpLine s.usage (describe s ++ " [env: " ++ s.environmentName ++ "=]" ++
        match s.default? with
        | none => ""
        | some d => " [default: " ++ d ++ "]")) ++
    helpLine "--quiet" "Do not echo the report to stdout" ++
    helpLine "-h, --help" "Print help" ++
    helpLine "-V, --version" "Print version"

/-- The wording of a usage error. -/
def usageMessage : CommandLine.UsageError → String
  | .unknownArgument arg => "unexpected argument '" ++ arg ++ "' found"
  | .missingValue s => "a value is required for '" ++ s.usage ++ "' but none was supplied"
  | .badValue s text f => "invalid value '" ++ text ++ "' for '" ++ s.usage ++ "': " ++ f.message
  | .unneededValue arg => "unexpected value for '" ++ arg ++ "' found; no more were expected"
  | .givenTwice arg => "the argument '" ++ arg ++ "' cannot be used multiple times"
  | .missing ss =>
    "the following required arguments were not provided: " ++
      ", ".intercalate (ss.map CommandLine.Setting.usage)
  | .help => helpText
  | .version => versionText

/-- Answers a command line that is not carried out, as far as that can be written. -/
def refuse (host : Host m) (e : CommandLine.UsageError) : m ExitCode := do
  match e with
  | .help =>
    let _ ← host.print helpText
    return .success
  | .version =>
    let _ ← host.print versionText
    return .success
  | e =>
    let _ ← host.complain ("error: " ++ usageMessage e)
    return .usage

/-- Ends the program in a panic. What there is to say is said if it can be. -/
def crash (host : Host m) (p : Payload) : m ExitCode := do
  let _ ← host.complain ("thread 'main' panicked:\n" ++ p.message)
  return .ofPanic p

/-- What a line panics with that cannot be written to standard error. -/
def unheard (reason : String) : Payload :=
  .text ("failed printing to stderr: " ++ reason)

/-- Ends the program in a failure, or in a panic if it cannot say why. -/
def failWith (host : Host m) (message : String) : m ExitCode := do
  match ← host.complain message with
  | .error reason => crash host (unheard reason)
  | .ok () => return .failure

/-- Runs the program for an accepted command line, to its exit code. -/
def runToExit (host : Host m) (filter : Log.Filter) (o : CommandLine.Options) : m ExitCode := do
  match ← run host filter o with
  | .ok () => return .success
  | .error (.panicked p) => crash host p
  | .error f => failWith host f.message

/-- What is said of a rule that is left out of the filter. -/
def ignoring (rule : String × Log.Rule.Fault) : String :=
  "ignoring `" ++ rule.1 ++ "`: " ++ rule.2.message

/-- Says which rules are left out of the filter, up to the first line that cannot be written. -/
def complainEach (host : Host m) : List (String × Log.Rule.Fault) → m (Except String Unit)
  | [] => return .ok ()
  | rule :: rules => do
    match ← host.complain (ignoring rule) with
    | .error reason => return .error reason
    | .ok () => complainEach host rules

/-- Runs the program from its arguments to its exit code. -/
def invoke (host : Host m) (args : List String) : m ExitCode := do
  match CommandLine.parse args host.environmentValue with
  | .error e => refuse host e
  | .ok o =>
    let setup := Log.Filter.setUp (host.environmentValue "RUST_LOG") o.logLevel
    match ← complainEach host setup.ignored with
    | .error reason => crash host (unheard reason)
    | .ok () =>
      match setup.filter with
      | .ok filter => runToExit host filter o
      | .error index => crash host (.text (Log.Rule.Fault.split index).message)

end Command
end ExchangeBench
