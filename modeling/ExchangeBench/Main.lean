import Std.Time.DateTime.Timestamp
import ExchangeBench.Command
import ExchangeBench.Exchange
import ExchangeBench.Files
import ExchangeBench.Host.Linux
import ExchangeBench.Phase
import ExchangeBench.Timestamp

/-!
# The command line program

The host that the program runs on: files, clock, environment and threads of a Linux system.
-/

namespace ExchangeBench.LocalHost

/-! ## Files -/

/-- The content of a file of the system, empty if there is none. -/
def systemText (path : String) : IO String := do
  try IO.FS.readFile path catch _ => return ""

/-- Whether a file can be opened. -/
def isThere (path : String) : IO Bool := do
  try
    let _ ← IO.FS.Handle.mk path .read
    return true
  catch _ => return false

/-- The words of the system for an error, with its number. -/
def systemWords (code : UInt32) (details : String) : String :=
  let number := if code.toNat < 1 <<< 31 then code.toNat else UInt32.size - code.toNat
  details ++ " (os error " ++ Text.ofNat number ++ ")"

/-- The wording of an error. -/
def reasonOf : IO.Error → String
  | .noFileOrDirectory .. => Files.Fault.notFound.text
  | .inappropriateType _ code details | .permissionDenied _ code details
  | .invalidArgument _ code details | .alreadyExists _ code details
  | .resourceExhausted _ code details | .otherError code details => systemWords code details
  | e => toString e

/-- Reads a file. -/
def readFile (path : String) : IO (Except ReadFault ByteArray) := do
  try return .ok (← IO.FS.readBinFile path)
  catch e =>
    match e with
    | .noFileOrDirectory .. => return .error .notFound
    | .inappropriateType _ 21 _ => return .error .isADirectory
    | e => return .error (.other (reasonOf e))

/-- Writes a file, in a directory that is made if it is missing. -/
def writeFile (path content : String) : IO (Except String Unit) := do
  try
    match (Files.Path.ofText path).parent? with
    | none => pure ()
    | some parent => if !parent.isEmpty then IO.FS.createDirAll parent.text
    IO.FS.writeFile path content
    return .ok ()
  catch e => return .error (reasonOf e)

/-- Writes to standard output. -/
def print (text : String) : IO (Except String Unit) := do
  try
    let out ← IO.getStdout
    out.putStr text
    out.flush
    return .ok ()
  catch e => return .error (reasonOf e)

/-- Writes a line to standard error. -/
def complain (line : String) : IO (Except String Unit) := do
  try
    IO.eprintln line
    return .ok ()
  catch e => return .error (reasonOf e)

/-- Writes a line to the log, which is standard error. -/
def log (line : String) : IO (Except Payload Unit) := do
  return (← complain line).mapError Command.unheard

/-! ## The environment -/

/-- The time of day. -/
def timestamp : IO String := do
  return Timestamp.ofSeconds (← Std.Time.Timestamp.now).toSecondsSinceUnixEpoch.val.toNat

/-- The number of processors that this process may run on. -/
def logicalCpus : IO Nat := do
  return Linux.logicalCpus (← systemText "/proc/self/status")

/-- A description of the system. -/
def environment : IO Environment := do
  let arch := Text.trimmed (← systemText "/proc/sys/kernel/arch")
  let cgroup ← systemText "/proc/1/cgroup"
  return {
    platform := "linux-" ++ arch
    osRelease := Linux.longName (← systemText "/etc/os-release")
    kernelRelease := Text.trimmed (← systemText "/proc/sys/kernel/osrelease")
    machine := arch
    hostName := Text.trimmed (← systemText "/proc/sys/kernel/hostname")
    harnessVersion := Environment.version
    cpuCount := ← logicalCpus
    inContainer := Environment.detectInContainer (← IO.getEnv "CI")
      (← Environment.containerMarkers.mapM isThere) (some cgroup)
    gitCommit := Environment.commitOf (← IO.getEnv "GIT_COMMIT")
    timestampUtc := ← timestamp }

/-! ## Workers -/

/-- One attempt, whose second stage is timed in milliseconds. -/
def attempt (h : Handshake) : IO (Attempt Float) := do
  match Attempt.ofPrepared (Stage.ofExcept (← IO.lazyPure fun _ => Exchange.prepare h)) with
  | .error a => return a
  | .ok input =>
    let start ← IO.monoNanosNow
    let result ← IO.lazyPure fun _ => Exchange.execute input
    let latency := (Duration.ofNanos? ((← IO.monoNanosNow) - start)).getD Duration.zero
    return Attempt.ofExecuted (latency.inSeconds * 1000) result

/-- Makes attempts until the deadline. -/
partial def work (deadline : Clock.Reading) (h : Handshake) (record : Record Float → IO Unit) :
    IO Unit := do
  if (← IO.monoNanosNow) < deadline then
    match (← attempt h).record? with
    | some r => record r
    | none => pure ()
    work deadline h record

/-- Runs as many workers as are asked for, each on a thread of its own, until all are done. -/
def runPhase (cfg : Config) (h : Handshake) (deadline : Clock.Reading)
    (record : Record Float → IO Unit) : IO (Except Interruption Unit) := do
  match Phase.accept cfg.concurrency with
  | .error i => return .error i
  | .ok () =>
    let tasks ← (List.range cfg.concurrency.toNat).mapM fun _ =>
      IO.asTask (work deadline h record) .dedicated
    let endings ← tasks.mapM fun t => IO.wait t
    return endings.findSome? (fun
      | .ok () => none
      | .error e => some (.error (.error (.workerPanicked (toString e))))) |>.getD (.ok ())

/-- Runs a warmup. -/
def warmUp (cfg : Config) (h : Handshake) : IO Warmup := do
  let start ← IO.monoNanosNow
  match Clock.after? start cfg.warmup with
  | none => return ⟨start, .ok ()⟩
  | some deadline => return ⟨start, ← runPhase cfg h deadline fun _ => return ()⟩

/-! ## The sampler -/

/-- Reads how long the processors and this process were busy. -/
def reading? : IO (Option Linux.Reading) := do
  match Linux.cpuTimes? (← systemText "/proc/stat") with
  | none => return none
  | some cpu => return some ⟨cpu, Linux.processTime? (← systemText "/proc/self/stat")⟩

/-- How long the sampler sleeps before it looks at the flag again, in milliseconds. -/
def napMillis : Nat := 10

/-- Takes a sample whenever one is due, until the flag is set. -/
partial def sample (interval : Duration) (cpus : Nat) (stop : IO.Ref Bool) (due : Clock.Reading)
    (last : Linux.Reading) (taken : CpuSamples Float) : IO (Option (CpuSamples Float)) := do
  if ← stop.get then return some taken
  else
    let now ← IO.monoNanosNow
    if now < due then
      IO.sleep (UInt32.ofNat (min napMillis ((due - now) / Duration.nanosPerMilli + 1)))
      sample interval cpus stop due last taken
    else
      match ← reading?, Sampler.nextTick? interval due now with
      | some current, some due =>
        sample interval cpus stop due current (taken.push (Linux.tick cpus last current))
      | none, some due => sample interval cpus stop due last taken
      | _, none => return none

/-- A sampler on a thread of its own, and the flag that stops it. -/
structure Sampling where
  thread : Task (Except IO.Error (Option (CpuSamples Float)))
  stop : IO.Ref Bool

/-- Starts a sampler, if the system tells what it needs. -/
def startSampler (cfg : Config) : IO (Option Sampling) := do
  match ← reading? with
  | none => return none
  | some first =>
    let cpus ← logicalCpus
    let stop ← IO.mkRef false
    let thread ← IO.asTask (do
      match Clock.after? (← IO.monoNanosNow) cfg.cpuSampleInterval with
      | none => return none
      | some due => sample cfg.cpuSampleInterval cpus stop due first CpuSamples.empty) .dedicated
    return some { thread, stop }

/-- Waits for a stopped sampler for so many naps. -/
def join (s : Sampling) : Nat → IO (Sampler.Exit Float)
  | 0 => return .timedOut
  | naps + 1 => do
    if ← IO.hasFinished s.thread then
      match ← IO.wait s.thread with
      | .ok (some samples) => return .joined samples
      | _ => return .lost
    else
      IO.sleep (UInt32.ofNat napMillis)
      join s naps

/-- Begins a measurement, and keeps its sampler. -/
def beginMeasurement (sampling : IO.Ref (Option Sampling)) (cfg : Config) :
    IO (Clock.Reading × Opening) := do
  let start ← IO.monoNanosNow
  match Clock.after? start cfg.duration with
  | none => return (start, .unavailable)
  | some _ =>
    let sampler ← startSampler cfg
    sampling.set sampler
    return (start, if sampler.isSome then .opened else .unavailable)

/-- Runs a measurement beside the sampler that is kept. -/
def measure (sampling : IO.Ref (Option Sampling)) (cfg : Config) (h : Handshake)
    (start : Clock.Reading) (opening : Opening) : IO (Measurement Float) := do
  let metrics ← IO.mkRef (Metrics.empty : Metrics Float)
  let deadline := (Clock.after? start cfg.duration).getD start
  let phase ← runPhase cfg h deadline fun r =>
    metrics.modify fun m => m.record cfg.latencyCapacity.toNat r
  let sampler ← match ← sampling.get with
    | none => pure .lost
    | some s =>
      s.stop.set true
      join s (Sampler.joinTimeout.millis / napMillis)
  return {
    start
    opening
    metrics := ← metrics.get
    phase
    sampler
    load := .ok (Linux.loadAverage? (← systemText "/proc/loadavg"))
    logicalCpus := .ok (← logicalCpus) }

/-! ## The host -/

/-- The variables that the program reads, as far as they are set. -/
def environmentValues : IO (List (String × String)) := do
  let names := "RUST_LOG" :: "NO_COLOR" :: CommandLine.Setting.all.map CommandLine.Setting.environmentName
  names.filterMapM fun name => return (← IO.getEnv name).map fun value => (name, value)

/-- The system as the program sees it. -/
def host (vs : List (String × String)) (sampling : IO.Ref (Option Sampling)) : Host IO where
  environmentValue name := vs.lookup name
  readFile
  writeFile
  print
  complain
  log
  clock := return ← IO.monoNanosNow
  timestamp
  environment
  warmUp
  beginMeasurement := beginMeasurement sampling
  measure := measure sampling

end ExchangeBench.LocalHost

/-- Runs the program and ends with its exit code. -/
def main (args : List String) : IO UInt32 := do
  let vs ← ExchangeBench.LocalHost.environmentValues
  let host := ExchangeBench.LocalHost.host vs (← IO.mkRef none)
  return UInt32.ofNat (← ExchangeBench.Command.invoke host args).number
