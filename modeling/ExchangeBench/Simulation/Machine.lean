import ExchangeBench.Files
import ExchangeBench.Host
import ExchangeBench.Simulation.Attempts
import ExchangeBench.Simulation.Ticks

/-!
# A machine in memory

A machine whose files, clock and output streams are values. What its workers do is scripted, or it is
what the mock exchange does, once per worker and phase. A step that no interleaving allows leaves no
machine.
-/

namespace ExchangeBench.Simulation

/-- What the source of CPU samples answers when it is opened. -/
inductive Source where
  | unavailable
  | opened (ticks : List (Tick Float))
  | panicked (p : Payload)

/-- What the workers do. -/
inductive Work where
  /-- Every worker makes one attempt of the mock exchange in every phase. -/
  | exchange
  /-- Each phase follows a script; a phase without one has no attempts. -/
  | scripts (phases : List (List Step))

/-- The state of a machine. -/
structure Machine where
  clock : Clock.Reading
  environment : Environment
  files : Files.Tree
  work : Work := .exchange
  /-- What the source of CPU samples answers in the measurements to come. -/
  sources : List Source := []
  /-- What it answers in the measurements after those. -/
  lastSource : Source := .opened []
  /-- The source of the measurement under way. -/
  source : Source := .unavailable
  load : Option (LoadAverage Float) := none
  logicalCpus : Nat := 1
  /-- What was written to standard output. -/
  printed : String := ""
  /-- The lines that were written to standard error. -/
  complaints : List String := []

/-- What an operation of a machine answers, and the machine after it. -/
abbrev Simulated := StateT Machine Option

namespace Machine

/-- The steps of the next phase. -/
def takeSteps (cfg : Config) (h : Handshake) : Simulated (List Step) := do
  let m ← get
  match m.work with
  | .exchange => return List.replicate cfg.concurrency.toNat (Step.ofHandshake h)
  | .scripts [] => return []
  | .scripts (steps :: rest) =>
    set { m with work := .scripts rest }
    return steps

/-- The answer of the source of CPU samples in the next measurement. -/
def takeSource : Simulated Source := do
  let m ← get
  match m.sources with
  | [] => return m.lastSource
  | source :: rest =>
    set { m with sources := rest }
    return source

/-- Runs a phase that ends at a deadline, and moves the clock there. -/
def runPhase (cfg : Config) (h : Handshake) (deadline : Clock.Reading) (measured : Bool) :
    Simulated (Metrics Float × Except Interruption Unit) := do
  let now := (← get).clock
  let steps ← takeSteps cfg h
  modify fun m => { m with clock := max now deadline }
  liftM (phase? cfg.concurrency now ⟨deadline, cfg.latencyCapacity.toNat, measured⟩ steps)

/-- Runs a warmup. -/
def warmUp (cfg : Config) (h : Handshake) : Simulated Warmup := do
  let start := (← get).clock
  match Clock.after? start cfg.warmup with
  | none => return ⟨start, .ok ()⟩
  | some deadline => return ⟨start, (← runPhase cfg h deadline false).2⟩

/-- How a source is opened. -/
def openingOf : Source → Opening
  | .unavailable => .unavailable
  | .opened _ => .opened
  | .panicked p => .panicked p

/-- How the sampler of a source ends. -/
def exitOf (cfg : Config) (start : Clock.Reading) : Source → Simulated (Sampler.Exit Float)
  | .opened ticks => liftM (exit? cfg.cpuSampleInterval Sampler.joinTimeout start ticks)
  | _ => return .lost

/-- Begins a measurement with the next source. -/
def beginMeasurement (cfg : Config) : Simulated (Clock.Reading × Opening) := do
  let start := (← get).clock
  match Clock.after? start cfg.duration with
  | none => return (start, .unavailable)
  | some _ =>
    let source ← takeSource
    modify fun m => { m with source }
    return (start, openingOf source)

/-- Runs a measurement. -/
def measure (cfg : Config) (h : Handshake) (start : Clock.Reading) (opening : Opening) :
    Simulated (Measurement Float) := do
  let m ← get
  let (metrics, phase) ← runPhase cfg h ((Clock.after? start cfg.duration).getD start) true
  return {
    start
    opening
    metrics
    phase
    sampler := ← exitOf cfg start m.source
    load := .ok m.load
    logicalCpus := .ok m.logicalCpus }

/-- The fault of reading a file, as the program sees it. -/
def readFault : Files.Fault → ReadFault
  | .notFound => .notFound
  | .isADirectory => .isADirectory
  | f => .other f.text

/-- Reads a file. -/
def readFile (path : String) : Simulated (Except ReadFault ByteArray) := do
  return ((← get).files.read (Files.Path.ofText path)).mapError readFault

/-- Writes a file. -/
def writeFile (path content : String) : Simulated (Except String Unit) := do
  let (files, r) := (← get).files.write (Files.Path.ofText path) content.toUTF8
  modify fun m => { m with files }
  return r.mapError Files.Fault.text

/-- Writes a line to standard error. -/
def complain (line : String) : Simulated (Except String Unit) := do
  modify fun m => { m with complaints := m.complaints ++ [line] }
  return .ok ()

/-- The program's view of a machine with the given environment variables. -/
def host (environmentValue : String → Option String) : Host Simulated where
  environmentValue
  readFile
  writeFile
  print text := do
    modify fun m => { m with printed := m.printed ++ text }
    return .ok ()
  complain
  log line := do
    let _ ← complain line
    return .ok ()
  clock := return (← get).clock
  timestamp := return (← get).environment.timestampUtc
  environment := return (← get).environment
  warmUp
  beginMeasurement
  measure

end Machine
end ExchangeBench.Simulation
