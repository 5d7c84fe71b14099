import ExchangeBench.Phase
import ExchangeBench.Run

/-!
# The course of a run

A run as a transition system. The orchestrator takes the repeats one after another. While it waits
for a phase, the workers of the phase move, and beside them the CPU sampler of the repeat. A sampler
that did not stop in time is left to itself, and may go on sampling while later repeats are run.

* `Task`, `Crew`: what a phase is for, and its workers.
* `Position`: where the orchestrator stands. `Position.atRepeat` is the head of its loop.
* `Course`, `Course.Event`: a run under way, and what can happen next in it.
* `Course.step?`, `Course.run?`: an event, a list of events.

A repeat is closed with what has happened in it (`Course.happenings?`), by the same
`Progress.advance` that `Run.outcome` takes its repeats in with.
-/

namespace ExchangeBench.Run

variable {α : Type}

/-- What a phase is for. A measurement knows of the warmup before it, if there was one, and of how
its source of CPU samples was opened. -/
inductive Task where
  | warmup
  | measurement (warmup : Option Warmup) (opening : Opening)

/-- The plan of a phase. -/
def Task.plan (cfg : Config) (deadline : Clock.Reading) : Task → Phase.Plan
  | warmup => ⟨deadline, cfg.latencyCapacity.toNat, false⟩
  | measurement _ _ => ⟨deadline, cfg.latencyCapacity.toNat, true⟩

/-- A phase under way. -/
structure Crew (α : Type) where
  /-- How many workers were started. -/
  size : Nat
  /-- Why a further worker could not be started. -/
  unstarted : Option String
  plan : Phase.Plan
  phase : Phase.State α size

/-- The crew after a move of a worker, if there is such a worker and it can make the move. -/
def Crew.step? (crew : Crew α) (worker : Nat) (move : Phase.Move α) : Option (Crew α) :=
  if h : worker < crew.size then
    match crew.phase.step? crew.plan ⟨⟨worker, h⟩, move⟩ with
    | none => none
    | some phase => some { crew with phase }
  else none

/-- What the orchestrator is about to do, in the repeat of an index. -/
inductive Position (α : Type) where
  /-- Read the clock, for the end of the warmup. -/
  | warming (index : Nat)
  /-- Read the clock, for the end of the measurement. -/
  | measuring (index : Nat) (warmup : Option Warmup)
  /-- Open the source of CPU samples. -/
  | opening (index : Nat) (warmup : Option Warmup) (start deadline : Clock.Reading)
  /-- Start the workers of a phase. -/
  | hiring (index : Nat) (task : Task) (start deadline : Clock.Reading)
  /-- Wait for the workers of a phase. -/
  | waiting (index : Nat) (task : Task) (start : Clock.Reading) (crew : Crew α)
  /-- Stop the sampler, and ask the host for the rest. -/
  | closing (index : Nat) (warmup : Option Warmup) (opening : Opening) (start : Clock.Reading)
      (metrics : Metrics α) (phase : Except Interruption Unit)
  /-- Nothing: the run is over. -/
  | ended (result : Except Interruption (RunOutcome α))

/-- Whether the sampler is being stopped. -/
def Position.isClosing : Position α → Bool
  | closing .. => true
  | warming _ | measuring .. | opening .. | hiring .. | waiting .. | ended _ => false

/-- The orchestrator before the repeat of an index, or at the end if there is no such repeat. -/
def Position.atRepeat [Scalar α] (cfg : Config) (p : Progress α) (index : Nat) : Position α :=
  if cfg.repeats.toNat < index then ended (.ok (p.finish cfg))
  else if cfg.warmup.isZero then measuring index none
  else warming index

/-- A run under way. -/
structure Course (α : Type) where
  progress : Progress α
  position : Position α
  /-- The sampler of the repeat, once it is started. -/
  sampler : Option (Sampler.State α)
  /-- The samplers of earlier repeats. -/
  strays : List (Sampler.State α)

namespace Course

/-- What can happen next, with what the clock, the operation or the host answered. -/
inductive Event (α : Type) where
  /-- The orchestrator reads the clock. -/
  | look (now : Clock.Reading)
  /-- The source of CPU samples is opened. -/
  | source (answer : Opening)
  /-- So many workers are started, all of them unless one cannot be. -/
  | hire (size : Nat) (unstarted : Option String)
  /-- A worker moves. -/
  | work (worker : Nat) (move : Phase.Move α)
  /-- The sampler of the repeat makes a step, or it is stopped by one. -/
  | sample (e : Sampler.Event α)
  /-- A sampler of an earlier repeat makes a step. -/
  | linger (stray : Nat) (e : Sampler.Event α)
  /-- All workers are done. -/
  | join
  /-- Something that the orchestrator calls panics. -/
  | panic (payload : Payload)
  /-- The host answers the last questions of a repeat. -/
  | close (load : Except Payload (Option (LoadAverage α))) (logicalCpus : Except Payload Nat)

/-- A course with the orchestrator elsewhere. -/
def at? (c : Course α) : Option (Position α) → Option (Course α)
  | none => none
  | some position => some { c with position }

/-- Reads the clock for the end of a phase. -/
def look? (cfg : Config) (now : Clock.Reading) : Position α → Option (Position α)
  | .warming index =>
    match Clock.deadline now cfg.warmup "warmup" with
    | .ok deadline => some (.hiring index .warmup now deadline)
    | .error e => some (.ended (.error (.error e)))
  | .measuring index warmup =>
    match Clock.deadline now cfg.duration "duration" with
    | .ok deadline => some (.opening index warmup now deadline)
    | .error e => some (.ended (.error (.error e)))
  | _ => none

/-- Takes in how the source of CPU samples was opened. Only an open source has a sampler. -/
def source? (c : Course α) (answer : Opening) : Option (Course α) :=
  match c.position, answer with
  | .opening index warmup start deadline, .unavailable =>
    some { c with position := .hiring index (.measurement warmup .unavailable) start deadline }
  | .opening index warmup start deadline, .opened =>
    some { c with
      position := .hiring index (.measurement warmup .opened) start deadline
      sampler := some .start }
  | .opening .., .unspawned reason =>
    some { c with position := .ended (.error (.error (.spawn reason))) }
  | .opening .., .panicked p => some { c with position := .ended (.error (.panic p)) }
  | _, _ => none

/-- Starts the workers of a phase. There are none if their handles find no room: this ends the run. -/
def hire? (cfg : Config) (size : Nat) (unstarted : Option String) :
    Position α → Option (Position α)
  | .hiring index task start deadline =>
    match Phase.accept cfg.concurrency with
    | .error i => if size = 0 then some (.ended (.error i)) else none
    | .ok () =>
      if size ≤ cfg.concurrency.toNat ∧ (unstarted = none ↔ size = cfg.concurrency.toNat) then
        some (.waiting index task start ⟨size, unstarted, task.plan cfg deadline, .start⟩)
      else none
  | _ => none

/-- Lets a worker move. -/
def work? (worker : Nat) (move : Phase.Move α) : Position α → Option (Position α)
  | .waiting index task start crew =>
    match crew.step? worker move with
    | none => none
    | some crew => some (.waiting index task start crew)
  | _ => none

/-- Goes on when all workers are done. A panic ends the run at once, and so does an error of a warmup;
that of a measurement waits until the sampler is stopped. -/
def join? : Position α → Option (Position α)
  | .waiting index task start crew =>
    match crew.phase.outcome? crew.unstarted, task with
    | none, _ => none
    | some (.error (.panic p)), _ => some (.ended (.error (.panic p)))
    | some (.ok ()), .warmup => some (.measuring index (some ⟨start, .ok ()⟩))
    | some (.error i), .warmup => some (.ended (.error i))
    | some ending, .measurement warmup opening =>
      some (.closing index warmup opening start crew.phase.metrics ending)
  | _ => none

/-- Ends the run in a panic of something that the orchestrator calls. It calls nothing while it waits for
its workers. -/
def panic? (payload : Payload) : Position α → Option (Position α)
  | .waiting .. | .ended _ => none
  | .warming _ | .measuring .. | .opening .. | .hiring .. | .closing .. =>
    some (.ended (.error (.panic payload)))

/-- How the sampler of the repeat has ended. Where there is none, nobody asks. -/
def exit? (c : Course α) : Option (Sampler.Exit α) :=
  match c.sampler with
  | none => some .lost
  | some s => s.exit?

/-- What has happened in the repeat that is closed with some answers of the host, and its index. -/
def happenings? (c : Course α) (load : Except Payload (Option (LoadAverage α)))
    (logicalCpus : Except Payload Nat) : Option (Nat × Happenings α) :=
  match c.position, c.exit? with
  | .closing index warmup opening start metrics phase, some sampler =>
    some (index, {
      warmup := warmup.getD ⟨start, .ok ()⟩
      measurement := { start, opening, metrics, phase, sampler, load, logicalCpus } })
  | _, _ => none

variable [Scalar α]

/-- Lets the sampler of the repeat make a step, or stops it by one. -/
def sample? (cfg : Config) (c : Course α) (e : Sampler.Event α) : Option (Course α) :=
  match c.sampler with
  | none => none
  | some s =>
    match if c.position.isClosing then s.step? cfg.cpuSampleInterval e
      else s.stepThread? cfg.cpuSampleInterval e with
    | none => none
    | some s => some { c with sampler := some s }

/-- Lets a sampler of an earlier repeat make a step. -/
def linger? (cfg : Config) (c : Course α) (stray : Nat) (e : Sampler.Event α) :
    Option (Course α) :=
  match c.strays[stray]? with
  | none => none
  | some s =>
    match s.stepThread? cfg.cpuSampleInterval e with
    | none => none
    | some s => some { c with strays := c.strays.set stray s }

/-- Takes in the repeat and goes on to the next one. Its sampler is left to itself. -/
def close? (cfg : Config) (c : Course α) (load : Except Payload (Option (LoadAverage α)))
    (logicalCpus : Except Payload Nat) : Option (Course α) :=
  match c.happenings? load logicalCpus with
  | none => none
  | some (index, h) =>
    match c.progress.advance cfg index h with
    | .error i => some { c with position := .ended (.error i) }
    | .ok progress =>
      some ⟨progress, .atRepeat cfg progress (index + 1), none, c.sampler.toList ++ c.strays⟩

/-- The course after an event; `none` for one that cannot happen. -/
def step? (cfg : Config) (c : Course α) : Event α → Option (Course α)
  | .look now => c.at? (look? cfg now c.position)
  | .source answer => c.source? answer
  | .hire size unstarted => c.at? (hire? cfg size unstarted c.position)
  | .work worker move => c.at? (work? worker move c.position)
  | .sample e => c.sample? cfg e
  | .linger stray e => c.linger? cfg stray e
  | .join => c.at? (join? c.position)
  | .panic payload => c.at? (panic? payload c.position)
  | .close load logicalCpus => c.close? cfg load logicalCpus

/-- The course after an interleaving. -/
def run? (cfg : Config) (c : Course α) (es : List (Event α)) : Option (Course α) :=
  es.foldlM (step? cfg) c

/-- A run that begins at a moment, before its first repeat. -/
def start (cfg : Config) (now : Clock.Reading) : Except Interruption (Course α) := do
  let progress ← Progress.start cfg now
  return ⟨progress, .atRepeat cfg progress 1, none, []⟩

end Course
end ExchangeBench.Run
