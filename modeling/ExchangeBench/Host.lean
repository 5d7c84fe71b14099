import ExchangeBench.Environment
import ExchangeBench.Profile
import ExchangeBench.Repeat

/-!
# Hosts

What the program asks of the machine it runs on. The program itself is written once, for any host in
any monad: a real one reads and writes files and lets the workers run, and another can be a state in
memory.
-/

namespace ExchangeBench

/-- A machine to run on. -/
structure Host (m : Type → Type) where
  /-- The value of an environment variable. -/
  environmentValue : String → Option String
  /-- The content of the file at a path. -/
  readFile : String → m (Except ReadFault ByteArray)
  /-- Writes a file, in a directory that is made if it is missing; or says why it cannot. -/
  writeFile : String → String → m (Except String Unit)
  /-- Writes to standard output. -/
  print : String → m (Except String Unit)
  /-- Writes a line to standard error; or says why it cannot. -/
  complain : String → m (Except String Unit)
  /-- Writes a line to the log. What becomes of a line that cannot be written is up to the log, which may
  panic over it. -/
  log : String → m (Except Payload Unit)
  /-- Reads the clock that phases are timed by. -/
  clock : m Clock.Reading
  /-- The time of day. -/
  timestamp : m String
  environment : m Environment
  /-- Lets the workers run a warmup of a handshake. -/
  warmUp : Config → Handshake → m Warmup
  /-- Begins a measurement: when it begins, and how its source of CPU samples is opened. The source is
  left alone if the clock has no reading at the end of the measurement. -/
  beginMeasurement : Config → m (Clock.Reading × Opening)
  /-- Lets the workers run a measurement of a handshake that has begun so. -/
  measure : Config → Handshake → Clock.Reading → Opening → m (Measurement Float)

end ExchangeBench
