import ExchangeBench.Decimal.Literal
import ExchangeBench.Stats.Cpu
import ExchangeBench.Text.Blank

/-!
# What Linux tells about itself

The texts in which a Linux system describes its processors, its load and its name, and what they
say. Nothing here reads a file.

* `Linux.cpuTimes?`, `Linux.processTime?`: how long the processors, and one process, were busy.
* `Linux.tick`: the CPU usage between two readings of them.
* `Linux.loadAverage?`, `Linux.logicalCpus`, `Linux.longName`: load, processors, name.
-/

namespace ExchangeBench.Linux

/-- The words of a line. -/
def words (s : String) : List String :=
  (s.split (fun c => c == ' ' || c == '\t' || c == '\n')).toList.map (·.toString) |>.filter (!·.isEmpty)

/-- The value that a text has for a name, in the line that begins with the name and a mark. -/
def lookup? (name : String) (mark : Char) (text : String) : Option String :=
  (text.splitOn "\n").findSome? fun line =>
    let cs := line.toList
    let key := cs.takeWhile (· ≠ mark)
    if key == name.toList then
      match cs.drop key.length with
      | _ :: value => some (Text.trimmed (String.ofList value))
      | [] => none
    else none

/-- The sum of some numbers. -/
def sum (ns : List Nat) : Nat :=
  ns.foldl (· + ·) 0

/-- How long the processors were busy, and how long they were there, in ticks of the system. -/
structure CpuTimes where
  busy : Nat
  total : Nat
  deriving DecidableEq

/-- The times of all processors together. -/
def cpuTimes? (stat : String) : Option CpuTimes := do
  let line ← (stat.splitOn "\n").head?
  match words line with
  | "cpu" :: rest =>
    let times ← (rest.take 8).mapM String.toNat?
    let idle := times.getD 3 0 + times.getD 4 0
    let total := sum times
    return ⟨total - idle, total⟩
  | _ => none

/-- How long a process was busy. The name of its program, which can hold anything, stands between
parentheses. -/
def processTime? (stat : String) : Option Nat := do
  let tail ← (stat.splitOn ")").getLast?
  let fields := words tail
  return (← (← fields[11]?).toNat?) + (← (← fields[12]?).toNat?)

/-- A reading of both times. -/
structure Reading where
  cpu : CpuTimes
  process : Option Nat
  deriving DecidableEq

/-- A part of a span of time as a percentage. -/
def percent (part whole : Nat) : Float :=
  100 * (part.toFloat / whole.toFloat)

/-- The CPU usage between two readings. A process can use each of the processors to the full. -/
def tick (cpus : Nat) (before after : Reading) : CpuTick Float :=
  let span := after.cpu.total - before.cpu.total
  { system := some (percent (after.cpu.busy - before.cpu.busy) span)
    process :=
      match before.process, after.process with
      | some p, some q => some (percent ((q - p) * cpus) span)
      | _, _ => none }

/-- The load averages, unless they are all zero, which a system says that does not know them. -/
def loadAverage? (loadavg : String) : Option (LoadAverage Float) := do
  match ← (words loadavg |>.take 3).mapM fun w => Literal.binary64? w.toList with
  | [one, five, fifteen] =>
    let all := [one, five, fifteen]
    if all.all (fun x => x.isFinite && (x.isZero || !x.negative)) && all.any (!·.isZero) then
      some ⟨one.toFloat, five.toFloat, fifteen.toFloat⟩
    else none
  | _ => none

/-- The number of elements in a list of ranges like `0-3,8`. -/
def rangesSize (ranges : String) : Nat :=
  sum ((ranges.splitOn ",").map fun range =>
    match (range.splitOn "-").mapM String.toNat? with
    | some [_] => 1
    | some [a, b] => b + 1 - a
    | _ => 0)

/-- The number of processors that a process may run on; zero if it is not known. -/
def logicalCpus (status : String) : Nat :=
  ((lookup? "Cpus_allowed_list" ':' status).map rangesSize).getD 0

/-- A value without the quotation marks around it. -/
def unquoted (s : String) : String :=
  String.ofList (s.toList.filter (· ≠ '"'))

/-- The name of the system with that of its distribution. -/
def longName (release : String) : String :=
  match (lookup? "NAME" '=' release).map unquoted, (lookup? "VERSION_ID" '=' release).map unquoted with
  | name, some version => "Linux (" ++ name.getD "unknown" ++ " " ++ version ++ ")"
  | some name, none => "Linux (" ++ name ++ ")"
  | none, none => "Linux"

end ExchangeBench.Linux
