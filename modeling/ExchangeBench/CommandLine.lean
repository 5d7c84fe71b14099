import ExchangeBench.CommandLine.Setting

/-!
# The command line

A command line is a list of arguments. `--name value` and `--name=value` give a setting its value,
`--quiet` stands alone, and `--help` and `--version` end the reading. A value is looked at when it is
clear that the option has ended, so an argument that is not known at all is reported before a value
that is wrong.

* `CommandLine.read`: one argument after another.
* `CommandLine.parse`: the options of a command line and an environment.
-/

namespace ExchangeBench.CommandLine

/-- An accepted command line. -/
structure Options where
  profile : String
  concurrency : Positive
  duration : Duration.Positive
  warmup : Duration
  repeats : Positive
  percentiles : PercentileSet
  cpuSampleInterval : Duration
  out : String
  logLevel : String
  /-- Whether the report is not written to standard output. -/
  quiet : Bool

/-- The run that the options ask for. -/
def Options.config (o : Options) : Config where
  concurrency := o.concurrency.val
  duration := o.duration.val
  warmup := o.warmup
  repeats := o.repeats.val
  percentiles := o.percentiles
  cpuSampleInterval := o.cpuSampleInterval
  latencyCapacity := UInt64.ofNat Metrics.defaultCapacity

/-! ## Arguments -/

/-- What an argument is. -/
inductive Argument where
  /-- `--`: what follows is no option. -/
  | escape
  | setting (s : Setting) (value : Option String)
  | quiet (value : Option String)
  | help (value : Option String)
  | version (value : Option String)
  /-- An option that is not known. -/
  | unknown (arg : String)
  /-- Anything that does not begin with a dash, and a dash alone. -/
  | word (text : String)
  deriving DecidableEq

/-- The option of a name, with the value that stands in the same argument. -/
def Argument.ofName (name : String) (value : Option String) : Argument :=
  match Setting.ofName? name with
  | some s => setting s value
  | none =>
    if name = "quiet" then quiet value
    else if name = "help" then help value
    else if name = "version" then version value
    else unknown ("--" ++ name)

/-- What an argument is. Of several short options in one argument the first decides. -/
def Argument.ofText (text : String) : Argument :=
  match text.toList with
  | ['-', '-'] => escape
  | '-' :: '-' :: r =>
    let name := String.ofList (r.takeWhile (· ≠ '='))
    match r.dropWhile (· ≠ '=') with
    | [] => ofName name none
    | _ :: value => ofName name (some (String.ofList value))
  | '-' :: 'h' :: _ => help none
  | '-' :: 'V' :: _ => version none
  | '-' :: c :: _ => unknown (String.ofList ['-', c])
  | _ => word text

/-! ## Reading -/

/-- What was read so far. -/
structure Progress where
  values : Values := {}
  quiet : Bool := false
  /-- The last option, if it is not settled yet, and its value, if that was given. -/
  pending : Option (Setting × Option String) := none
  /-- Whether no further argument is an option. -/
  escaped : Bool := false

namespace Progress

/-- Gives a setting a value, which it may not have yet. -/
def give (p : Progress) (s : Setting) : Option String → Except UsageError Progress
  | none => .error (.missingValue s)
  | some text => do
    if p.values.has s then throw (.givenTwice s.usage)
    return { p with values := ← p.values.set s text }

/-- Settles the last option. -/
def settle (p : Progress) : Except UsageError Progress :=
  match p.pending with
  | none => .ok p
  | some (s, value) => { p with pending := none }.give s value

/-- Reads an argument. -/
def read (p : Progress) (arg : String) : Except UsageError Progress :=
  if p.escaped then .error (.unknownArgument arg)
  else
    match Argument.ofText arg with
    | .escape => .ok { p with escaped := true }
    | .setting s none => return { ← p.settle with pending := some (s, none) }
    | .setting s (some value) => do (← p.settle).give s (some value)
    | .quiet none => do
      let p ← p.settle
      if p.quiet then throw (.givenTwice "--quiet")
      return { p with quiet := true }
    | .help none => do
      let _ ← p.settle
      throw .help
    | .version none => do
      let _ ← p.settle
      throw .version
    | .quiet (some _) => .error (.unneededValue "--quiet")
    | .help (some _) => .error (.unneededValue "--help")
    | .version (some _) => .error (.unneededValue "--version")
    | .unknown name => .error (.unknownArgument name)
    | .word text =>
      match p.pending with
      | some (s, none) => .ok { p with pending := some (s, some text) }
      | _ => .error (.unknownArgument text)

end Progress

/-- Reads the arguments. -/
def read (args : List String) : Except UsageError Progress := do
  (← args.foldlM Progress.read {}).settle

/-- Gives the settings that have no value yet those that a source has for them. -/
def fill (source : Setting → Option String) (v : Values) : Except UsageError Values :=
  Setting.all.foldlM (fun v s =>
    match v.has s, source s with
    | false, some text => v.set s text
    | _, _ => .ok v) v

/-- The options that some values make up, if all are there. -/
def Values.options? (v : Values) (quiet : Bool) : Option Options := do
  return {
    profile := ← v.profile
    concurrency := ← v.concurrency
    duration := ← v.duration
    warmup := ← v.warmup
    repeats := ← v.repeats
    percentiles := ← v.percentiles
    cpuSampleInterval := ← v.cpuSampleInterval
    out := ← v.out
    logLevel := ← v.logLevel
    quiet }

/-- The options of a command line: what the arguments do not set is set by the environment, and what
neither sets has its default. -/
def parse (args : List String) (environment : String → Option String) :
    Except UsageError Options := do
  let p ← read args
  let v ← fill (fun s => environment s.environmentName) p.values
  let v ← fill Setting.default? v
  match v.options? p.quiet with
  | some o => return o
  | none => throw (.missing (Setting.all.filter fun s => !v.has s))

end ExchangeBench.CommandLine
