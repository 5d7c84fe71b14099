import ExchangeBench.Config
import ExchangeBench.Duration.Text
import ExchangeBench.Text.Positive

/-!
# Settings

What the command line sets. Every setting is written as a long option with a value, and can be given
by an environment variable instead; some have a default.

* `Setting`: the settings, with their names.
* `Values`: the values given so far, each read by the rule of its setting (`Values.set`).
-/

namespace ExchangeBench.CommandLine

/-- An option that takes a value. -/
inductive Setting where
  | profile
  | concurrency
  | duration
  | warmup
  | repeats
  | percentiles
  | cpuSampleInterval
  | out
  | logLevel
  deriving DecidableEq

namespace Setting

/-- Every setting, in the order in which they are looked at. -/
def all : List Setting :=
  [profile, concurrency, duration, warmup, repeats, percentiles, cpuSampleInterval, out, logLevel]

/-- The name of the option, without its dashes. -/
def name : Setting → String
  | profile => "profile"
  | concurrency => "concurrency"
  | duration => "duration"
  | warmup => "warmup"
  | repeats => "repeats"
  | percentiles => "percentiles"
  | cpuSampleInterval => "cpu-sample-interval"
  | out => "out"
  | logLevel => "log-level"

/-- What stands for the value in a description. -/
def placeholder (s : Setting) : String :=
  String.ofList (s.name.toList.map fun c => if c = '-' then '_' else c.toUpper)

/-- The option with its value, as a message names it. -/
def usage (s : Setting) : String :=
  "--" ++ s.name ++ " <" ++ s.placeholder ++ ">"

/-- The environment variable that gives the value where the option does not. -/
def environmentName (s : Setting) : String :=
  "HSBENCH_" ++ s.placeholder

/-- The value where neither the option nor the variable gives one. -/
def default? : Setting → Option String
  | repeats => some "1"
  | percentiles => some "50,95,99"
  | cpuSampleInterval => some "0.5"
  | logLevel => some "info"
  | _ => none

/-- The setting of an option. -/
def ofName? (s : String) : Option Setting :=
  all.find? fun o => o.name == s

end Setting

/-- Why a text is not the value of a setting. -/
inductive ValueFault where
  | positive (f : Text.PositiveFault)
  | duration (e : Duration.TextError)
  | percentiles (e : BenchError)
  deriving DecidableEq

/-- The wording of a fault. -/
def ValueFault.message : ValueFault → String
  | positive f => f.message
  | duration e => e.message
  | percentiles e => e.message

/-- Why a command line is not carried out. -/
inductive UsageError where
  | unknownArgument (arg : String)
  | missingValue (s : Setting)
  | badValue (s : Setting) (text : String) (f : ValueFault)
  /-- An option without a value was given one. -/
  | unneededValue (arg : String)
  | givenTwice (arg : String)
  | missing (ss : List Setting)
  /-- Help is asked for. -/
  | help
  /-- The version is asked for. -/
  | version
  deriving DecidableEq

/-- The values given so far. -/
structure Values where
  profile : Option String := none
  concurrency : Option Positive := none
  duration : Option Duration.Positive := none
  warmup : Option Duration := none
  repeats : Option Positive := none
  percentiles : Option PercentileSet := none
  cpuSampleInterval : Option Duration := none
  out : Option String := none
  logLevel : Option String := none

namespace Values

/-- Whether a setting has a value. -/
def has (v : Values) : Setting → Bool
  | .profile => v.profile.isSome
  | .concurrency => v.concurrency.isSome
  | .duration => v.duration.isSome
  | .warmup => v.warmup.isSome
  | .repeats => v.repeats.isSome
  | .percentiles => v.percentiles.isSome
  | .cpuSampleInterval => v.cpuSampleInterval.isSome
  | .out => v.out.isSome
  | .logLevel => v.logLevel.isSome

/-- A path is any text but the empty one. -/
def path (s : Setting) (text : String) : Except UsageError String :=
  if text.isEmpty then .error (.missingValue s) else .ok text

/-- Names the setting and the text of a fault. -/
def orFault {ε β : Type} (s : Setting) (text : String) (fault : ε → ValueFault) :
    Except ε β → Except UsageError β
  | .ok b => .ok b
  | .error e => .error (.badValue s text (fault e))

/-- Gives a setting the value that a text denotes. -/
def set (v : Values) (s : Setting) (text : String) : Except UsageError Values :=
  match s with
  | .profile => return { v with profile := some (← path s text) }
  | .concurrency =>
    return { v with concurrency := some (← orFault s text .positive (Text.positive text)) }
  | .duration => return { v with duration := some (← orFault s text .duration (Duration.parsePositive text)) }
  | .warmup => return { v with warmup := some (← orFault s text .duration (Duration.parse text)) }
  | .repeats => return { v with repeats := some (← orFault s text .positive (Text.positive text)) }
  | .percentiles =>
    return { v with percentiles := some (← orFault s text .percentiles (PercentileSet.parse text)) }
  | .cpuSampleInterval =>
    return { v with
      cpuSampleInterval := some (← orFault s text .duration (Duration.parseSeconds text)) }
  | .out => return { v with out := some (← path s text) }
  | .logLevel => return { v with logLevel := some text }

end Values
end ExchangeBench.CommandLine
