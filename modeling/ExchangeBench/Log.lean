/-!
# The log

What the program tells about itself while it runs, beside its report. An event has a level, which says
how much it matters, and details under their names. A line of the log is meant for a terminal, with
styles, unless they are not wanted.
-/

namespace ExchangeBench.Log

/-- How much an event matters. -/
inductive Level where
  | error
  | warn
  | info
  | debug
  | trace
  deriving DecidableEq

namespace Level

/-- The name of a level in a line of the log. -/
def name : Level → String
  | error => "ERROR"
  | warn => "WARN"
  | info => "INFO"
  | debug => "DEBUG"
  | trace => "TRACE"

/-- The place of a level, counted from the ones that matter most. -/
def rank : Level → Nat
  | error => 1
  | warn => 2
  | info => 3
  | debug => 4
  | trace => 5

/-- The code of a level's colour on a terminal. -/
def colour : Level → String
  | error => "31"
  | warn => "33"
  | info => "32"
  | debug => "34"
  | trace => "35"

/-- The name of a level, filled up in front to the length of the longest. -/
def padded (l : Level) : String :=
  String.ofList (List.replicate (5 - l.name.length) ' ') ++ l.name

end Level

/-- Something that happened. -/
structure Event where
  level : Level
  /-- The part of the program that tells it. -/
  target : String
  message : String
  /-- Details under their names. -/
  details : List (String × String)

namespace Event

/-- The names of everything that an event says. -/
def fields (e : Event) : List String :=
  "message" :: e.details.map Prod.fst

/-- A text in a style of the terminal. -/
def styled (code text : String) : String :=
  "\x1b[" ++ code ++ "m" ++ text ++ "\x1b[0m"

/-- An event as a line of the log, with styles or without. -/
def line (e : Event) (timestamp : String) (withStyles : Bool) : String :=
  let paint (code text : String) : String := if withStyles then styled code text else text
  let detail (d : String × String) : String := paint "3" d.1 ++ paint "2" "=" ++ d.2
  " ".intercalate (paint "2" timestamp :: paint e.level.colour e.level.padded :: e.message ::
    e.details.map detail)

end Event
end ExchangeBench.Log
