import ExchangeBench.Log.Rule

/-!
# Filters of the log

A filter is a list of rules, separated by commas. Of those that apply to an event the narrowest
decides, and of equals the last.

* `Filter.parse`: a filter, if every rule of a text can be read.
* `Filter.setUp`: the filter of a program, from the environment or from its options.
* `Filter.admits`: whether an event is written.
-/

namespace ExchangeBench.Log

/-- Which events are written. -/
structure Filter where
  rules : List Rule
  deriving DecidableEq

namespace Filter

/-- What stands between the commas of a text. -/
def pieces (text : String) : List String :=
  (text.splitOn ",").filter (!·.isEmpty)

/-- Reads a filter, if each of its rules can be read. Without rules it admits nothing. -/
def parse (text : String) : Except Rule.Fault Filter := do
  return ⟨← (pieces text).mapM fun p => Rule.parse p.toList⟩

/-- A filter that was read piece by piece. -/
structure Setup where
  /-- The pieces that are left out, and why. -/
  ignored : List (String × Rule.Fault)
  /-- The filter, or the position inside a character where its text would have been cut. -/
  filter : Except Nat Filter

/-- Where there is no rule, errors are written. -/
def ofRules (rs : List Rule) : Filter :=
  if rs.isEmpty then ⟨[{ Rule.wide with rank := Level.error.rank }]⟩ else ⟨rs⟩

/-- Reads pieces behind some rules, the last of them first, and leaves out those that are no rules. -/
def gather (rs : List Rule) : List String → Setup
  | [] => ⟨[], .ok (ofRules rs.reverse)⟩
  | p :: ps =>
    match Rule.parse p.toList with
    | .ok r => gather (r :: rs) ps
    | .error (.split index) => ⟨[], .error index⟩
    | .error f =>
      let s := gather rs ps
      { s with ignored := (p, f) :: s.ignored }

/-- Reads a filter and leaves out what is no rule. -/
def ofText (text : String) : Setup :=
  gather [] (pieces text)

/-- The filter of a program: that of the environment, or that of the options where the environment
has none that can be read. -/
def setUp (environment : Option String) (option : String) : Setup :=
  match environment.map parse with
  | some (.ok f) => ⟨[], .ok f⟩
  | some (.error (.split index)) => ⟨[], .error index⟩
  | _ => ofText option

/-- The filter that admits nothing. -/
def off : Filter := ⟨[]⟩

/-- Of two rules for an event the narrower one, or else the later one. -/
def narrower (best : Option Rule) (r : Rule) : Option Rule :=
  match best with
  | none => some r
  | some b => if b.isNarrower r then some b else some r

/-- Whether an event is written. -/
def admits (f : Filter) (e : Event) : Bool :=
  let applying := f.rules.filter (·.applies e)
  match applying.foldl narrower none with
  | none => false
  | some r => r.admits e

end Filter
end ExchangeBench.Log
