import ExchangeBench.Text.Blank

/-!
# The environment of a run

The host as a report describes it, and the two parts of the description that take a decision: whether
the run is inside a container, and which commit it is of.
-/

namespace ExchangeBench

/-- A snapshot of the host. -/
structure Environment where
  platform : String
  osRelease : String
  kernelRelease : String
  machine : String
  hostName : String
  harnessVersion : String
  cpuCount : Nat
  inContainer : Bool
  gitCommit : String
  timestampUtc : String
  deriving DecidableEq

namespace Environment

/-- The version of this program. -/
def version : String := "0.0.7"

/-- The files whose presence marks a container. -/
def containerMarkers : List String := ["/.dockerenv", "/run/.containerenv"]

/-- What the control group of a container is named after. -/
def containerHints : List String := ["docker", "kubepods", "containerd", "lxc", "podman"]

/-- Whether one text occurs in another. -/
def occursIn (p : List Char) : List Char → Bool
  | [] => p.isEmpty
  | c :: r => p.isPrefixOf (c :: r) || occursIn p r

/-- Whether a variable is set to a word for yes. -/
def isTruthy (value : String) : Bool :=
  let cs := (Text.trim value.toList).map Char.toLower
  ["1", "true", "yes", "on"].any fun w => w.toList == cs

/-- Whether the host is a container: the variable `CI` says yes, a marker file exists, or the control
group's name gives it away. -/
def detectInContainer (ci : Option String) (markers : List Bool) (cgroup : Option String) : Bool :=
  ci.any isTruthy || markers.any id ||
    cgroup.any fun g => containerHints.any fun h => occursIn h.toList g.toList

/-- The commit named in the environment, without white space around it. -/
def commitOf (value : Option String) : String :=
  match value with
  | none => "unknown"
  | some v =>
    let t := Text.trimmed v
    if t.isEmpty then "unknown" else t

end Environment
end ExchangeBench
