import ExchangeBench.Text.Natural
import ExchangeBench.Config

/-!
# Notes

Remarks on a run that a report carries beside its numbers.
-/

namespace ExchangeBench

/-- A remark on a run. -/
inductive Note where
  | warmup (repeats : Nat)
  | cpuUnavailable
  | samplerUnobserved (timeoutSecs : Nat) (indices : List Nat)
  | latencyTruncated (capacity : Nat) (indices : List Nat)
  | internalError
  deriving DecidableEq

namespace Note

/-- Indices of repeats as a note lists them. -/
def joined (indices : List Nat) : String :=
  ", ".intercalate (indices.map Text.ofNat)

/-- The wording of a note. -/
def text : Note → String
  | warmup repeats =>
    if repeats = 1 then "Warmup completed; warmup metrics discarded and counters reset."
    else
      "Warmup ran before each of the " ++ Text.ofNat repeats ++
        " repeats; warmup metrics discarded and counters reset."
  | cpuUnavailable =>
    "CPU sampling unavailable on this host; cpu percentage fields set to null."
  | samplerUnobserved timeoutSecs indices =>
    "CPU sampler did not stop within " ++ Text.ofNat timeoutSecs ++ "s in repeat(s) " ++
      joined indices ++ "; its samples were discarded."
  | latencyTruncated capacity indices =>
    "Latency list hit " ++ String.ofList (Text.grouped capacity) ++ " samples in repeat(s) " ++
      joined indices ++ "; additional latencies were dropped."
  | internalError =>
    "Benchmark execution raised an internal error; see errors[] for hashed details."

end Note
end ExchangeBench
