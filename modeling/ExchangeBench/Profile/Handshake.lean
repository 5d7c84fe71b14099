import ExchangeBench.Text.Natural

/-!
# Handshakes

A key exchange as a profile describes it, and which descriptions are accepted. `Handshake.check`
refuses for the first reason that holds.
-/

namespace ExchangeBench

/-- A key exchange algorithm. -/
inductive Algorithm where
  | mockEcdh
  | mockPqcKem
  deriving DecidableEq

namespace Algorithm

/-- The name of an algorithm. -/
def name : Algorithm → String
  | mockEcdh => "mock_ecdh"
  | mockPqcKem => "mock_pqc_kem"

/-- Every algorithm. -/
def all : List Algorithm := [mockEcdh, mockPqcKem]

/-- The algorithm of a name. -/
def ofName? (s : String) : Option Algorithm :=
  all.find? fun a => a.name == s

end Algorithm

/-- How the seeds of a handshake's iterations are chosen. -/
inductive SeedMode where
  | deterministic
  deriving DecidableEq

namespace SeedMode

/-- The name of a seed mode. -/
def name : SeedMode → String
  | deterministic => "deterministic"

/-- The seed mode of a name. -/
def ofName? (s : String) : Option SeedMode :=
  if s = deterministic.name then some deterministic else none

end SeedMode

/-- How the secrets of several algorithms are combined. -/
structure HybridConfig where
  algorithms : List Algorithm
  /-- The length of the combined secret in bytes. -/
  outputLen : UInt64
  deriving DecidableEq

/-- Whether a handshake uses one algorithm or combines several. -/
inductive Mode where
  | single
  | hybrid
  deriving DecidableEq

/-- The name of a mode. -/
def Mode.name : Mode → String
  | single => "single"
  | hybrid => "hybrid"

/-- One key exchange. -/
structure Handshake where
  algorithm : Algorithm
  iterations : UInt32
  seedMode : SeedMode
  seed : UInt64
  /-- Whether iterations are rejected at random. -/
  failureInjection : Bool
  hybrid : Option HybridConfig
  deriving DecidableEq

namespace Handshake

/-- The most iterations that a handshake may have. -/
def maxIterations : Nat := 10000

/-- The largest seed that a handshake may have. -/
def maxSeed : Nat := UInt32.size - 1

/-- The shortest combined secret. -/
def minOutputLen : Nat := 16

/-- The longest combined secret. -/
def maxOutputLen : Nat := 64

/-- What is wrong with a handshake. -/
inductive Defect where
  | iterations (got : Nat)
  | seed (got : Nat)
  | algorithmCount (got : Nat)
  | sameAlgorithm (twice : Algorithm)
  | outputLen (got : Nat)
  deriving DecidableEq

/-- The wording of a defect. -/
def Defect.message : Defect → String
  | iterations got =>
    "key_exchange.iterations must be between 1 and " ++ Text.ofNat maxIterations ++ ", got " ++
      Text.ofNat got
  | seed got =>
    "key_exchange.seed must be between 0 and " ++ Text.ofNat maxSeed ++ ", got " ++ Text.ofNat got
  | algorithmCount got =>
    "key_exchange.hybrid.algorithms must list exactly 2 algorithms, got " ++ Text.ofNat got
  | sameAlgorithm twice =>
    "key_exchange.hybrid.algorithms must be distinct, got " ++ twice.name ++ " twice"
  | outputLen got =>
    "key_exchange.hybrid.output_len must be between " ++ Text.ofNat minOutputLen ++ " and " ++
      Text.ofNat maxOutputLen ++ ", got " ++ Text.ofNat got

/-- The mode of a handshake. -/
def mode (h : Handshake) : Mode :=
  if h.hybrid.isSome then .hybrid else .single

/-- Accepts the combination of exactly two different algorithms to a secret of 16 to 64 bytes. -/
def checkHybrid (c : HybridConfig) : Except Defect Unit :=
  match c.algorithms with
  | [a, b] =>
    if a = b then .error (.sameAlgorithm a)
    else if c.outputLen.toNat < minOutputLen || maxOutputLen < c.outputLen.toNat then
      .error (.outputLen c.outputLen.toNat)
    else .ok ()
  | as => .error (.algorithmCount as.length)

/-- Accepts a handshake, or says what is wrong with it. -/
def check (h : Handshake) : Except Defect Unit :=
  if h.iterations = 0 || maxIterations < h.iterations.toNat then
    .error (.iterations h.iterations.toNat)
  else if maxSeed < h.seed.toNat then .error (.seed h.seed.toNat)
  else
    match h.hybrid with
    | none => .ok ()
    | some c => checkHybrid c

end Handshake
end ExchangeBench
