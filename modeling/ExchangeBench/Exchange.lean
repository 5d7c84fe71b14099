import ExchangeBench.Attempt
import ExchangeBench.Digest.Hkdf
import ExchangeBench.Profile.Handshake
import ExchangeBench.Random.Generator

/-!
# The mock exchange

A deterministic stand-in for a key exchange. Each iteration of a handshake derives a secret and, if
failures are injected, draws once from the generator of the handshake's seed; a handshake with a
rejected iteration fails.

* `Exchange.secret`, `Exchange.deriveKey`: the secret of an iteration, and key derivation.
* `Exchange.run`: all iterations of a handshake.
* `Exchange.prepare`, `Exchange.execute`: the two stages of an attempt, which always runs a single
  iteration of its template.
-/

namespace ExchangeBench.Exchange

/-- The salt under which the secrets of several algorithms are combined. -/
def hybridSalt : List UInt8 := "hsbench-hybrid".toUTF8.toList

/-- The context under which the secrets of several algorithms are combined. -/
def hybridInfo : List UInt8 := "hsbench-hybrid-secret".toUTF8.toList

/-- What the secret of an algorithm in an iteration is the digest of. -/
def secretText (seed : UInt64) (index : UInt32) (a : Algorithm) : List Char :=
  Text.decimal seed.toNat ++ ':' :: Text.decimal index.toNat ++ ':' :: a.name.toList

/-- The secret of an algorithm in an iteration. -/
def secret (seed : UInt64) (index : UInt32) (a : Algorithm) : List UInt8 :=
  Digest.sha256 (String.ofList (secretText seed index a)).toUTF8.toList

/-- Derives so many bytes from key material. Their buffer is reserved first. More bytes than the
derivation has are a failure, unless there are too many for a buffer already: that is a panic. -/
def deriveKey (ikm salt info : List UInt8) (len : Nat) : Stage (List UInt8) :=
  if Buffer.fits len 1 then
    match Digest.Hkdf.derive? ikm salt info len with
    | some okm => .done okm
    | none => .failed ⟨.invocation, "hkdf expand to " ++ Text.ofNat len ++
        " bytes: invalid number of blocks, too large output"⟩
  else .panicked .capacityOverflow

/-- The combined secret of several algorithms in an iteration. -/
def hybridSecret (seed : UInt64) (index : UInt32) (c : HybridConfig) : Stage (List UInt8) :=
  deriveKey (c.algorithms.flatMap (secret seed index)) hybridSalt hybridInfo c.outputLen.toNat

/-- The secret of an iteration of a handshake. -/
def iterationSecret (h : Handshake) (index : UInt32) : Stage (List UInt8) :=
  match h.hybrid with
  | none => .done (secret h.seed index h.algorithm)
  | some c => hybridSecret h.seed index c

/-- A handshake under way. -/
structure Progress where
  /-- How many draws were made. -/
  drawn : Nat
  /-- How many iterations were rejected. -/
  rejected : UInt32
  deriving DecidableEq

/-- One iteration. -/
def step (h : Handshake) (p : Progress) (index : Nat) : Stage Progress := do
  let _ ← iterationSecret h (UInt32.ofNat index)
  if h.failureInjection then
    return ⟨p.drawn + 1, if Generator.tenth h.seed p.drawn then p.rejected + 1 else p.rejected⟩
  else return p

/-- Runs every iteration of a handshake; it fails if one was rejected. -/
def run (h : Handshake) : Stage Unit := do
  let p ← (List.range h.iterations.toNat).foldlM (step h) ⟨0, 0⟩
  if p.rejected = 0 then return ()
  else .failed ⟨.rejected, Text.ofNat p.rejected.toNat ++ " of " ++ Text.ofNat h.iterations.toNat ++
    " iterations rejected"⟩

/-- The input of an attempt: the template with a single iteration, if that is acceptable. -/
def prepare (template : Handshake) : Except Failure Handshake :=
  let h := { template with iterations := 1 }
  match h.check with
  | .ok () => .ok h
  | .error d => .error ⟨.setup, "invalid profile: " ++ d.message⟩

/-- The timed stage of an attempt. -/
def execute (h : Handshake) : Stage Unit :=
  run h

end ExchangeBench.Exchange
