import ExchangeBench.Json
import ExchangeBench.Profile
import ExchangeBench.Yaml.Decode

/-!
# Reading profiles

Profiles are written in YAML. Every record has a fixed set of fields, some of which may be left out,
and no others.

* `ProfileDocument.decode`: a profile from a node.
* `Profile.parse`: a profile from a text.
* `Profile.load`: a profile from a file's content.
-/

namespace ExchangeBench

open Yaml (Decode Found Fault Node Position Tag)

namespace Profile

/-- An algorithm. -/
def algorithm : Position → Node → Decode Algorithm :=
  Decode.oneOf (Algorithm.all.map Algorithm.name) Algorithm.ofName?

/-- A seed mode. -/
def seedMode : Position → Node → Decode SeedMode :=
  Decode.oneOf [SeedMode.deterministic.name] SeedMode.ofName?

/-! ## The combination of algorithms -/

/-- The fields of a combination that were read so far. -/
structure HybridFields where
  algorithms : Option (List Algorithm)
  outputLen : Option UInt64

/-- The fields of a combination. -/
def hybridFields : List (Decode.Field HybridFields) := [
  ⟨"algorithms", fun s => s.algorithms.isSome, fun p n s => do
    let algorithms ← Decode.list algorithm p n
    return { s with algorithms := some algorithms }⟩,
  ⟨"output_len", fun s => s.outputLen.isSome, fun p n s => do
    let len ← Decode.natural "usize" (UInt64.size - 1) p n
    return { s with outputLen := some (UInt64.ofNat len) }⟩]

/-- A combination of algorithms. -/
def hybrid : Position → Node → Decode HybridConfig :=
  Decode.record "struct HybridConfig" hybridFields ⟨none, none⟩ fun s => do
    let algorithms ← Decode.required "algorithms" s.algorithms
    let outputLen ← Decode.required "output_len" s.outputLen
    return ⟨algorithms, outputLen⟩

/-! ## The handshake -/

/-- The fields of a handshake that were read so far. -/
structure HandshakeFields where
  algorithm : Option Algorithm
  iterations : Option UInt32
  seedMode : Option SeedMode
  seed : Option UInt64
  failureInjection : Option Bool
  hybrid : Option (Option HybridConfig)

/-- The fields of a handshake. -/
def handshakeFields : List (Decode.Field HandshakeFields) := [
  ⟨"algorithm", fun s => s.algorithm.isSome, fun p n s => do
    let a ← algorithm p n
    return { s with algorithm := some a }⟩,
  ⟨"iterations", fun s => s.iterations.isSome, fun p n s => do
    let i ← Decode.natural "u32" (UInt32.size - 1) p n
    return { s with iterations := some (UInt32.ofNat i) }⟩,
  ⟨"seed_mode", fun s => s.seedMode.isSome, fun p n s => do
    let m ← seedMode p n
    return { s with seedMode := some m }⟩,
  ⟨"seed", fun s => s.seed.isSome, fun p n s => do
    let i ← Decode.natural "u64" (UInt64.size - 1) p n
    return { s with seed := some (UInt64.ofNat i) }⟩,
  ⟨"failure_injection", fun s => s.failureInjection.isSome, fun p n s => do
    let b ← Decode.bool p n
    return { s with failureInjection := some b }⟩,
  ⟨"hybrid", fun s => s.hybrid.isSome, fun p n s => do
    match ← Decode.optional n with
    | none => return { s with hybrid := some none }
    | some n =>
      let h ← hybrid p n
      return { s with hybrid := some (some h) }⟩]

/-- A handshake. -/
def handshake : Position → Node → Decode Handshake :=
  Decode.record "struct Handshake" handshakeFields ⟨none, none, none, none, none, none⟩ fun s => do
    let algorithm ← Decode.required "algorithm" s.algorithm
    let iterations ← Decode.required "iterations" s.iterations
    let seedMode ← Decode.required "seed_mode" s.seedMode
    let seed ← Decode.required "seed" s.seed
    let failureInjection ← Decode.required "failure_injection" s.failureInjection
    return { algorithm, iterations, seedMode, seed, failureInjection, hybrid := s.hybrid.join }

/-! ## Remarks -/

/-- What a remark stands for: the value of a scalar, or the sort of a collection. A collection is read
to its end, since it may hold an error. -/
def remark : Nat → Position → Node → Decode Found
  | depth, p, n => do
    let n ← Decode.follow n
    match n with
    | .scalar tag s style mark =>
      if (tag.bind Tag.ownName?).isSome then Decode.faultAt p mark .taggedForm
      else
        match Found.ofScalar tag s style with
        | .ok (.wideInteger i) =>
          Decode.faultAt p mark (.invalidType (.wideInteger i) "any value")
        | .ok found => return found
        | .error f => Decode.faultAt p mark f
    | .sequence tag ns mark =>
      if (tag.bind Tag.ownName?).isSome then Decode.faultAt p mark .taggedForm
      else
        match depth with
        | 0 => throw (.recursionLimit mark)
        | depth + 1 =>
          let _ ← Decode.within p mark (Decode.items (remark depth) p 0 ns)
          return .sequence
    | .mapping tag es mark =>
      if (tag.bind Tag.ownName?).isSome then Decode.faultAt p mark .taggedForm
      else
        match depth with
        | 0 => throw (.recursionLimit mark)
        | depth + 1 =>
          Decode.within p mark (Decode.entries (fun p () k v => do
            let _ ← remark depth p k
            let _ ← remark depth (p.child k) v) p () es)
          return .mapping
    | n => Decode.refuse p "any value" n

/-- A remark as a profile keeps it: a truth value, a signed 64-bit integer, or text. -/
def metadataValue (p : Position) (n : Node) : Decode MetadataValue := do
  match ← remark p.depth p n with
  | .bool b => return .bool b
  | .integer i =>
    if i < 1 <<< 63 then return .int i else Decode.fault (.noForm "MetadataValue")
  | .text s => return .text s
  | _ => Decode.fault (.noForm "MetadataValue")

/-- The remarks of a profile. Of two under one key the last counts. -/
def remarks : Position → Node → Decode (List (String × MetadataValue)) :=
  Decode.mapping "a map" [] (fun p s k v => do
    let key ← Decode.text p k
    let value ← metadataValue (p.child k) v
    return Text.insertKey key value s) fun s => return s

/-! ## The profile -/

/-- The fields of a profile that were read so far. -/
structure Fields where
  name : Option String
  provider : Option (Option String)
  keyExchange : Option Handshake
  metadata : Option (Option (List (String × MetadataValue)))

/-- The fields of a profile. -/
def fields : List (Decode.Field Fields) := [
  ⟨"name", fun s => s.name.isSome, fun p n s => do
    let t ← Decode.text p n
    return { s with name := some t }⟩,
  ⟨"provider", fun s => s.provider.isSome, fun p n s => do
    match ← Decode.optional n with
    | none => return { s with provider := some none }
    | some n =>
      let t ← Decode.text p n
      return { s with provider := some (some t) }⟩,
  ⟨"key_exchange", fun s => s.keyExchange.isSome, fun p n s => do
    let h ← handshake p n
    return { s with keyExchange := some h }⟩,
  ⟨"metadata", fun s => s.metadata.isSome, fun p n s => do
    match ← Decode.optional n with
    | none => return { s with metadata := some none }
    | some n =>
      let m ← remarks p n
      return { s with metadata := some (some m) }⟩]

end Profile

/-- A profile as it is written, from a node. -/
def ProfileDocument.decode : Position → Node → Decode ProfileDocument :=
  Decode.record "struct ProfileYaml" Profile.fields ⟨none, none, none, none⟩ fun s => do
    let name ← Decode.required "name" s.name
    let keyExchange ← Decode.required "key_exchange" s.keyExchange
    return { name, provider := s.provider.join, keyExchange, metadata := s.metadata.join }

/-- Reads a profile from a text. -/
def Profile.parse (s : String) : Except ProfileError Profile :=
  match Decode.ofText s ProfileDocument.decode with
  | .error e => .error (.parse e)
  | .ok d => Profile.ofDocument d


/-- Reads a profile from the content of the file at a path. -/
def Profile.load (path : String) (content : Except ReadFault ByteArray) :
    Except ProfileError Profile :=
  match content with
  | .error fault => .error (.read path fault)
  | .ok bytes =>
    match String.fromUTF8? bytes with
    | none => .error (.read path .invalidData)
    | some text => Profile.parse text

end ExchangeBench
