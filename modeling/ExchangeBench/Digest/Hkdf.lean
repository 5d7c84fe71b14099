import ExchangeBench.Digest.Sha256

/-!
# Key derivation

HMAC and HKDF over SHA-256. Expansion writes blocks of 32 bytes, each of them the code of the block
before it, the context and a counter of one byte, and cuts the last block; so a shorter result is a
beginning of every longer one, and 255 blocks are the most there can be (`maxLength`).
-/

namespace ExchangeBench.Digest

/-- The key filled up with zeros to a block of 64 bytes; a longer key is hashed first. -/
def hmacKey (key : List UInt8) : List UInt8 :=
  let k := if 64 < key.length then sha256 key else key
  k ++ List.replicate (64 - k.length) 0

/-- The keyed code of a message. -/
def hmac (key message : List UInt8) : List UInt8 :=
  let k := hmacKey key
  sha256 (k.map (· ^^^ 0x5c) ++ sha256 (k.map (· ^^^ 0x36) ++ message))

namespace Hkdf

/-- The longest result: 255 blocks. -/
def maxLength : Nat := 255 * 32

/-- The first `n` blocks of the expansion, those after the block `last`, which has number `i`. -/
def blocks (key info last : List UInt8) (i : Nat) : Nat → List UInt8
  | 0 => []
  | n + 1 =>
    let t := hmac key (last ++ info ++ [UInt8.ofNat (i + 1)])
    t ++ blocks key info t (i + 1) n

/-- The first `len` bytes of the expansion. -/
def expand (key info : List UInt8) (len : Nat) : List UInt8 :=
  (blocks key info [] 0 ((len + 31) / 32)).take len

/-- Derives `len` bytes from input key material, a salt and a context; `none` for more bytes than
there can be. -/
def derive? (ikm salt info : List UInt8) (len : Nat) : Option (List UInt8) :=
  if maxLength < len then none else some (expand (hmac salt ikm) info len)

end Hkdf

@[simp] theorem length_hmac (key message : List UInt8) : (hmac key message).length = 32 := by
  simp [hmac]

theorem Hkdf.length_blocks (key info last : List UInt8) (i n : Nat) :
    (blocks key info last i n).length = 32 * n := by
  induction n generalizing last i with
  | zero => rfl
  | succ n ih =>
    simp only [blocks, List.length_append, length_hmac, ih]
    omega

/-- An expansion has the length asked for. -/
@[simp] theorem Hkdf.length_expand (key info : List UInt8) (len : Nat) :
    (expand key info len).length = len := by
  simp only [expand, List.length_take, length_blocks]
  omega

end ExchangeBench.Digest
