import ExchangeBench.Text.Hexadecimal

/-!
# SHA-256

The message is padded to whole blocks of sixteen 32-bit words, and each block is mixed into a
chaining value of eight words, whose bytes are the digest. The chaining value's type fixes the
length of the digest: always 32 bytes (`length_sha256`). As text, bytes have two lower-case
hexadecimal digits each (`hex`).
-/

namespace ExchangeBench.Digest

/-- The chaining value: eight words. -/
structure Chain where
  a : UInt32
  b : UInt32
  c : UInt32
  d : UInt32
  e : UInt32
  f : UInt32
  g : UInt32
  h : UInt32
  deriving DecidableEq

/-- The words before the first block: the fractional parts of the square roots of eight primes. -/
def Chain.initial : Chain :=
  ⟨0x6a09e667, 0xbb67ae85, 0x3c6ef372, 0xa54ff53a, 0x510e527f, 0x9b05688c, 0x1f83d9ab, 0x5be0cd19⟩

/-- Wordwise sum. -/
def Chain.add (x y : Chain) : Chain :=
  ⟨x.a + y.a, x.b + y.b, x.c + y.c, x.d + y.d, x.e + y.e, x.f + y.f, x.g + y.g, x.h + y.h⟩

/-- The constants of the 64 rounds: the fractional parts of the cube roots of 64 primes. -/
def roundConstants : List UInt32 := [
  0x428a2f98, 0x71374491, 0xb5c0fbcf, 0xe9b5dba5, 0x3956c25b, 0x59f111f1, 0x923f82a4, 0xab1c5ed5,
  0xd807aa98, 0x12835b01, 0x243185be, 0x550c7dc3, 0x72be5d74, 0x80deb1fe, 0x9bdc06a7, 0xc19bf174,
  0xe49b69c1, 0xefbe4786, 0x0fc19dc6, 0x240ca1cc, 0x2de92c6f, 0x4a7484aa, 0x5cb0a9dc, 0x76f988da,
  0x983e5152, 0xa831c66d, 0xb00327c8, 0xbf597fc7, 0xc6e00bf3, 0xd5a79147, 0x06ca6351, 0x14292967,
  0x27b70a85, 0x2e1b2138, 0x4d2c6dfc, 0x53380d13, 0x650a7354, 0x766a0abb, 0x81c2c92e, 0x92722c85,
  0xa2bfe8a1, 0xa81a664b, 0xc24b8b70, 0xc76c51a3, 0xd192e819, 0xd6990624, 0xf40e3585, 0x106aa070,
  0x19a4c116, 0x1e376c08, 0x2748774c, 0x34b0bcb5, 0x391c0cb3, 0x4ed8aa4a, 0x5b9cca4f, 0x682e6ff3,
  0x748f82ee, 0x78a5636f, 0x84c87814, 0x8cc70208, 0x90befffa, 0xa4506ceb, 0xbef9a3f7, 0xc67178f2]

/-- Rotation to the right by `n` bits, `0 < n < 32`. -/
def rotateRight (x n : UInt32) : UInt32 :=
  (x >>> n) ||| (x <<< (32 - n))

/-- Continues a message schedule, given backwards: each new word comes from the words 2, 7, 15 and 16
places before it. -/
def extendSchedule : Nat → List UInt32 → List UInt32
  | 0, ws => ws
  | n + 1, ws =>
    let x := ws.getD 1 0
    let y := ws.getD 14 0
    let s₁ := rotateRight x 17 ^^^ rotateRight x 19 ^^^ (x >>> 10)
    let s₀ := rotateRight y 7 ^^^ rotateRight y 18 ^^^ (y >>> 3)
    extendSchedule n ((s₁ + ws.getD 6 0 + s₀ + ws.getD 15 0) :: ws)

/-- The 64 words that a block of sixteen feeds to the rounds. -/
def schedule (block : List UInt32) : List UInt32 :=
  (extendSchedule 48 block.reverse).reverse

/-- One round, with its constant and its schedule word added up. -/
def Chain.round (v : Chain) (kw : UInt32) : Chain :=
  let s₁ := rotateRight v.e 6 ^^^ rotateRight v.e 11 ^^^ rotateRight v.e 25
  let choice := (v.e &&& v.f) ^^^ (~~~v.e &&& v.g)
  let t₁ := v.h + s₁ + choice + kw
  let s₀ := rotateRight v.a 2 ^^^ rotateRight v.a 13 ^^^ rotateRight v.a 22
  let majority := (v.a &&& v.b) ^^^ (v.a &&& v.c) ^^^ (v.b &&& v.c)
  ⟨t₁ + (s₀ + majority), v.a, v.b, v.c, v.d + t₁, v.e, v.f, v.g⟩

/-- Mixes one block of sixteen words into the chaining value. -/
def Chain.absorb (v : Chain) (block : List UInt32) : Chain :=
  v.add ((List.zipWith (· + ·) roundConstants (schedule block)).foldl Chain.round v)

/-- The four bytes of a word, the highest first. -/
def bytesOfWord (w : UInt32) : List UInt8 :=
  [(w >>> 24).toUInt8, (w >>> 16).toUInt8, (w >>> 8).toUInt8, w.toUInt8]

/-- Four bytes to a word, the highest first. -/
def wordsOfBytes : List UInt8 → List UInt32
  | a :: b :: c :: d :: r =>
    (a.toUInt32 <<< 24 ||| b.toUInt32 <<< 16 ||| c.toUInt32 <<< 8 ||| d.toUInt32) :: wordsOfBytes r
  | _ => []

/-- The message, a one bit, zeros up to eight bytes before a block's end, and the message's length
in bits. -/
def padded (m : List UInt8) : List UInt8 :=
  let bits := UInt64.ofNat (8 * m.length)
  m ++ (0x80 : UInt8) :: List.replicate ((119 - m.length % 64) % 64) (0 : UInt8) ++
    bytesOfWord (bits >>> 32).toUInt32 ++ bytesOfWord bits.toUInt32

/-- Mixes words into the chaining value, sixteen at a time. -/
def Chain.absorbAll (v : Chain) (ws : List UInt32) : Chain :=
  if ws.isEmpty then v else absorbAll (v.absorb (ws.take 16)) (ws.drop 16)
termination_by ws.length
decreasing_by
  cases ws with
  | nil => contradiction
  | cons w r => simp only [List.length_drop, List.length_cons]; omega

/-- The bytes of a chaining value. -/
def Chain.bytes (v : Chain) : List UInt8 :=
  bytesOfWord v.a ++ bytesOfWord v.b ++ bytesOfWord v.c ++ bytesOfWord v.d ++
    bytesOfWord v.e ++ bytesOfWord v.f ++ bytesOfWord v.g ++ bytesOfWord v.h

/-- The SHA-256 digest of a message. -/
def sha256 (m : List UInt8) : List UInt8 :=
  (Chain.initial.absorbAll (wordsOfBytes (padded m))).bytes

/-- A digest has 32 bytes. -/
@[simp] theorem length_sha256 (m : List UInt8) : (sha256 m).length = 32 := by
  simp [sha256, Chain.bytes, bytesOfWord]

/-! ## Digests as text -/

/-- The two digits of a byte. -/
def hexByte (b : UInt8) : List Char :=
  [Text.hexDigit (b.toNat / 16), Text.hexDigit (b.toNat % 16)]

/-- Bytes in hexadecimal. -/
def hex (bytes : List UInt8) : List Char :=
  bytes.flatMap hexByte

end ExchangeBench.Digest
