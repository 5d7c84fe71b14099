/-!
# The random generator

A stream of 64-bit draws that a 64-bit seed determines. The seed is expanded into a key of eight
words by a linear congruential generator with permuted output, and the key drives ChaCha with twelve
rounds: block `n` of the cipher, with a zero nonce, yields the draws `8 n` to `8 n + 7`.

The stream is a function of seed and position (`Generator.draw`), so draws made one after another
are the draws at positions `0, 1, 2, …`.
-/

namespace ExchangeBench.Generator

/-- One step of the expansion's state. -/
def nextState (s : UInt64) : UInt64 :=
  s * 6364136223846793005 + 11634580027462260723

/-- The word that an expansion state puts out: its high bits, rotated by its highest five. -/
def permuted (s : UInt64) : UInt32 :=
  let x := (((s >>> 18) ^^^ s) >>> 27).toUInt32
  let r := (s >>> 59).toUInt32
  (x >>> r) ||| (x <<< ((32 - r) % 32))

/-- The next `n` words of the expansion. -/
def expansion (s : UInt64) : Nat → List UInt32
  | 0 => []
  | n + 1 => permuted (nextState s) :: expansion (nextState s) n

/-- The key of a seed. -/
def key (seed : UInt64) : List UInt32 :=
  expansion seed 8

/-- Rotation to the left by `n` bits, `0 < n < 32`. -/
def rotateLeft (x n : UInt32) : UInt32 :=
  (x <<< n) ||| (x >>> (32 - n))

/-- The cipher's state: sixteen words. -/
abbrev Words := Vector UInt32 16

/-- The quarter round on the words `a`, `b`, `c` and `d`. -/
def quarterRound (v : Words) (a b c d : Fin 16) : Words :=
  let (xa, xb, xc, xd) := (v[a], v[b], v[c], v[d])
  let xa := xa + xb
  let xd := rotateLeft (xd ^^^ xa) 16
  let xc := xc + xd
  let xb := rotateLeft (xb ^^^ xc) 12
  let xa := xa + xb
  let xd := rotateLeft (xd ^^^ xa) 8
  let xc := xc + xd
  let xb := rotateLeft (xb ^^^ xc) 7
  (((v.set a xa).set b xb).set c xc).set d xd

/-- A round on the columns and a round on the diagonals. -/
def doubleRound (v : Words) : Words :=
  let v := quarterRound v 0 4 8 12
  let v := quarterRound v 1 5 9 13
  let v := quarterRound v 2 6 10 14
  let v := quarterRound v 3 7 11 15
  let v := quarterRound v 0 5 10 15
  let v := quarterRound v 1 6 11 12
  let v := quarterRound v 2 7 8 13
  quarterRound v 3 4 9 14

/-- The state before the rounds: four constants, the key, the block's number and a zero nonce. -/
def start (k : List UInt32) (n : UInt64) : Words :=
  #v[0x61707865, 0x3320646e, 0x79622d32, 0x6b206574,
     k.getD 0 0, k.getD 1 0, k.getD 2 0, k.getD 3 0, k.getD 4 0, k.getD 5 0, k.getD 6 0, k.getD 7 0,
     n.toUInt32, (n >>> 32).toUInt32, 0, 0]

/-- Block `n` of the key stream: six double rounds, added to the state before them. -/
def block (k : List UInt32) (n : UInt64) : Words :=
  let s := start k n
  let r := (List.range 6).foldl (fun v _ => doubleRound v) s
  Vector.zipWith (· + ·) s r

/-- The draw at position `i` of the stream of a seed: two words of a block, the lower half first. -/
def draw (seed : UInt64) (i : Nat) : UInt64 :=
  let b := block (key seed) (UInt64.ofNat (i / 8))
  let j := 2 * (i % 8)
  have hj : j + 1 < 16 := by omega
  (b[j]).toUInt64 ||| (b[j + 1]).toUInt64 <<< 32

/-- Whether the draw at position `i` falls below a tenth of the range: `2 ^ 64` times the double
nearest to a tenth, which is a whole number. -/
def tenth (seed : UInt64) (i : Nat) : Bool :=
  draw seed i < 1844674407370955264

end ExchangeBench.Generator
