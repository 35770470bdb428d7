import BeaconBroadcast.Bytes

/-!
# `BeaconBroadcast.Sha256` — the SHA-256 digest

The message is padded to whole blocks of sixteen words; each block is expanded to sixty-four words and
folded into eight chaining words, which end up as the digest.

## Contents
- **Words.** Big-endian words and their bytes, rotations and the six mixing functions.
- **Schedule.** `schedule` extends a block's sixteen words by the four-term recurrence.
- **Compression.** `compress` runs sixty-four rounds and adds the result to the chaining words.
- **Digest.** `padded` and `digest`.
-/

namespace BeaconBroadcast.Sha256

/-! ## Words -/

/-- The four bytes of a word, highest first. -/
def wordBytes (w : UInt32) : List UInt8 :=
  [(w >>> 24).toUInt8, (w >>> 16).toUInt8, (w >>> 8).toUInt8, w.toUInt8]

/-- The words that the bytes spell, highest byte first; a last group of fewer than four is dropped. -/
def words : List UInt8 → List UInt32
  | a :: b :: c :: d :: rest =>
      (a.toUInt32 <<< 24 ||| b.toUInt32 <<< 16 ||| c.toUInt32 <<< 8 ||| d.toUInt32) :: words rest
  | _ => []

/-- Rotation to the right by `n` bits, for `0 < n < 32`. -/
def rotateRight (x n : UInt32) : UInt32 := (x >>> n) ||| (x <<< (32 - n))

def choose (x y z : UInt32) : UInt32 := (x &&& y) ^^^ (~~~x &&& z)

def majority (x y z : UInt32) : UInt32 := (x &&& y) ^^^ (x &&& z) ^^^ (y &&& z)

/-- Mixes the first chaining word in a round. -/
def bigSigma0 (x : UInt32) : UInt32 := rotateRight x 2 ^^^ rotateRight x 13 ^^^ rotateRight x 22

/-- Mixes the fifth chaining word in a round. -/
def bigSigma1 (x : UInt32) : UInt32 := rotateRight x 6 ^^^ rotateRight x 11 ^^^ rotateRight x 25

/-- Mixes the word fifteen places back in the schedule. -/
def smallSigma0 (x : UInt32) : UInt32 := rotateRight x 7 ^^^ rotateRight x 18 ^^^ (x >>> 3)

/-- Mixes the word two places back in the schedule. -/
def smallSigma1 (x : UInt32) : UInt32 := rotateRight x 17 ^^^ rotateRight x 19 ^^^ (x >>> 10)

/-- The leading fractional bits of the cube roots of the first sixty-four primes. -/
def roundConstants : List UInt32 := [
  0x428a2f98, 0x71374491, 0xb5c0fbcf, 0xe9b5dba5, 0x3956c25b, 0x59f111f1, 0x923f82a4, 0xab1c5ed5,
  0xd807aa98, 0x12835b01, 0x243185be, 0x550c7dc3, 0x72be5d74, 0x80deb1fe, 0x9bdc06a7, 0xc19bf174,
  0xe49b69c1, 0xefbe4786, 0x0fc19dc6, 0x240ca1cc, 0x2de92c6f, 0x4a7484aa, 0x5cb0a9dc, 0x76f988da,
  0x983e5152, 0xa831c66d, 0xb00327c8, 0xbf597fc7, 0xc6e00bf3, 0xd5a79147, 0x06ca6351, 0x14292967,
  0x27b70a85, 0x2e1b2138, 0x4d2c6dfc, 0x53380d13, 0x650a7354, 0x766a0abb, 0x81c2c92e, 0x92722c85,
  0xa2bfe8a1, 0xa81a664b, 0xc24b8b70, 0xc76c51a3, 0xd192e819, 0xd6990624, 0xf40e3585, 0x106aa070,
  0x19a4c116, 0x1e376c08, 0x2748774c, 0x34b0bcb5, 0x391c0cb3, 0x4ed8aa4a, 0x5b9cca4f, 0x682e6ff3,
  0x748f82ee, 0x78a5636f, 0x84c87814, 0x8cc70208, 0x90befffa, 0xa4506ceb, 0xbef9a3f7, 0xc67178f2]

/-! ## Schedule -/

/-- Adds the next word to a schedule kept latest first. -/
def extend (latest : List UInt32) : List UInt32 :=
  (smallSigma1 (latest.getD 1 0) + latest.getD 6 0 + smallSigma0 (latest.getD 14 0)
    + latest.getD 15 0) :: latest

/-- The sixty-four words of a block of sixteen. -/
def schedule (block : List UInt32) : List UInt32 := (Nat.repeat extend 48 block.reverse).reverse

/-! ## Compression -/

/-- The chaining words carried from block to block. -/
structure Chaining where
  a : UInt32
  b : UInt32
  c : UInt32
  d : UInt32
  e : UInt32
  f : UInt32
  g : UInt32
  h : UInt32

namespace Chaining

/-- The leading fractional bits of the square roots of the first eight primes. -/
def start : Chaining where
  a := 0x6a09e667
  b := 0xbb67ae85
  c := 0x3c6ef372
  d := 0xa54ff53a
  e := 0x510e527f
  f := 0x9b05688c
  g := 0x1f83d9ab
  h := 0x5be0cd19

/-- The chaining words in order. -/
def toList (s : Chaining) : List UInt32 := [s.a, s.b, s.c, s.d, s.e, s.f, s.g, s.h]

/-- One round, with its constant and its schedule word. -/
def round (s : Chaining) (step : UInt32 × UInt32) : Chaining :=
  let t1 := s.h + bigSigma1 s.e + choose s.e s.f s.g + step.1 + step.2
  let t2 := bigSigma0 s.a + majority s.a s.b s.c
  { a := t1 + t2, b := s.a, c := s.b, d := s.c, e := s.d + t1, f := s.e, g := s.f, h := s.g }

/-- Word by word sum. -/
def add (s t : Chaining) : Chaining :=
  { a := s.a + t.a, b := s.b + t.b, c := s.c + t.c, d := s.d + t.d,
    e := s.e + t.e, f := s.f + t.f, g := s.g + t.g, h := s.h + t.h }

/-- Folds one block of sixteen words into the chaining words. -/
def compress (s : Chaining) (block : List UInt32) : Chaining :=
  s.add ((roundConstants.zip (schedule block)).foldl round s)

/-- Folds `count` blocks, in order. -/
def absorb : (count : Nat) → Chaining → List UInt32 → Chaining
  | 0, s, _ => s
  | count + 1, s, ws => absorb count (s.compress (ws.take 16)) (ws.drop 16)

/-- The digest that the chaining words spell. -/
def digest (s : Chaining) : Bytes 32 :=
  ⟨(s.toList.flatMap wordBytes).toArray, by simp [toList, wordBytes]⟩

end Chaining

/-! ## Digest -/

/-- The message, a closing one bit, the fewest zeros that complete a block, and the length in bits. -/
def padded (message : List UInt8) : List UInt8 :=
  message ++ 0x80 :: List.replicate ((119 - message.length % 64) % 64) 0
    ++ (littleEndian 8 (8 * message.length)).reverse

/-- The SHA-256 digest of `message`. -/
def digest (message : List UInt8) : Bytes 32 :=
  let ws := words (padded message)
  (Chaining.absorb (ws.length / 16) .start ws).digest

end BeaconBroadcast.Sha256
