/-!
# `BeaconBroadcast.Bytes` — byte strings of a fixed length

Roots, commitments, proofs and signatures are byte strings whose length is part of their type.

## Contents
- **Types.** `Bytes n`, and the four kinds the chain uses.
- **Little-endian words.** `littleEndian k n` is the `k` lowest base-256 digits of `n`.
- **Hexadecimal.** `hex` writes two lower-case digits a byte.
-/

namespace BeaconBroadcast

/-- A string of `n` bytes. -/
abbrev Bytes (n : Nat) : Type := Vector UInt8 n

/-- A block root: a SHA-256 digest. -/
abbrev Root : Type := Bytes 32

/-- A KZG commitment to a blob. -/
abbrev Commitment : Type := Bytes 48

/-- A KZG proof for a blob. -/
abbrev Proof : Type := Bytes 48

/-- A proposer's signature. -/
abbrev Signature : Type := Bytes 96

/-- The string of zeros. -/
def Bytes.zero {n : Nat} : Bytes n := Vector.replicate n 0

/-- The string that `bytes` lists, if there are exactly `n` of them. -/
def Bytes.ofList? {n : Nat} (bytes : List UInt8) : Option (Bytes n) :=
  if h : bytes.length = n then some ⟨bytes.toArray, by simp [h]⟩ else none

/-- The `k` lowest base-256 digits of `n`, lowest first. -/
def littleEndian : (k n : Nat) → List UInt8
  | 0, _ => []
  | k + 1, n => UInt8.ofNat n :: littleEndian k (n / 256)

@[simp] theorem length_littleEndian (k n : Nat) : (littleEndian k n).length = k := by
  induction k generalizing n with
  | zero => rfl
  | succ k ih => simp [littleEndian, ih]

/-- One byte as two hexadecimal digits. -/
def hexByte (b : UInt8) : List Char :=
  [Nat.digitChar (b.toNat / 16), Nat.digitChar (b.toNat % 16)]

/-- The bytes in lower-case hexadecimal. -/
def Bytes.hex {n : Nat} (b : Bytes n) : String := String.ofList (b.toList.flatMap hexByte)

/-- A root is a digest already, so its leading eight bytes serve as its hash. -/
instance : Hashable Root where
  hash root := (root.toList.take 8).foldl (fun h b => h * 256 + b.toUInt64) 0

end BeaconBroadcast
