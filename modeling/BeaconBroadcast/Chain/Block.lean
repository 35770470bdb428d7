import BeaconBroadcast.Sha256

/-!
# `BeaconBroadcast.Chain.Block` — blocks and their roots

A block's root is the digest of its message: the fixed-width fields in order, the number of
commitments, then the commitments. The signature is not part of it.

## Contents
- **Messages.** `BeaconBlock`, the bytes it is hashed as, and its root.
- **Signed blocks.** `SignedBlock` carries the root of its own message and can carry no other.
-/

namespace BeaconBroadcast

/-- A slot number, counted from genesis. -/
abbrev Slot : Type := UInt64

/-- An epoch number, counted from genesis. -/
abbrev Epoch : Type := UInt64

/-- A point in time or a span of it, in milliseconds. -/
abbrev Millis : Type := UInt64

/-- The unsigned message of a proposed block. -/
structure BeaconBlock where
  slot : Slot := 0
  /-- Index of the proposing validator. -/
  proposerIndex : UInt64 := 0
  parentRoot : Root := Bytes.zero
  stateRoot : Root := Bytes.zero
  bodyRoot : Root := Bytes.zero
  /-- Commitments to the blobs that travel beside the block, in order. -/
  commitments : List Commitment := []
deriving DecidableEq

namespace BeaconBlock

/-- The bytes that the root is the digest of. -/
def messageBytes (b : BeaconBlock) : List UInt8 :=
  littleEndian 8 b.slot.toNat ++ littleEndian 8 b.proposerIndex.toNat
    ++ b.parentRoot.toList ++ b.stateRoot.toList ++ b.bodyRoot.toList
    ++ littleEndian 8 b.commitments.length
    ++ b.commitments.flatMap (·.toList)

/-- The block root: the digest of every message field. -/
def root (b : BeaconBlock) : Root := Sha256.digest b.messageBytes

end BeaconBlock

/-- A block with its proposer's signature and the root of its message. -/
structure SignedBlock where
  message : BeaconBlock
  signature : Signature
  root : Root := message.root
  /-- The root is that of the message, whatever a sender claimed. -/
  root_eq : root = message.root := by rfl
deriving DecidableEq

namespace SignedBlock

/-- The block of a message and a signature. -/
def ofMessage (message : BeaconBlock) (signature : Signature) : SignedBlock := { message, signature }

/-- The slot the block was proposed for. -/
def slot (b : SignedBlock) : Slot := b.message.slot

/-- The commitments that the block's sidecars have to match. -/
def commitments (b : SignedBlock) : List Commitment := b.message.commitments

/-- A signed block is its message and its signature. -/
theorem ext_message_signature {b c : SignedBlock} (hm : b.message = c.message)
    (hs : b.signature = c.signature) : b = c := by
  obtain ⟨m, s, r, hr⟩ := b
  obtain ⟨m', s', r', hr'⟩ := c
  simp only at hm hs
  subst hm hs hr hr'
  rfl

end SignedBlock

end BeaconBroadcast
