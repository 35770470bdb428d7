import BeaconBroadcast.Chain.ForkSchedule
import BeaconBroadcast.Chain.Sidecar
import BeaconBroadcast.Json.Layout

/-!
# `BeaconBroadcast.Wire.Chain` — blocks, sidecars and milestones as documents

Records are written as objects with their fields in order, byte strings as arrays of numbers. They are
read in any spelling of a record; commitments, proofs and signatures also as strings of bytes. What is read
of a record is what its fields are read as, put together (`ofJson_eq`).

## Contents
- **Leaves.** Words, byte strings and milestones.
- **Blocks.** A signed block is written with its root, but read without: the root is computed anew, and
  a root in the document is a member that no field asks for.
- **Sidecars.**
-/

namespace BeaconBroadcast

open Json

/-! ## Leaves -/

namespace Wire

/-- A word as a number. -/
def word (w : UInt64) : Value := .natural w.toNat

/-- Bytes as an array of numbers. -/
def byteList (bs : List UInt8) : Value := .list (bs.map fun b => .natural b.toNat)

/-- A byte string as an array of numbers. -/
def bytes {n : Nat} (b : Bytes n) : Value := byteList b.toList

end Wire

namespace Milestone

def toJson (m : Milestone) : Value := .name m.name

def ofJson : Decoder Milestone := .choice (all.map fun m => (m.name, Decoder.plain m))

end Milestone

/-! ## Blocks -/

namespace BeaconBlock

def toJson (b : BeaconBlock) : Value :=
  .record [("slot", Wire.word b.slot), ("proposer_index", Wire.word b.proposerIndex),
    ("parent_root", Wire.bytes b.parentRoot), ("state_root", Wire.bytes b.stateRoot),
    ("body_root", Wire.bytes b.bodyRoot),
    ("blob_kzg_commitments", .list (b.commitments.map Wire.bytes))]

/-- The fields of a message, in order. -/
def layout :=
  Layout.need "slot" Decoder.word <| .need "proposer_index" Decoder.word <|
  .need "parent_root" (Decoder.bytes 32) <| .need "state_root" (Decoder.bytes 32) <|
  .need "body_root" (Decoder.bytes 32) <|
  .need "blob_kzg_commitments" (Decoder.list (Decoder.byteString 48)) .done

def ofJson : Decoder BeaconBlock := fun v => do
  let (slot, proposerIndex, parentRoot, stateRoot, bodyRoot, commitments, ()) ← layout.decoder v
  return { slot, proposerIndex, parentRoot, stateRoot, bodyRoot, commitments }

/-- A message is made of what its fields are read as. -/
theorem ofJson_eq (v : Value) :
    ofJson v = (layout.decoder v).map fun (slot, proposerIndex, parentRoot, stateRoot, bodyRoot, commitments, ()) =>
      { slot, proposerIndex, parentRoot, stateRoot, bodyRoot, commitments } := by
  show (layout.decoder v >>= fun fields => _) = _
  cases layout.decoder v <;> rfl

end BeaconBlock

namespace SignedBlock

def toJson (b : SignedBlock) : Value :=
  .record [("message", b.message.toJson), ("signature", Wire.bytes b.signature),
    ("root", Wire.bytes b.root)]

/-- The fields that a signed block is read from. -/
def layout :=
  Layout.need "message" BeaconBlock.ofJson <| .need "signature" (Decoder.byteString 96) .done

def ofJson : Decoder SignedBlock := fun v => do
  let (message, signature, ()) ← layout.decoder v
  return .ofMessage message signature

/-- A block is made of what its fields are read as. -/
theorem ofJson_eq (v : Value) :
    ofJson v = (layout.decoder v).map fun (message, signature, ()) => .ofMessage message signature := by
  show (layout.decoder v >>= fun fields => _) = _
  cases layout.decoder v <;> rfl

end SignedBlock

/-! ## Sidecars -/

namespace BlobSidecar

def toJson (s : BlobSidecar) : Value :=
  .record [("index", Wire.word s.index), ("block_root", Wire.bytes s.blockRoot),
    ("slot", Wire.word s.slot), ("kzg_commitment", Wire.bytes s.commitment),
    ("kzg_proof", Wire.bytes s.proof), ("blob", Wire.byteList s.blob)]

/-- The fields of a sidecar, in order. -/
def layout :=
  Layout.need "index" Decoder.word <| .need "block_root" (Decoder.bytes 32) <|
  .need "slot" Decoder.word <| .need "kzg_commitment" (Decoder.byteString 48) <|
  .need "kzg_proof" (Decoder.byteString 48) <| .need "blob" (Decoder.list Decoder.byte) .done

def ofJson : Decoder BlobSidecar := fun v => do
  let (index, blockRoot, slot, commitment, proof, blob, ()) ← layout.decoder v
  return { index, blockRoot, slot, commitment, proof, blob }

/-- A sidecar is made of what its fields are read as. -/
theorem ofJson_eq (v : Value) :
    ofJson v = (layout.decoder v).map fun (index, blockRoot, slot, commitment, proof, blob, ()) =>
      { index, blockRoot, slot, commitment, proof, blob } := by
  show (layout.decoder v >>= fun fields => _) = _
  cases layout.decoder v <;> rfl

end BlobSidecar

end BeaconBroadcast
