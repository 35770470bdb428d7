import BeaconBroadcast.Chain.Sidecar

/-!
# `BeaconBroadcast.Validation.Sidecars` — whether sidecars belong to their block

Before import the sidecars have to be exactly the block's blobs: no more than the fork allows, one for
each commitment, in order, each naming the block and its commitment.

## Contents
- **Faults.** `SidecarFault` and its words.
- **Check.** `SignedBlock.sidecarFault?` is the first fault: of the counts, then position by position.
-/

namespace BeaconBroadcast

/-- What is wrong with a list of sidecars. -/
inductive SidecarFault
  /-- The block commits to more blobs than the fork allows. -/
  | tooMany (count : Nat) (limit : UInt64)
  /-- There is not one sidecar for each commitment. -/
  | countMismatch (expected actual : Nat)
  /-- The sidecar at `position` carries another index. -/
  | outOfOrder (position : Nat) (index : UInt64)
  /-- The sidecar names another root or slot. -/
  | wrongBlock (index : UInt64)
  | commitmentMismatch (index : UInt64)
deriving DecidableEq

/-- The fault in words. -/
def SidecarFault.text : SidecarFault → String
  | tooMany count limit => s!"{count} blobs exceed the limit of {limit}"
  | countMismatch expected actual => s!"expected {expected} blob sidecars, got {actual}"
  | outOfOrder position index => s!"sidecar at position {position} has index {index}"
  | wrongBlock index => s!"sidecar {index} references a different block"
  | commitmentMismatch index => s!"sidecar {index} commitment does not match the block"

namespace SignedBlock

/-- What is wrong with `sidecar` at `position`, where the block has `commitment`. -/
def positionFault? (block : SignedBlock) (position : Nat) (commitment : Commitment)
    (sidecar : BlobSidecar) : Option SidecarFault :=
  if sidecar.index.toNat ≠ position then some (.outOfOrder position sidecar.index)
  else if sidecar.blockRoot ≠ block.root ∨ sidecar.slot ≠ block.slot then
    some (.wrongBlock sidecar.index)
  else if sidecar.commitment ≠ commitment then some (.commitmentMismatch sidecar.index)
  else none

/-- The first fault from `position` on, as far as both lists go. -/
def firstFault? (block : SignedBlock) : Nat → List Commitment → List BlobSidecar → Option SidecarFault
  | position, commitment :: commitments, sidecar :: sidecars =>
      (block.positionFault? position commitment sidecar).or
        (block.firstFault? (position + 1) commitments sidecars)
  | _, _, _ => none

/-- What is wrong with `sidecars` as those of `block` where the fork allows `limit` blobs. -/
def sidecarFault? (block : SignedBlock) (sidecars : List BlobSidecar) (limit : UInt64) :
    Option SidecarFault :=
  if limit.toNat < block.commitments.length then some (.tooMany block.commitments.length limit)
  else if block.commitments.length ≠ sidecars.length then
    some (.countMismatch block.commitments.length sidecars.length)
  else block.firstFault? 0 block.commitments sidecars

end SignedBlock

end BeaconBroadcast
