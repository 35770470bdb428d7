import BeaconBroadcast.Chain.Block

/-!
# `BeaconBroadcast.Chain.Sidecar` — blob sidecars

A blob travels beside the block that commits to it, as a sidecar that names the block and the blob's
place in the block's list of commitments.
-/

namespace BeaconBroadcast

/-- A blob on its way beside its block. -/
structure BlobSidecar where
  /-- Place of the blob in the block's commitments. -/
  index : UInt64
  blockRoot : Root
  slot : Slot
  commitment : Commitment
  /-- Proof that `blob` matches `commitment`. -/
  proof : Proof
  blob : List UInt8
deriving DecidableEq

end BeaconBroadcast
