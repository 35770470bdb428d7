import BeaconBroadcast.Chain.Block

/-!
# `BeaconBroadcast.Publish.Delivery` — what a publish attempt came to

## Contents
- **Deliveries.** `Delivery` says which messages gossip took.
- **Publications.** `Publication` is what a caller gets for a block that was let through.
- **Outcomes.** `Outcome` is the coarse account that duty metrics and performance tracking hear.
-/

namespace BeaconBroadcast

/-- Which messages gossip took. -/
structure Delivery where
  blockTaken : Bool := false
  /-- How many sidecars gossip took. -/
  sidecarsTaken : Nat := 0
  /-- The indices of the sidecars that it did not take, in order. -/
  sidecarsRefused : List UInt64 := []
deriving DecidableEq

namespace Delivery

/-- The delivery of a block that has no sidecars to send. -/
def ofBlock (taken : Bool) : Delivery := { blockTaken := taken }

/-- The delivery with one more sidecar, which was taken. -/
def take (d : Delivery) : Delivery := { d with sidecarsTaken := d.sidecarsTaken + 1 }

/-- The delivery with one more sidecar, which was not taken. -/
def refuse (d : Delivery) (index : UInt64) : Delivery :=
  { d with sidecarsRefused := d.sidecarsRefused ++ [index] }

/-- Whether some message was not taken. -/
def isPartial (d : Delivery) : Bool := !d.blockTaken || !d.sidecarsRefused.isEmpty

end Delivery

/-- A block that was imported and offered to gossip. -/
structure Publication where
  root : Root
  slot : Slot
  /-- Whether the import took the payload on trust. -/
  optimistic : Bool
  delivery : Delivery
deriving DecidableEq

/-- The coarse account of an attempt. -/
inductive Outcome
  /-- Gossip took every message. -/
  | published
  /-- Gossip was offered every message and refused some. -/
  | partiallyPublished
  | importFailed
  | validationFailed
  /-- The attempt was given up before its end, or never begun. -/
  | notAttempted
deriving DecidableEq

/-- Whether the block was offered to gossip. -/
def Outcome.isPublished : Outcome → Bool
  | published => true
  | partiallyPublished => true
  | _ => false

end BeaconBroadcast
