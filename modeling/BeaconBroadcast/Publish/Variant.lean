import BeaconBroadcast.Publish.Program

/-!
# `BeaconBroadcast.Publish.Variant` — import and broadcast, with blobs and without

Forks without blobs import the block alone and send the block alone. From the first fork with blobs on,
the sidecars are checked against the block, imported with it, and sent after it; one that gossip does
not take is noted and the rest still go out.

## Contents
- **Variants.** `Variant`.
- **Import.** `Variant.importBlock`; a broken channel comes back as a failed import.
- **Broadcast.** `offerBlock`, `offerSidecars` and `Variant.broadcast`.
-/

namespace BeaconBroadcast

/-- How blocks of a fork are imported and broadcast. -/
inductive Variant
  /-- Without blobs. -/
  | plain
  /-- With at most `limit` blobs a block; if `counted`, the ledger hears of each broadcast. -/
  | withBlobs (limit : UInt64) (counted : Bool)
deriving DecidableEq

open Program (request notify)

/-- Offers the block to gossip. The result says whether it was taken. -/
def offerBlock (block : SignedBlock) : Program Bool := do
  match ← request (.gossipBlock block) with
  | .ok () => return true
  | .error fault =>
      notify (.blockRefused block.root block.slot fault)
      return false

/-- Offers the sidecars to gossip, in order, and adds to `d` what became of each. -/
def offerSidecars (block : SignedBlock) : List BlobSidecar → Delivery → Program Delivery
  | [], d => return d
  | sidecar :: sidecars, d => do
      match ← request (.gossipSidecar sidecar) with
      | .ok () => offerSidecars block sidecars d.take
      | .error fault =>
          notify (.sidecarRefused sidecar.index block.root fault)
          offerSidecars block sidecars (d.refuse sidecar.index)

namespace Variant

/-- Imports the block, with its sidecars where there are blobs. -/
def importBlock (block : SignedBlock) (sidecars : List BlobSidecar) (level : Level) :
    Variant → Program ImportAnswer
  | plain => do
      if !sidecars.isEmpty then notify (.sidecarsIgnored sidecars.length block.slot)
      return .ofChannel (← request (.importBlock block level))
  | withBlobs limit _ => do
      match block.sidecarFault? sidecars limit with
      | some fault =>
          notify (.sidecarsRejected block.root block.slot fault)
          return .failed (.invalidSidecars fault.text)
      | none => return .ofChannel (← request (.importWithSidecars block sidecars level))

/-- Offers the block to gossip, then its sidecars where there are blobs. -/
def broadcast (block : SignedBlock) (sidecars : List BlobSidecar) : Variant → Program Delivery
  | plain => return .ofBlock (← offerBlock block)
  | withBlobs _ counted => do
      let taken ← offerBlock block
      let delivery ← offerSidecars block sidecars (.ofBlock taken)
      if counted then request (.countSidecars delivery.sidecarsTaken delivery.sidecarsRefused.length)
      return delivery

end Variant

end BeaconBroadcast
