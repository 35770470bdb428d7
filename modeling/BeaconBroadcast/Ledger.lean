import BeaconBroadcast.Publish.Delivery

/-!
# `BeaconBroadcast.Ledger` — counters of attempts, sidecars and arrivals

Every counter is a 64-bit word that goes round. An attempt that was never made counts as an attempt and
nowhere else.
-/

namespace BeaconBroadcast

/-- The counters. -/
structure Ledger where
  publishAttempts : UInt64 := 0
  blocksPublished : UInt64 := 0
  partialPublishes : UInt64 := 0
  importFailures : UInt64 := 0
  validationFailures : UInt64 := 0
  sidecarsPublished : UInt64 := 0
  sidecarFailures : UInt64 := 0
  timelyBlocks : UInt64 := 0
  lateBlocks : UInt64 := 0
  /-- Arrivals before the block's slot had begun. -/
  futureArrivals : UInt64 := 0
deriving DecidableEq

namespace Ledger

/-- Counts an attempt, and its outcome where there is a counter for it. -/
def countAttempt (l : Ledger) (outcome : Outcome) : Ledger :=
  let l := { l with publishAttempts := l.publishAttempts + 1 }
  match outcome with
  | .published => { l with blocksPublished := l.blocksPublished + 1 }
  | .partiallyPublished => { l with partialPublishes := l.partialPublishes + 1 }
  | .importFailed => { l with importFailures := l.importFailures + 1 }
  | .validationFailed => { l with validationFailures := l.validationFailures + 1 }
  | .notAttempted => l

/-- Counts the sidecars of one broadcast. -/
def countSidecars (l : Ledger) (taken refused : Nat) : Ledger :=
  { l with
    sidecarsPublished := l.sidecarsPublished + UInt64.ofNat taken
    sidecarFailures := l.sidecarFailures + UInt64.ofNat refused }

/-- Counts an arrival that was judged. -/
def countArrival (l : Ledger) (timely : Bool) : Ledger :=
  if timely then { l with timelyBlocks := l.timelyBlocks + 1 }
  else { l with lateBlocks := l.lateBlocks + 1 }

/-- Counts an arrival that was too early to be judged. -/
def countFuture (l : Ledger) : Ledger := { l with futureArrivals := l.futureArrivals + 1 }

/-- The share of judged arrivals that were late; zero when there were none. -/
def lateRatio (l : Ledger) : Float :=
  let total := l.lateBlocks + l.timelyBlocks
  if total = 0 then 0 else l.lateBlocks.toFloat / total.toFloat

end Ledger

end BeaconBroadcast
