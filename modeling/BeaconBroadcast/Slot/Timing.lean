import BeaconBroadcast.Word
import BeaconBroadcast.Chain.Block

/-!
# `BeaconBroadcast.Slot.Timing` — where a moment falls within a slot

Slots of equal duration follow each other from genesis. Each slot is cut into equal intervals:
attestations are due after the first one, and a proposer is expected to be done in half that time.

## Contents
- **Grids.** `SlotGrid` holds genesis, duration and intervals; `SlotGrid.timing` derives one slot.
- **Moments.** `SlotTiming.offset?` is how far into the slot a moment lies, if the slot has begun.
- **Judgements.** `isLate`, `lateness` and `proposerInTime`.

A slot whose start would lie beyond the last representable moment starts at that moment, and a grid of
no intervals has one.
-/

namespace BeaconBroadcast

/-- How slots lie in time. -/
structure SlotGrid where
  genesis : Millis
  duration : Millis
  /-- Equal parts of a slot; attestations are due after the first. -/
  intervals : UInt64
deriving DecidableEq

/-- The deadlines of one slot. -/
structure SlotTiming where
  start : Millis
  /-- How far into the slot attestations are due. -/
  attestationDue : Millis
  /-- How far into the slot a proposer is still in time. -/
  proposerCutoff : Millis
deriving DecidableEq

/-- How a broadcast at some offset into the slot compares with the deadlines. -/
inductive Lateness
  /-- Before half the time to the attestation deadline. -/
  | onTime
  /-- Past half the time to the attestation deadline. -/
  | delayed
  /-- At or past the attestation deadline. -/
  | tooLate
deriving DecidableEq

/-- Intervals a slot has unless settings say otherwise. -/
def standardIntervals : UInt64 := 3

namespace SlotGrid

/-- The deadlines of `slot`. -/
def timing (grid : SlotGrid) (slot : Slot) : SlotTiming :=
  let due := grid.duration / max grid.intervals 1
  { start := Word.addSat grid.genesis (Word.mulSat slot grid.duration)
    attestationDue := due
    proposerCutoff := due / 2 }

end SlotGrid

namespace SlotTiming

/-- How far into the slot `time` lies; nothing if the slot has not begun. -/
def offset? (t : SlotTiming) (time : Millis) : Option Millis := Word.sub? time t.start

/-- Whether an arrival at this offset misses the attestation deadline. -/
def isLate (t : SlotTiming) (offset : Millis) : Bool := decide (t.attestationDue ≤ offset)

/-- How a broadcast at this offset is judged. -/
def lateness (t : SlotTiming) (offset : Millis) : Lateness :=
  if t.attestationDue ≤ offset then .tooLate
  else if t.attestationDue / 2 ≤ offset then .delayed
  else .onTime

/-- Whether a proposal made at `time` is in time: at or before the start of the slot always, later
    only before the cutoff. -/
def proposerInTime (t : SlotTiming) (time : Millis) : Bool :=
  match t.offset? time with
  | none => true
  | some offset => offset == 0 || decide (offset < t.proposerCutoff)

end SlotTiming

end BeaconBroadcast
