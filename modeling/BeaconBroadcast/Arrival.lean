import Std.Data.ExtHashMap
import BeaconBroadcast.Ledger
import BeaconBroadcast.Notice
import BeaconBroadcast.Slot.Timing

/-!
# `BeaconBroadcast.Arrival` — when blocks arrived

The tracker judges each block root once: whether the block arrived before the attestation deadline of
its slot. The first arrival after the start of the slot counts, later ones change nothing, and an
arrival before the start is not judged at all.

## Contents
- **Records.** `Arrival` is what is kept of a root, `ArrivalResult` what a caller hears.
- **Trackers.** `Tracker` keeps a record for each root beside the order in which the roots came.
- **Writing.** `Tracker.arrive` inserts and then drops the oldest roots beyond the capacity;
  `Tracker.prune` drops the records of slots that lie too far back.
- **Reading.** `find?`, `isTimely?`, `isLate`, `size`, `isEmpty` and `proposingInTime`.
- **Telling.** What the log and the ledger hear of an arrival.
-/

namespace BeaconBroadcast

/-- What is kept of a block's arrival. -/
structure Arrival where
  slot : Slot
  /-- Whether the block arrived before the attestation deadline. -/
  timely : Bool
  /-- How far into its slot the block arrived. -/
  offset : Millis
deriving DecidableEq

/-- What came of an arrival. -/
inductive ArrivalResult
  /-- It is now on record. -/
  | recorded (arrival : Arrival)
  /-- The root was on record before; nothing changed. -/
  | alreadyRecorded
  /-- The block's slot had not begun; nothing changed. -/
  | future
deriving DecidableEq

/-- A bounded record of arrivals. -/
structure Tracker where
  /-- The slots that arrivals are judged by. -/
  grid : SlotGrid
  /-- How many slots back records survive pruning. -/
  retention : UInt64
  /-- How many roots are kept at most. -/
  capacity : UInt64
  records : Std.ExtHashMap Root Arrival := ∅
  /-- The roots on record, oldest first. -/
  order : List Root := []

namespace Tracker

/-- A tracker with nothing on record, on slots of `duration` from `genesis`. -/
def ofSettings (genesis duration : Millis) (settings : TimelinessSettings) : Tracker where
  grid := { genesis, duration, intervals := settings.intervalsPerSlot }
  retention := settings.retentionSlots
  capacity := settings.maxTrackedBlocks

/-! ## Writing -/

/-- Drops the oldest roots as long as more than `capacity` are on record. -/
def evict (capacity : Nat) (records : Std.ExtHashMap Root Arrival) :
    List Root → Std.ExtHashMap Root Arrival × List Root
  | [] => (records, [])
  | oldest :: order =>
      if capacity < records.size then evict capacity (records.erase oldest) order
      else (records, oldest :: order)

/-- How an arrival `offset` into the slot is judged. -/
def judge (t : Tracker) (slot : Slot) (offset : Millis) : Arrival :=
  { slot, timely := !(t.grid.timing slot).isLate offset, offset }

/-- Puts a root on record that is not there yet. -/
def insert (t : Tracker) (root : Root) (arrival : Arrival) : Tracker :=
  let (records, order) :=
    evict t.capacity.toNat (t.records.insert root arrival) (t.order ++ [root])
  { t with records, order }

/-- Takes note of the arrival of `block` at `time`. -/
def arrive (t : Tracker) (block : SignedBlock) (time : Millis) : Tracker × ArrivalResult :=
  match (t.grid.timing block.slot).offset? time with
  | none => (t, .future)
  | some offset =>
      if block.root ∈ t.records then (t, .alreadyRecorded)
      else
        let arrival := t.judge block.slot offset
        (t.insert block.root arrival, .recorded arrival)

/-- The first slot whose records survive pruning at `current`. -/
def horizon (t : Tracker) (current : Slot) : Slot := Word.subSat current t.retention

/-- Drops the records of slots too far behind `current`. The second part is their number. -/
def prune (t : Tracker) (current : Slot) : Tracker × Nat :=
  let records := t.records.filter fun _ arrival => t.horizon current ≤ arrival.slot
  ({ t with records, order := t.order.filter fun root => root ∈ records },
    t.records.size - records.size)

/-! ## Reading -/

/-- The record of `root`. -/
def find? (t : Tracker) (root : Root) : Option Arrival := t.records[root]?

/-- Whether `root` arrived in time; nothing if it is not on record. -/
def isTimely? (t : Tracker) (root : Root) : Option Bool := (t.find? root).map (·.timely)

/-- Whether `root` is on record as late. -/
def isLate (t : Tracker) (root : Root) : Bool := t.isTimely? root == some false

/-- How many roots are on record. -/
def size (t : Tracker) : Nat := t.records.size

def isEmpty (t : Tracker) : Bool := t.records.isEmpty

/-- Whether a block for `slot` proposed at `time` is still in time. -/
def proposingInTime (t : Tracker) (slot : Slot) (time : Millis) : Bool :=
  (t.grid.timing slot).proposerInTime time

end Tracker

/-! ## Telling -/

/-- What the log hears of the arrival of `block`. -/
def ArrivalResult.notice? (block : SignedBlock) : ArrivalResult → Option Notice
  | recorded arrival => some (.arrived block.root arrival.slot arrival.offset arrival.timely)
  | alreadyRecorded => none
  | future => some (.arrivedEarly block.root block.slot)

/-- The ledger after an arrival. -/
def Ledger.observeArrival (l : Ledger) : ArrivalResult → Ledger
  | .recorded arrival => l.countArrival arrival.timely
  | .alreadyRecorded => l
  | .future => l.countFuture

end BeaconBroadcast
