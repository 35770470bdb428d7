import BeaconBroadcast.Slot.Timing

/-!
# `BeaconBroadcast.Slot.Clock` — slot clocks

A slot clock knows how slots lie in time and what time it is. One that is moved by hand starts at
genesis and goes round at the end of time.
-/

namespace BeaconBroadcast

/-- A clock that reads `now` on slots of `duration` from `genesis`. -/
structure SlotClock where
  genesis : Millis
  duration : Millis
  now : Millis := genesis
deriving DecidableEq

namespace SlotClock

/-- A clock at genesis. -/
def atGenesis (genesis duration : Millis) : SlotClock := { genesis, duration }

/-- The clock moved on by `span`, round the end of time if need be. -/
def advance (c : SlotClock) (span : Millis) : SlotClock := { c with now := c.now + span }

/-- The clock put to `time`. -/
def set (c : SlotClock) (time : Millis) : SlotClock := { c with now := time }

/-- The clock's slots, cut into `intervals`. -/
def grid (c : SlotClock) (intervals : UInt64) : SlotGrid :=
  { genesis := c.genesis, duration := c.duration, intervals }

end SlotClock

end BeaconBroadcast
