import BeaconBroadcast.Chain.ForkSchedule
import BeaconBroadcast.Slot.Timing

/-!
# `BeaconBroadcast.Settings` — what a broadcaster is set up with

## Contents
- **Settings.** `TimelinessSettings` and `Settings`, with their defaults.
- **Blob limits.** `Settings.blobLimit` by milestone.
- **Faults.** `Settings.fault?` is the first thing wrong: of the schedule, then of the timeliness.
-/

namespace BeaconBroadcast

/-- The number by which other subsystems know this one. -/
def subsystemId : UInt8 := 17

/-- Blobs a block may carry on `deneb`, unless settings say otherwise. -/
def standardBlobLimit : UInt64 := 6

/-- Blobs a block may carry on `electra`, unless settings say otherwise. -/
def standardBlobLimitElectra : UInt64 := 9

/-- How arrivals are judged and for how long they are kept. -/
structure TimelinessSettings where
  /-- Equal parts of a slot; attestations are due after the first. -/
  intervalsPerSlot : UInt64 := standardIntervals
  /-- How many slots back records survive pruning. -/
  retentionSlots : UInt64 := 64
  /-- How many roots are kept at most. -/
  maxTrackedBlocks : UInt64 := 1000
deriving DecidableEq

/-- What a broadcaster is set up with. -/
structure Settings where
  forkSchedule : ForkSchedule := .genesis .phase0
  /-- Blobs a block may carry on `deneb`. -/
  maxBlobs : UInt64 := standardBlobLimit
  /-- Blobs a block may carry on `electra`. -/
  maxBlobsElectra : UInt64 := standardBlobLimitElectra
  timeliness : TimelinessSettings := {}
deriving DecidableEq

/-- What is wrong with settings. -/
inductive SettingsFault
  | schedule (fault : ScheduleFault)
  | noIntervals
  /-- No root could be kept. -/
  | noCapacity
  /-- A fault found by someone else, in their words. -/
  | other (detail : String)
deriving DecidableEq

namespace SettingsFault

/-- What exactly is wrong, in words. -/
def detail : SettingsFault → String
  | schedule fault => fault.text
  | noIntervals => "intervals_per_slot must be positive"
  | noCapacity => "max_tracked_blocks must be positive"
  | other detail => detail

/-- The fault in words. -/
def text (fault : SettingsFault) : String := "Invalid configuration: " ++ fault.detail

end SettingsFault

/-- The first thing wrong with the timeliness settings. -/
def TimelinessSettings.fault? (s : TimelinessSettings) : Option SettingsFault :=
  if s.intervalsPerSlot = 0 then some .noIntervals
  else if s.maxTrackedBlocks = 0 then some .noCapacity
  else none

namespace Settings

/-- How many blobs a block of `milestone` may carry. -/
def blobLimit (s : Settings) (milestone : Milestone) : UInt64 :=
  if milestone = .electra then s.maxBlobsElectra
  else if milestone.carriesBlobs then s.maxBlobs
  else 0

/-- The first thing wrong with the settings. -/
def fault? (s : Settings) : Option SettingsFault :=
  (s.forkSchedule.fault?.map .schedule).or s.timeliness.fault?

end Settings

end BeaconBroadcast
