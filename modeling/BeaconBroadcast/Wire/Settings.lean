import BeaconBroadcast.Settings
import BeaconBroadcast.Wire.Chain

/-!
# `BeaconBroadcast.Wire.Settings` — settings read from documents

Settings and timeliness settings are overlays: what a document leaves out has its default. A schedule
and a fork have no defaults.
-/

namespace BeaconBroadcast

open Json

namespace Fork

/-- The fields of a fork, in order. -/
def layout := Layout.need "milestone" Milestone.ofJson <| .need "epoch" Decoder.word .done

def ofJson : Decoder Fork := fun v => do
  let (milestone, epoch, ()) ← layout.decoder v
  return { milestone, epoch }

/-- A fork is made of what its fields are read as. -/
theorem ofJson_eq (v : Value) :
    ofJson v = (layout.decoder v).map fun (milestone, epoch, ()) => { milestone, epoch } := by
  show (layout.decoder v >>= fun fields => _) = _
  cases layout.decoder v <;> rfl

end Fork

namespace ForkSchedule

/-- The fields of a schedule, in order. -/
def layout :=
  Layout.need "slots_per_epoch" Decoder.word <| .need "forks" (Decoder.list Fork.ofJson) .done

def ofJson : Decoder ForkSchedule := fun v => do
  let (slotsPerEpoch, forks, ()) ← layout.decoder v
  return { slotsPerEpoch, forks }

/-- A schedule is made of what its fields are read as. -/
theorem ofJson_eq (v : Value) :
    ofJson v = (layout.decoder v).map fun (slotsPerEpoch, forks, ()) => { slotsPerEpoch, forks } := by
  show (layout.decoder v >>= fun fields => _) = _
  cases layout.decoder v <;> rfl

end ForkSchedule

namespace TimelinessSettings

/-- The fields of the timeliness settings, in order, over their defaults. -/
def layout :=
  let standard : TimelinessSettings := {}
  Layout.may "intervals_per_slot" Decoder.word standard.intervalsPerSlot <|
  .may "retention_slots" Decoder.word standard.retentionSlots <|
  .may "max_tracked_blocks" Decoder.word standard.maxTrackedBlocks .done

def ofJson : Decoder TimelinessSettings := fun v => do
  let (intervalsPerSlot, retentionSlots, maxTrackedBlocks, ()) ← layout.decoder v
  return { intervalsPerSlot, retentionSlots, maxTrackedBlocks }

/-- Timeliness settings are made of what their fields are read as. -/
theorem ofJson_eq (v : Value) :
    ofJson v = (layout.decoder v).map fun (intervalsPerSlot, retentionSlots, maxTrackedBlocks, ()) =>
      { intervalsPerSlot, retentionSlots, maxTrackedBlocks } := by
  show (layout.decoder v >>= fun fields => _) = _
  cases layout.decoder v <;> rfl

end TimelinessSettings

namespace Settings

/-- The fields of the settings, in order, over their defaults. -/
def layout :=
  let standard : Settings := {}
  Layout.may "fork_schedule" ForkSchedule.ofJson standard.forkSchedule <|
  .may "max_blobs_per_block" Decoder.word standard.maxBlobs <|
  .may "max_blobs_per_block_electra" Decoder.word standard.maxBlobsElectra <|
  .may "timeliness" TimelinessSettings.ofJson standard.timeliness .done

def ofJson : Decoder Settings := fun v => do
  let (forkSchedule, maxBlobs, maxBlobsElectra, timeliness, ()) ← layout.decoder v
  return { forkSchedule, maxBlobs, maxBlobsElectra, timeliness }

/-- Settings are made of what their fields are read as. -/
theorem ofJson_eq (v : Value) :
    ofJson v = (layout.decoder v).map fun (forkSchedule, maxBlobs, maxBlobsElectra, timeliness, ()) =>
      { forkSchedule, maxBlobs, maxBlobsElectra, timeliness } := by
  show (layout.decoder v >>= fun fields => _) = _
  cases layout.decoder v <;> rfl

end Settings

end BeaconBroadcast
