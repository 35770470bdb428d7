import BeaconBroadcast.Chain.Block
import BeaconBroadcast.Chain.Milestone

/-!
# `BeaconBroadcast.Chain.ForkSchedule` — which milestone a slot belongs to

A schedule lists forks with the epochs at which they activate. A slot belongs to the last fork of the
leading run of forks that are active at its epoch.

## Contents
- **Schedules.** `Fork`, `ForkSchedule`, and the two ways to make one.
- **Look-up.** `ForkSchedule.milestoneAt`.
- **Faults.** `ScheduleFault` and `ForkSchedule.fault?`, the first thing wrong with a schedule.
-/

namespace BeaconBroadcast

/-- A fork and the epoch at which it activates. -/
structure Fork where
  milestone : Milestone
  epoch : Epoch
deriving DecidableEq

/-- The forks of a chain, in the order in which they activate. -/
structure ForkSchedule where
  slotsPerEpoch : UInt64 := 32
  forks : List Fork
deriving DecidableEq

namespace ForkSchedule

/-- The schedule of a chain that follows `milestone` from genesis. -/
def genesis (milestone : Milestone) : ForkSchedule := { forks := [⟨milestone, 0⟩] }

/-- The schedule with one more fork at its end. -/
def andThen (s : ForkSchedule) (milestone : Milestone) (epoch : Epoch) : ForkSchedule :=
  { s with forks := s.forks ++ [⟨milestone, epoch⟩] }

/-- The epoch of `slot`; an epoch has at least one slot. -/
def epochOf (s : ForkSchedule) (slot : Slot) : Epoch := slot / max s.slotsPerEpoch 1

/-- The milestone of `slot`. A slot before every fork follows the first rules there were. -/
def milestoneAt (s : ForkSchedule) (slot : Slot) : Milestone :=
  let active := s.forks.takeWhile fun fork => fork.epoch ≤ s.epochOf slot
  (active.getLast?.map (·.milestone)).getD .phase0

end ForkSchedule

/-- What is wrong with a schedule. -/
inductive ScheduleFault
  | noSlotsPerEpoch
  | noForks
  /-- The first fork does not activate at genesis. -/
  | lateGenesis
  /-- `later` stands behind `earlier` but does not follow it in milestone and epoch. -/
  | outOfOrder (later earlier : Milestone)
deriving DecidableEq

/-- The fault in words. -/
def ScheduleFault.text : ScheduleFault → String
  | noSlotsPerEpoch => "slots_per_epoch must be positive"
  | noForks => "fork schedule is empty"
  | lateGenesis => "first fork must activate at epoch 0"
  | outOfOrder later earlier =>
      "fork " ++ later.name ++ " must follow " ++ earlier.name ++ " in milestone and epoch order"

/-- The first pair of neighbours that is not in order. -/
def orderFault? : List Fork → Option ScheduleFault
  | first :: second :: rest =>
      if second.milestone ≤ first.milestone ∨ second.epoch < first.epoch then
        some (.outOfOrder second.milestone first.milestone)
      else orderFault? (second :: rest)
  | _ => none

/-- The first thing wrong with the schedule. -/
def ForkSchedule.fault? (s : ForkSchedule) : Option ScheduleFault :=
  if s.slotsPerEpoch = 0 then some .noSlotsPerEpoch
  else match s.forks with
    | [] => some .noForks
    | first :: _ => if first.epoch ≠ 0 then some .lateGenesis else orderFault? s.forks

end BeaconBroadcast
