import BeaconBroadcast.Proofs.Slot.Exactness

/-!
# `BeaconBroadcast.Proofs.Slot.Monotonicity` — no judgement is taken back

A moment comes later in its slot as the clock goes on, and the same moment comes later in an earlier slot. The
judgements of a slot follow that order whatever the slots are, also where they would start after the end of time: what
is late stays late, and what is in time was in time before.

## Contents
- **Moments.** `SlotTime.NoLater` compares moments by the clock and, the other way, by the slot.
- **Degrees.** `Lateness` in order, and the two offsets at which a broadcast comes to the next degree.
- **Arrivals.** `Tracker.ArrivesLate`: an arrival that goes on record as late, and when it does.
- **Order.** `Tracker.JudgesNoLater` compares two judgements; `Tracker.judges_in_order`.
-/

namespace BeaconBroadcast

/-! ## Moments -/

/-- A moment, as it is seen from a slot. -/
structure SlotTime where
  slot : Slot
  time : Millis
deriving DecidableEq

namespace SlotTime

/-- As far as slot and clock tell, the first moment comes no later in its slot than the second in its own: it is no
    later by the clock, and its slot is no earlier. Either of them may be the same. -/
structure NoLater (first second : SlotTime) : Prop where
  time : first.time ≤ second.time
  slot : second.slot ≤ first.slot

end SlotTime

namespace SlotGrid

variable {slot later : Slot} {first second : SlotTime}

/-- A later slot does not start earlier, and the end of time does not change that. -/
theorem start_mono (grid : SlotGrid) (h : slot ≤ later) :
    (grid.timing slot).start.toNat ≤ (grid.timing later).start.toNat := by
  have hslots : slot.toNat * grid.duration.toNat ≤ later.toNat * grid.duration.toNat :=
    Nat.mul_le_mul_right _ (UInt64.le_iff_toNat_le.mp h)
  rw [toNat_start, toNat_start]
  unfold startOf
  omega

/-- A slot that has begun at a moment has begun at every later one, no less time ago. -/
theorem offset?_mono (grid : SlotGrid) (h : first.NoLater second) {offset : Millis}
    (begun : (grid.timing first.slot).offset? first.time = some offset) :
    ∃ longer, (grid.timing second.slot).offset? second.time = some longer ∧ offset ≤ longer := by
  obtain ⟨hbegun, heq⟩ := SlotTiming.offset?_eq_some_iff.mp begun
  have hstart := grid.start_mono h.slot
  have htime := UInt64.le_iff_toNat_le.mp h.time
  obtain ⟨longer, hlonger, hlength⟩ := SlotTiming.exists_offset (Nat.le_trans hstart (Nat.le_trans hbegun htime))
  refine ⟨longer, hlonger, ?_⟩
  rw [UInt64.le_iff_toNat_le]
  omega

end SlotGrid

/-! ## Degrees -/

namespace Lateness

/-- Place in the order of lateness. -/
def rank : Lateness → Nat
  | onTime => 0
  | delayed => 1
  | tooLate => 2

instance : LE Lateness where
  le a b := a.rank ≤ b.rank

instance (a b : Lateness) : Decidable (a ≤ b) := inferInstanceAs (Decidable (a.rank ≤ b.rank))

/-- A degree of lateness is told by which of the two upper ones it comes to. -/
theorem le_of_reaches {a b : Lateness} (hdelayed : delayed ≤ a → delayed ≤ b)
    (htooLate : tooLate ≤ a → tooLate ≤ b) : a ≤ b := by
  cases a with
  | onTime => exact Nat.zero_le _
  | delayed => exact hdelayed (by decide)
  | tooLate => exact htooLate (by decide)

end Lateness

namespace SlotTiming

variable {timing : SlotTiming} {offset longer : Millis}

theorem tooLate_le_iff : .tooLate ≤ timing.lateness offset ↔ timing.attestationDue ≤ offset := by
  unfold lateness
  by_cases hdue : timing.attestationDue ≤ offset
  · rw [if_pos hdue]
    exact iff_of_true (by decide) hdue
  · rw [if_neg hdue]
    refine iff_of_false ?_ hdue
    split <;> decide

theorem delayed_le_iff : .delayed ≤ timing.lateness offset ↔ timing.attestationDue / 2 ≤ offset := by
  unfold lateness
  by_cases hdue : timing.attestationDue ≤ offset
  · rw [if_pos hdue]
    exact iff_of_true (by decide) (UInt64.le_trans timing.half_due_le hdue)
  · rw [if_neg hdue]
    by_cases hhalf : timing.attestationDue / 2 ≤ offset
    · rw [if_pos hhalf]
      exact iff_of_true (by decide) hhalf
    · rw [if_neg hhalf]
      exact iff_of_false (by decide) hhalf

end SlotTiming

/-- **A longer delay is no less late**, and it does not matter in which slots the delays are. -/
theorem SlotGrid.lateness_mono (grid : SlotGrid) (slot other : Slot) {offset longer : Millis}
    (h : offset ≤ longer) : (grid.timing slot).lateness offset ≤ (grid.timing other).lateness longer := by
  -- attestations are due equally far into every slot
  have hdue : (grid.timing slot).attestationDue = (grid.timing other).attestationDue := rfl
  refine Lateness.le_of_reaches ?_ ?_
  · intro hdelayed
    rw [SlotTiming.delayed_le_iff, hdue] at hdelayed
    exact SlotTiming.delayed_le_iff.mpr (UInt64.le_trans hdelayed h)
  · intro htooLate
    rw [SlotTiming.tooLate_le_iff, hdue] at htooLate
    exact SlotTiming.tooLate_le_iff.mpr (UInt64.le_trans htooLate h)

/-! ## Arrivals -/

namespace Tracker

variable {t u : Tracker} {block : SignedBlock} {time : Millis}

/-- The block goes on record as late. -/
def ArrivesLate (t : Tracker) (block : SignedBlock) (time : Millis) : Prop :=
  ∃ arrival, (t.arrive block time).2 = .recorded arrival ∧ arrival.timely = false

/-- What is late has arrived past the deadline, and what arrives past the deadline is late unless its root was on
    record before. -/
theorem ArrivesLate.offset? (h : t.ArrivesLate block time) :
    ∃ offset, (t.grid.timing block.slot).offset? time = some offset ∧ t.grid.dueAfter ≤ offset.toNat := by
  obtain ⟨arrival, hresult, hlate⟩ := h
  revert hresult
  unfold arrive
  split
  · exact nofun
  · rename_i offset hoffset
    split
    · exact nofun
    · intro hresult
      cases hresult
      refine ⟨offset, hoffset, ?_⟩
      rw [← Nat.not_lt, ← judge_timely_iff block.slot offset, hlate]
      exact nofun

theorem arrivesLate_of_offset? (new : block.root ∉ t.records) {offset : Millis}
    (begun : (t.grid.timing block.slot).offset? time = some offset) (h : t.grid.dueAfter ≤ offset.toNat) :
    t.ArrivesLate block time := by
  refine ⟨_, arrive_of_offset? new begun, ?_⟩
  rw [← Bool.not_eq_true, judge_timely_iff, Nat.not_lt]
  exact h

/-! ## Order -/

/-- What it means that one tracker judges a moment no later than another tracker judges another moment. -/
structure JudgesNoLater (t u : Tracker) (first second : SlotTime) : Prop where
  /-- A proposal that is in time at the second moment is so at the first. -/
  proposing : u.proposingInTime second.slot second.time → t.proposingInTime first.slot first.time
  /-- What comes too early at the second moment does so at the first. -/
  future : ∀ {block other : SignedBlock}, block.slot = first.slot → other.slot = second.slot →
    (u.arrive other second.time).2 = .future → (t.arrive block first.time).2 = .future
  /-- What is late at the first moment is late at the second, unless its root is on record there. -/
  late : ∀ {block other : SignedBlock}, block.slot = first.slot → other.slot = second.slot →
    other.root ∉ u.records → t.ArrivesLate block first.time → u.ArrivesLate other second.time
  /-- A broadcast after the start of the first slot is one after the start of the second, no less delayed and no
      less late. -/
  broadcast : ∀ {offset : Millis}, (t.grid.timing first.slot).offset? first.time = some offset →
    ∃ longer, (u.grid.timing second.slot).offset? second.time = some longer ∧ offset ≤ longer ∧
      (t.grid.timing first.slot).lateness offset ≤ (u.grid.timing second.slot).lateness longer
  /-- A longer delay is no less late. -/
  delay : ∀ {offset longer : Millis}, offset ≤ longer →
    (t.grid.timing first.slot).lateness offset ≤ (u.grid.timing second.slot).lateness longer

/-- **Judgements follow the order of moments**, on any slots and for any two trackers on them, whatever is on record.
    With the same slot on both sides the judgements are in the order of the clock, and at the same time in the opposite
    order of the slots. -/
theorem judges_in_order (same : t.grid = u.grid) {first second : SlotTime} (h : first.NoLater second) :
    t.JudgesNoLater u first second := by
  have htime := UInt64.le_iff_toNat_le.mp h.time
  have hstart := t.grid.start_mono h.slot
  refine ⟨?_, ?_, ?_, ?_, ?_⟩
  · intro hproposing
    rw [proposingInTime, SlotTiming.proposerInTime_iff, SlotGrid.toNat_proposerCutoff, ← same] at hproposing
    rw [proposingInTime, SlotTiming.proposerInTime_iff, SlotGrid.toNat_proposerCutoff]
    omega
  · intro block other hblock hother hfuture
    rw [arrive_future_iff, hother, ← same] at hfuture
    rw [arrive_future_iff, hblock]
    omega
  · intro block other hblock hother new hlate
    obtain ⟨offset, hoffset, hpast⟩ := hlate.offset?
    rw [hblock] at hoffset
    obtain ⟨longer, hlonger, hle⟩ := t.grid.offset?_mono h hoffset
    rw [same, ← hother] at hlonger
    rw [same] at hpast
    exact arrivesLate_of_offset? new hlonger (Nat.le_trans hpast (UInt64.le_iff_toNat_le.mp hle))
  · intro offset hoffset
    obtain ⟨longer, hlonger, hle⟩ := t.grid.offset?_mono h hoffset
    rw [← same]
    exact ⟨longer, hlonger, hle, t.grid.lateness_mono _ _ hle⟩
  · intro offset longer hle
    rw [← same]
    exact t.grid.lateness_mono _ _ hle

/-- A tracker on slots of two milliseconds, all but the first of which would start after the end of time. -/
def brief : Tracker := .ofSettings (0 - 2) 2 {}

/-- At the end of time a block of the third slot is late, and so a block of the second is; a proposal for the second
    slot is in time, and so one for the third is. -/
theorem judges_in_order_at_the_end :
    Word.top < brief.grid.startOf 1 ∧ brief.JudgesNoLater brief ⟨2, 0 - 1⟩ ⟨1, 0 - 1⟩ ∧
    brief.ArrivesLate (.ofMessage { slot := 2 } Bytes.zero) (0 - 1) ∧
    brief.ArrivesLate (.ofMessage { slot := 1 } Bytes.zero) (0 - 1) ∧
    brief.proposingInTime 1 (0 - 1) ∧ brief.proposingInTime 2 (0 - 1) := by
  have new (slot : Slot) : (SignedBlock.ofMessage { slot } Bytes.zero).root ∉ brief.records := by
    exact Std.ExtHashMap.not_mem_empty
  have horder : brief.JudgesNoLater brief ⟨2, 0 - 1⟩ ⟨1, 0 - 1⟩ :=
    judges_in_order rfl ⟨UInt64.le_refl _, by decide⟩
  have hbegun : (brief.grid.timing 2).offset? (0 - 1) = some 0 := by decide
  have hlate : brief.ArrivesLate (.ofMessage { slot := 2 } Bytes.zero) (0 - 1) :=
    arrivesLate_of_offset? (new 2) hbegun (by decide)
  have hproposing : brief.proposingInTime 1 (0 - 1) := by decide
  exact ⟨by decide, horder, hlate, horder.late rfl rfl (new 1) hlate, hproposing, horder.proposing hproposing⟩

end Tracker

end BeaconBroadcast
