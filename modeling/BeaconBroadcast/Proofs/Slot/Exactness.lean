import BeaconBroadcast.Proofs.Arrival.History

/-!
# `BeaconBroadcast.Proofs.Slot.Exactness` — arrivals are classified by exact arithmetic

Slot times are computed in words that are held at the end of time. Held against the same computation in unbounded
numbers this shows at a single moment, the last one there is: a slot that would start beyond it starts at it.

## Contents
- **Unbounded.** `SlotGrid.startOf` and `SlotGrid.dueAfter`, without an end of time.
- **Deadlines.** The deadlines of a slot and the offset into it in natural numbers; `SlotGrid.timing_exact`.
- **Arrivals.** `Tracker.ClassifiesBy`: how a new root and a proposal are judged by a start and a deadline, and
  what is on record afterwards; `Tracker.Follows.find?_of_recorded`.
- **The end of time.** `Tracker.classifies_exactly`, with a slot that would start after the end of time.
-/

namespace BeaconBroadcast

/-! ## Unbounded -/

namespace SlotGrid

/-- When `slot` would start if there were no end of time. -/
def startOf (grid : SlotGrid) (slot : Slot) : Nat := grid.genesis.toNat + slot.toNat * grid.duration.toNat

/-- How far into a slot attestations are due. -/
def dueAfter (grid : SlotGrid) : Nat := grid.duration.toNat / max grid.intervals.toNat 1

/-! ## Deadlines -/

variable (grid : SlotGrid) (slot : Slot)

/-- A grid of no intervals has one. -/
theorem toNat_max_intervals : (max grid.intervals 1).toNat = max grid.intervals.toNat 1 :=
  Word.toNat_max grid.intervals 1

/-- The two operations that are held at the end of time come to one. -/
theorem toNat_start : (grid.timing slot).start.toNat = min (grid.startOf slot) Word.top := by
  simp only [timing, startOf, Word.toNat_addSat, Word.toNat_mulSat]
  omega

theorem toNat_attestationDue : (grid.timing slot).attestationDue.toNat = grid.dueAfter := by
  simp only [timing, dueAfter, UInt64.toNat_div, toNat_max_intervals]

theorem toNat_proposerCutoff : (grid.timing slot).proposerCutoff.toNat = grid.dueAfter / 2 := by
  have htwo : (2 : UInt64).toNat = 2 := rfl
  rw [← toNat_attestationDue grid slot, ← htwo, ← UInt64.toNat_div]
  rfl

end SlotGrid

namespace SlotTiming

variable {timing : SlotTiming} {time offset : Millis}

theorem offset?_eq_some_iff : timing.offset? time = some offset ↔
    timing.start.toNat ≤ time.toNat ∧ offset.toNat = time.toNat - timing.start.toNat :=
  Word.sub?_eq_some_iff

theorem offset?_eq_none_iff : timing.offset? time = none ↔ time.toNat < timing.start.toNat :=
  Word.sub?_eq_none_iff

/-- A slot that has begun has begun a certain time ago. -/
theorem exists_offset (h : timing.start.toNat ≤ time.toNat) :
    ∃ offset, timing.offset? time = some offset ∧ offset.toNat = time.toNat - timing.start.toNat := by
  cases hoffset : timing.offset? time with
  | none =>
      have hlt := offset?_eq_none_iff.mp hoffset
      omega
  | some offset => exact ⟨offset, rfl, (offset?_eq_some_iff.mp hoffset).2⟩

theorem isLate_iff : timing.isLate offset ↔ timing.attestationDue.toNat ≤ offset.toNat := by
  rw [isLate, decide_eq_true_iff, UInt64.le_iff_toNat_le]

/-- Half the time to a deadline is over before the deadline is. -/
theorem half_due_le (timing : SlotTiming) : timing.attestationDue / 2 ≤ timing.attestationDue := by
  have htwo : (2 : UInt64).toNat = 2 := rfl
  rw [UInt64.le_iff_toNat_le, UInt64.toNat_div, htwo]
  exact Nat.div_le_self _ _

/-- A proposal is in time up to the start of the slot, and then before the cutoff. -/
theorem proposerInTime_iff : timing.proposerInTime time ↔
    time.toNat ≤ timing.start.toNat ∨ time.toNat - timing.start.toNat < timing.proposerCutoff.toNat := by
  unfold proposerInTime
  cases hoffset : timing.offset? time with
  | none =>
      have hlt := offset?_eq_none_iff.mp hoffset
      exact iff_of_true rfl (Or.inl (Nat.le_of_lt hlt))
  | some offset =>
      obtain ⟨hbegun, heq⟩ := offset?_eq_some_iff.mp hoffset
      have hzero : offset = 0 ↔ offset.toNat = 0 := UInt64.toNat_inj.symm
      simp only [Bool.or_eq_true, beq_iff_eq, decide_eq_true_iff, UInt64.lt_iff_toNat_lt, hzero]
      omega

end SlotTiming

/-- What it means that the deadlines of a slot are computed without overflow: all divisions are by something, all
    values are those of unbounded numbers, and only the start of the slot is held at the end of time. -/
structure SlotGrid.TimedExactly (grid : SlotGrid) (slot : Slot) : Prop where
  divides : max grid.intervals 1 ≠ 0
  start : (grid.timing slot).start.toNat = min (grid.startOf slot) Word.top
  due : (grid.timing slot).attestationDue.toNat = grid.dueAfter
  cutoff : (grid.timing slot).proposerCutoff.toNat = grid.dueAfter / 2
  /-- The difference is taken only where it is one. -/
  offset : ∀ time offset, (grid.timing slot).offset? time = some offset →
    (grid.timing slot).start.toNat + offset.toNat = time.toNat

/-- **Deadlines are computed without overflow.** -/
theorem SlotGrid.timing_exact (grid : SlotGrid) (slot : Slot) : grid.TimedExactly slot := by
  refine ⟨?_, grid.toNat_start slot, grid.toNat_attestationDue slot, grid.toNat_proposerCutoff slot, ?_⟩
  · intro hzero
    have hnat := grid.toNat_max_intervals
    rw [hzero, UInt64.toNat_zero] at hnat
    omega
  · intro time offset hoffset
    obtain ⟨hbegun, heq⟩ := SlotTiming.offset?_eq_some_iff.mp hoffset
    omega

/-! ## Arrivals -/

/-- How the arrival of a block and a proposal for its slot are judged where the slot begins at `start` and
    attestations are due after `due`. -/
structure Tracker.ClassifiesBy (t : Tracker) (block : SignedBlock) (time : Millis) (start due : Nat) : Prop where
  future : (t.arrive block time).2 = .future ↔ time.toNat < start
  /-- An arrival that comes too early is not stored. -/
  untouched : time.toNat < start → (t.arrive block time).1 = t
  recorded : start ≤ time.toNat → ∃ arrival, (t.arrive block time).2 = .recorded arrival ∧
    arrival.slot = block.slot ∧ arrival.offset.toNat = time.toNat - start ∧
    (arrival.timely ↔ time.toNat - start < due)
  /-- What the caller hears is on record afterwards, unless nothing is ever kept. A tracker follows a roll after any
      calls. -/
  stored : start ≤ time.toNat → 0 < t.capacity.toNat → (∃ roll, t.Follows roll) →
    (t.arrive block time).1.find? block.root = (t.arrive block time).2.record?
  proposing : t.proposingInTime block.slot time ↔ time.toNat ≤ start ∨ time.toNat - start < due / 2

namespace Tracker

variable {t : Tracker} {block : SignedBlock} {time : Millis} {start later due : Nat}

/-- The arrival of a root that is not on record is judged by the deadlines of its slot. -/
theorem arrive_of_offset? {offset : Millis} (new : block.root ∉ t.records)
    (h : (t.grid.timing block.slot).offset? time = some offset) :
    (t.arrive block time).2 = .recorded (t.judge block.slot offset) := by
  simp only [arrive, h, if_neg new]

theorem arrive_of_early (h : (t.grid.timing block.slot).offset? time = none) :
    t.arrive block time = (t, .future) := by
  simp only [arrive, h]

/-- What is on record makes no difference to an arrival that comes too early. -/
theorem arrive_future_iff :
    (t.arrive block time).2 = .future ↔ time.toNat < (t.grid.timing block.slot).start.toNat := by
  rw [← SlotTiming.offset?_eq_none_iff]
  unfold arrive
  split
  · rename_i hoffset
    exact iff_of_true rfl hoffset
  · rename_i offset hoffset
    refine iff_of_false ?_ (by rw [hoffset]; exact nofun)
    split <;> exact nofun

theorem judge_timely_iff (slot : Slot) (offset : Millis) :
    (t.judge slot offset).timely ↔ offset.toNat < t.grid.dueAfter := by
  rw [← t.grid.toNat_attestationDue slot, judge, Bool.not_eq_true', ← Bool.not_eq_true, SlotTiming.isLate_iff]
  exact Nat.not_le

/-- What the caller hears of is on record afterwards, unless nothing is ever kept. -/
theorem Follows.find?_of_recorded {roll : Roll} {arrival : Arrival} (h : t.Follows roll)
    (hpos : 0 < t.capacity.toNat) (hrecorded : (t.arrive block time).2 = .recorded arrival) :
    (t.arrive block time).1.find? block.root = some arrival := by
  have hput : Moment.put? ⟨t, .arrive block time⟩ = some (block.root, arrival) := by
    simp only [Moment.put?, hrecorded, ArrivalResult.record?, Option.map_some]
  rw [h.capacity] at hpos
  exact (h.find?_of_put hpos hput).2

/-- **A root that is not on record is classified by the start of its slot as far as time goes.** -/
theorem classifiesBy_timing (new : block.root ∉ t.records) (time : Millis) :
    t.ClassifiesBy block time (min (t.grid.startOf block.slot) Word.top) t.grid.dueAfter := by
  rw [← t.grid.toNat_start block.slot]
  refine ⟨?_, ?_, ?_, ?_, ?_⟩
  · exact arrive_future_iff
  · intro hearly
    rw [arrive_of_early (SlotTiming.offset?_eq_none_iff.mpr hearly)]
  · intro hbegun
    obtain ⟨offset, hoffset, heq⟩ := SlotTiming.exists_offset hbegun
    refine ⟨t.judge block.slot offset, arrive_of_offset? new hoffset, rfl, heq, ?_⟩
    rw [← heq]
    exact judge_timely_iff block.slot offset
  · rintro hbegun hpos ⟨roll, hfollows⟩
    obtain ⟨offset, hoffset, -⟩ := SlotTiming.exists_offset hbegun
    have hrecorded := arrive_of_offset? new hoffset
    rw [hfollows.find?_of_recorded hpos hrecorded, hrecorded]
    rfl
  · rw [← t.grid.toNat_proposerCutoff block.slot]
    exact SlotTiming.proposerInTime_iff

/-- Before the start of a slot it makes no difference how much later it begins. -/
theorem ClassifiesBy.delayed (h : t.ClassifiesBy block time start due) (hearly : time.toNat < start)
    (hlater : start ≤ later) : t.ClassifiesBy block time later due := by
  have hbefore : time.toNat < later := Nat.lt_of_lt_of_le hearly hlater
  refine ⟨?_, ?_, ?_, ?_, ?_⟩
  · exact iff_of_true (h.future.mpr hearly) hbefore
  · exact fun _ => h.untouched hearly
  · intro hbegun
    omega
  · intro hbegun
    omega
  · exact iff_of_true (h.proposing.mpr (Or.inl (Nat.le_of_lt hearly))) (Or.inl (Nat.le_of_lt hbefore))

/-! ## The end of time -/

/-- **A root that is not on record is classified by exact arithmetic**, but for a slot that would start after the
    end of time: at the end of time it is taken to start just then. -/
theorem classifies_exactly (t : Tracker) (block : SignedBlock) (time : Millis) (new : block.root ∉ t.records) :
    (time.toNat < Word.top → t.ClassifiesBy block time (t.grid.startOf block.slot) t.grid.dueAfter) ∧
    (time.toNat = Word.top → t.grid.startOf block.slot ≤ Word.top →
      t.ClassifiesBy block time (t.grid.startOf block.slot) t.grid.dueAfter) ∧
    (time.toNat = Word.top → Word.top < t.grid.startOf block.slot →
      (∃ arrival, (t.arrive block time).2 = .recorded arrival ∧ arrival.slot = block.slot ∧ arrival.offset = 0 ∧
        (arrival.timely ↔ 0 < t.grid.dueAfter) ∧
        (0 < t.capacity.toNat → (∃ roll, t.Follows roll) →
          (t.arrive block time).1.find? block.root = some arrival)) ∧
      t.proposingInTime block.slot time) ∧
    t.grid.TimedExactly block.slot := by
  have hheld := classifiesBy_timing new time
  have hwithin (h : t.grid.startOf block.slot ≤ Word.top) :
      t.ClassifiesBy block time (t.grid.startOf block.slot) t.grid.dueAfter := by
    rwa [Nat.min_eq_left h] at hheld
  refine ⟨?_, fun _ => hwithin, ?_, t.grid.timing_exact block.slot⟩
  · intro hbefore
    rcases Nat.le_total (t.grid.startOf block.slot) Word.top with hstart | hstart
    · exact hwithin hstart
    · -- the slot begins at the end of time, and that has not come
      rw [Nat.min_eq_right hstart] at hheld
      exact hheld.delayed hbefore hstart
  · intro hend hstart
    rw [Nat.min_eq_right (Nat.le_of_lt hstart), ← hend] at hheld
    obtain ⟨arrival, hresult, hslot, hoffset, htimely⟩ := hheld.recorded (Nat.le_refl _)
    rw [Nat.sub_self] at hoffset htimely
    refine ⟨⟨arrival, hresult, hslot, ?_, htimely, ?_⟩, hheld.proposing.mpr (Or.inl (Nat.le_refl _))⟩
    · exact UInt64.toNat_inj.mp hoffset
    · rintro hpos ⟨roll, hfollows⟩
      exact hfollows.find?_of_recorded hpos hresult

end Tracker

/-- A tracker with slots so long that the second one would start after the end of time. -/
def Tracker.endless : Tracker := .ofSettings 8 (0 - 1) {}

/-- A block of the second slot that arrives at the end of time is taken to arrive just as its slot starts, and one
    millisecond before it comes too early. -/
theorem classifies_exactly_at_the_end :
    Word.top < Tracker.endless.grid.startOf 1 ∧
    Tracker.endless.ClassifiesBy (.ofMessage { slot := 1 } Bytes.zero) (0 - 2)
      (Tracker.endless.grid.startOf 1) Tracker.endless.grid.dueAfter ∧
    (∃ arrival, (Tracker.endless.arrive (.ofMessage { slot := 1 } Bytes.zero) (0 - 1)).2 = .recorded arrival ∧
      arrival.slot = 1 ∧ arrival.offset = 0 ∧ arrival.timely ∧
      (Tracker.endless.arrive (.ofMessage { slot := 1 } Bytes.zero) (0 - 1)).1.find?
        (SignedBlock.ofMessage { slot := 1 } Bytes.zero).root = some arrival) := by
  have new : (SignedBlock.ofMessage { slot := 1 } Bytes.zero).root ∉ Tracker.endless.records := by
    exact Std.ExtHashMap.not_mem_empty
  have hbeyond : Word.top < Tracker.endless.grid.startOf 1 := by decide
  obtain ⟨hbefore, -, -, -⟩ := Tracker.endless.classifies_exactly _ (0 - 2) new
  obtain ⟨-, -, hend, -⟩ := Tracker.endless.classifies_exactly _ (0 - 1) new
  obtain ⟨⟨arrival, hresult, hslot, hoffset, htimely, hstored⟩, -⟩ := hend rfl hbeyond
  have hfollows : ∃ roll, Tracker.endless.Follows roll := ⟨_, Tracker.follows_ofSettings 8 (0 - 1) {}⟩
  refine ⟨hbeyond, hbefore (by decide), arrival, hresult, hslot, hoffset, htimely.mpr (by decide), ?_⟩
  exact hstored (by decide) hfollows

end BeaconBroadcast
