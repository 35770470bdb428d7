import BeaconBroadcast.Proofs.Arrival.History
import BeaconBroadcast.Proofs.Notice.Lines
import BeaconBroadcast.Proofs.Publish.Remarks
import BeaconBroadcast.Proofs.Slot.Exactness

/-!
# `BeaconBroadcast.Proofs.Slot.Judgements` — three judgements of one moment

A moment in a slot is judged in three places: a tracker says whether an arrival is timely, a pipeline remarks on a
broadcast that is late, and a proposer asks whether it is still in time. Each works out its own deadlines. They
agree, for any slots whatever, as long as they look at the same ones.

## Contents
- **Cases.** `Tracker.Judged`: the remark and the arrival that go together, in the order of a slot.
- **Judgements.** `linesIn` is what the log reads; `Tracker.JudgesAs` says what it means that the three agree.
- **Agreement.** `System.Run.judgements_agree`, with a broadcast that is delayed.
-/

namespace BeaconBroadcast

/-! ## Cases -/

variable {t : Tracker} {block : SignedBlock} {now : Millis}

/-- What the log hears of a broadcast that is over at some moment, and what comes of an arrival at that moment. -/
inductive Tracker.Judged (t : Tracker) (block : SignedBlock) (now : Millis) :
    Option Notice → ArrivalResult → Prop
  | early (before : (t.grid.timing block.slot).offset? now = none) : Judged t block now none .future
  | onTime {offset : Millis} (begun : (t.grid.timing block.slot).offset? now = some offset)
      (within : offset < (t.grid.timing block.slot).attestationDue / 2) :
      Judged t block now none (.recorded { slot := block.slot, timely := true, offset })
  | delayed {offset : Millis} (begun : (t.grid.timing block.slot).offset? now = some offset)
      (past : (t.grid.timing block.slot).attestationDue / 2 ≤ offset)
      (within : offset < (t.grid.timing block.slot).attestationDue) :
      Judged t block now (some (.broadcastDelayed block.root block.slot offset))
        (.recorded { slot := block.slot, timely := true, offset })
  | late {offset : Millis} (begun : (t.grid.timing block.slot).offset? now = some offset)
      (past : (t.grid.timing block.slot).attestationDue ≤ offset) :
      Judged t block now (some (.broadcastTooLate block.root block.slot offset))
        (.recorded { slot := block.slot, timely := false, offset })

/-- **Remark and arrival always go together in one of these ways.** -/
theorem Tracker.judged (new : block.root ∉ t.records) (now : Millis) :
    t.Judged block now (t.grid.remark? block now) (t.arrive block now).2 := by
  cases hoffset : (t.grid.timing block.slot).offset? now with
  | none =>
      rw [arrive_of_early hoffset, SlotGrid.remark?, hoffset]
      exact .early hoffset
  | some offset =>
      rw [arrive_of_offset? new hoffset, SlotGrid.remark?, hoffset, Option.bind_some, latenessNotice?,
        SlotTiming.lateness, judge, SlotTiming.isLate]
      by_cases hdue : (t.grid.timing block.slot).attestationDue ≤ offset
      · rw [if_pos hdue, decide_eq_true hdue]
        exact .late hoffset hdue
      · rw [if_neg hdue, decide_eq_false hdue]
        by_cases hhalf : (t.grid.timing block.slot).attestationDue / 2 ≤ offset
        · rw [if_pos hhalf]
          exact .delayed hoffset hhalf (UInt64.not_le.mp hdue)
        · rw [if_neg hhalf]
          exact .onTime hoffset (UInt64.not_le.mp hhalf)

/-- A slot that has begun a certain time ago has just begun if that time is none. -/
theorem SlotTiming.le_start_iff {timing : SlotTiming} {time offset : Millis}
    (h : timing.offset? time = some offset) : time ≤ timing.start ↔ offset = 0 := by
  obtain ⟨hbegun, heq⟩ := offset?_eq_some_iff.mp h
  have hzero : offset = 0 ↔ offset.toNat = 0 := UInt64.toNat_inj.symm
  rw [UInt64.le_iff_toNat_le, hzero]
  omega

theorem SlotTiming.lt_start {timing : SlotTiming} {time : Millis} (h : timing.offset? time = none) :
    time < timing.start := UInt64.lt_iff_toNat_lt.mpr (offset?_eq_none_iff.mp h)

namespace Tracker.Judged

variable {remark? : Option Notice} {result : ArrivalResult}

theorem tooLate_iff (h : t.Judged block now remark? result) :
    (∃ offset, remark? = some (.broadcastTooLate block.root block.slot offset)) ↔
      ∃ arrival, result = .recorded arrival ∧ arrival.timely = false := by
  cases h with
  | early before => simp
  | onTime begun within => simp
  | delayed begun past within => simp
  | late begun past => exact iff_of_true ⟨_, rfl⟩ ⟨_, rfl, rfl⟩

theorem delayed_iff (h : t.Judged block now remark? result) :
    (∃ offset, remark? = some (.broadcastDelayed block.root block.slot offset)) ↔
      ∃ arrival, result = .recorded arrival ∧ arrival.timely = true ∧
        (t.grid.timing block.slot).attestationDue / 2 ≤ arrival.offset := by
  cases h with
  | early before => simp
  | onTime begun within => simpa using within
  | delayed begun past within => exact iff_of_true ⟨_, rfl⟩ ⟨_, rfl, rfl, past⟩
  | late begun past => simp

theorem silent_iff (h : t.Judged block now remark? result) :
    remark? = none ↔ result = .future ∨ ∃ arrival, result = .recorded arrival ∧
      arrival.offset < (t.grid.timing block.slot).attestationDue ∧
      arrival.offset < (t.grid.timing block.slot).attestationDue / 2 := by
  cases h with
  | early before => exact iff_of_true rfl (Or.inl rfl)
  | onTime begun within =>
      have hdue := UInt64.lt_of_lt_of_le within (t.grid.timing block.slot).half_due_le
      exact iff_of_true rfl (Or.inr ⟨_, rfl, hdue, within⟩)
  | delayed begun past within => simpa using fun _ => past
  | late begun past => simpa using fun h => absurd past (UInt64.not_le.mpr h)

/-- A remark tells the offset on record. -/
theorem millis (h : t.Judged block now remark? result) {notice : Notice} {offset : Millis}
    (hremark : remark? = some notice) (hdelay : notice.delay? = some offset) :
    ∃ arrival, result = .recorded arrival ∧ arrival.offset = offset := by
  cases h with
  | early before => cases hremark
  | onTime begun within => cases hremark
  | delayed begun past within => cases hremark; cases hdelay; exact ⟨_, rfl, rfl⟩
  | late begun past => cases hremark; cases hdelay; exact ⟨_, rfl, rfl⟩

/-- A remark is written as a line about the block. -/
theorem line (h : t.Judged block now remark? result) {notice : Notice} {offset : Millis}
    (hremark : remark? = some notice) (hdelay : notice.delay? = some offset) :
    notice.line = .tooLate block.root block.slot offset ∨ notice.line = .delayed block.root block.slot offset := by
  cases h with
  | early before => cases hremark
  | onTime begun within => cases hremark
  | delayed begun past within => cases hremark; cases hdelay; exact Or.inr (Notice.line_delayed ..)
  | late begun past => cases hremark; cases hdelay; exact Or.inl (Notice.line_tooLate ..)

/-- A proposal is in time up to the start of the slot, and then as long as there is nothing to remark. -/
theorem proposing_iff (h : t.Judged block now remark? result) :
    t.proposingInTime block.slot now ↔ now ≤ (t.grid.timing block.slot).start ∨ remark? = none := by
  rw [proposingInTime, SlotTiming.proposerInTime]
  -- past half the time to the deadline only a proposal at the very start is in time
  have hlater {offset : Millis} (begun : (t.grid.timing block.slot).offset? now = some offset)
      (past : (t.grid.timing block.slot).attestationDue / 2 ≤ offset) :
      (offset == 0 || decide (offset < (t.grid.timing block.slot).proposerCutoff)) ↔
        now ≤ (t.grid.timing block.slot).start := by
    have hcutoff : ¬ offset < (t.grid.timing block.slot).proposerCutoff := UInt64.not_lt.mpr past
    rw [SlotTiming.le_start_iff begun, decide_eq_false hcutoff, Bool.or_false, beq_iff_eq]
  cases h with
  | early before => rw [before]; exact iff_of_true rfl (Or.inr rfl)
  | @onTime offset begun within =>
      have hcutoff : offset < (t.grid.timing block.slot).proposerCutoff := within
      rw [begun]
      exact iff_of_true (by simp [hcutoff]) (Or.inr rfl)
  | delayed begun past within => rw [begun]; simpa using hlater begun past
  | late begun past =>
      rw [begun]
      simpa using hlater begun (UInt64.le_trans (t.grid.timing block.slot).half_due_le past)

/-- An arrival after the start of the slot of which there is nothing to remark is timely. -/
theorem timely_of_none (h : t.Judged block now none result)
    (after : (t.grid.timing block.slot).start < now) :
    ∃ arrival, result = .recorded arrival ∧ arrival.timely = true := by
  cases h with
  | early before => exact absurd (SlotTiming.lt_start before) (UInt64.not_lt.mpr (UInt64.le_of_lt after))
  | onTime begun within => exact ⟨_, rfl, rfl⟩

end Tracker.Judged

/-! ## Judgements -/

/-- The lines of the log, oldest first. -/
def linesIn (past : List Event) : List LogLine := (noticesIn past).map Notice.line

/-- No line of the log tells of a late broadcast. -/
def TellsNoDelay (past : List Event) : Prop := ∀ line ∈ linesIn past, ∀ offset, ¬ line.TellsDelay offset

/-- The three judgements of `now` agree: the one in the log of a past, the one of a tracker and the one of a
    proposer. -/
structure Tracker.JudgesAs (t : Tracker) (block : SignedBlock) (now : Millis) (past : List Event) : Prop where
  /-- The error is logged that the broadcast was too late exactly if the arrival is late. -/
  tooLate : (∃ offset, .tooLate block.root block.slot offset ∈ linesIn past) ↔
    ∃ arrival, (t.arrive block now).2 = .recorded arrival ∧ arrival.timely = false
  /-- The warning is logged that it was delayed exactly if the arrival is timely and past half the time to the
      deadline. -/
  delayed : (∃ offset, .delayed block.root block.slot offset ∈ linesIn past) ↔
    ∃ arrival, (t.arrive block now).2 = .recorded arrival ∧ arrival.timely = true ∧
      (t.grid.timing block.slot).attestationDue / 2 ≤ arrival.offset
  /-- Neither is logged exactly if the arrival is too early to be judged, or before both thresholds. -/
  silent : TellsNoDelay past ↔
    (t.arrive block now).2 = .future ∨ ∃ arrival, (t.arrive block now).2 = .recorded arrival ∧
      arrival.offset < (t.grid.timing block.slot).attestationDue ∧
      arrival.offset < (t.grid.timing block.slot).attestationDue / 2
  /-- A line on a late broadcast is about the block, and the milliseconds in it are the offset on record. -/
  millis : ∀ line ∈ linesIn past, ∀ offset, line.TellsDelay offset →
    (line = .tooLate block.root block.slot offset ∨ line = .delayed block.root block.slot offset) ∧
    ∃ arrival, (t.arrive block now).2 = .recorded arrival ∧ arrival.offset = offset
  /-- There is no more than one such line. -/
  once : ((noticesIn past).filter (·.delay?.isSome)).length ≤ 1
  /-- A proposal is in time exactly up to the start of the slot, or as long as neither would be logged. -/
  proposing : t.proposingInTime block.slot now ↔ now ≤ (t.grid.timing block.slot).start ∨ TellsNoDelay past
  /-- A proposal that is in time after the start of the slot is timely. -/
  timely : t.proposingInTime block.slot now → (t.grid.timing block.slot).start < now →
    ∃ arrival, (t.arrive block now).2 = .recorded arrival ∧ arrival.timely = true

/-- A notice is written as a line on a late broadcast exactly if it remarks on one. -/
theorem Notice.tellsDelay_line_iff {notice : Notice} {offset : Millis} :
    notice.line.TellsDelay offset ↔ notice.delay? = some offset := by
  constructor
  · intro h
    generalize hline : notice.line = line at h
    cases h with
    | tooLate root slot offset =>
        rw [line_eq_tooLate_iff.mp hline]
        rfl
    | delayed root slot offset =>
        rw [line_eq_delayed_iff.mp hline]
        rfl
  · intro h
    cases notice with
    | broadcastTooLate root slot offset =>
        cases h
        rw [line_tooLate]
        exact .tooLate root slot offset
    | broadcastDelayed root slot offset =>
        cases h
        rw [line_delayed]
        exact .delayed root slot offset
    | _ => cases h

namespace RemarksAt

variable {past : List Event} {grid : SlotGrid}

/-- The error is logged exactly if it is due. -/
theorem tooLate_iff (h : RemarksAt past grid block now) (root : Root) (slot : Slot) (offset : Millis) :
    .tooLate root slot offset ∈ linesIn past ↔ grid.remark? block now = some (.broadcastTooLate root slot offset) := by
  rw [← h.mem_iff rfl, linesIn, List.mem_map]
  simp only [Notice.line_eq_tooLate_iff, exists_eq_right]

/-- The warning is logged exactly if it is due. -/
theorem delayed_iff (h : RemarksAt past grid block now) (root : Root) (slot : Slot) (offset : Millis) :
    .delayed root slot offset ∈ linesIn past ↔ grid.remark? block now = some (.broadcastDelayed root slot offset) := by
  rw [← h.mem_iff rfl, linesIn, List.mem_map]
  simp only [Notice.line_eq_delayed_iff, exists_eq_right]

/-- Whatever is logged on a late broadcast is the remark that is due. -/
theorem exists_remark (h : RemarksAt past grid block now) {line : LogLine} (hline : line ∈ linesIn past)
    {offset : Millis} (tells : line.TellsDelay offset) :
    ∃ notice, grid.remark? block now = some notice ∧ notice.line = line ∧ notice.delay? = some offset := by
  obtain ⟨notice, hnotice, rfl⟩ := List.mem_map.mp hline
  have hdelay := Notice.tellsDelay_line_iff.mp tells
  exact ⟨notice, (h.mem_iff (by rw [hdelay]; rfl)).mp hnotice, rfl, hdelay⟩

/-- The log tells of no late broadcast exactly if there is nothing to remark. -/
theorem silent_iff (h : RemarksAt past grid block now) : TellsNoDelay past ↔ grid.remark? block now = none := by
  constructor
  · intro hsilent
    cases hremark : grid.remark? block now with
    | none => rfl
    | some notice =>
        have hdelay := SlotGrid.delay?_of_remark? hremark
        obtain ⟨offset, hoffset⟩ := Option.isSome_iff_exists.mp hdelay
        have hlogged : notice.line ∈ linesIn past := List.mem_map_of_mem ((h.mem_iff hdelay).mpr hremark)
        exact absurd (Notice.tellsDelay_line_iff.mpr hoffset) (hsilent _ hlogged offset)
  · intro hnone line hline offset tells
    obtain ⟨notice, hremark, -⟩ := h.exists_remark hline tells
    cases hnone.symm.trans hremark

/-- **Where the log holds the remark that is due at a moment, it judges the moment as a tracker and a proposer do**
    that look at the same slots. -/
theorem judgesAs (h : RemarksAt past t.grid block now) (new : block.root ∉ t.records) :
    t.JudgesAs block now past := by
  have hjudged := t.judged new now
  refine ⟨?_, ?_, ?_, ?_, ?_, ?_, ?_⟩
  · rw [← hjudged.tooLate_iff]
    exact exists_congr fun _ => h.tooLate_iff _ _ _
  · rw [← hjudged.delayed_iff]
    exact exists_congr fun _ => h.delayed_iff _ _ _
  · rw [h.silent_iff]
    exact hjudged.silent_iff
  · intro line hline offset tells
    obtain ⟨notice, hremark, rfl, hdelay⟩ := h.exists_remark hline tells
    exact ⟨hjudged.line hremark hdelay, hjudged.millis hremark hdelay⟩
  · rw [h.remarks]
    exact Option.length_toList_le
  · rw [h.silent_iff]
    exact hjudged.proposing_iff
  · intro proposing after
    rcases hjudged.proposing_iff.mp proposing with hstart | hnone
    · exact absurd after (UInt64.not_lt.mpr hstart)
    · rw [hnone] at hjudged
      exact hjudged.timely_of_none after

end RemarksAt

/-! ## Agreement -/

namespace Tracker

/-- A tracker stays on its slots. -/
theorem serve_grid (t : Tracker) (call : TrackerCall) : (t.serve call).1.grid = t.grid := by
  cases call with
  | arrive block time =>
      show (t.arrive block time).1.grid = t.grid
      unfold arrive
      split
      · rfl
      · split
        · rfl
        · rfl
  | _ => rfl

theorem after_grid (t : Tracker) (calls : List TrackerCall) : (t.after calls).grid = t.grid := by
  induction calls generalizing t with
  | nil => rfl
  | cons call calls ih =>
      rw [after_cons, ih]
      exact t.serve_grid call

end Tracker

/-- The request goes to a pipeline with a slot clock, on the slots of the tracker. -/
def Publisher.SharesSlots (publisher : Publisher) (r : Request) (t : Tracker) : Prop :=
  ∃ p, publisher.pipeline? r = some p ∧ p.grid? = some t.grid

variable {calls : List (Publisher × Request)} {others : Nat → Collaborators} {counted : Bool}
  {publisher : Publisher} {r : Request}

/-- **The three judgements agree.** An attempt that came to a publication has read the slot clock once, and what the
    log says of its delay then agrees with what comes of an arrival at the moment that was read and with whether a
    proposal is in time, for every tracker on the same slots that has not got the root yet. A selector and a tracker
    that were set up from the same settings and slot clock are on the same slots. -/
theorem System.Run.judgements_agree :
    (∀ {s : System}, Run others counted (.start calls) s → ∀ {i : Nat} {a : Attempt}, s.attempts[i]? = some a →
      calls[i]? = some (publisher, r) → ∀ {publication : Publication}, a.cameTo? = some (.ok publication) →
      ∀ {t : Tracker}, publisher.SharesSlots r t → r.block.root ∉ t.records →
      ∃ now, (∀ other, Event.answered .readClock other ∈ a.past ↔ other = now) ∧
        t.JudgesAs r.block now a.past) ∧
    ∀ {setup : Collaborators} {settings : Settings} {clock : SlotClock} {ledger : Bool} {before : List Event}
      {selector : Selector},
      ((Selector.ofSettings settings (some clock) ledger).complete setup before).1 = .returned (.ok selector) →
      ∀ (r : Request) (queries : List TrackerCall), (Publisher.selector selector).SharesSlots r
        ((Tracker.ofSettings clock.genesis clock.duration settings.timeliness).after queries) := by
  refine ⟨?_, ?_⟩
  · rintro s run i a here called publication came t ⟨p, takes, clocked⟩ new
    obtain ⟨now, hremarks⟩ := run.remarksAt here called takes clocked came
    refine ⟨now, ?_, hremarks.judgesAs new⟩
    intro other
    refine ⟨hremarks.once other, ?_⟩
    rintro rfl
    exact hremarks.reads
  · intro setup settings clock ledger before selector built r queries
    obtain ⟨valid, rfl⟩ := Selector.eq_of_complete_ofSettings built
    refine ⟨_, Settings.pipeline?_selector valid (some clock) ledger r.block, ?_⟩
    rw [Tracker.after_grid]
    rfl

/-- A broadcast at the start of a slot of which half the time to the attestation deadline is none: it is remarked on
    as delayed, and yet timely and a proposal in time. -/
theorem judgements_agree_when_short :
    ∃ (selector : Selector) (s : System) (a : Attempt),
      ((Selector.ofSettings {} (some (.atGenesis 0 3)) false).complete (.willing .standard) []).1
        = .returned (.ok selector) ∧
      System.Run (fun _ => .willing .standard) false (.start [(.selector selector, .blank)]) s ∧
      s.attempts[0]? = some a ∧ (Tracker.ofSettings 0 3 {}).JudgesAs Request.blank.block 0 a.past ∧
      (∃ offset, .delayed Request.blank.block.root Request.blank.block.slot offset ∈ linesIn a.past) ∧
      (Tracker.ofSettings 0 3 {}).proposingInTime Request.blank.block.slot 0 := by
  let selector := Settings.selector {} (some (.atGenesis 0 3)) false
  have built : ((Selector.ofSettings {} (some (.atGenesis 0 3)) false).complete (.willing .standard) []).1
      = .returned (.ok selector) := rfl
  have start : System.Run (fun _ => .willing .standard) false (.start [(.selector selector, .blank)]) _ := .refl _
  obtain ⟨s, run, here⟩ := start.thenComplete 0 rfl rfl
  have new : Request.blank.block.root ∉ (Tracker.ofSettings 0 3 {}).records := by
    exact Std.ExtHashMap.not_mem_empty
  obtain ⟨hjudged, hshares⟩ := @System.Run.judgements_agree [(.selector selector, .blank)]
    (fun _ => .willing .standard) false (.selector selector) .blank
  obtain ⟨now, hclock, hjudges⟩ := hjudged run here rfl rfl (hshares built .blank []) new
  -- the clock of these collaborators stands at zero
  have hnow : now = 0 := by
    obtain ⟨before, after, hsplit⟩ := List.append_of_mem ((hclock now).mpr rfl)
    cases Program.complete_faithful _ faithful_nil before _ after hsplit
    rfl
  subst hnow
  refine ⟨selector, s, _, built, run, here, hjudges, ?_, by decide⟩
  have hoffset : ((Tracker.ofSettings 0 3 {}).grid.timing Request.blank.block.slot).offset? 0 = some 0 := rfl
  exact hjudges.delayed.mpr ⟨_, Tracker.arrive_of_offset? new hoffset, rfl, by decide⟩

end BeaconBroadcast
