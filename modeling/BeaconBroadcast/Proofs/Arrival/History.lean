import BeaconBroadcast.Proofs.Arrival.Roll

/-!
# `BeaconBroadcast.Proofs.Arrival.History` — what has happened to a tracker

What a tracker promises spans many calls: a record stays until something drops it, the oldest goes first. The
history of a tracker is the list of the calls it took, each with the tracker as it was at that moment, so that
such promises can be stated of it. Whether a proposal would be in time is asked of the slots alone and leaves no
trace here.

## Contents
- **Moments.** `Moment` is a call with the tracker that takes it; `put?` is what it puts on record, `arrival?`
  what it comes to for a root that is not on record, and `Drops` says that a root goes off record.
- **Histories.** `Tracker.after` and `Tracker.history`, along the calls; `putsIn` is what was put on record.
- **Moves.** `Moment.Move` is all that a call can do to the entries of a roll; `Tracker.Follows.move`: every
  call makes a move. `Tracker.Follows.find?_of_put`: what is put on record is there.
- **Ranks.** `Ranked`: entries stand in the order in which they were put on record.
- **Upkeep.** `Tracker.Upkeep` holds of every history from the start on.
- **A crowded case.** A tracker that keeps one root, where a second root comes.
-/

namespace BeaconBroadcast

/-! ## Moments -/

/-- The record of which a caller hears that it is now there. -/
def ArrivalResult.record? : ArrivalResult → Option Arrival
  | recorded arrival => some arrival
  | alreadyRecorded => none
  | future => none

/-- A call, with the tracker that takes it. -/
structure Moment where
  tracker : Tracker
  call : TrackerCall

namespace Moment

/-- The tracker afterwards. -/
def next (m : Moment) : Tracker := (m.tracker.serve m.call).1

/-- The root of which the caller hears that it is now on record, with its record. -/
def put? (m : Moment) : Option (Root × Arrival) :=
  match m.call with
  | .arrive block time => (m.tracker.arrive block time).2.record?.map fun arrival => (block.root, arrival)
  | _ => none

/-- Whether `root` is put on record. -/
def Puts (m : Moment) (root : Root) : Prop := ∃ arrival, m.put? = some (root, arrival)

/-- How an arrival of `root` is judged, if the call is one that does not come too early. -/
def arrival? (m : Moment) (root : Root) : Option Arrival :=
  match m.call with
  | .arrive block time =>
      if block.root = root then
        ((m.tracker.grid.timing block.slot).offset? time).map (m.tracker.judge block.slot)
      else none
  | _ => none

/-- Whether `root` goes off record. -/
def Drops (m : Moment) (root : Root) : Prop := m.tracker.find? root ≠ none ∧ m.next.find? root = none

variable {m : Moment} {root : Root} {arrival : Arrival}

theorem put?_of_prune {current : Slot} (h : m.call = .prune current) : m.put? = none := by
  simp only [put?, h]

/-- What puts a root that is not on record there is just an arrival of it that does not come too early. -/
theorem put?_eq_some_iff (habsent : m.tracker.find? root = none) :
    m.put? = some (root, arrival) ↔ m.arrival? root = some arrival := by
  obtain ⟨t, call⟩ := m
  cases call with
  | arrive block time =>
      have hnew (hroot : block.root = root) : root ∉ t.records := by
        intro hmem
        rw [Std.ExtHashMap.mem_iff_isSome_getElem?] at hmem
        rw [Tracker.find?] at habsent
        simp [habsent] at hmem
      simp only [put?, arrival?, Tracker.arrive]
      cases (t.grid.timing block.slot).offset? time with
      | none => simp [ArrivalResult.record?]
      | some offset =>
          by_cases hroot : block.root = root
          · simp [hnew hroot, hroot, ArrivalResult.record?]
          · by_cases hmem : block.root ∈ t.records <;> simp [hmem, hroot, ArrivalResult.record?]
  | prune current => simp [put?, arrival?]
  | isTimely root => simp [put?, arrival?]
  | isLate root => simp [put?, arrival?]
  | find root => simp [put?, arrival?]
  | size => simp [put?, arrival?]
  | isEmpty => simp [put?, arrival?]

end Moment

/-! ## Histories -/

namespace Tracker

/-- The tracker after `calls`. -/
def after (t : Tracker) (calls : List TrackerCall) : Tracker := (serveAll serve t calls).1

/-- The calls with the trackers that take them, oldest first. -/
def history (t : Tracker) : List TrackerCall → List Moment
  | [] => []
  | call :: calls => ⟨t, call⟩ :: (t.serve call).1.history calls

variable (t : Tracker)

@[simp] theorem after_nil : t.after [] = t := rfl

@[simp] theorem after_cons (call : TrackerCall) (calls : List TrackerCall) :
    t.after (call :: calls) = (t.serve call).1.after calls := rfl

@[simp] theorem history_nil : t.history [] = [] := rfl

@[simp] theorem history_cons (call : TrackerCall) (calls : List TrackerCall) :
    t.history (call :: calls) = ⟨t, call⟩ :: (t.serve call).1.history calls := rfl

theorem after_append (first second : List TrackerCall) :
    t.after (first ++ second) = (t.after first).after second := by
  induction first generalizing t with
  | nil => rfl
  | cons call first ih => simp [ih]

/-- A moment in a history comes after a part of the calls. -/
theorem of_history_eq {calls : List TrackerCall} {before later : List Moment} {m : Moment}
    (h : t.history calls = before ++ m :: later) :
    ∃ first second, calls = first ++ m.call :: second ∧ before = t.history first ∧
      m.tracker = t.after first ∧ later = m.next.history second := by
  induction calls generalizing t before with
  | nil => simp at h
  | cons call calls ih =>
      cases before with
      | nil =>
          simp only [history_cons, List.nil_append, List.cons.injEq] at h
          obtain ⟨rfl, rfl⟩ := h
          exact ⟨[], calls, rfl, rfl, rfl, rfl⟩
      | cons head before =>
          simp only [history_cons, List.cons_append, List.cons.injEq] at h
          obtain ⟨rfl, hrest⟩ := h
          obtain ⟨first, second, rfl, rfl, htracker, hlater⟩ := ih _ hrest
          exact ⟨call :: first, second, rfl, rfl, htracker, hlater⟩

end Tracker

/-- What was put on record, oldest first. -/
def putsIn (past : List Moment) : List (Root × Arrival) := past.filterMap Moment.put?

theorem putsIn_append (first second : List Moment) :
    putsIn (first ++ second) = putsIn first ++ putsIn second := List.filterMap_append

/-! ## Moves -/

/-- All that a call can do to the entries of the roll that its tracker follows. -/
inductive Moment.Move (m : Moment) (roll : Roll) : List (Root × Arrival) → Prop
  /-- Nothing. -/
  | stay (quiet : m.put? = none) : Move m roll roll.entries
  /-- A new root goes to the end, and the oldest go that are too many. -/
  | put {root : Root} {arrival : Arrival} (recorded : m.put? = some (root, arrival))
      (new : root ∉ roll.entries.map Prod.fst) :
      Move m roll (newest roll.capacity.toNat (roll.entries ++ [(root, arrival)]))
  /-- The entries go that do not survive. -/
  | prune {current : Slot} (pruning : m.call = .prune current) :
      Move m roll (roll.entries.filter fun entry => roll.survives current entry.2)

/-- **Every call makes a move.** -/
theorem Tracker.Follows.move {t : Tracker} {roll : Roll} (h : t.Follows roll) (call : TrackerCall) :
    ∃ entries, Moment.Move ⟨t, call⟩ roll entries ∧ (t.serve call).1.Follows { roll with entries } := by
  cases call with
  | arrive block time =>
      have hput : Moment.put? ⟨t, .arrive block time⟩
          = (roll.arrive block time).2.record?.map fun arrival => (block.root, arrival) := by
        simp only [Moment.put?, (h.arrive block time).1]
      have hfollows : (t.serve (.arrive block time)).1.Follows (roll.arrive block time).1 :=
        (h.arrive block time).2
      cases hoffset : (roll.grid.timing block.slot).offset? time with
      | none =>
          simp only [Roll.arrive, hoffset] at hput hfollows
          exact ⟨_, .stay hput, hfollows⟩
      | some offset =>
          cases hfound : roll.find? block.root with
          | some arrival =>
              simp only [Roll.arrive, hoffset, hfound] at hput hfollows
              exact ⟨_, .stay hput, hfollows⟩
          | none =>
              have hnew : block.root ∉ roll.entries.map Prod.fst := lookup_eq_none_iff_not_mem.mp hfound
              simp only [Roll.arrive, hoffset, hfound] at hput hfollows
              exact ⟨_, .put hput hnew, hfollows⟩
  | prune current => exact ⟨_, .prune rfl, (h.prune current).2⟩
  | isTimely root => exact ⟨_, .stay rfl, h⟩
  | isLate root => exact ⟨_, .stay rfl, h⟩
  | find root => exact ⟨_, .stay rfl, h⟩
  | size => exact ⟨_, .stay rfl, h⟩
  | isEmpty => exact ⟨_, .stay rfl, h⟩

namespace Moment.Move

variable {m : Moment} {roll : Roll} {entries : List (Root × Arrival)} {root : Root} {arrival : Arrival}

/-- What is put on record was not there before, and stands last afterwards. -/
theorem of_put (h : m.Move roll entries) (hpos : 0 < roll.capacity.toNat)
    (hput : m.put? = some (root, arrival)) :
    roll.entries.lookup root = none ∧ ∃ older, entries = older ++ [(root, arrival)] := by
  cases h with
  | stay quiet =>
      rw [quiet] at hput
      cases hput
  | prune pruning =>
      rw [put?_of_prune pruning] at hput
      cases hput
  | put recorded new =>
      rw [recorded] at hput
      cases hput
      obtain ⟨kept, -, hkept⟩ := newest_append_cons roll.entries [] (root, arrival) hpos
      exact ⟨lookup_eq_none_of_not_mem new, kept, hkept⟩

/-- A root that is neither on record nor put there is not there afterwards. -/
theorem lookup_eq_none (h : m.Move roll entries) (habsent : roll.entries.lookup root = none)
    (hnot : ¬ m.Puts root) : entries.lookup root = none := by
  cases h with
  | stay quiet => exact habsent
  | prune pruning => exact lookup_eq_none_of_sublist List.filter_sublist habsent
  | @put other newcomer recorded new =>
      have hother : other ≠ root := by
        rintro rfl
        exact hnot ⟨newcomer, recorded⟩
      apply lookup_eq_none_of_sublist (newest_sublist _ _)
      rw [lookup_concat_of_ne hother]
      exact habsent

end Moment.Move

/-- What is put on record was not there before, and is there afterwards. -/
theorem Tracker.Follows.find?_of_put {t : Tracker} {roll : Roll} {call : TrackerCall} {root : Root}
    {arrival : Arrival} (h : t.Follows roll) (hpos : 0 < roll.capacity.toNat)
    (hput : Moment.put? ⟨t, call⟩ = some (root, arrival)) :
    t.find? root = none ∧ (t.serve call).1.find? root = some arrival := by
  obtain ⟨entries, hmove, hfollows⟩ := h.move call
  obtain ⟨habsent, older, rfl⟩ := hmove.of_put hpos hput
  rw [h.find?_eq, hfollows.find?_eq]
  have hmem : (root, arrival) ∈ older ++ [(root, arrival)] := by simp
  exact ⟨habsent, lookup_of_mem hfollows.lists.nodup hmem⟩

/-! ## Ranks -/

/-- Each entry was put on record at a moment since which its root was not put there again and all entries
    behind it were. -/
def Ranked (past : List Moment) (entries : List (Root × Arrival)) : Prop :=
  ∀ older entry newer, entries = older ++ entry :: newer →
    ∃ before m since, past = before ++ m :: since ∧ m.put? = some entry ∧
      (∀ x ∈ since, ¬ x.Puts entry.1) ∧ ∀ e ∈ newer, ∃ x ∈ since, x.Puts e.1

namespace Ranked

variable {past : List Moment} {m : Moment} {entries kept : List (Root × Arrival)}

theorem nil : Ranked past [] := by
  intro older entry newer hsplit
  simp at hsplit

/-- Entries that go leave the others in order. -/
theorem sublist (h : Ranked past entries) (hkept : kept.Sublist entries) : Ranked past kept := by
  intro older entry newer hsplit
  rw [hsplit, List.append_sublist_iff] at hkept
  obtain ⟨first, rest, rfl, -, hrest⟩ := hkept
  obtain ⟨second, third, rfl, hmem, hnewer⟩ := List.cons_sublist_iff.mp hrest
  obtain ⟨second, between, rfl⟩ := List.append_of_mem hmem
  obtain ⟨before, m, since, hpast, hput, hnot, hlater⟩ :=
    h (first ++ second) entry (between ++ third) (by simp)
  refine ⟨before, m, since, hpast, hput, hnot, ?_⟩
  intro e he
  exact hlater e (List.mem_append_right between (hnewer.subset he))

/-- A moment that puts none of the entries on record leaves them in order. -/
theorem later (h : Ranked past entries) (hnot : ∀ e ∈ entries, ¬ m.Puts e.1) :
    Ranked (past ++ [m]) entries := by
  intro older entry newer hsplit
  obtain ⟨before, x, since, rfl, hput, hsince, hlater⟩ := h older entry newer hsplit
  refine ⟨before, x, since ++ [m], by simp, hput, ?_, ?_⟩
  · intro y hy
    rcases List.mem_append.mp hy with hy | hy
    · exact hsince y hy
    · rw [List.mem_singleton.mp hy]
      exact hnot entry (by simp [hsplit])
  · intro e he
    obtain ⟨y, hy, hputs⟩ := hlater e he
    exact ⟨y, List.mem_append_left _ hy, hputs⟩

/-- What is put on record ranks last. -/
theorem put {root : Root} {arrival : Arrival} (h : Ranked past entries)
    (hput : m.put? = some (root, arrival)) (hnew : root ∉ entries.map Prod.fst) :
    Ranked (past ++ [m]) (entries ++ [(root, arrival)]) := by
  have hnot : ∀ e ∈ entries, ¬ m.Puts e.1 := by
    rintro e he ⟨other, hother⟩
    rw [hput] at hother
    cases hother
    exact hnew (List.mem_map_of_mem he)
  intro older entry newer hsplit
  rcases List.eq_nil_or_concat newer with rfl | ⟨between, last, rfl⟩
  · -- the entry looked at is the new one
    obtain ⟨-, hentry⟩ := List.append_inj' hsplit rfl
    cases hentry
    exact ⟨past, m, [], rfl, hput, by simp, by simp⟩
  · rw [List.concat_eq_append, ← List.cons_append, ← List.append_assoc] at hsplit
    obtain ⟨hold, hlast⟩ := List.append_inj' hsplit rfl
    cases hlast
    obtain ⟨before, x, since, rfl, hputs, hsince, hlater⟩ := h older entry between hold
    refine ⟨before, x, since ++ [m], by simp, hputs, ?_, ?_⟩
    · intro y hy
      rcases List.mem_append.mp hy with hy | hy
      · exact hsince y hy
      · rw [List.mem_singleton.mp hy]
        exact hnot entry (by simp [hold])
    · intro e he
      rw [List.concat_eq_append, List.mem_append, List.mem_singleton] at he
      rcases he with he | rfl
      · obtain ⟨y, hy, hputs⟩ := hlater e he
        exact ⟨y, List.mem_append_left _ hy, hputs⟩
      · exact ⟨m, by simp, arrival, hput⟩

end Ranked

/-! ## Upkeep -/

/-- What holds of a tracker with this past and of the roll that it follows. -/
structure Tracker.Upkeep (settings : TimelinessSettings) (past : List Moment) (t : Tracker) (roll : Roll) :
    Prop where
  capacity : roll.capacity = settings.maxTrackedBlocks
  retention : roll.retention = settings.retentionSlots
  follows : t.Follows roll
  fits : roll.entries.length ≤ settings.maxTrackedBlocks.toNat
  ranked : Ranked past roll.entries

namespace Tracker.Upkeep

variable {settings : TimelinessSettings} {past : List Moment} {t : Tracker} {roll : Roll}

/-- **Every call keeps it up.** -/
theorem step (h : Upkeep settings past t roll) (call : TrackerCall) :
    ∃ entries, Moment.Move ⟨t, call⟩ roll entries ∧
      Upkeep settings (past ++ [⟨t, call⟩]) (t.serve call).1 { roll with entries } := by
  obtain ⟨entries, hmove, hfollows⟩ := h.follows.move call
  refine ⟨entries, hmove, h.capacity, h.retention, hfollows, ?_, ?_⟩
  · cases hmove with
    | stay quiet => exact h.fits
    | put recorded new =>
        rw [← h.capacity]
        exact length_newest_le _ _
    | prune pruning => exact Nat.le_trans (List.length_filter_le _ _) h.fits
  · have hquiet (hnone : Moment.put? ⟨t, call⟩ = none) : Ranked (past ++ [⟨t, call⟩]) roll.entries := by
      apply h.ranked.later
      rintro e - ⟨arrival, hput⟩
      rw [hnone] at hput
      cases hput
    cases hmove with
    | stay quiet => exact hquiet quiet
    | put recorded new => exact (h.ranked.put recorded new).sublist (newest_sublist _ _)
    | prune pruning => exact (hquiet (Moment.put?_of_prune pruning)).sublist List.filter_sublist

/-- **Any number of calls keeps it up.** -/
theorem run (h : Upkeep settings past t roll) (calls : List TrackerCall) :
    ∃ entries, Upkeep settings (past ++ t.history calls) (t.after calls) { roll with entries } := by
  induction calls generalizing past t roll with
  | nil => exact ⟨roll.entries, by simpa using h⟩
  | cons call calls ih =>
      obtain ⟨entries, -, hstep⟩ := h.step call
      obtain ⟨entries, hrun⟩ := ih hstep
      exact ⟨entries, by simpa using hrun⟩

end Tracker.Upkeep

/-- It holds of a tracker with nothing on record. -/
theorem Tracker.upkeep_ofSettings (genesis duration : Millis) (settings : TimelinessSettings) :
    Upkeep settings [] (ofSettings genesis duration settings) (Roll.ofSettings genesis duration settings) :=
  ⟨rfl, rfl, follows_ofSettings genesis duration settings, Nat.zero_le _, Ranked.nil⟩

/-- **It holds at every moment of every history**, with what had happened by then. -/
theorem Tracker.upkeep_of_history_eq {genesis duration : Millis} {settings : TimelinessSettings}
    {calls : List TrackerCall} {before since : List Moment} {m : Moment}
    (h : (ofSettings genesis duration settings).history calls = before ++ m :: since) :
    ∃ roll second, Upkeep settings before m.tracker roll ∧ since = m.next.history second ∧
      (ofSettings genesis duration settings).after calls = m.next.after second := by
  obtain ⟨first, second, rfl, rfl, htracker, rfl⟩ := of_history_eq _ h
  obtain ⟨entries, hrun⟩ := (upkeep_ofSettings genesis duration settings).run first
  rw [← htracker] at hrun
  refine ⟨_, second, hrun, rfl, ?_⟩
  rw [after_append, ← htracker]
  rfl

/-! ## A crowded case -/

/-- The block of `slot` that has nothing in it. -/
def SignedBlock.bare (slot : Slot) : SignedBlock := .ofMessage { slot } Bytes.zero

/-- Settings for a tracker that keeps one root. -/
def TimelinessSettings.crowded : TimelinessSettings := { maxTrackedBlocks := 1 }

/-- Two blocks arrive, each at the start of its slot. -/
def TrackerCall.crowding : List TrackerCall := [.arrive (.bare 0) 0, .arrive (.bare 1) 6]

/-- What is on record can be read off the roll. -/
theorem Tracker.find?_after (genesis duration : Millis) (settings : TimelinessSettings)
    (calls : List TrackerCall) (root : Root) :
    ((ofSettings genesis duration settings).after calls).find? root
      = (serveAll Roll.serve (Roll.ofSettings genesis duration settings) calls).1.find? root :=
  ((follows_ofSettings genesis duration settings).run calls).2.find?_eq root

end BeaconBroadcast
