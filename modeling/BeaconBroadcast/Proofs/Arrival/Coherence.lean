import BeaconBroadcast.Proofs.Arrival.Pruning
import BeaconBroadcast.Proofs.Arrival.WriteOnce

/-!
# `BeaconBroadcast.Proofs.Arrival.Coherence` — the map and the queue of a tracker fit together

A tracker writes to its map and to its queue at different points of an arrival and of pruning, and its eviction goes by
both: by the size of the map for how long, and by the front of the queue for which root. Between calls the two name the
same roots, and no more of them than can be kept. So an arrival has to make room for at most one root, there is always
one at the front that has a record, and eviction never runs out of roots.

## Contents
- **Passes.** `EvictionPass.all` are the passes of eviction one by one; `Tracker.evict_eq_passes`: they are all it does.
- **Arrivals.** `Tracker.EvictsCleanly` holds of a tracker that follows a roll within its capacity.
- **Deadlines.** `Judged`, kept by every call.
- **Histories.** `Tracker.Coherent` holds of a tracker after any calls.
-/

namespace BeaconBroadcast

/-! ## Passes -/

section

variable {α β : Type} [BEq α] [Hashable α]

/-- One pass of eviction: the map that it finds, and the key at the front of the queue, if there is one. -/
structure EvictionPass (α β : Type) [BEq α] [Hashable α] where
  records : Std.ExtHashMap α β
  front? : Option α

/-- The keys that are dropped on these passes. -/
def EvictionPass.dropped (passes : List (EvictionPass α β)) : List α := passes.filterMap (·.front?)

variable [EquivBEq α] [LawfulHashable α]

/-- The pass finds a key that has a record, and leaves one record less. -/
def EvictionPass.DropsRecord (pass : EvictionPass α β) : Prop :=
  ∃ key, pass.front? = some key ∧ key ∈ pass.records ∧ (pass.records.erase key).size + 1 = pass.records.size

/-- The passes of eviction. If the queue runs out of keys while there are still too many records, the last pass finds
    none. -/
def EvictionPass.all (capacity : Nat) (records : Std.ExtHashMap α β) : List α → List (EvictionPass α β)
  | [] => if capacity < records.size then [{ records, front? := none }] else []
  | oldest :: order =>
      if capacity < records.size then
        { records, front? := some oldest } :: EvictionPass.all capacity (records.erase oldest) order
      else []

end

open EvictionPass

namespace Tracker

/-- **Eviction drops the roots that its passes find**, and nothing else. -/
theorem evict_eq_passes (capacity : Nat) (records : Std.ExtHashMap Root Arrival) (order : List Root) :
    evict capacity records order =
      ((dropped (all capacity records order)).foldl (fun records root => records.erase root) records,
        order.drop (dropped (all capacity records order)).length) := by
  induction order generalizing records with
  | nil =>
      rw [evict, all]
      split <;> rfl
  | cons oldest order ih =>
      rw [evict, all]
      by_cases hfull : capacity < records.size
      · rw [if_pos hfull, if_pos hfull, ih]
        rfl
      · rw [if_neg hfull, if_neg hfull]
        rfl

end Tracker

namespace Lists

variable {records : Std.ExtHashMap Root Arrival} {entries : List (Root × Arrival)}

/-- Where there are no entries there are none too many. -/
theorem room_of_nil (h : Lists records []) (capacity : Nat) : ¬ capacity < records.size := by
  rw [h.size_eq]
  exact Nat.not_lt_zero capacity

/-- There are as many passes as there are entries too many. -/
theorem length_passes (h : Lists records entries) (capacity : Nat) :
    (all capacity records (entries.map Prod.fst)).length = entries.length - capacity := by
  induction entries generalizing records with
  | nil =>
      rw [List.map_nil, all, if_neg (h.room_of_nil capacity), List.length_nil, List.length_nil, Nat.zero_sub]
  | cons entry entries ih =>
      rw [List.map_cons, all, h.size_eq, List.length_cons]
      by_cases hfull : capacity < entries.length + 1
      · rw [if_pos hfull, List.length_cons, ih h.erase_oldest]
        omega
      · rw [if_neg hfull, List.length_nil]
        omega

/-- **Every pass drops a record.** -/
theorem passes_drop (h : Lists records entries) (capacity : Nat) :
    ∀ pass ∈ all capacity records (entries.map Prod.fst), pass.DropsRecord := by
  induction entries generalizing records with
  | nil =>
      rw [List.map_nil, all, if_neg (h.room_of_nil capacity)]
      exact nofun
  | cons entry entries ih =>
      rw [List.map_cons, all]
      split
      · refine List.forall_mem_cons.mpr ⟨⟨entry.1, rfl, h.mem_iff.mpr List.mem_cons_self, ?_⟩, ih h.erase_oldest⟩
        show (records.erase entry.1).size + 1 = records.size
        rw [h.erase_oldest.size_eq, h.size_eq, List.length_cons]
      · exact nofun

end Lists

/-! ## Arrivals -/

namespace Tracker

variable {t : Tracker} {roll : Roll} {block : SignedBlock} {time : Millis} {arrival : Arrival}

/-- What is put on record was not there before, and is judged by the slots. -/
theorem of_arrive_recorded (h : (t.arrive block time).2 = .recorded arrival) :
    block.root ∉ t.records ∧ (∃ offset, arrival = t.judge block.slot offset) ∧
      (t.arrive block time).1 = t.insert block.root arrival := by
  unfold arrive at h ⊢
  split at h
  · cases h
  · split at h
    · cases h
    · next offset _ hnew =>
        cases h
        rw [if_neg hnew]
        exact ⟨hnew, ⟨offset, rfl⟩, rfl⟩

/-- An arrival in time is one before the attestation deadline. -/
theorem judge_timely (t : Tracker) (slot : Slot) (offset : Millis) :
    (t.judge slot offset).timely ↔ offset < (t.grid.timing slot).attestationDue := by
  rw [judge, SlotTiming.isLate, Bool.not_eq_true', decide_eq_false_iff_not]
  exact UInt64.not_le

/-- Room is made for what was just written to `records` and `order`, which leaves them as they are in `t'`. -/
structure MakesRoom (capacity : Nat) (records : Std.ExtHashMap Root Arrival) (order : List Root) (t' : Tracker) :
    Prop where
  /-- There is one pass at most. -/
  once : (all capacity records order).length ≤ 1
  /-- Every pass finds a root that has a record. -/
  drops : ∀ pass ∈ all capacity records order, pass.DropsRecord
  /-- The passes are all that happens to the map. -/
  records_eq : t'.records =
    (dropped (all capacity records order)).foldl (fun records root => records.erase root) records
  /-- The passes are all that happens to the queue. -/
  order_eq : t'.order = order.drop (dropped (all capacity records order)).length

/-- What a tracker does for an arrival in order to keep within its capacity. -/
structure EvictsCleanly (t : Tracker) : Prop where
  /-- After a new record is written to the map and its root to the queue room is made for it. -/
  recorded : ∀ {block time arrival}, (t.arrive block time).2 = .recorded arrival →
    MakesRoom t.capacity.toNat (t.records.insert block.root arrival) (t.order ++ [block.root]) (t.arrive block time).1
  /-- Where no record is written nothing happens. -/
  idle : ∀ {block time}, (t.arrive block time).2.record? = none → (t.arrive block time).1 = t

/-- The map and the queue as eviction finds them stand for the roll with one entry more. -/
theorem Follows.lists_insert (h : t.Follows roll) (hnew : block.root ∉ t.records) (arrival : Arrival) :
    Lists (t.records.insert block.root arrival) (roll.entries ++ [(block.root, arrival)]) ∧
      t.order ++ [block.root] = (roll.entries ++ [(block.root, arrival)]).map Prod.fst := by
  refine ⟨h.lists.insert hnew, ?_⟩
  rw [List.map_append, ← h.order, List.map_singleton]

/-- **A tracker that follows a roll within its capacity evicts cleanly.** -/
theorem Follows.evictsCleanly (h : t.Follows roll) (fits : roll.entries.length ≤ roll.capacity.toNat) :
    EvictsCleanly t := by
  refine ⟨?_, arrive_idle⟩
  intro block time arrival hrecorded
  obtain ⟨hnew, -, hinsert⟩ := of_arrive_recorded hrecorded
  obtain ⟨hlists, horder⟩ := h.lists_insert hnew arrival
  refine ⟨?_, ?_, ?_, ?_⟩
  · rw [horder, hlists.length_passes, List.length_append, List.length_singleton, h.capacity]
    omega
  · rw [horder]
    exact hlists.passes_drop _
  · rw [hinsert, Tracker.insert, evict_eq_passes]
  · rw [hinsert, Tracker.insert, evict_eq_passes]

end Tracker

/-! ## Deadlines -/

/-- Every entry is judged by the attestation deadline of its slot. -/
def Judged (grid : SlotGrid) (entries : List (Root × Arrival)) : Prop :=
  ∀ entry ∈ entries, entry.2.timely ↔ entry.2.offset < (grid.timing entry.2.slot).attestationDue

/-- What is put on record is judged so. -/
theorem Moment.judged_of_put {m : Moment} {root : Root} {arrival : Arrival} (h : m.put? = some (root, arrival)) :
    arrival.timely ↔ arrival.offset < (m.tracker.grid.timing arrival.slot).attestationDue := by
  obtain ⟨t, call⟩ := m
  cases call with
  | arrive block time =>
      obtain ⟨recorded, hrecord, heq⟩ := Option.map_eq_some_iff.mp h
      cases heq
      cases hresult : (t.arrive block time).2 with
      | recorded arrival =>
          rw [hresult] at hrecord
          cases hrecord
          obtain ⟨-, ⟨offset, rfl⟩, -⟩ := Tracker.of_arrive_recorded hresult
          exact t.judge_timely block.slot offset
      | alreadyRecorded =>
          rw [hresult] at hrecord
          cases hrecord
      | future =>
          rw [hresult] at hrecord
          cases hrecord
  | _ => cases h

namespace Tracker.Upkeep

variable {settings : TimelinessSettings} {past : List Moment} {t : Tracker} {roll : Roll}

/-- **Every call leaves all entries judged so.** -/
theorem judged_step (h : Upkeep settings past t roll) (judged : Judged roll.grid roll.entries) {call : TrackerCall}
    {entries : List (Root × Arrival)} (move : Moment.Move ⟨t, call⟩ roll entries) : Judged roll.grid entries := by
  cases move with
  | stay quiet => exact judged
  | @put root arrival recorded new =>
      intro entry he
      rcases List.mem_append.mp ((newest_sublist _ _).subset he) with hold | hnew
      · exact judged entry hold
      · have hjudged := Moment.judged_of_put recorded
        rw [List.mem_singleton.mp hnew, ← h.follows.grid]
        exact hjudged
  | prune pruning => exact fun entry he => judged entry (List.mem_filter.mp he).1

/-- **So does any number of calls.** -/
theorem judged_run (h : Upkeep settings past t roll) (judged : Judged roll.grid roll.entries)
    (calls : List TrackerCall) :
    ∃ entries, Upkeep settings (past ++ t.history calls) (t.after calls) { roll with entries } ∧
      Judged roll.grid entries := by
  induction calls generalizing past t roll with
  | nil => exact ⟨roll.entries, by simpa using h, judged⟩
  | cons call calls ih =>
      obtain ⟨entries, hmove, hstep⟩ := h.step call
      obtain ⟨entries, hrun, hjudged⟩ := ih hstep (h.judged_step judged hmove)
      exact ⟨entries, by simpa using hrun, hjudged⟩

end Tracker.Upkeep

/-! ## Histories -/

/-- What holds of a tracker on slots of `duration` from `genesis` between its calls. -/
structure Tracker.Coherent (genesis duration : Millis) (settings : TimelinessSettings) (t : Tracker) : Prop where
  /-- The queue names no root twice. -/
  distinct : t.order.Nodup
  /-- The queue names the roots that have a record and no others. -/
  listed : ∀ root, root ∈ t.order ↔ root ∈ t.records
  /-- A record is timely just if the block arrived before attestations were due. -/
  judged : ∀ (root : Root) (arrival : Arrival), t.records[root]? = some arrival → (arrival.timely ↔
    arrival.offset < (SlotGrid.timing ⟨genesis, duration, settings.intervalsPerSlot⟩ arrival.slot).attestationDue)
  /-- There are no more records than can be kept. -/
  fits : t.records.size ≤ settings.maxTrackedBlocks.toNat
  /-- So arrivals are made room for cleanly. -/
  evicts : t.EvictsCleanly
  /-- Pruning leaves no more records than there were, and counts those that it drops. -/
  prunes : ∀ current, (t.prune current).1.records.size ≤ t.records.size ∧
    (t.prune current).2 + (t.prune current).1.records.size = t.records.size

namespace Tracker

variable {genesis duration : Millis} {settings : TimelinessSettings} {past : List Moment} {t : Tracker} {roll : Roll}

/-- Pruning a tracker drops as many records as it says. -/
theorem Follows.prune_add (h : t.Follows roll) (current : Slot) :
    (t.prune current).2 + (t.prune current).1.records.size = t.records.size := by
  obtain ⟨hcount, hpruned⟩ := h.prune current
  rw [hcount, hpruned.lists.size_eq, h.lists.size_eq]
  exact roll.prune_add current

/-- **A tracker in good upkeep is coherent.** -/
theorem Upkeep.coherent (h : Upkeep settings past t roll) (judged : Judged roll.grid roll.entries)
    (grid : roll.grid = ⟨genesis, duration, settings.intervalsPerSlot⟩) : t.Coherent genesis duration settings where
  distinct := by
    rw [h.follows.order]
    exact h.follows.lists.nodup
  listed root := by rw [h.follows.order, h.follows.lists.mem_iff]
  judged root arrival found := by
    rw [h.follows.lists.same] at found
    obtain ⟨older, newer, hentries, -⟩ := List.lookup_eq_some_iff.mp found
    rw [← grid]
    refine judged (root, arrival) ?_
    rw [hentries]
    exact List.mem_append_right older List.mem_cons_self
  fits := by
    rw [h.follows.lists.size_eq]
    exact h.fits
  evicts := by
    refine h.follows.evictsCleanly ?_
    rw [h.capacity]
    exact h.fits
  prunes current :=
    have hadd := h.follows.prune_add current
    ⟨Nat.le.intro ((Nat.add_comm _ _).trans hadd), hadd⟩

/-- **A tracker is coherent after any calls**, also one that can keep no root at all. -/
theorem coherent_after (genesis duration : Millis) (settings : TimelinessSettings) (calls : List TrackerCall) :
    Coherent genesis duration settings ((ofSettings genesis duration settings).after calls) := by
  have hstart := upkeep_ofSettings genesis duration settings
  obtain ⟨entries, hend, hjudged⟩ := hstart.judged_run (fun _ hnone => nomatch hnone) calls
  exact hend.coherent hjudged rfl

end Tracker

end BeaconBroadcast
