import BeaconBroadcast.Proofs.Arrival.History

/-!
# `BeaconBroadcast.Proofs.Arrival.Pruning` — what pruning drops, and how often one may prune

Pruning drops the records of slots that lie more than the retention behind the current one, and touches nothing
else. The horizon that it computes is held at the first slot, and the queue is filtered by the map and not by the
records; none of this shows. Only the latest slot ever pruned at matters: pruning twice is pruning once.

## Contents
- **Outdated records.** `TimelinessSettings.outdates` and `Tracker.isOutdated`, in unbounded numbers.
- **Rolls.** `Roll.survives_iff`; `Roll.prune_prune` and `Roll.prune_swap`: pruning twice.
- **Trackers.** `Tracker.Follows.unique`: a roll determines the tracker that follows it.
- **Histories.** `Tracker.PruneLaws` holds of a tracker after any calls.
-/

namespace BeaconBroadcast

/-! ## Outdated records -/

/-- Whether a record lies so far behind `current` that pruning drops it. -/
def TimelinessSettings.outdates (settings : TimelinessSettings) (current : Slot) (arrival : Arrival) : Bool :=
  decide (arrival.slot.toNat + settings.retentionSlots.toNat < current.toNat)

/-- Whether `root` has a record that pruning at `current` drops. -/
def Tracker.isOutdated (t : Tracker) (settings : TimelinessSettings) (current : Slot) (root : Root) : Bool :=
  (t.find? root).any (settings.outdates current)

/-! ## Rolls -/

namespace Roll

variable {roll : Roll} {a b : Slot} {arrival : Arrival}

/-- Holding the horizon at the first slot makes no difference. -/
theorem survives_iff {current : Slot} : roll.survives current arrival ↔
    ¬ arrival.slot.toNat + roll.retention.toNat < current.toNat := by
  unfold survives
  rw [decide_eq_true_iff]
  omega

theorem survives_eq_not {settings : TimelinessSettings} (h : roll.retention = settings.retentionSlots)
    (current : Slot) (arrival : Arrival) : roll.survives current arrival = !settings.outdates current arrival := by
  apply Bool.eq_iff_iff.mpr
  rw [survives_iff, h, TimelinessSettings.outdates, Bool.not_eq_true', decide_eq_false_iff_not]

/-- What survives the later of two slots survives both. -/
theorem survives_max : roll.survives (max a b) arrival = (roll.survives a arrival && roll.survives b arrival) := by
  apply Bool.eq_iff_iff.mpr
  rw [Bool.and_eq_true, survives_iff, survives_iff, survives_iff, Word.toNat_max]
  omega

/-- What is dropped and what is left make up what was there. -/
theorem prune_add (roll : Roll) (current : Slot) :
    (roll.prune current).2 + (roll.prune current).1.entries.length = roll.entries.length := by
  show roll.entries.countP _ + (roll.entries.filter _).length = _
  rw [← List.countP_eq_length_filter, Nat.add_comm]
  rw [List.length_eq_countP_add_countP fun entry => roll.survives current entry.2]
  congr 1
  exact List.countP_congr fun entry _ => by simp

/-- **Pruning twice is pruning once**, at the later of the two slots. -/
theorem prune_prune (roll : Roll) (a b : Slot) : ((roll.prune a).1.prune b).1 = (roll.prune (max a b)).1 := by
  have hentries : (roll.entries.filter fun entry => roll.survives a entry.2).filter
      (fun entry => roll.survives b entry.2) = roll.entries.filter fun entry => roll.survives (max a b) entry.2 := by
    rw [List.filter_filter]
    apply List.filter_congr
    intro entry _
    rw [survives_max, Bool.and_comm]
  show { roll with entries := _ } = { roll with entries := _ }
  rw [← hentries]
  rfl

/-- In two steps as much is dropped as in one. -/
theorem prune_prune_count (roll : Roll) (a b : Slot) :
    (roll.prune a).2 + ((roll.prune a).1.prune b).2 = (roll.prune (max a b)).2 := by
  have hfirst := roll.prune_add a
  have hsecond := (roll.prune a).1.prune_add b
  have honce := roll.prune_add (max a b)
  rw [prune_prune] at hsecond
  omega

end Roll

/-! ## Trackers -/

namespace Tracker

variable {t u : Tracker} {roll : Roll} {settings : TimelinessSettings}

/-- **A roll determines the tracker that follows it**, its queue included. -/
theorem Follows.unique (h : t.Follows roll) (h' : u.Follows roll) : t = u := by
  have hrecords : t.records = u.records := Std.ExtHashMap.ext_getElem? fun root => by
    rw [h.lists.same, h'.lists.same]
  obtain ⟨grid, retention, capacity, records, order⟩ := t
  obtain ⟨grid', retention', capacity', records', order'⟩ := u
  obtain rfl : grid = grid' := h.grid.trans h'.grid.symm
  obtain rfl : retention = retention' := h.retention.trans h'.retention.symm
  obtain rfl : capacity = capacity' := h.capacity.trans h'.capacity.symm
  obtain rfl : order = order' := h.order.trans h'.order.symm
  obtain rfl : records = records' := hrecords
  rfl

namespace Follows

theorem prune_prune (h : t.Follows roll) (a b : Slot) :
    ((t.prune a).1.prune b).1 = (t.prune (max a b)).1 ∧
      (t.prune a).2 + ((t.prune a).1.prune b).2 = (t.prune (max a b)).2 := by
  obtain ⟨hcount, hfirst⟩ := h.prune a
  obtain ⟨hcount', hsecond⟩ := hfirst.prune b
  obtain ⟨honce, hmax⟩ := h.prune (max a b)
  rw [roll.prune_prune] at hsecond
  refine ⟨hsecond.unique hmax, ?_⟩
  rw [hcount, hcount', honce]
  exact roll.prune_prune_count a b

/-- What survives is what is not outdated. -/
theorem survives_eq_not (h : t.Follows roll) (hretention : roll.retention = settings.retentionSlots)
    {entry : Root × Arrival} (he : entry ∈ roll.entries) (current : Slot) :
    roll.survives current entry.2 = !t.isOutdated settings current entry.1 := by
  have hfound : t.find? entry.1 = some entry.2 := by
    rw [h.find?_eq]
    exact lookup_of_mem h.lists.nodup he
  rw [roll.survives_eq_not hretention, isOutdated, hfound, Option.any_some]

end Follows

/-! ## Histories -/

/-- What pruning does, once and again. -/
structure PruneLaws (settings : TimelinessSettings) (t : Tracker) : Prop where
  /-- The queue lists every root on record, and lists it once. -/
  listed : t.order.Nodup ∧ ∀ root, root ∈ t.order ↔ t.find? root ≠ none
  /-- Outdated records go, and all others stay as they are. -/
  records : ∀ current root,
    (t.prune current).1.find? root = if t.isOutdated settings current root then none else t.find? root
  /-- The others keep their places in the queue. -/
  order : ∀ current, (t.prune current).1.order = t.order.filter fun root => !t.isOutdated settings current root
  /-- The result is the number of the records that go. -/
  count : ∀ current, (t.prune current).2 = t.order.countP (t.isOutdated settings current)
  /-- Nothing else changes. -/
  frame : ∀ current, (t.prune current).1.grid = t.grid ∧ (t.prune current).1.retention = t.retention ∧
    (t.prune current).1.capacity = t.capacity
  /-- Pruning twice is pruning once, at the later of the two slots. -/
  twice : ∀ a b, ((t.prune a).1.prune b).1 = (t.prune (max a b)).1 ∧
    (t.prune a).2 + ((t.prune a).1.prune b).2 = (t.prune (max a b)).2
  /-- It does not matter which of the two comes first. -/
  swapped : ∀ a b, ((t.prune a).1.prune b).1 = ((t.prune b).1.prune a).1 ∧
    (t.prune a).2 + ((t.prune a).1.prune b).2 = (t.prune b).2 + ((t.prune b).1.prune a).2
  /-- Pruning again at the same slot, or at an older one, does nothing. -/
  again : ∀ a b, b ≤ a → (t.prune a).1.prune b = ((t.prune a).1, 0)

/-- A tracker that follows a roll obeys the laws of pruning. -/
theorem Follows.pruneLaws (h : t.Follows roll) (hretention : roll.retention = settings.retentionSlots) :
    PruneLaws settings t := by
  refine ⟨⟨?_, ?_⟩, ?_, ?_, ?_, ?_, h.prune_prune, ?_, ?_⟩
  · rw [h.order]
    exact h.lists.nodup
  · intro root
    rw [h.order, h.find?_eq, Roll.find?, ne_eq, lookup_eq_none_iff_not_mem, Decidable.not_not]
  · intro current root
    have hpruned : (t.prune current).1.find? root = (t.find? root).filter (roll.survives current) := by
      rw [(h.prune current).2.find?_eq, h.find?_eq]
      exact lookup_filter (roll.survives current) h.lists.nodup
    rw [hpruned, isOutdated]
    cases t.find? root with
    | none => rfl
    | some arrival =>
        rw [Option.any_some, Option.filter_some, roll.survives_eq_not hretention]
        cases settings.outdates current arrival <;> rfl
  · intro current
    rw [(h.prune current).2.order, h.order, List.filter_map]
    apply congrArg
    apply List.filter_congr
    intro entry he
    exact h.survives_eq_not hretention he current
  · intro current
    rw [(h.prune current).1, h.order, List.countP_map]
    apply List.countP_congr
    intro entry he
    rw [h.survives_eq_not hretention he current, Bool.not_not]
    rfl
  · intro current
    exact ⟨rfl, rfl, rfl⟩
  · intro a b
    obtain ⟨hstate, hcount⟩ := h.prune_prune a b
    obtain ⟨hstate', hcount'⟩ := h.prune_prune b a
    have hmax : max a b = max b a := by
      apply UInt64.toNat_inj.mp
      rw [Word.toNat_max, Word.toNat_max, Nat.max_comm]
    rw [hstate, hcount, hstate', hcount', hmax]
    exact ⟨rfl, rfl⟩
  · intro a b hle
    obtain ⟨hstate, hcount⟩ := h.prune_prune a b
    have hmax : max a b = a := by
      have hle : b.toNat ≤ a.toNat := UInt64.le_iff_toNat_le.mp hle
      apply UInt64.toNat_inj.mp
      rw [Word.toNat_max]
      omega
    rw [hmax] at hstate hcount
    apply Prod.ext
    · exact hstate
    · show ((t.prune a).1.prune b).2 = 0
      omega

/-- **What pruning does**, to a tracker after any calls. -/
theorem pruneLaws_after (genesis duration : Millis) (settings : TimelinessSettings) (calls : List TrackerCall) :
    PruneLaws settings ((ofSettings genesis duration settings).after calls) := by
  obtain ⟨entries, hend⟩ := (upkeep_ofSettings genesis duration settings).run calls
  exact hend.follows.pruneLaws hend.retention

end Tracker

end BeaconBroadcast
