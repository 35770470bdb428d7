import BeaconBroadcast.Proofs.Arrival.Listing

/-!
# `BeaconBroadcast.Proofs.Arrival.Roll` — a tracker is one list of arrivals

A roll is the tracker that one would write without regard to speed: one list of roots with their records,
oldest first. The tracker with its map and its queue gives every caller the answers of the roll, whatever is
asked of it and in whatever order.

## Contents
- **Rolls.** `Roll`, with what it does for each call.
- **Calls.** `TrackerCall` and `TrackerReply`; `Tracker.serve` and `Roll.serve` take one call, `serveAll` takes
  any number of them.
- **Following.** `Tracker.Follows`: the tracker keeps what the roll keeps, and each call keeps it so.
- **Runs.** `Tracker.Follows.run`, from a tracker and a roll that begin alike.
-/

namespace BeaconBroadcast

/-! ## Rolls -/

/-- A tracker that keeps one list. -/
structure Roll where
  /-- The slots that arrivals are judged by. -/
  grid : SlotGrid
  /-- How many slots back entries survive pruning. -/
  retention : UInt64
  /-- How many entries are kept at most. -/
  capacity : UInt64
  /-- The roots on record with their records, oldest first. -/
  entries : List (Root × Arrival) := []

namespace Roll

/-- A roll with nothing on it, on slots of `duration` from `genesis`. -/
def ofSettings (genesis duration : Millis) (settings : TimelinessSettings) : Roll where
  grid := { genesis, duration, intervals := settings.intervalsPerSlot }
  retention := settings.retentionSlots
  capacity := settings.maxTrackedBlocks

def find? (roll : Roll) (root : Root) : Option Arrival := roll.entries.lookup root

/-- A new root that does not come too early goes to the end, and the oldest go that are too many. -/
def arrive (roll : Roll) (block : SignedBlock) (time : Millis) : Roll × ArrivalResult :=
  let timing := roll.grid.timing block.slot
  match timing.offset? time, roll.find? block.root with
  | none, _ => (roll, .future)
  | some _, some _ => (roll, .alreadyRecorded)
  | some offset, none =>
      let arrival : Arrival :=
        { slot := block.slot, timely := decide (offset < timing.attestationDue), offset }
      ({ roll with entries := newest roll.capacity.toNat (roll.entries ++ [(block.root, arrival)]) },
        .recorded arrival)

/-- Whether a record outlives pruning at `current`. -/
def survives (roll : Roll) (current : Slot) (arrival : Arrival) : Bool :=
  decide (current.toNat - roll.retention.toNat ≤ arrival.slot.toNat)

/-- The entries that do not survive go. The second part is their number. -/
def prune (roll : Roll) (current : Slot) : Roll × Nat :=
  ({ roll with entries := roll.entries.filter fun entry => roll.survives current entry.2 },
    roll.entries.countP fun entry => !roll.survives current entry.2)

end Roll

/-! ## Calls -/

/-- A call to a tracker. -/
inductive TrackerCall
  | arrive (block : SignedBlock) (time : Millis)
  | prune (current : Slot)
  | isTimely (root : Root)
  | isLate (root : Root)
  | find (root : Root)
  | size
  | isEmpty

/-- What a call to a tracker is answered with. -/
inductive TrackerReply
  | arrived (result : ArrivalResult)
  | pruned (count : Nat)
  | timely (timely? : Option Bool)
  | late (isLate : Bool)
  | found (arrival? : Option Arrival)
  | size (count : Nat)
  | empty (isEmpty : Bool)
deriving DecidableEq

/-- Takes one call. -/
def Tracker.serve (t : Tracker) : TrackerCall → Tracker × TrackerReply
  | .arrive block time => ((t.arrive block time).1, .arrived (t.arrive block time).2)
  | .prune current => ((t.prune current).1, .pruned (t.prune current).2)
  | .isTimely root => (t, .timely (t.isTimely? root))
  | .isLate root => (t, .late (t.isLate root))
  | .find root => (t, .found (t.find? root))
  | .size => (t, .size t.size)
  | .isEmpty => (t, .empty t.isEmpty)

/-- Takes one call. -/
def Roll.serve (roll : Roll) : TrackerCall → Roll × TrackerReply
  | .arrive block time => ((roll.arrive block time).1, .arrived (roll.arrive block time).2)
  | .prune current => ((roll.prune current).1, .pruned (roll.prune current).2)
  | .isTimely root => (roll, .timely ((roll.find? root).map (·.timely)))
  | .isLate root => (roll, .late (((roll.find? root).map (!·.timely)).getD false))
  | .find root => (roll, .found (roll.find? root))
  | .size => (roll, .size roll.entries.length)
  | .isEmpty => (roll, .empty roll.entries.isEmpty)

/-- Takes the calls one after the other. The second part is the replies. -/
def serveAll {σ : Type} (serve : σ → TrackerCall → σ × TrackerReply) :
    σ → List TrackerCall → σ × List TrackerReply
  | state, [] => (state, [])
  | state, call :: calls =>
      let rest := serveAll serve (serve state call).1 calls
      (rest.1, (serve state call).2 :: rest.2)

/-! ## Following -/

/-- The tracker keeps what the roll keeps: its queue holds the roots of the entries in their order, its map
    their records. -/
structure Tracker.Follows (t : Tracker) (roll : Roll) : Prop where
  grid : t.grid = roll.grid
  retention : t.retention = roll.retention
  capacity : t.capacity = roll.capacity
  order : t.order = roll.entries.map Prod.fst
  lists : Lists t.records roll.entries

namespace Tracker.Follows

variable {t : Tracker} {roll : Roll}

theorem find?_eq (h : t.Follows roll) (root : Root) : t.find? root = roll.find? root := h.lists.same root

theorem size_eq (h : t.Follows roll) : t.size = roll.entries.length := h.lists.size_eq

theorem isEmpty_eq (h : t.Follows roll) : t.isEmpty = roll.entries.isEmpty := by
  have hsize : t.isEmpty ↔ roll.entries.isEmpty := by
    rw [Tracker.isEmpty, Std.ExtHashMap.isEmpty_iff, Std.ExtHashMap.eq_empty_iff_size_eq_zero,
      h.lists.size_eq, List.length_eq_zero_iff, List.isEmpty_iff]
  exact Bool.eq_iff_iff.mpr hsize

/-- A new root is put on record at the end of the roll. -/
theorem insert (h : t.Follows roll) {root : Root} {arrival : Arrival} (hnew : root ∉ t.records) :
    (t.insert root arrival).Follows
      { roll with entries := newest roll.capacity.toNat (roll.entries ++ [(root, arrival)]) } := by
  have hlists : Lists (t.records.insert root arrival) (roll.entries ++ [(root, arrival)]) :=
    h.lists.insert hnew
  have horder : t.order ++ [root] = (roll.entries ++ [(root, arrival)]).map Prod.fst := by
    rw [List.map_append, ← h.order, List.map_singleton]
  obtain ⟨hkept, hrecords⟩ := hlists.evict t.capacity.toNat
  unfold Tracker.insert
  rw [horder, ← h.capacity]
  exact ⟨h.grid, h.retention, rfl, hkept, hrecords⟩

theorem find?_isSome_iff (h : t.Follows roll) (root : Root) :
    (roll.find? root).isSome ↔ root ∈ t.records := by
  rw [Std.ExtHashMap.mem_iff_isSome_getElem?, h.lists.same]
  rfl

/-- An arrival in time is one before the attestation deadline. -/
theorem judge_eq (h : t.Follows roll) (slot : Slot) (offset : Millis) :
    t.judge slot offset
      = { slot, timely := decide (offset < (roll.grid.timing slot).attestationDue), offset } := by
  unfold Tracker.judge SlotTiming.isLate
  rw [h.grid, ← decide_not]
  congr 2
  exact propext UInt64.not_le

/-- **An arrival comes to the same.** -/
theorem arrive (h : t.Follows roll) (block : SignedBlock) (time : Millis) :
    (t.arrive block time).2 = (roll.arrive block time).2 ∧
      (t.arrive block time).1.Follows (roll.arrive block time).1 := by
  cases hoffset : (roll.grid.timing block.slot).offset? time with
  | none =>
      simp only [Tracker.arrive, Roll.arrive, h.grid, hoffset]
      exact ⟨trivial, h⟩
  | some offset =>
      by_cases hmem : block.root ∈ t.records
      · obtain ⟨arrival, hfound⟩ := Option.isSome_iff_exists.mp ((h.find?_isSome_iff block.root).mpr hmem)
        simp only [Tracker.arrive, Roll.arrive, h.grid, hoffset, if_pos hmem, hfound]
        exact ⟨trivial, h⟩
      · have hnone : roll.find? block.root = none :=
          Option.not_isSome_iff_eq_none.mp fun hsome => hmem ((h.find?_isSome_iff block.root).mp hsome)
        simp only [Tracker.arrive, Roll.arrive, h.grid, hoffset, if_neg hmem, hnone, h.judge_eq]
        exact ⟨trivial, h.insert hmem⟩

/-- The same records survive. -/
theorem survives_eq (h : t.Follows roll) (current : Slot) (arrival : Arrival) :
    decide (t.horizon current ≤ arrival.slot) = roll.survives current arrival := by
  unfold Tracker.horizon Roll.survives
  rw [decide_eq_decide, UInt64.le_iff_toNat_le, Word.toNat_subSat, h.retention]

/-- **Pruning comes to the same.** -/
theorem prune (h : t.Follows roll) (current : Slot) :
    (t.prune current).2 = (roll.prune current).2 ∧
      (t.prune current).1.Follows (roll.prune current).1 := by
  have hlists := h.lists.filter (roll.survives current)
  have hrecords : (t.records.filter fun _ arrival => decide (t.horizon current ≤ arrival.slot))
      = t.records.filter fun _ arrival => roll.survives current arrival := by
    congr 1
    funext _ arrival
    exact h.survives_eq current arrival
  unfold Tracker.prune Roll.prune
  simp only [hrecords]
  refine ⟨?_, h.grid, h.retention, h.capacity, ?_, hlists⟩
  · -- what is left and what is dropped make up what was there
    rw [h.lists.size_eq, hlists.size_eq, ← List.countP_eq_length_filter,
      List.length_eq_countP_add_countP fun entry => roll.survives current entry.2]
    rw [Nat.add_sub_cancel_left]
    exact List.countP_congr fun entry _ => by simp
  · -- the queue keeps a root if the map does, and that if its record survives
    rw [h.order, List.filter_map]
    have hkept (entry : Root × Arrival) (he : entry ∈ roll.entries) :
        decide (entry.1 ∈ t.records.filter fun _ arrival => roll.survives current arrival)
          = roll.survives current entry.2 := by
      apply Bool.eq_iff_iff.mpr
      exact decide_eq_true_iff.trans (h.lists.mem_filter_iff he)
    exact congrArg (List.map Prod.fst) (List.filter_congr hkept)

/-- **A call comes to the same, and the tracker goes on following.** -/
theorem serve (h : t.Follows roll) (call : TrackerCall) :
    (t.serve call).2 = (roll.serve call).2 ∧ (t.serve call).1.Follows (roll.serve call).1 := by
  cases call with
  | arrive block time =>
      obtain ⟨hresult, hfollows⟩ := h.arrive block time
      exact ⟨congrArg TrackerReply.arrived hresult, hfollows⟩
  | prune current =>
      obtain ⟨hcount, hfollows⟩ := h.prune current
      exact ⟨congrArg TrackerReply.pruned hcount, hfollows⟩
  | isTimely root =>
      refine ⟨?_, h⟩
      simp only [Tracker.serve, Roll.serve, Tracker.isTimely?, h.find?_eq]
  | isLate root =>
      refine ⟨?_, h⟩
      simp only [Tracker.serve, Roll.serve, Tracker.isLate, Tracker.isTimely?, h.find?_eq]
      rcases roll.find? root with _ | ⟨slot, _ | _, offset⟩ <;> rfl
  | find root =>
      refine ⟨?_, h⟩
      simp only [Tracker.serve, Roll.serve, h.find?_eq]
  | size =>
      refine ⟨?_, h⟩
      simp only [Tracker.serve, Roll.serve, h.size_eq]
  | isEmpty =>
      refine ⟨?_, h⟩
      simp only [Tracker.serve, Roll.serve, h.isEmpty_eq]

/-- **Any number of calls comes to the same.** -/
theorem run (h : t.Follows roll) (calls : List TrackerCall) :
    (serveAll Tracker.serve t calls).2 = (serveAll Roll.serve roll calls).2 ∧
      (serveAll Tracker.serve t calls).1.Follows (serveAll Roll.serve roll calls).1 := by
  induction calls generalizing t roll with
  | nil => exact ⟨rfl, h⟩
  | cons call calls ih =>
      obtain ⟨hreply, hfollows⟩ := h.serve call
      obtain ⟨hreplies, hend⟩ := ih hfollows
      exact ⟨congr (congrArg List.cons hreply) hreplies, hend⟩

end Tracker.Follows

/-! ## Runs -/

/-- A tracker and a roll begin alike. -/
theorem Tracker.follows_ofSettings (genesis duration : Millis) (settings : TimelinessSettings) :
    (Tracker.ofSettings genesis duration settings).Follows (Roll.ofSettings genesis duration settings) :=
  ⟨rfl, rfl, rfl, rfl, Lists.empty⟩

/-- **A tracker gives every sequence of calls the answers of the roll.** -/
theorem Tracker.answers_as_roll (genesis duration : Millis) (settings : TimelinessSettings)
    (calls : List TrackerCall) :
    (serveAll Tracker.serve (Tracker.ofSettings genesis duration settings) calls).2
      = (serveAll Roll.serve (Roll.ofSettings genesis duration settings) calls).2 :=
  ((follows_ofSettings genesis duration settings).run calls).1

end BeaconBroadcast
