import BeaconBroadcast.Proofs.Arrival.WriteOnce

/-!
# `BeaconBroadcast.Proofs.Arrival.Retention` — how long a record stays

A tracker of capacity `n` promises to keep a record until `n` other roots have been put on record after it, unless
pruning finds its slot too far back. Where nothing is pruned it keeps no record for longer: then it holds just the
last `n` roots that were put on record.

## Contents
- **Standing.** `Moment.Move.keeps`: a record keeps its place while few enough roots come after it.
- **Unpruned.** Without pruning the entries are the newest that were put on record.
- **Histories.** `Retention` holds of every history of a tracker that can keep a root at all.
-/

namespace BeaconBroadcast

/-- Whether the records of `arrival`'s slot survive whatever pruning there is at these moments. -/
def Spares (settings : TimelinessSettings) (past : List Moment) (arrival : Arrival) : Prop :=
  ∀ m ∈ past, ∀ current, m.call = .prune current →
    ¬ arrival.slot.toNat < current.toNat - settings.retentionSlots.toNat

/-- Whether none of these calls prunes. -/
def Unpruned (past : List Moment) : Prop := ∀ m ∈ past, ∀ current, m.call ≠ .prune current

/-! ## Standing -/

section

variable {settings : TimelinessSettings} {past : List Moment} {t : Tracker} {roll : Roll} {root : Root}
  {arrival : Arrival} {older newer : List (Root × Arrival)}

/-- **A record keeps its place as long as there is room for those behind it.** -/
theorem Moment.Move.keeps {m : Moment} {entries : List (Root × Arrival)} (hmove : m.Move roll entries)
    (hroll : roll.entries = older ++ (root, arrival) :: newer)
    (hroom : newer.length + (putsIn [m]).length < roll.capacity.toNat)
    (hspared : ∀ current, m.call = .prune current → roll.survives current arrival) :
    ∃ older' newer', entries = older' ++ (root, arrival) :: newer' ∧
      newer'.length ≤ newer.length + (putsIn [m]).length := by
  cases hmove with
  | stay quiet => exact ⟨older, newer, hroll, Nat.le_add_right _ _⟩
  | @put other newcomer recorded new =>
      have hone : putsIn [m] = [(other, newcomer)] := by simp [putsIn, recorded]
      rw [hone, List.length_singleton] at hroom ⊢
      have hbehind : (newer ++ [(other, newcomer)]).length < roll.capacity.toNat := by
        rw [List.length_append, List.length_singleton]
        exact hroom
      obtain ⟨kept, -, hkept⟩ := newest_append_cons older _ (root, arrival) hbehind
      refine ⟨kept, newer ++ [(other, newcomer)], ?_, by simp⟩
      rw [hroll, ← hkept, List.append_assoc, List.cons_append]
  | @prune current pruning =>
      refine ⟨older.filter fun entry => roll.survives current entry.2,
        newer.filter fun entry => roll.survives current entry.2, ?_, ?_⟩
      · rw [hroll, List.filter_append, List.filter_cons, if_pos (hspared current pruning)]
      · exact Nat.le_trans (List.length_filter_le _ _) (Nat.le_add_right _ _)

/-- **A record that stands in a place with room behind it is still there after calls for which there is
    room.** -/
theorem Tracker.Upkeep.find?_of_room (h : Upkeep settings past t roll)
    (hroll : roll.entries = older ++ (root, arrival) :: newer) (calls : List TrackerCall)
    (hroom : newer.length + (putsIn (t.history calls)).length < settings.maxTrackedBlocks.toNat)
    (hspares : Spares settings (t.history calls) arrival) :
    (t.after calls).find? root = some arrival := by
  induction calls generalizing past t roll older newer with
  | nil =>
      have hmem : (root, arrival) ∈ roll.entries := by simp [hroll]
      rw [after_nil, h.follows.find?_eq]
      exact lookup_of_mem h.follows.lists.nodup hmem
  | cons call calls ih =>
      obtain ⟨entries, hmove, hstep⟩ := h.step call
      rw [history_cons, ← List.singleton_append, putsIn_append, List.length_append] at hroom
      have hspared (current : Slot) (hcall : call = .prune current) : roll.survives current arrival := by
        have hnot := hspares ⟨t, call⟩ List.mem_cons_self current hcall
        rw [Roll.survives, h.retention, decide_eq_true_iff]
        omega
      obtain ⟨older', newer', hentries, hlength⟩ :=
        hmove.keeps hroll (by rw [h.capacity]; omega) hspared
      refine ih hstep hentries (by omega) ?_
      intro m hm
      exact hspares m (List.mem_cons_of_mem _ hm)

/-! ## Unpruned -/

/-- **Without pruning the entries are the newest that were put on record.** -/
theorem Tracker.Upkeep.entries_of_unpruned (h : Upkeep settings past t roll)
    (hroll : roll.entries = newest settings.maxTrackedBlocks.toNat (putsIn past)) (calls : List TrackerCall)
    (hunpruned : Unpruned (t.history calls)) :
    ∃ roll', Upkeep settings (past ++ t.history calls) (t.after calls) roll' ∧
      roll'.entries = newest settings.maxTrackedBlocks.toNat (putsIn (past ++ t.history calls)) := by
  induction calls generalizing past t roll with
  | nil => exact ⟨roll, by simpa using h, by simpa using hroll⟩
  | cons call calls ih =>
      obtain ⟨entries, hmove, hstep⟩ := h.step call
      have hentries : entries
          = newest settings.maxTrackedBlocks.toNat (putsIn (past ++ [⟨t, call⟩])) := by
        rw [putsIn_append]
        cases hmove with
        | stay quiet => simp [putsIn, quiet, hroll]
        | put recorded new => simp [putsIn, recorded, hroll, h.capacity, newest_newest_concat]
        | prune pruning => exact absurd pruning (hunpruned _ List.mem_cons_self _)
      have hrest : Unpruned ((t.serve call).1.history calls) := by
        intro m hm
        exact hunpruned m (List.mem_cons_of_mem _ hm)
      obtain ⟨roll', hend, hroll'⟩ := ih hstep hentries hrest
      exact ⟨roll', by simpa using hend, by simpa using hroll'⟩

end

/-! ## Histories -/

/-- How long the records of a tracker with this past stay. -/
structure Tracker.Retention (settings : TimelinessSettings) (t : Tracker) (past : List Moment) : Prop where
  /-- A record is there until as many roots have come after it as can be kept, if pruning spares it. -/
  kept : ∀ before m since root arrival, past = before ++ m :: since → m.put? = some (root, arrival) →
    (putsIn since).length < settings.maxTrackedBlocks.toNat → Spares settings since arrival →
    t.find? root = some arrival ∧ t.isTimely? root = some arrival.timely ∧ t.isLate root = !arrival.timely
  /-- Without pruning a root is off record once so many others have come after it, unless it came again. -/
  forgotten : Unpruned past → ∀ before m since root, past = before ++ m :: since → m.Puts root →
    settings.maxTrackedBlocks.toNat ≤ (putsIn since).countP (fun entry => entry.1 ≠ root) →
    (∀ x ∈ since, ¬ x.Puts root) → t.find? root = none
  /-- Without pruning the roots on record are those that were put there last. -/
  last : Unpruned past → ∀ root, t.find? root ≠ none ↔
    root ∈ (newest settings.maxTrackedBlocks.toNat (putsIn past)).map Prod.fst

theorem mem_putsIn {past : List Moment} {root : Root} :
    root ∈ (putsIn past).map Prod.fst ↔ ∃ m ∈ past, m.Puts root := by
  constructor
  · intro h
    obtain ⟨⟨other, arrival⟩, hmem, rfl⟩ := List.mem_map.mp h
    obtain ⟨m, hm, hput⟩ := List.mem_filterMap.mp hmem
    exact ⟨m, hm, arrival, hput⟩
  · rintro ⟨m, hm, arrival, hput⟩
    exact List.mem_map_of_mem (List.mem_filterMap.mpr ⟨m, hm, hput⟩)

/-- **How long records stay**, in every history of a tracker that can keep a root at all. -/
theorem Tracker.retention_after (genesis duration : Millis) (settings : TimelinessSettings)
    (hpos : 0 < settings.maxTrackedBlocks) (calls : List TrackerCall) :
    Retention settings ((ofSettings genesis duration settings).after calls)
      ((ofSettings genesis duration settings).history calls) := by
  have hpos : 0 < settings.maxTrackedBlocks.toNat := UInt64.lt_iff_toNat_lt.mp hpos
  have hstart := upkeep_ofSettings genesis duration settings
  have hlast (hunpruned : Unpruned ((ofSettings genesis duration settings).history calls)) (root : Root) :
      ((ofSettings genesis duration settings).after calls).find? root ≠ none ↔
        root ∈ (newest settings.maxTrackedBlocks.toNat
          (putsIn ((ofSettings genesis duration settings).history calls))).map Prod.fst := by
    have hempty : newest settings.maxTrackedBlocks.toNat (putsIn []) = [] := List.drop_nil
    obtain ⟨roll, hend, hroll⟩ := hstart.entries_of_unpruned hempty.symm calls hunpruned
    rw [hend.follows.find?_eq, Roll.find?, hroll, List.nil_append, ne_eq, lookup_eq_none_iff_not_mem,
      Decidable.not_not]
  refine ⟨?_, ?_, hlast⟩
  · intro before m since root arrival hpast hput hfew hspares
    have hfound : ((ofSettings genesis duration settings).after calls).find? root = some arrival := by
      obtain ⟨roll, second, hm, rfl, hend⟩ := upkeep_of_history_eq hpast
      obtain ⟨entries, hmove, hnext⟩ := hm.step m.call
      obtain ⟨-, older, rfl⟩ := hmove.of_put (by rw [hm.capacity]; exact hpos) hput
      have hroom : ([] : List (Root × Arrival)).length + (putsIn (m.next.history second)).length
          < settings.maxTrackedBlocks.toNat := by simpa using hfew
      rw [hend]
      exact hnext.find?_of_room rfl second hroom hspares
    refine ⟨hfound, ?_, ?_⟩
    · rw [isTimely?, hfound, Option.map_some]
    · rw [isLate, isTimely?, hfound, Option.map_some]
      cases arrival.timely <;> rfl
  · intro hunpruned before m since root hpast hputs hmany hnot
    have hothers : settings.maxTrackedBlocks.toNat ≤ (putsIn since).length :=
      Nat.le_trans hmany List.countP_le_length
    apply Decidable.not_not.mp
    intro hfound
    have hmem := (hlast hunpruned root).mp hfound
    rw [hpast, ← List.singleton_append, ← List.append_assoc, putsIn_append, newest_append_of_le hothers] at hmem
    obtain ⟨x, hx, hputs⟩ := mem_putsIn.mp (((newest_sublist _ _).map Prod.fst).subset hmem)
    exact hnot x hx hputs

/-- A root that comes last and is on record alone. -/
theorem retention_when_crowded :
    0 < TimelinessSettings.crowded.maxTrackedBlocks ∧
    ((Tracker.ofSettings 0 6 .crowded).after TrackerCall.crowding).find? (SignedBlock.bare 1).root
      = some { slot := 1, timely := true, offset := 0 } ∧
    Tracker.Retention .crowded ((Tracker.ofSettings 0 6 .crowded).after TrackerCall.crowding)
      ((Tracker.ofSettings 0 6 .crowded).history TrackerCall.crowding) := by
  have hpos : 0 < TimelinessSettings.crowded.maxTrackedBlocks := by decide
  refine ⟨hpos, ?_, Tracker.retention_after 0 6 .crowded hpos TrackerCall.crowding⟩
  rw [Tracker.find?_after]
  decide +kernel

end BeaconBroadcast
