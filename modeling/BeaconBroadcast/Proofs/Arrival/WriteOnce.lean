import BeaconBroadcast.Proofs.Arrival.History

/-!
# `BeaconBroadcast.Proofs.Arrival.WriteOnce` — a record stays as it was written

A root is judged by its first arrival. Once it is on record its record never changes, and it goes off record in two
ways only: pruning finds its slot too far back, or a new root displaces it because the tracker is full and no other
root has been on record for so long. Only then can another arrival of it count.

## Contents
- **Causes.** `Tracker.IsOldest`, and `Moment.MayDrop` for the two ways of going off record.
- **Look-up.** What a call does to the record of a root that is on record, and to a root that is not.
- **First arrivals.** `FirstSince`: which arrival a record is that of.
- **Histories.** `WriteOnce` holds of every history of a tracker that can keep a root at all.
-/

namespace BeaconBroadcast

/-! ## Causes -/

/-- Whether, with this history, every other root on record was put there after `root` was. -/
def Tracker.IsOldest (t : Tracker) (past : List Moment) (root : Root) : Prop :=
  ∃ before m since, past = before ++ m :: since ∧ m.Puts root ∧ (∀ x ∈ since, ¬ x.Puts root) ∧
    ∀ other, other ≠ root → t.find? other ≠ none → ∃ x ∈ since, x.Puts other

/-- The ways in which `root` with its record can go off record at a moment that has this past. -/
inductive Moment.MayDrop (settings : TimelinessSettings) (past : List Moment) (m : Moment) (root : Root)
    (arrival : Arrival) : Prop
  /-- Its slot lies too far back. -/
  | outlived {current : Slot} (pruning : m.call = .prune current)
      (behind : arrival.slot.toNat < current.toNat - settings.retentionSlots.toNat)
  /-- Another root takes its place in a tracker that is full. -/
  | displaced {other : Root} (puts : m.Puts other) (different : other ≠ root)
      (full : m.tracker.size = settings.maxTrackedBlocks.toNat) (oldest : m.tracker.IsOldest past root)

/-! ## Look-up -/

namespace Tracker.Upkeep

variable {past : List Moment} {t : Tracker} {roll : Roll} {root : Root} {arrival : Arrival}
  {settings : TimelinessSettings}

/-- The root at the front has been on record longest. -/
theorem isOldest {first : Root × Arrival} {entries : List (Root × Arrival)} (h : Upkeep settings past t roll)
    (hroll : roll.entries = first :: entries) : t.IsOldest past first.1 := by
  obtain ⟨before, m, since, hpast, hput, hnot, hlater⟩ := h.ranked [] first entries hroll
  refine ⟨before, m, since, hpast, ⟨first.2, hput⟩, hnot, ?_⟩
  intro other hother hfound
  rw [h.follows.find?_eq, Roll.find?, hroll, lookup_cons_of_ne hother, ne_eq,
    lookup_eq_none_iff_not_mem, Decidable.not_not] at hfound
  obtain ⟨entry, hentry, rfl⟩ := List.mem_map.mp hfound
  exact hlater entry hentry

/-- **A call leaves a record as it is, or it drops it for one of two causes.** -/
theorem find?_of_some (h : Upkeep settings past t roll) (hpos : 0 < settings.maxTrackedBlocks.toNat)
    (hfound : t.find? root = some arrival) (call : TrackerCall) :
    (t.serve call).1.find? root = some arrival ∨
      (t.serve call).1.find? root = none ∧ Moment.MayDrop settings past ⟨t, call⟩ root arrival := by
  obtain ⟨entries, hmove, hstep⟩ := h.step call
  have hlookup : roll.entries.lookup root = some arrival := by rw [← hfound, h.follows.find?_eq]; rfl
  have hafter : (t.serve call).1.find? root = entries.lookup root := hstep.follows.find?_eq root
  rw [hafter]
  cases hmove with
  | stay quiet => exact Or.inl hlookup
  | @put other newcomer recorded new =>
      have hother : other ≠ root := by
        rintro rfl
        rw [lookup_eq_none_of_not_mem new] at hlookup
        cases hlookup
      rw [h.capacity]
      rcases Nat.lt_or_ge roll.entries.length settings.maxTrackedBlocks.toNat with hroom | hfull
      · rw [newest_concat_of_lt hroom, lookup_concat_of_ne hother]
        exact Or.inl hlookup
      · -- the first entry goes, and there is one since the tracker can keep a root at all
        have hfits := h.fits
        cases hroll : roll.entries with
        | nil =>
            rw [hroll, List.length_nil] at hfull
            omega
        | cons first rest =>
            rw [hroll] at hlookup hfits hfull
            have hlength : rest.length + 1 = settings.maxTrackedBlocks.toNat := Nat.le_antisymm hfits hfull
            rw [newest_cons_concat hlength, lookup_concat_of_ne hother]
            by_cases hfirst : root = first.1
            · subst hfirst
              have hnodup := h.follows.lists.nodup
              rw [hroll, List.map_cons, List.nodup_cons] at hnodup
              refine Or.inr ⟨lookup_eq_none_of_not_mem hnodup.1, ?_⟩
              refine .displaced ⟨newcomer, recorded⟩ hother ?_ (h.isOldest hroll)
              rw [h.follows.size_eq, hroll]
              exact hlength
            · rw [lookup_cons_of_ne hfirst] at hlookup
              exact Or.inl hlookup
  | @prune current pruning =>
      rw [lookup_filter _ h.follows.lists.nodup, hlookup]
      by_cases hsurvives : roll.survives current arrival
      · rw [Option.filter_some_pos hsurvives]
        exact Or.inl rfl
      · rw [Option.filter_some_neg (eq_false_of_ne_true hsurvives)]
        refine Or.inr ⟨rfl, .outlived pruning ?_⟩
        rw [Roll.survives, h.retention, decide_eq_true_iff] at hsurvives
        omega

/-- What is put on record was not there before, and is there afterwards. -/
theorem find?_of_put (h : Upkeep settings past t roll) (hpos : 0 < settings.maxTrackedBlocks.toNat)
    {call : TrackerCall} (hput : Moment.put? ⟨t, call⟩ = some (root, arrival)) :
    t.find? root = none ∧ (t.serve call).1.find? root = some arrival := by
  rw [← h.capacity] at hpos
  exact h.follows.find?_of_put hpos hput

/-- **A root that is not on record is there afterwards just if it arrived**, and then with this arrival. -/
theorem find?_of_none (h : Upkeep settings past t roll) (hpos : 0 < settings.maxTrackedBlocks.toNat)
    (habsent : t.find? root = none) (call : TrackerCall) :
    (t.serve call).1.find? root = Moment.arrival? ⟨t, call⟩ root := by
  cases harrival : Moment.arrival? ⟨t, call⟩ root with
  | some arrival =>
      have hput : Moment.put? ⟨t, call⟩ = some (root, arrival) :=
        (Moment.put?_eq_some_iff habsent).mpr harrival
      exact (h.find?_of_put hpos hput).2
  | none =>
      have hnot : ¬ Moment.Puts ⟨t, call⟩ root := by
        rintro ⟨arrival, hput⟩
        rw [(Moment.put?_eq_some_iff habsent).mp hput] at harrival
        cases harrival
      obtain ⟨entries, hmove, hstep⟩ := h.step call
      rw [h.follows.find?_eq] at habsent
      rw [hstep.follows.find?_eq]
      exact hmove.lookup_eq_none habsent hnot

end Tracker.Upkeep

/-! ## First arrivals -/

/-- Whether `root` has not arrived since it was last dropped, or from the start on. -/
def Unseen (past : List Moment) (root : Root) : Prop :=
  ∃ before since, past = before ++ since ∧ (∀ m ∈ before.getLast?, m.Drops root) ∧
    ∀ m ∈ since, m.arrival? root = none ∧ ¬ m.Drops root

/-- Whether `arrival` is the first arrival of `root` since it was last dropped, or from the start on. -/
def FirstSeen (past : List Moment) (root : Root) (arrival : Arrival) : Prop :=
  ∃ before m since, past = before ++ m :: since ∧ Unseen before root ∧ m.arrival? root = some arrival ∧
    ∀ x ∈ m :: since, ¬ x.Drops root

/-- Whether what is on record of `root` is what should be, after this past. -/
def Accounted (past : List Moment) (root : Root) : Option Arrival → Prop
  | none => Unseen past root
  | some arrival => FirstSeen past root arrival

namespace Tracker.Upkeep

variable {settings : TimelinessSettings} {past : List Moment} {t : Tracker} {roll : Roll} {root : Root}

/-- **Every call leaves on record of a root what should be.** -/
theorem accounted_step (h : Upkeep settings past t roll) (hpos : 0 < settings.maxTrackedBlocks.toNat)
    (call : TrackerCall) (haccounted : Accounted past root (t.find? root)) :
    Accounted (past ++ [⟨t, call⟩]) root ((t.serve call).1.find? root) := by
  cases hfound : t.find? root with
  | none =>
      rw [hfound] at haccounted
      have hkept : ¬ Moment.Drops ⟨t, call⟩ root := fun hdrops => hdrops.1 hfound
      rw [h.find?_of_none hpos hfound]
      cases harrival : Moment.arrival? ⟨t, call⟩ root with
      | none =>
          obtain ⟨before, since, rfl, hlast, hsince⟩ := haccounted
          refine ⟨before, since ++ [⟨t, call⟩], by simp, hlast, ?_⟩
          intro m hm
          rcases List.mem_append.mp hm with hm | hm
          · exact hsince m hm
          · rw [List.mem_singleton.mp hm]
            exact ⟨harrival, hkept⟩
      | some arrival =>
          refine ⟨past, ⟨t, call⟩, [], rfl, haccounted, harrival, ?_⟩
          intro m hm
          rw [List.mem_singleton.mp hm]
          exact hkept
  | some arrival =>
      rw [hfound] at haccounted
      rcases h.find?_of_some hpos hfound call with hafter | ⟨hafter, -⟩
      · rw [hafter]
        have hkept : ¬ Moment.Drops ⟨t, call⟩ root := by
          rintro ⟨-, hgone⟩
          cases hafter.symm.trans hgone
        obtain ⟨before, m, since, rfl, hbefore, hfirst, hsince⟩ := haccounted
        refine ⟨before, m, since ++ [⟨t, call⟩], by simp, hbefore, hfirst, ?_⟩
        intro x hx
        rw [← List.cons_append, List.mem_append, List.mem_singleton] at hx
        rcases hx with hx | rfl
        · exact hsince x hx
        · exact hkept
      · -- the root is dropped at this very moment, so nothing has happened since
        rw [hafter]
        have hdrops : Moment.Drops ⟨t, call⟩ root := ⟨by rw [hfound]; exact Option.some_ne_none _, hafter⟩
        refine ⟨past ++ [⟨t, call⟩], [], by simp, ?_, by simp⟩
        intro m hm
        rw [List.getLast?_concat, Option.mem_some_iff] at hm
        rw [← hm]
        exact hdrops

/-- **So does any number of calls.** -/
theorem accounted_run (h : Upkeep settings past t roll) (hpos : 0 < settings.maxTrackedBlocks.toNat)
    (calls : List TrackerCall) (haccounted : Accounted past root (t.find? root)) :
    Accounted (past ++ t.history calls) root ((t.after calls).find? root) := by
  induction calls generalizing past t roll with
  | nil => simpa using haccounted
  | cons call calls ih =>
      obtain ⟨entries, -, hstep⟩ := h.step call
      simpa using ih hstep (h.accounted_step hpos call haccounted)

end Tracker.Upkeep

/-! ## Histories -/

/-- Between being on record and not being there lies a moment at which the root is dropped. -/
theorem Tracker.exists_drops {t : Tracker} {root : Root} {calls : List TrackerCall}
    (hfound : t.find? root ≠ none) (hgone : (t.after calls).find? root = none) :
    ∃ m ∈ t.history calls, m.Drops root := by
  induction calls generalizing t with
  | nil => exact absurd hgone hfound
  | cons call calls ih =>
      by_cases hnext : (t.serve call).1.find? root = none
      · exact ⟨⟨t, call⟩, List.mem_cons_self, hfound, hnext⟩
      · obtain ⟨m, hm, hdrops⟩ := ih hnext hgone
        exact ⟨m, List.mem_cons_of_mem _ hm, hdrops⟩

/-- An arrival that is not put on record changes nothing. -/
theorem Tracker.arrive_idle {t : Tracker} {block : SignedBlock} {time : Millis}
    (h : (t.arrive block time).2.record? = none) : (t.arrive block time).1 = t := by
  unfold arrive at h ⊢
  split at h
  · rfl
  · split at h
    · next hmem => rw [if_pos hmem]
    · cases h

/-- What it means that the records of a tracker with this past are written once. -/
structure Tracker.WriteOnce (settings : TimelinessSettings) (t : Tracker) (past : List Moment) : Prop where
  /-- Whatever is called next, a record stays as it is or goes for one of two causes. -/
  kept : ∀ root arrival call, t.find? root = some arrival →
    (t.serve call).1.find? root = some arrival ∨
      (t.serve call).1.find? root = none ∧ Moment.MayDrop settings past ⟨t, call⟩ root arrival
  /-- So it was at every moment. -/
  caused : ∀ before m since root arrival, past = before ++ m :: since → m.Drops root →
    m.tracker.find? root = some arrival → Moment.MayDrop settings before m root arrival
  /-- A root is put on record again only if it was dropped in between. -/
  separated : ∀ before first between second since root, past = before ++ first :: (between ++ second :: since) →
    first.Puts root → second.Puts root → ∃ m ∈ between, m.Drops root
  /-- A record is that of the first arrival since the root was last dropped. -/
  first_seen : ∀ root arrival, t.find? root = some arrival → FirstSeen past root arrival
  /-- An arrival that is not put on record changes nothing, not even the order in which roots go. -/
  idle : ∀ block time, (t.arrive block time).2 = .alreadyRecorded ∨ (t.arrive block time).2 = .future →
    (t.arrive block time).1 = t

/-- **Records are written once**, in every history of a tracker that can keep a root at all. -/
theorem Tracker.writeOnce_after (genesis duration : Millis) (settings : TimelinessSettings)
    (hpos : 0 < settings.maxTrackedBlocks) (calls : List TrackerCall) :
    WriteOnce settings ((ofSettings genesis duration settings).after calls)
      ((ofSettings genesis duration settings).history calls) := by
  have hpos : 0 < settings.maxTrackedBlocks.toNat := UInt64.lt_iff_toNat_lt.mp hpos
  have hstart := upkeep_ofSettings genesis duration settings
  obtain ⟨entries, hend⟩ := hstart.run calls
  refine ⟨?_, ?_, ?_, ?_, ?_⟩
  · intro root arrival call hfound
    exact hend.find?_of_some hpos hfound call
  · intro before m since root arrival hpast hdrops hfound
    obtain ⟨roll, second, hm, -, -⟩ := upkeep_of_history_eq hpast
    rcases hm.find?_of_some hpos hfound m.call with hafter | ⟨-, hcause⟩
    · cases hafter.symm.trans hdrops.2
    · exact hcause
  · intro before first between second since root hpast hfirst hsecond
    -- the root is on record after the first of the two moments, and is not before the second
    obtain ⟨roll, rest, hm, hrest, -⟩ := upkeep_of_history_eq hpast
    obtain ⟨arrival, hput⟩ := hfirst
    have hthere : first.next.find? root = some arrival := (hm.find?_of_put hpos hput).2
    obtain ⟨middle, -, -, rfl, htracker, -⟩ := of_history_eq first.next hrest.symm
    rw [← List.cons_append, ← List.append_assoc] at hpast
    obtain ⟨roll, -, hn, -, -⟩ := upkeep_of_history_eq hpast
    obtain ⟨arrival', hput'⟩ := hsecond
    have hgone : (first.next.after middle).find? root = none := by
      rw [← htracker]
      exact (hn.find?_of_put hpos hput').1
    exact exists_drops (by rw [hthere]; exact Option.some_ne_none _) hgone
  · intro root arrival hfound
    have hnone : (ofSettings genesis duration settings).find? root = none := Std.ExtHashMap.getElem?_empty
    have hunseen : Accounted [] root ((ofSettings genesis duration settings).find? root) := by
      rw [hnone]
      exact ⟨[], [], rfl, by simp, by simp⟩
    have haccounted := hstart.accounted_run hpos calls hunseen
    rw [hfound] at haccounted
    exact haccounted
  · intro block time hidle
    apply arrive_idle
    rcases hidle with hidle | hidle <;> rw [hidle] <;> rfl

/-- A root that goes off record when another one comes. -/
theorem writeOnce_when_crowded :
    0 < TimelinessSettings.crowded.maxTrackedBlocks ∧
    ((Tracker.ofSettings 0 6 .crowded).after [.arrive (.bare 0) 0]).find? (SignedBlock.bare 0).root
      = some { slot := 0, timely := true, offset := 0 } ∧
    ((Tracker.ofSettings 0 6 .crowded).after TrackerCall.crowding).find? (SignedBlock.bare 0).root = none ∧
    Tracker.WriteOnce .crowded ((Tracker.ofSettings 0 6 .crowded).after TrackerCall.crowding)
      ((Tracker.ofSettings 0 6 .crowded).history TrackerCall.crowding) := by
  have hpos : 0 < TimelinessSettings.crowded.maxTrackedBlocks := by decide
  refine ⟨hpos, ?_, ?_, Tracker.writeOnce_after 0 6 .crowded hpos TrackerCall.crowding⟩
  · rw [Tracker.find?_after]
    decide +kernel
  · rw [Tracker.find?_after]
    decide +kernel

end BeaconBroadcast
