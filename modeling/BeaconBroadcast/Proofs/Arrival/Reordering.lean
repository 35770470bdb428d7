import Mathlib.Data.List.Dedup
import Mathlib.Data.List.Induction
import Mathlib.Data.List.Perm.Subperm
import BeaconBroadcast.Proofs.Arrival.History

/-!
# `BeaconBroadcast.Proofs.Arrival.Reordering` — arrivals of different blocks do not meet

Arrivals reach a tracker in no particular order. As long as it has room for all the roots that it is to keep, what
comes of an arrival depends on the earlier arrivals of the same root and on nothing else. So arrivals of different
roots may change places, and nobody can tell: not from the records, not from any answer, and not from the ledger.

## Contents
- **Sightings.** `Sighting` is a block with the time of its arrival; `Tracker.verdicts` is what comes of each of a
  list of them, and `Tracker.replies_eq` that the callers hear it.
- **Rulings.** `Tracker.ruling`: what comes of a sighting, by the earlier sightings of its root.
- **Room.** `Tracker.Remembers`: while there is room, a tracker keeps the first arrival of every root, so that its
  verdicts are the rulings.
- **Reorderings.** `Reorders` keeps the order of the sightings of each root, and the rulings on them.
- **First arrivals.** `Tracker.FirstCounts`: one arrival of a root is put on record.
- **Outcomes.** `Tracker.sightings_in_any_order`, with a list of sightings in two orders.
-/

namespace BeaconBroadcast

/-! ## Sightings -/

/-- A block that arrives at some time. -/
structure Sighting where
  block : SignedBlock
  time : Millis
deriving DecidableEq

namespace Sighting

def root (s : Sighting) : Root := s.block.root

/-- The sighting, as a tracker is told of it. -/
def call (s : Sighting) : TrackerCall := .arrive s.block s.time

/-- How a tracker judges the sighting, if it does not come too early. What is on record makes no difference. -/
def judged? (s : Sighting) (t : Tracker) : Option Arrival :=
  ((t.grid.timing s.block.slot).offset? s.time).map (t.judge s.block.slot)

theorem judged?_congr (s : Sighting) {t u : Tracker} (h : u.grid = t.grid) : s.judged? u = s.judged? t := by
  unfold judged?
  rw [h]
  congr 1
  funext offset
  show ({ slot := _, timely := _, offset := _ } : Arrival) = { slot := _, timely := _, offset := _ }
  rw [h]

end Sighting

namespace Tracker

/-- What comes of each sighting, one after the other. -/
def verdicts (t : Tracker) : List Sighting → List (Sighting × ArrivalResult)
  | [] => []
  | s :: seen => (s, (t.arrive s.block s.time).2) :: (t.arrive s.block s.time).1.verdicts seen

/-- The tracker answers its calls with the verdicts. -/
theorem replies_eq (t : Tracker) (seen : List Sighting) :
    (serveAll serve t (seen.map Sighting.call)).2 = (t.verdicts seen).map fun v => .arrived v.2 := by
  induction seen generalizing t with
  | nil => rfl
  | cons s seen ih =>
      show _ :: (serveAll serve (t.arrive s.block s.time).1 (seen.map Sighting.call)).2 = _
      rw [ih, verdicts, List.map_cons]
      rfl

/-! ## Rulings -/

/-- The first arrival of `root` that does not come too early. -/
def firstArrival? (t : Tracker) (seen : List Sighting) (root : Root) : Option Arrival :=
  (seen.filter fun s => s.root = root).findSome? (·.judged? t)

/-- What comes of a sighting that is seen after others: the first of its root that does not come too early is put on
    record. -/
def ruling (t : Tracker) (before : List Sighting) (s : Sighting) : ArrivalResult :=
  match s.judged? t, t.firstArrival? before s.root with
  | none, _ => .future
  | some _, some _ => .alreadyRecorded
  | some arrival, none => .recorded arrival

/-- What comes of each of the sightings that are seen after others. -/
def rulings (t : Tracker) (before : List Sighting) : List Sighting → List (Sighting × ArrivalResult)
  | [] => []
  | s :: seen => (s, t.ruling before s) :: t.rulings (before ++ [s]) seen

variable {t u : Tracker} {before seen : List Sighting} {s : Sighting} {root : Root} {arrival : Arrival}

theorem firstArrival?_concat : t.firstArrival? (before ++ [s]) root =
    (t.firstArrival? before root).or (if s.root = root then s.judged? t else none) := by
  unfold firstArrival?
  rw [List.filter_append, List.findSome?_append]
  by_cases hroot : s.root = root
  · simp [hroot]
  · simp [hroot]

theorem firstArrival?_eq_none_iff :
    t.firstArrival? seen root = none ↔ ∀ s ∈ seen, s.root = root → s.judged? t = none := by
  simp [firstArrival?]

theorem ruling_of_early (h : s.judged? t = none) : t.ruling before s = .future := by
  simp only [ruling, h]

theorem ruling_of_first (h : s.judged? t = some arrival) (hfirst : t.firstArrival? before s.root = none) :
    t.ruling before s = .recorded arrival := by
  simp only [ruling, h, hfirst]

theorem ruling_of_later (h : s.judged? t ≠ none) (hlater : t.firstArrival? before s.root ≠ none) :
    t.ruling before s = .alreadyRecorded := by
  obtain ⟨arrival, harrival⟩ := Option.ne_none_iff_exists'.mp h
  obtain ⟨first, hfirst⟩ := Option.ne_none_iff_exists'.mp hlater
  simp only [ruling, harrival, hfirst]

theorem rulings_append (t : Tracker) (before first second : List Sighting) :
    t.rulings before (first ++ second) = t.rulings before first ++ t.rulings (before ++ first) second := by
  induction first generalizing before with
  | nil => simp [rulings]
  | cons s first ih => simp [rulings, ih]

/-- Each sighting is ruled on by those before it. -/
theorem ruling_of_mem {v : Sighting × ArrivalResult} (h : v ∈ t.rulings before seen) :
    v.1 ∈ seen ∧ ∃ earlier, v.2 = t.ruling (before ++ earlier) v.1 := by
  induction seen generalizing before with
  | nil => exact absurd h List.not_mem_nil
  | cons s seen ih =>
      rcases List.mem_cons.mp h with rfl | h
      · exact ⟨List.mem_cons_self, [], by rw [List.append_nil]⟩
      · obtain ⟨hmem, earlier, heq⟩ := ih h
        exact ⟨List.mem_cons_of_mem _ hmem, s :: earlier, by rw [heq, ← List.append_cons]⟩

/-- **Only sightings of the same root matter.** -/
theorem rulings_filter (t : Tracker) (before seen : List Sighting) (root : Root) :
    (t.rulings before seen).filter (fun v => v.1.root = root)
      = t.rulings (before.filter fun s => s.root = root) (seen.filter fun s => s.root = root) := by
  induction seen generalizing before with
  | nil => rfl
  | cons s seen ih =>
      rw [rulings, List.filter_cons, List.filter_cons, ih, List.filter_append]
      by_cases hroot : s.root = root
      · have hsame : t.ruling (before.filter fun s => s.root = root) s = t.ruling before s := by
          unfold ruling firstArrival?
          rw [hroot, List.filter_filter]
          simp only [Bool.and_self]
        simp [hroot, rulings, hsame]
      · simp [hroot]

/-! ## Room -/

/-- The roots of all sightings that do not come too early, each of them once. -/
def judgedRoots (t : Tracker) (seen : List Sighting) : List Root :=
  ((seen.filter fun s => (s.judged? t).isSome).map Sighting.root).dedup

theorem mem_judgedRoots_iff : root ∈ t.judgedRoots seen ↔ t.firstArrival? seen root ≠ none := by
  simp only [judgedRoots, List.mem_dedup, List.mem_map, List.mem_filter, ne_eq, firstArrival?_eq_none_iff,
    Option.isSome_iff_ne_none]
  push Not
  exact ⟨fun ⟨s, ⟨hmem, hjudged⟩, hroot⟩ => ⟨s, hmem, hroot, hjudged⟩,
    fun ⟨s, hmem, hroot, hjudged⟩ => ⟨s, ⟨hmem, hjudged⟩, hroot⟩⟩

/-- Seeing less leaves no fewer roots to come. -/
theorem length_judgedRoots_le {first : List Sighting} (h : first ⊆ seen) :
    (t.judgedRoots first).length ≤ (t.judgedRoots seen).length := by
  have hsub : t.judgedRoots first ⊆ t.judgedRoots seen := by
    intro root hroot
    rw [mem_judgedRoots_iff, ne_eq, firstArrival?_eq_none_iff] at hroot ⊢
    exact fun hnone => hroot fun s hs => hnone s (h hs)
  exact ((List.nodup_dedup _).subperm hsub).length_le

/-- How an arrival goes, by the record of its root. -/
theorem arrive_eq (t : Tracker) (s : Sighting) : t.arrive s.block s.time =
    match s.judged? t, t.find? s.root with
    | none, _ => (t, .future)
    | some _, some _ => (t, .alreadyRecorded)
    | some arrival, none => (t.insert s.root arrival, .recorded arrival) := by
  unfold arrive Sighting.judged?
  cases (t.grid.timing s.block.slot).offset? s.time with
  | none => rfl
  | some offset =>
      have hmem : s.block.root ∈ t.records ↔ (t.find? s.root).isSome := Std.ExtHashMap.mem_iff_isSome_getElem?
      simp only [hmem, Option.map_some]
      cases t.find? s.root with
      | none => simp [Sighting.root]
      | some arrival => simp

/-- What holds of a tracker `u` that was `t` at first and has seen some sightings since, and of the roll that it
    follows: no record is missing. -/
structure Remembers (t : Tracker) (before : List Sighting) (u : Tracker) (roll : Roll) : Prop where
  grid : u.grid = t.grid
  capacity : roll.capacity = t.capacity
  follows : u.Follows roll
  found : ∀ root, roll.find? root = t.firstArrival? before root

namespace Remembers

variable {roll : Roll}

theorem find?_eq (h : t.Remembers before u roll) (root : Root) : u.find? root = t.firstArrival? before root := by
  rw [h.follows.find?_eq, h.found]

/-- Where there is room for the roots of all sightings so far, there is a place for one that is new. -/
theorem length_lt (h : t.Remembers before u roll) (hjudged : s.judged? t = some arrival)
    (hnew : t.firstArrival? before s.root = none)
    (room : (t.judgedRoots (before ++ [s])).length ≤ t.capacity.toNat) :
    roll.entries.length < roll.capacity.toNat := by
  -- the roots on record and the new one are different, and all of them have been seen
  have hnodup : (s.root :: roll.entries.map Prod.fst).Nodup := by
    refine List.nodup_cons.mpr ⟨?_, h.follows.lists.nodup⟩
    rw [← lookup_eq_none_iff_not_mem]
    exact (h.found s.root).trans hnew
  have hsub : s.root :: roll.entries.map Prod.fst ⊆ t.judgedRoots (before ++ [s]) := by
    intro root hroot
    rw [mem_judgedRoots_iff, firstArrival?_concat]
    rcases List.mem_cons.mp hroot with rfl | hroot
    · simp [hjudged]
    · have hthere : t.firstArrival? before root ≠ none := by
        rw [← h.found]
        exact fun hnone => lookup_eq_none_iff_not_mem.mp hnone hroot
      simp [hthere]
  have hle := (hnodup.subperm hsub).length_le
  rw [List.length_cons, List.length_map] at hle
  rw [h.capacity]
  omega

/-- **A sighting is ruled on, and nothing is forgotten.** -/
theorem step (h : t.Remembers before u roll) (s : Sighting)
    (room : (t.judgedRoots (before ++ [s])).length ≤ t.capacity.toNat) :
    (u.arrive s.block s.time).2 = t.ruling before s ∧
      ∃ entries, t.Remembers (before ++ [s]) (u.arrive s.block s.time).1 { roll with entries } := by
  have hstay (hsame : ∀ root, t.firstArrival? (before ++ [s]) root = t.firstArrival? before root) :
      t.Remembers (before ++ [s]) u roll :=
    ⟨h.grid, h.capacity, h.follows, fun root => (h.found root).trans (hsame root).symm⟩
  rw [arrive_eq, s.judged?_congr h.grid, h.find?_eq]
  unfold ruling
  cases hjudged : s.judged? t with
  | none =>
      refine ⟨rfl, roll.entries, hstay ?_⟩
      intro root
      rw [firstArrival?_concat, hjudged, ite_self, Option.or_none]
  | some arrival =>
      cases hfirst : t.firstArrival? before s.root with
      | some first =>
          refine ⟨rfl, roll.entries, hstay ?_⟩
          intro root
          rw [firstArrival?_concat]
          by_cases hroot : s.root = root
          · rw [← hroot, hfirst, Option.some_or]
          · rw [if_neg hroot, Option.or_none]
      | none =>
          have hnew : s.root ∉ u.records := by
            rw [← h.follows.find?_isSome_iff, h.found, hfirst]
            exact Bool.false_ne_true
          have hroom := h.length_lt hjudged hfirst room
          have hfollows : (u.insert s.root arrival).Follows _ := h.follows.insert hnew
          rw [newest_concat_of_lt hroom] at hfollows
          refine ⟨rfl, roll.entries ++ [(s.root, arrival)], h.grid, h.capacity, hfollows, ?_⟩
          intro root
          rw [firstArrival?_concat, ← h.found, hjudged]
          show (roll.entries ++ [(s.root, arrival)]).lookup root = (roll.entries.lookup root).or _
          rw [List.lookup_append]
          by_cases hroot : s.root = root
          · rw [if_pos hroot, ← hroot, List.lookup_cons_self]
          · rw [if_neg hroot, lookup_cons_of_ne (fun heq => hroot heq.symm)]
            rfl

/-- **So are any number of sightings.** -/
theorem run (h : t.Remembers before u roll) (seen : List Sighting)
    (room : (t.judgedRoots (before ++ seen)).length ≤ t.capacity.toNat) :
    u.verdicts seen = t.rulings before seen ∧
      ∃ entries, t.Remembers (before ++ seen) (u.after (seen.map Sighting.call)) { roll with entries } := by
  induction seen generalizing before u roll with
  | nil => exact ⟨rfl, roll.entries, by simpa using h⟩
  | cons s seen ih =>
      rw [List.append_cons] at room ⊢
      have hroom := Nat.le_trans (length_judgedRoots_le (List.subset_append_left (before ++ [s]) seen)) room
      obtain ⟨hresult, entries, hnext⟩ := h.step s hroom
      obtain ⟨hresults, entries, hend⟩ := ih hnext room
      refine ⟨?_, entries, hend⟩
      rw [verdicts, rulings, hresult, hresults]

end Remembers

end Tracker

/-- A tracker with nothing on record remembers all that it has seen, which is nothing. -/
theorem Tracker.remembers_ofSettings (genesis duration : Millis) (settings : TimelinessSettings) :
    Remembers (ofSettings genesis duration settings) [] (ofSettings genesis duration settings)
      (Roll.ofSettings genesis duration settings) :=
  ⟨rfl, rfl, follows_ofSettings genesis duration settings, fun _ => rfl⟩

/-! ## Reorderings -/

/-- Lists that hold the same of each key, in the same order, are permutations of each other. -/
theorem perm_of_filter_eq {α κ : Type} [DecidableEq α] [DecidableEq κ] (key : α → κ) {first second : List α}
    (h : ∀ k, second.filter (fun a => key a = k) = first.filter (fun a => key a = k)) : second.Perm first := by
  rw [List.perm_iff_count]
  intro a
  have hcount (l : List α) : (l.filter fun b => key b = key a).count a = l.count a :=
    List.count_filter (by simp)
  rw [← hcount second, ← hcount first, h]

/-- The second list holds the sightings of the first in an order that keeps the sightings of each root in theirs. -/
def Reorders (first second : List Sighting) : Prop :=
  ∀ root, second.filter (fun s => s.root = root) = first.filter (fun s => s.root = root)

namespace Reorders

variable {first second : List Sighting}

theorem perm (h : Reorders first second) : second.Perm first := perm_of_filter_eq Sighting.root h

/-- Neighbours of different roots may change places. -/
theorem swap (before after : List Sighting) {s s' : Sighting} (hne : s.root ≠ s'.root) :
    Reorders (before ++ s :: s' :: after) (before ++ s' :: s :: after) := by
  intro root
  simp only [List.filter_append, List.filter_cons]
  by_cases hs : s.root = root
  · have hs' : s'.root ≠ root := fun heq => hne (hs.trans heq.symm)
    simp [hs, hs']
  · simp [hs]

theorem firstArrival?_eq (h : Reorders first second) (t : Tracker) (root : Root) :
    t.firstArrival? second root = t.firstArrival? first root := by
  unfold Tracker.firstArrival?
  rw [h root]

/-- There is to be room for the same roots. -/
theorem length_judgedRoots_eq (h : Reorders first second) (t : Tracker) :
    (t.judgedRoots second).length = (t.judgedRoots first).length :=
  Nat.le_antisymm (Tracker.length_judgedRoots_le h.perm.subset) (Tracker.length_judgedRoots_le h.perm.symm.subset)

end Reorders

/-- The counters do not tell in which order results came. -/
theorem Ledger.observeArrival_right_comm (l : Ledger) (result other : ArrivalResult) :
    (l.observeArrival result).observeArrival other = (l.observeArrival other).observeArrival result := by
  rcases result with ⟨slot, _ | _, offset⟩ | _ | _ <;> rcases other with ⟨slot', _ | _, offset'⟩ | _ | _ <;> rfl

/-! ## First arrivals -/

namespace Tracker

/-- What it means that of all sightings of `root` just `first` goes on record, with `arrival`: it is the first that
    does not come too early. -/
structure FirstCounts (t : Tracker) (seen : List Sighting) (root : Root) (first : Sighting) (arrival : Arrival)
    (before after : List (Sighting × ArrivalResult)) : Prop where
  split : t.verdicts seen = before ++ (first, .recorded arrival) :: after
  names : first.root = root
  judged : first.judged? t = some arrival
  /-- Before it the root is seen only too early. -/
  early : ∀ v ∈ before, v.1.root = root → v.1.judged? t = none ∧ v.2 = .future
  /-- After it nothing that has come in time makes a difference. -/
  late : ∀ v ∈ after, v.1.root = root →
    (v.1.judged? t = none → v.2 = .future) ∧ (v.1.judged? t ≠ none → v.2 = .alreadyRecorded)
  kept : (t.after (seen.map Sighting.call)).find? root = some arrival

variable {t : Tracker} {seen : List Sighting} {root : Root} {arrival : Arrival}

/-- The first arrival of a root is that of a sighting before which none of the root has come in time. -/
theorem exists_firstArrival (h : t.firstArrival? seen root = some arrival) :
    ∃ before first after, seen = before ++ first :: after ∧ first.root = root ∧
      first.judged? t = some arrival ∧ t.firstArrival? before root = none := by
  induction seen using List.reverseRecOn with
  | nil => cases h
  | append_singleton seen s ih =>
      rw [firstArrival?_concat] at h
      cases hseen : t.firstArrival? seen root with
      | some first =>
          rw [hseen, Option.some_or] at h
          obtain ⟨before, first, after, rfl, hfirst⟩ := ih (hseen.trans h)
          exact ⟨before, first, after ++ [s], by simp, hfirst⟩
      | none =>
          rw [hseen, Option.none_or] at h
          by_cases hroot : s.root = root
          · rw [if_pos hroot] at h
            exact ⟨seen, s, [], rfl, hroot, h, hseen⟩
          · rw [if_neg hroot] at h
            cases h

/-- **Where every sighting is ruled on, the first counts.** -/
theorem firstCounts_of_rulings (hverdicts : t.verdicts seen = t.rulings [] seen)
    (hkept : (t.after (seen.map Sighting.call)).find? root = t.firstArrival? seen root)
    (harrival : t.firstArrival? seen root = some arrival) :
    ∃ first before after, t.FirstCounts seen root first arrival before after := by
  obtain ⟨before, first, after, hseen, hroot, hjudged, hnone⟩ := exists_firstArrival harrival
  refine ⟨first, t.rulings [] before, t.rulings (before ++ [first]) after, ?_, hroot, hjudged, ?_, ?_,
    hkept.trans harrival⟩
  · have hfirst : t.ruling before first = .recorded arrival := ruling_of_first hjudged (by rw [hroot, hnone])
    rw [hverdicts, hseen, rulings_append, List.nil_append, rulings, hfirst]
  · intro v hv hvroot
    obtain ⟨hmem, earlier, heq⟩ := ruling_of_mem hv
    have hearly : v.1.judged? t = none := firstArrival?_eq_none_iff.mp hnone v.1 hmem hvroot
    exact ⟨hearly, heq.trans (ruling_of_early hearly)⟩
  · intro v hv hvroot
    obtain ⟨-, earlier, heq⟩ := ruling_of_mem hv
    refine ⟨fun hearly => heq.trans (ruling_of_early hearly), fun hlater => heq.trans (ruling_of_later hlater ?_)⟩
    rw [ne_eq, firstArrival?_eq_none_iff]
    intro hnever
    have hfirst := hnever first (by simp) (hroot.trans hvroot.symm)
    cases hjudged.symm.trans hfirst

/-! ## Outcomes -/

/-- What it means that two lists of sightings come to the same. -/
structure ComesToTheSame (t : Tracker) (first second : List Sighting) : Prop where
  /-- Every root has the same record. -/
  records : (t.after (second.map Sighting.call)).records = (t.after (first.map Sighting.call)).records
  /-- For each root the same comes of its sightings, of the first, of the second, and so on. -/
  results : ∀ root, (t.verdicts second).filter (fun v => v.1.root = root)
    = (t.verdicts first).filter (fun v => v.1.root = root)
  /-- A ledger that hears of all results has the same counters at the end. -/
  ledger : ∀ l : Ledger, (t.verdicts second).foldl (fun l v => l.observeArrival v.2) l
    = (t.verdicts first).foldl (fun l v => l.observeArrival v.2) l

/-- **Arrivals of different roots may come in any order** where there is room for all roots that do not come too
    early, and then each of these roots is put on record once, by the first of its arrivals that does not. -/
theorem sightings_in_any_order (genesis duration : Millis) (settings : TimelinessSettings)
    {first second : List Sighting} (reorders : Reorders first second)
    (room : ((ofSettings genesis duration settings).judgedRoots first).length ≤ settings.maxTrackedBlocks.toNat) :
    ComesToTheSame (ofSettings genesis duration settings) first second ∧
    ∀ s ∈ first, s.judged? (ofSettings genesis duration settings) ≠ none → ∃ firstSeen arrival before after,
      FirstCounts (ofSettings genesis duration settings) first s.root firstSeen arrival before after := by
  have hstart := remembers_ofSettings genesis duration settings
  obtain ⟨hverdicts, entries, hend⟩ := hstart.run first room
  have hroom := Nat.le_trans (Nat.le_of_eq (reorders.length_judgedRoots_eq _)) room
  obtain ⟨hverdicts', entries', hend'⟩ := hstart.run second hroom
  rw [List.nil_append] at hend hend'
  have hresults (root : Root) :
      ((ofSettings genesis duration settings).verdicts second).filter (fun v => v.1.root = root)
        = ((ofSettings genesis duration settings).verdicts first).filter (fun v => v.1.root = root) := by
    rw [hverdicts, hverdicts', rulings_filter, rulings_filter, reorders root]
  refine ⟨⟨?_, hresults, ?_⟩, ?_⟩
  · apply Std.ExtHashMap.ext_getElem?
    intro root
    show find? _ root = find? _ root
    rw [hend.find?_eq, hend'.find?_eq, reorders.firstArrival?_eq]
  · intro l
    apply (perm_of_filter_eq (fun v => v.1.root) hresults).foldl_eq'
    intro v _ w _ l
    exact l.observeArrival_right_comm v.2 w.2
  · intro s hs hjudged
    have hseen : (ofSettings genesis duration settings).firstArrival? first s.root ≠ none := by
      rw [ne_eq, firstArrival?_eq_none_iff]
      exact fun hnever => hjudged (hnever s hs rfl)
    obtain ⟨arrival, harrival⟩ := Option.ne_none_iff_exists'.mp hseen
    obtain ⟨firstSeen, before, after, hcounts⟩ :=
      firstCounts_of_rulings hverdicts (hend.find?_eq s.root) harrival
    exact ⟨firstSeen, arrival, before, after, hcounts⟩

end Tracker

/-- Settings for a tracker that keeps two roots. -/
def TimelinessSettings.paired : TimelinessSettings := { maxTrackedBlocks := 2 }

/-- Three blocks, one of which is never seen in time. Of the others the first is seen twice, and the late one third. -/
def Sighting.lateThird : List Sighting := [⟨.bare 5, 2⟩, ⟨.bare 0, 1⟩, ⟨.bare 1, 9⟩, ⟨.bare 0, 5⟩]

/-- The same with the late block last. -/
def Sighting.lateLast : List Sighting := [⟨.bare 5, 2⟩, ⟨.bare 0, 1⟩, ⟨.bare 0, 5⟩, ⟨.bare 1, 9⟩]

/-- There is room for just the two that are seen in time, and that is enough. -/
theorem sightings_in_any_order_when_paired :
    Reorders Sighting.lateThird Sighting.lateLast ∧
    ((Tracker.ofSettings 0 6 .paired).judgedRoots Sighting.lateThird).length = 2 ∧
    Tracker.ComesToTheSame (Tracker.ofSettings 0 6 .paired) Sighting.lateThird Sighting.lateLast ∧
    ∃ first arrival before after, Tracker.FirstCounts (Tracker.ofSettings 0 6 .paired) Sighting.lateThird
      (SignedBlock.bare 0).root first arrival before after := by
  have hne : (SignedBlock.bare 1).root ≠ (SignedBlock.bare 0).root := by decide +kernel
  have hreorders : Reorders Sighting.lateThird Sighting.lateLast := .swap [⟨.bare 5, 2⟩, ⟨.bare 0, 1⟩] [] hne
  have hroots : (Tracker.ofSettings 0 6 .paired).judgedRoots Sighting.lateThird
      = [(SignedBlock.bare 0).root, (SignedBlock.bare 1).root, (SignedBlock.bare 0).root].dedup := rfl
  have hroom : ((Tracker.ofSettings 0 6 .paired).judgedRoots Sighting.lateThird).length = 2 := by
    rw [hroots]
    simp [hne]
  have hmem : (⟨.bare 0, 1⟩ : Sighting) ∈ Sighting.lateThird := List.mem_cons_of_mem _ List.mem_cons_self
  obtain ⟨hsame, hfirst⟩ := Tracker.sightings_in_any_order 0 6 .paired hreorders (Nat.le_of_eq hroom)
  exact ⟨hreorders, hroom, hsame, hfirst ⟨.bare 0, 1⟩ hmem (by decide)⟩

end BeaconBroadcast
