import BeaconBroadcast.Arrival

/-!
# `BeaconBroadcast.Proofs.Arrival.Listing` — a map beside the order of its roots

A tracker keeps its records in a map and the order of their roots in a queue. Together the two stand for one
list of roots with their records, oldest first, and everything the tracker does to the two it does to that
list.

## Contents
- **Look-up.** Looking for a root in a list of entries.
- **Listings.** `Lists`: a map holds just what a list of entries says.
- **Changes.** A new root goes to the end (`Lists.insert`), the oldest goes first (`Lists.erase_oldest`,
  `Lists.evict`), and dropping records keeps the order of the others (`Lists.filter`).
- **Newest entries.** `newest` drops entries from the front; what that does to a list with a new entry.
-/

namespace BeaconBroadcast

variable {records : Std.ExtHashMap Root Arrival} {entries : List (Root × Arrival)} {root : Root}
  {arrival : Arrival}

/-! ## Look-up -/

theorem lookup_eq_none_iff_not_mem : entries.lookup root = none ↔ root ∉ entries.map Prod.fst := by
  rw [List.lookup_eq_none_iff]
  constructor
  · intro h hmem
    obtain ⟨entry, he, rfl⟩ := List.mem_map.mp hmem
    exact absurd rfl (bne_iff_ne.mp (h entry he))
  · intro h entry he
    apply bne_iff_ne.mpr
    intro heq
    apply h
    rw [heq]
    exact List.mem_map_of_mem he

theorem lookup_eq_none_of_not_mem (h : root ∉ entries.map Prod.fst) : entries.lookup root = none :=
  lookup_eq_none_iff_not_mem.mpr h

theorem lookup_cons_of_ne {entry : Root × Arrival} (h : root ≠ entry.1) :
    (entry :: entries).lookup root = entries.lookup root := by
  rw [List.lookup_cons, beq_false_of_ne h]

/-- Where each root is named once, each entry is found. -/
theorem lookup_of_mem {entry : Root × Arrival} (hnodup : (entries.map Prod.fst).Nodup)
    (he : entry ∈ entries) : entries.lookup entry.1 = some entry.2 := by
  induction entries with
  | nil => cases he
  | cons first entries ih =>
      obtain ⟨hnew, hnodup⟩ := List.nodup_cons.mp hnodup
      rcases List.mem_cons.mp he with rfl | he
      · exact List.lookup_cons_self
      · have hne : entry.1 ≠ first.1 := fun heq => hnew (by rw [← heq]; exact List.mem_map_of_mem he)
        rw [lookup_cons_of_ne hne]
        exact ih hnodup he

/-- Dropping entries drops what is looked up. -/
theorem lookup_filter (keep : Arrival → Bool) (hnodup : (entries.map Prod.fst).Nodup) :
    (entries.filter fun entry => keep entry.2).lookup root = (entries.lookup root).filter keep := by
  induction entries with
  | nil => rfl
  | cons entry entries ih =>
      obtain ⟨hnew, hnodup⟩ := List.nodup_cons.mp hnodup
      rw [List.filter_cons]
      by_cases hroot : root = entry.1
      · subst hroot
        rw [List.lookup_cons_self]
        by_cases hkeep : keep entry.2
        · rw [if_pos hkeep, List.lookup_cons_self, Option.filter_some_pos hkeep]
        · rw [if_neg hkeep, ih hnodup, lookup_eq_none_of_not_mem hnew,
            Option.filter_some_neg (eq_false_of_ne_true hkeep)]
          rfl
      · rw [lookup_cons_of_ne hroot, ← ih hnodup]
        by_cases hkeep : keep entry.2
        · rw [if_pos hkeep, lookup_cons_of_ne hroot]
        · rw [if_neg hkeep]

/-! ## Listings -/

/-- The map holds just what the entries say, and they name each root once. -/
structure Lists (records : Std.ExtHashMap Root Arrival) (entries : List (Root × Arrival)) : Prop where
  nodup : (entries.map Prod.fst).Nodup
  same : ∀ root, records[root]? = entries.lookup root

namespace Lists

theorem empty : Lists ∅ [] := ⟨List.nodup_nil, fun _ => Std.ExtHashMap.getElem?_empty⟩

theorem mem_iff (h : Lists records entries) : root ∈ records ↔ root ∈ entries.map Prod.fst := by
  rw [Std.ExtHashMap.mem_iff_isSome_getElem?, h.same, Option.isSome_iff_ne_none, ne_eq,
    lookup_eq_none_iff_not_mem, Decidable.not_not]

/-! ## Changes -/

/-- The oldest root goes. -/
theorem erase_oldest (h : Lists records ((root, arrival) :: entries)) :
    Lists (records.erase root) entries := by
  obtain ⟨hnew, hnodup⟩ := List.nodup_cons.mp h.nodup
  refine ⟨hnodup, fun other => ?_⟩
  by_cases hother : root = other
  · subst hother
    rw [Std.ExtHashMap.getElem?_erase_self]
    exact (lookup_eq_none_of_not_mem hnew).symm
  · have hne : other ≠ root := fun heq => hother heq.symm
    rw [Std.ExtHashMap.getElem?_erase, if_neg fun heq => hother (beq_iff_eq.mp heq), h.same,
      lookup_cons_of_ne hne]

/-- There are as many records as entries. -/
theorem size_eq (h : Lists records entries) : records.size = entries.length := by
  induction entries generalizing records with
  | nil =>
      have hempty : records = ∅ := Std.ExtHashMap.ext_getElem? fun root => by
        rw [h.same, Std.ExtHashMap.getElem?_empty, List.lookup_nil]
      rw [hempty, Std.ExtHashMap.size_empty, List.length_nil]
  | cons entry entries ih =>
      -- without the oldest root there is one record less
      have hmem : entry.1 ∈ records := h.mem_iff.mpr List.mem_cons_self
      have hrest := ih h.erase_oldest
      have hpos : records.size ≠ 0 := fun hzero => by
        rw [Std.ExtHashMap.eq_empty_iff_size_eq_zero.mpr hzero] at hmem
        exact Std.ExtHashMap.not_mem_empty hmem
      rw [Std.ExtHashMap.size_erase, if_pos hmem] at hrest
      rw [List.length_cons]
      omega

/-- A new root goes to the end. -/
theorem insert (h : Lists records entries) (hnew : root ∉ records) :
    Lists (records.insert root arrival) (entries ++ [(root, arrival)]) := by
  have hroots : root ∉ entries.map Prod.fst := fun hmem => hnew (h.mem_iff.mpr hmem)
  refine ⟨?_, fun other => ?_⟩
  · rw [List.map_append, List.nodup_append]
    refine ⟨h.nodup, List.pairwise_singleton _ _, ?_⟩
    intro a ha b hb hab
    have hb : b = root := List.mem_singleton.mp hb
    exact hroots (by rw [← hb, ← hab]; exact ha)
  · rw [List.lookup_append, ← h.same]
    by_cases hother : root = other
    · subst hother
      rw [Std.ExtHashMap.getElem?_insert_self, Std.ExtHashMap.getElem?_eq_none hnew,
        List.lookup_cons_self]
      rfl
    · have hne : other ≠ root := fun heq => hother heq.symm
      rw [Std.ExtHashMap.getElem?_insert, if_neg fun heq => hother (beq_iff_eq.mp heq),
        lookup_cons_of_ne hne]
      exact Option.or_none.symm

/-- Dropping records keeps the order of the others. -/
theorem filter (h : Lists records entries) (keep : Arrival → Bool) :
    Lists (records.filter fun _ arrival => keep arrival) (entries.filter fun entry => keep entry.2) := by
  refine ⟨h.nodup.sublist (List.filter_sublist.map Prod.fst), fun other => ?_⟩
  rw [Std.ExtHashMap.getElem?_filter', h.same, lookup_filter keep h.nodup]

/-- A root stays if its record does. -/
theorem mem_filter_iff (h : Lists records entries) {keep : Arrival → Bool} {entry : Root × Arrival}
    (he : entry ∈ entries) : entry.1 ∈ records.filter (fun _ arrival => keep arrival) ↔ keep entry.2 := by
  rw [Std.ExtHashMap.mem_iff_isSome_getElem?, Std.ExtHashMap.getElem?_filter', h.same,
    lookup_of_mem h.nodup he, Option.filter_some]
  cases keep entry.2 with
  | true => exact iff_of_true rfl rfl
  | false => exact iff_of_false Bool.false_ne_true Bool.false_ne_true

end Lists

/-! ## Newest entries -/

/-- The entries that are left when the oldest of them have gone and at most `capacity` stay. -/
def newest (capacity : Nat) (entries : List (Root × Arrival)) : List (Root × Arrival) :=
  entries.drop (entries.length - capacity)

theorem newest_of_le {capacity : Nat} (h : entries.length ≤ capacity) : newest capacity entries = entries := by
  unfold newest
  rw [Nat.sub_eq_zero_of_le h, List.drop_zero]

theorem newest_cons_of_lt {capacity : Nat} {entry : Root × Arrival} (h : capacity < entries.length + 1) :
    newest capacity (entry :: entries) = newest capacity entries := by
  unfold newest
  rw [List.length_cons, Nat.sub_add_comm (Nat.le_of_lt_succ h), List.drop_succ_cons]

theorem newest_sublist (capacity : Nat) (entries : List (Root × Arrival)) :
    (newest capacity entries).Sublist entries := List.drop_sublist _ _

theorem length_newest_le (capacity : Nat) (entries : List (Root × Arrival)) :
    (newest capacity entries).length ≤ capacity := by
  unfold newest
  rw [List.length_drop]
  omega

/-- An entry stays as long as there is room for it and the entries behind it. -/
theorem newest_append_cons {capacity : Nat} (older newer : List (Root × Arrival)) (entry : Root × Arrival)
    (h : newer.length < capacity) :
    ∃ kept, kept.Sublist older ∧ newest capacity (older ++ entry :: newer) = kept ++ entry :: newer := by
  refine ⟨_, List.drop_sublist ((older ++ entry :: newer).length - capacity) older, ?_⟩
  unfold newest
  rw [List.drop_append_of_le_length]
  simp only [List.length_append, List.length_cons]
  omega

/-- Where there are enough entries behind them, all the older ones go. -/
theorem newest_append_of_le {capacity : Nat} {older newer : List (Root × Arrival)} (h : capacity ≤ newer.length) :
    newest capacity (older ++ newer) = newest capacity newer := by
  unfold newest
  rw [List.length_append, Nat.add_sub_assoc h, List.drop_append, List.drop_of_length_le (Nat.le_add_right _ _),
    List.nil_append, Nat.add_sub_cancel_left]

/-- With room for one more nothing goes. -/
theorem newest_concat_of_lt {capacity : Nat} {entry : Root × Arrival} (h : entries.length < capacity) :
    newest capacity (entries ++ [entry]) = entries ++ [entry] := by
  apply newest_of_le
  rw [List.length_append, List.length_singleton]
  exact h

/-- In a full list a new entry takes the place of the first. -/
theorem newest_cons_concat {capacity : Nat} {first entry : Root × Arrival}
    (h : entries.length + 1 = capacity) :
    newest capacity (first :: entries ++ [entry]) = entries ++ [entry] := by
  have hmany : capacity < (entries ++ [entry]).length + 1 := by
    rw [List.length_append, List.length_singleton]
    omega
  rw [List.cons_append, newest_cons_of_lt hmany]
  apply newest_concat_of_lt
  omega

/-- Leaving out the oldest before a new entry comes changes nothing. -/
theorem newest_newest_concat (capacity : Nat) (entries : List (Root × Arrival)) (entry : Root × Arrival) :
    newest capacity (newest capacity entries ++ [entry]) = newest capacity (entries ++ [entry]) := by
  rcases Nat.lt_or_ge entries.length capacity with hroom | hfull
  · rw [newest_of_le (Nat.le_of_lt hroom)]
  · unfold newest
    rw [← List.drop_append_of_le_length (by omega), List.drop_drop]
    congr 1
    simp only [List.length_append, List.length_drop, List.length_singleton]
    omega

theorem lookup_concat_of_ne {entry : Root × Arrival} (h : entry.1 ≠ root) :
    (entries ++ [entry]).lookup root = entries.lookup root := by
  have hnone : [entry].lookup root = none := by
    apply lookup_eq_none_of_not_mem
    intro hmem
    exact h (List.mem_singleton.mp hmem).symm
  rw [List.lookup_append, hnone, Option.or_none]

/-- A root that is not among the entries is not among those that stay. -/
theorem lookup_eq_none_of_sublist {kept : List (Root × Arrival)} (hkept : kept.Sublist entries)
    (h : entries.lookup root = none) : kept.lookup root = none := by
  apply lookup_eq_none_of_not_mem
  intro hmem
  exact lookup_eq_none_iff_not_mem.mp h ((hkept.map Prod.fst).subset hmem)

/-- **Eviction leaves the newest entries.** -/
theorem Lists.evict (h : Lists records entries) (capacity : Nat) :
    (Tracker.evict capacity records (entries.map Prod.fst)).2 = (newest capacity entries).map Prod.fst ∧
      Lists (Tracker.evict capacity records (entries.map Prod.fst)).1 (newest capacity entries) := by
  induction entries generalizing records with
  | nil =>
      have hnil : newest capacity [] = [] := List.drop_nil
      rw [hnil]
      exact ⟨rfl, h⟩
  | cons entry entries ih =>
      simp only [List.map_cons, Tracker.evict]
      -- the loop looks at the size of the map, which is the length of the list
      by_cases hfull : capacity < entries.length + 1
      · rw [if_pos (by rw [h.size_eq]; exact hfull), newest_cons_of_lt hfull]
        exact ih h.erase_oldest
      · have hfits : (entry :: entries).length ≤ capacity := Nat.le_of_not_lt hfull
        rw [if_neg (by rw [h.size_eq]; exact hfull), newest_of_le hfits]
        exact ⟨rfl, h⟩

end BeaconBroadcast
