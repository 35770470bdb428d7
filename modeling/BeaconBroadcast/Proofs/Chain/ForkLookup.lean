import BeaconBroadcast.Proofs.Chain.ForkOrder

/-!
# `BeaconBroadcast.Proofs.Chain.ForkLookup` — which fork a slot belongs to

A slot is looked up by its epoch, as the last of the leading forks that have begun. On a sound schedule that is the
one fork whose interval of slots it lies in, and the latest of all that have begun. The intervals are those of
unbounded numbers: a fork may begin after the last slot there is.

## Contents
- **Intervals.** `ForkSchedule.firstSlot` and `ForkSchedule.ActiveAt`: a fork is active from its own first slot up to
  that of the next.
- **Order.** `ForkSchedule.ActiveAt.le_of_begun`: behind an active fork none has begun.
- **Look-up.** `ForkSchedule.Sound.finds_active`: there always is an active fork, and it is the one that is found.
- **Latest.** `ForkSchedule.LatestAt`: the greatest milestone of the forks that have begun.
- **One more fork.** What `ForkSchedule.andThen` changes.
- **Exactness.** `ForkSchedule.lookup_exact`, with a schedule on which a fork is passed over.
-/

namespace BeaconBroadcast

namespace ForkSchedule

variable {s : ForkSchedule} {slot : Slot} {position : Nat} {fork : Fork}

/-! ## Intervals -/

/-- The first slot of `fork`, which may lie beyond the last slot there is. -/
def firstSlot (s : ForkSchedule) (fork : Fork) : Nat := fork.epoch.toNat * s.slotsPerEpoch.toNat

/-- `slot` lies in the interval of `fork`, which stands at `position`. -/
structure ActiveAt (s : ForkSchedule) (slot : Slot) (position : Nat) (fork : Fork) : Prop where
  here : s.forks[position]? = some fork
  begun : s.firstSlot fork ≤ slot.toNat
  next : ∀ next, s.forks[position + 1]? = some next → slot.toNat < s.firstSlot next

theorem firstSlot_mono {first second : Fork} (h : first.epoch ≤ second.epoch) :
    s.firstSlot first ≤ s.firstSlot second :=
  Nat.mul_le_mul_right _ (UInt64.le_iff_toNat_le.mp h)

theorem toNat_slotsPerEpoch_pos (slots : s.slotsPerEpoch ≠ 0) : 0 < s.slotsPerEpoch.toNat := by
  apply Nat.pos_of_ne_zero
  intro hzero
  exact slots (UInt64.toNat_inj.mp hzero)

/-- A fork has begun exactly if its epoch is at most that of the slot. -/
theorem firstSlot_le_iff (slots : s.slotsPerEpoch ≠ 0) :
    s.firstSlot fork ≤ slot.toNat ↔ fork.epoch.toNat ≤ slot.toNat / s.slotsPerEpoch.toNat :=
  (Nat.le_div_iff_mul_le (toNat_slotsPerEpoch_pos slots)).symm

/-- In words, with at least one slot to an epoch, the same. -/
theorem epoch_le_epochOf_iff (slots : s.slotsPerEpoch ≠ 0) :
    fork.epoch ≤ s.epochOf slot ↔ s.firstSlot fork ≤ slot.toNat := by
  have hmax : (max s.slotsPerEpoch 1).toNat = s.slotsPerEpoch.toNat := by
    have hpos := toNat_slotsPerEpoch_pos slots
    have hone : (1 : UInt64).toNat = 1 := rfl
    rw [UInt64.toNat_max]
    omega
  rw [firstSlot_le_iff slots, epochOf, UInt64.le_iff_toNat_le, UInt64.toNat_div, hmax]

/-! ## Order -/

theorem Sound.precedes {i j : Nat} {earlier later : Fork} (h : s.Sound) (hlt : i < j)
    (hi : s.forks[i]? = some earlier) (hj : s.forks[j]? = some later) : earlier.Precedes later := by
  obtain ⟨hi', rfl⟩ := List.getElem?_eq_some_iff.mp hi
  obtain ⟨hj', rfl⟩ := List.getElem?_eq_some_iff.mp hj
  exact List.pairwise_iff_getElem.mp h.ordered i j hi' hj' hlt

/-- No two forks of a sound schedule have the same milestone. -/
theorem Sound.position_eq {i j : Nat} {first second : Fork} (h : s.Sound) (hi : s.forks[i]? = some first)
    (hj : s.forks[j]? = some second) (same : first.milestone = second.milestone) : i = j := by
  rcases Nat.lt_trichotomy i j with hlt | heq | hlt
  · exact absurd same (h.precedes hlt hi hj).milestone_ne
  · exact heq
  · exact absurd same.symm (h.precedes hlt hj hi).milestone_ne

/-- **Behind an active fork none has begun.** -/
theorem ActiveAt.le_of_begun {i : Nat} {other : Fork} (active : s.ActiveAt slot position fork) (h : s.Sound)
    (hi : s.forks[i]? = some other) (begun : s.firstSlot other ≤ slot.toNat) : i ≤ position := by
  by_contra hbehind
  obtain ⟨hi', -⟩ := List.getElem?_eq_some_iff.mp hi
  obtain ⟨next, hnext⟩ : ∃ next, s.forks[position + 1]? = some next :=
    ⟨_, List.getElem?_eq_getElem (show position + 1 < s.forks.length by omega)⟩
  -- the next fork begins no later than the one that is said to have begun
  have hle : s.firstSlot next ≤ s.firstSlot other := by
    rcases Nat.lt_or_eq_of_le (show position + 1 ≤ i by omega) with hlt | heq
    · exact firstSlot_mono (h.precedes hlt hnext hi).epoch
    · subst heq
      rw [Option.some.inj (hi.symm.trans hnext)]
  have hlater := active.next next hnext
  omega

/-- **At most one fork is active.** -/
theorem ActiveAt.unique {i : Nat} {other : Fork} (active : s.ActiveAt slot position fork)
    (active' : s.ActiveAt slot i other) (h : s.Sound) : i = position :=
  Nat.le_antisymm (active.le_of_begun h active'.here active'.begun)
    (active'.le_of_begun h active.here active.begun)

/-- **Of forks that share an epoch only the last is ever active.** -/
theorem Sound.not_activeAt {i j : Nat} {earlier later : Fork} (h : s.Sound) (hlt : i < j)
    (hj : s.forks[j]? = some later) (same : earlier.epoch = later.epoch) :
    ¬ s.ActiveAt slot i earlier := by
  intro active
  have hbegun : s.firstSlot later ≤ slot.toNat := by
    rw [firstSlot, ← same]
    exact active.begun
  have hle := active.le_of_begun h hj hbegun
  omega

/-! ## Look-up -/

/-- A leading run of entries with a property ends with one behind which there is none or one without it. -/
theorem exists_last_running {α : Type} {p : α → Bool} {first : α} (rest : List α) (h : p first) :
    ∃ before last after, first :: rest = before ++ last :: after ∧
      (first :: rest).takeWhile p = before ++ [last] ∧ p last ∧ ∀ next, after.head? = some next → ¬ p next := by
  induction rest generalizing first with
  | nil => exact ⟨[], first, [], rfl, List.takeWhile_cons_of_pos h, h, nofun⟩
  | cons second rest ih =>
      rw [List.takeWhile_cons_of_pos h]
      by_cases hsecond : p second
      · obtain ⟨before, last, after, hsplit, hrunning, hlast, hnext⟩ := ih hsecond
        refine ⟨first :: before, last, after, ?_, ?_, hlast, hnext⟩
        · rw [hsplit, List.cons_append]
        · rw [hrunning, List.cons_append]
      · refine ⟨[], first, second :: rest, rfl, ?_, h, ?_⟩
        · rw [List.takeWhile_cons_of_neg hsecond, List.nil_append]
        · rintro next ⟨⟩
          exact hsecond

/-- **At every slot of a sound schedule a fork is active, and it is found.** -/
theorem Sound.finds_active (h : s.Sound) (slot : Slot) :
    ∃ position fork, s.ActiveAt slot position fork ∧ s.milestoneAt slot = fork.milestone := by
  obtain ⟨first, hhead, hgenesis⟩ := h.genesis
  obtain ⟨rest, hforks⟩ := List.head?_eq_some_iff.mp hhead
  have hbegun : decide (first.epoch ≤ s.epochOf slot) = true := by
    rw [hgenesis, decide_eq_true_iff]
    exact UInt64.zero_le
  obtain ⟨before, last, after, hsplit, hrunning, hlast, hnext⟩ :=
    exists_last_running (p := fun fork => decide (fork.epoch ≤ s.epochOf slot)) rest hbegun
  rw [← hforks] at hsplit hrunning
  refine ⟨before.length, last, ⟨?_, ?_, ?_⟩, ?_⟩
  · rw [hsplit, List.getElem?_append_right (Nat.le_refl _), Nat.sub_self]
    rfl
  · exact (epoch_le_epochOf_iff h.slots).mp (of_decide_eq_true hlast)
  · intro next hafter
    rw [hsplit, List.getElem?_append_right (Nat.le_succ _), Nat.succ_sub (Nat.le_refl _), Nat.sub_self] at hafter
    have hnot := hnext next (by rw [List.head?_eq_getElem?]; exact hafter)
    rw [decide_eq_true_iff, epoch_le_epochOf_iff h.slots] at hnot
    exact Nat.not_le.mp hnot
  · simp only [milestoneAt, hrunning, List.getLast?_concat, Option.map_some, Option.getD_some]

/-- **The milestone that is found is that of the active fork.** -/
theorem Sound.milestoneAt_eq (h : s.Sound) (active : s.ActiveAt slot position fork) :
    s.milestoneAt slot = fork.milestone := by
  obtain ⟨i, found, active', hfound⟩ := h.finds_active slot
  have hposition := active.unique active' h
  subst hposition
  cases active.here.symm.trans active'.here
  exact hfound

/-- The milestone that is found is one of the schedule. -/
theorem Sound.milestoneAt_mem (h : s.Sound) (slot : Slot) :
    s.milestoneAt slot ∈ s.forks.map (·.milestone) := by
  obtain ⟨position, fork, active, hfound⟩ := h.finds_active slot
  rw [hfound]
  exact List.mem_map_of_mem (List.mem_of_getElem? active.here)

/-! ## Latest -/

/-- `milestone` is the greatest of those of the forks whose epoch is at most that of `slot`. -/
structure LatestAt (s : ForkSchedule) (slot : Slot) (milestone : Milestone) : Prop where
  begun : ∃ fork ∈ s.forks, fork.epoch.toNat ≤ slot.toNat / s.slotsPerEpoch.toNat ∧ fork.milestone = milestone
  greatest : ∀ fork ∈ s.forks, fork.epoch.toNat ≤ slot.toNat / s.slotsPerEpoch.toNat →
    fork.milestone ≤ milestone

/-- **The active fork is the latest that has begun.** -/
theorem ActiveAt.latest (active : s.ActiveAt slot position fork) (h : s.Sound) :
    s.LatestAt slot fork.milestone := by
  refine ⟨⟨fork, List.mem_of_getElem? active.here, (firstSlot_le_iff h.slots).mp active.begun, rfl⟩, ?_⟩
  intro other mem hepoch
  obtain ⟨i, hi⟩ := List.mem_iff_getElem?.mp mem
  have hle := active.le_of_begun h hi ((firstSlot_le_iff h.slots).mpr hepoch)
  rcases Nat.lt_or_eq_of_le hle with hlt | heq
  · exact Nat.le_of_lt (h.precedes hlt hi active.here).milestone
  · subst heq
    cases hi.symm.trans active.here
    exact Nat.le_refl _

/-- Later slots have later milestones, or the same. -/
theorem LatestAt.mono {slot' : Slot} {milestone milestone' : Milestone} (h : s.LatestAt slot milestone)
    (h' : s.LatestAt slot' milestone') (hle : slot ≤ slot') : milestone ≤ milestone' := by
  obtain ⟨fork, mem, hepoch, rfl⟩ := h.begun
  exact h'.greatest fork mem
    (Nat.le_trans hepoch (Nat.div_le_div_right (UInt64.le_iff_toNat_le.mp hle)))

theorem Sound.latestAt (h : s.Sound) (slot : Slot) : s.LatestAt slot (s.milestoneAt slot) := by
  obtain ⟨position, fork, active, hfound⟩ := h.finds_active slot
  rw [hfound]
  exact active.latest h

/-! ## One more fork -/

variable {milestone : Milestone} {epoch : Epoch}

/-- From its first slot on, a fork at the end is active. -/
theorem activeAt_andThen (begun : epoch.toNat * s.slotsPerEpoch.toNat ≤ slot.toNat) :
    (s.andThen milestone epoch).ActiveAt slot s.forks.length ⟨milestone, epoch⟩ := by
  refine ⟨?_, begun, ?_⟩
  · rw [andThen, List.getElem?_append_right (Nat.le_refl _), Nat.sub_self]
    rfl
  · intro next hnext
    rw [andThen, List.getElem?_eq_none (by simp)] at hnext
    cases hnext

/-- Before its first slot, a fork at the end changes nothing. -/
theorem ActiveAt.andThen (active : s.ActiveAt slot position fork)
    (early : slot.toNat < epoch.toNat * s.slotsPerEpoch.toNat) :
    (s.andThen milestone epoch).ActiveAt slot position fork := by
  obtain ⟨hlength, -⟩ := List.getElem?_eq_some_iff.mp active.here
  refine ⟨?_, active.begun, ?_⟩
  · rw [ForkSchedule.andThen, List.getElem?_append_left hlength]
    exact active.here
  · intro next hnext
    rw [ForkSchedule.andThen] at hnext
    by_cases hlast : position + 1 < s.forks.length
    · rw [List.getElem?_append_left hlast] at hnext
      exact active.next next hnext
    · rw [List.getElem?_append_right (Nat.not_lt.mp hlast), show position + 1 - s.forks.length = 0 by omega]
        at hnext
      cases hnext
      exact early

/-- A milestone that may follow a schedule is none of those in it. -/
theorem Sound.milestoneAt_ne (h : s.Sound) (h' : (s.andThen milestone epoch).Sound) (slot : Slot) :
    s.milestoneAt slot ≠ milestone := by
  obtain ⟨position, fork, active, hfound⟩ := h.finds_active slot
  obtain ⟨-, -, hall⟩ := List.pairwise_append.mp h'.ordered
  have hprecedes := hall fork (List.mem_of_getElem? active.here) ⟨milestone, epoch⟩ List.mem_cons_self
  rw [hfound]
  exact hprecedes.milestone_ne

/-- **One more fork changes the milestones of the slots from its first one on, and of no others.** -/
theorem Sound.milestoneAt_andThen (h : s.Sound) (h' : (s.andThen milestone epoch).Sound) (slot : Slot) :
    (s.andThen milestone epoch).milestoneAt slot
      = if epoch.toNat * s.slotsPerEpoch.toNat ≤ slot.toNat then milestone else s.milestoneAt slot := by
  by_cases begun : epoch.toNat * s.slotsPerEpoch.toNat ≤ slot.toNat
  · rw [if_pos begun, h'.milestoneAt_eq (activeAt_andThen begun)]
  · obtain ⟨position, fork, active, hfound⟩ := h.finds_active slot
    rw [if_neg begun, hfound, h'.milestoneAt_eq (active.andThen (Nat.not_le.mp begun))]

/-! ## Exactness -/

/-- What the look-up of a slot in a schedule comes to. -/
structure LooksUp (s : ForkSchedule) : Prop where
  /-- Every slot lies in the interval of one fork, whose milestone is found. -/
  interval : ∀ slot, ∃ position fork, s.ActiveAt slot position fork ∧ s.milestoneAt slot = fork.milestone ∧
    ∀ i other, s.ActiveAt slot i other → i = position
  /-- Of forks that share an epoch only the last is ever active. -/
  passedOver : ∀ i j earlier later, i < j → s.forks[i]? = some earlier → s.forks[j]? = some later →
    earlier.epoch = later.epoch → ∀ slot, ¬ s.ActiveAt slot i earlier ∧ s.milestoneAt slot ≠ earlier.milestone
  latest : ∀ slot, s.LatestAt slot (s.milestoneAt slot)
  monotone : ∀ slot slot', slot ≤ slot' → s.milestoneAt slot ≤ s.milestoneAt slot'
  /-- A fork that may stand at the end changes the slots from its first one on, and no others. -/
  extended : ∀ milestone epoch, (s.andThen milestone epoch).fault? = none → ∀ slot,
    ((s.andThen milestone epoch).milestoneAt slot ≠ s.milestoneAt slot ↔
      epoch.toNat * s.slotsPerEpoch.toNat ≤ slot.toNat) ∧
    (epoch.toNat * s.slotsPerEpoch.toNat ≤ slot.toNat → (s.andThen milestone epoch).milestoneAt slot = milestone)

/-- **On a valid schedule every slot is looked up exactly.** -/
theorem lookup_exact (s : ForkSchedule) (valid : s.fault? = none) : s.LooksUp := by
  have h := fault?_eq_none_iff.mp valid
  refine ⟨?_, ?_, h.latestAt, ?_, ?_⟩
  · intro slot
    obtain ⟨position, fork, active, hfound⟩ := h.finds_active slot
    exact ⟨position, fork, active, hfound, fun i other active' => active.unique active' h⟩
  · intro i j earlier later hlt hi hj same slot
    refine ⟨h.not_activeAt hlt hj same, fun hsame => ?_⟩
    obtain ⟨position, fork, active, hfound⟩ := h.finds_active slot
    have hposition := h.position_eq active.here hi (hfound.symm.trans hsame)
    subst hposition
    cases hi.symm.trans active.here
    exact h.not_activeAt hlt hj same active
  · intro slot slot' hle
    exact (h.latestAt slot).mono (h.latestAt slot') hle
  · intro milestone epoch valid' slot
    have h' := fault?_eq_none_iff.mp valid'
    rw [h.milestoneAt_andThen h' slot]
    by_cases begun : epoch.toNat * s.slotsPerEpoch.toNat ≤ slot.toNat
    · rw [if_pos begun]
      exact ⟨iff_of_true (h.milestoneAt_ne h' slot).symm begun, fun _ => rfl⟩
    · rw [if_neg begun]
      exact ⟨iff_of_false (not_not_intro rfl) begun, fun hbegun => absurd hbegun begun⟩

/-- Two forks at epoch 1, the first of which is passed over. -/
def hurried : ForkSchedule := ((genesis .phase0).andThen .altair 1).andThen .capella 1

/-- The fork that is passed over is found at no slot, and one more fork at epoch 3 is found from slot 96 on. -/
theorem lookup_exact_when_hurried :
    hurried.fault? = none ∧ hurried.LooksUp ∧ (∀ slot, hurried.milestoneAt slot ≠ .altair) ∧
    (hurried.andThen .deneb 3).milestoneAt 96 = .deneb ∧
    (hurried.andThen .deneb 3).milestoneAt 95 = hurried.milestoneAt 95 := by
  have valid : hurried.fault? = none := by decide
  have hlooks := lookup_exact hurried valid
  have hextended := hlooks.extended .deneb 3 (by decide)
  refine ⟨valid, hlooks, fun slot => ?_, (hextended 96).2 (by decide), ?_⟩
  · exact (hlooks.passedOver 1 2 ⟨.altair, 1⟩ ⟨.capella, 1⟩ (by decide) rfl rfl rfl slot).2
  · exact Decidable.not_not.mp (mt (hextended 95).1.mp (by decide))

end ForkSchedule

end BeaconBroadcast
