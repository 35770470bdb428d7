import BeaconBroadcast.Chain.ForkSchedule
import Mathlib.Data.List.Chain

/-!
# `BeaconBroadcast.Proofs.Chain.ForkOrder` — which schedules are in order

A schedule is checked by comparing neighbours. What relies on a checked schedule relies on the order of any two of
its forks, which follows because the order is transitive.

## Contents
- **Milestones.** Their order by rank.
- **Forks.** `Fork.Precedes`: later by milestone, and no earlier by epoch.
- **Neighbours.** `orderFault?_eq_none_iff` and `orderFault?_eq_some_iff`: what comparing neighbours tells of all
  forks, and which of them it names.
- **Schedules.** `ForkSchedule.Sound` and `ForkSchedule.FirstFault`, with one equivalence each for
  `ForkSchedule.fault?`.
- **Length.** `ForkSchedule.Sound.length_le`: there are no more forks than milestones.
-/

namespace BeaconBroadcast

/-! ## Milestones -/

namespace Milestone

variable {a b : Milestone}

theorem le_iff_rank_le : a ≤ b ↔ a.rank ≤ b.rank := Iff.rfl

theorem lt_iff_rank_lt : a < b ↔ a.rank < b.rank := Iff.rfl

theorem rank_lt (m : Milestone) : m.rank < 6 := by
  cases m <;> decide

end Milestone

/-! ## Forks -/

/-- `later` may stand anywhere behind `earlier` in a schedule. -/
structure Fork.Precedes (earlier later : Fork) : Prop where
  milestone : earlier.milestone < later.milestone
  epoch : earlier.epoch ≤ later.epoch

theorem Fork.Precedes.trans {first second third : Fork} (h : first.Precedes second)
    (h' : second.Precedes third) : first.Precedes third :=
  ⟨Nat.lt_trans h.milestone h'.milestone, UInt64.le_trans h.epoch h'.epoch⟩

theorem Fork.Precedes.milestone_ne {earlier later : Fork} (h : earlier.Precedes later) :
    earlier.milestone ≠ later.milestone := by
  intro heq
  have hlt := Milestone.lt_iff_rank_lt.mp h.milestone
  rw [heq] at hlt
  exact Nat.lt_irrefl _ hlt

instance : Trans Fork.Precedes Fork.Precedes Fork.Precedes := ⟨Fork.Precedes.trans⟩

/-- Neighbours are reported exactly if they are not in order. -/
theorem Fork.not_precedes_iff {earlier later : Fork} :
    ¬ earlier.Precedes later ↔ later.milestone ≤ earlier.milestone ∨ later.epoch < earlier.epoch := by
  have hparts : earlier.Precedes later ↔
      earlier.milestone < later.milestone ∧ earlier.epoch ≤ later.epoch :=
    ⟨fun h => ⟨h.milestone, h.epoch⟩, fun h => ⟨h.1, h.2⟩⟩
  rw [hparts, Milestone.lt_iff_rank_lt, Milestone.le_iff_rank_le, UInt64.le_iff_toNat_le,
    UInt64.lt_iff_toNat_lt]
  omega

/-! ## Neighbours -/

section Neighbours

variable {first second : Fork} {rest forks : List Fork}

theorem orderFault?_of_precedes (h : first.Precedes second) :
    orderFault? (first :: second :: rest) = orderFault? (second :: rest) := by
  rw [orderFault?, if_neg]
  intro hbroken
  exact Fork.not_precedes_iff.mpr hbroken h

theorem orderFault?_of_not_precedes (h : ¬ first.Precedes second) :
    orderFault? (first :: second :: rest) = some (.outOfOrder second.milestone first.milestone) := by
  rw [orderFault?, if_pos (Fork.not_precedes_iff.mp h)]

/-- **Neighbours are in order exactly if any two forks are.** -/
theorem orderFault?_eq_none_iff : orderFault? forks = none ↔ forks.Pairwise Fork.Precedes := by
  rw [← List.isChain_iff_pairwise]
  induction forks with
  | nil => exact iff_of_true rfl .nil
  | cons first rest ih =>
      cases rest with
      | nil => exact iff_of_true rfl (.singleton first)
      | cons second rest =>
          rw [List.isChain_cons_cons]
          by_cases h : first.Precedes second
          · rw [orderFault?_of_precedes h, ih]
            exact ⟨fun hrest => ⟨h, hrest⟩, fun hboth => hboth.2⟩
          · rw [orderFault?_of_not_precedes h]
            refine iff_of_false nofun ?_
            rintro ⟨hprecedes, -⟩
            exact h hprecedes

/-- The fork at `position` and the one behind it, `earlier` and `later`, are the first neighbours from the front that
    are not in order. -/
structure BreaksAt (forks : List Fork) (position : Nat) (earlier later : Fork) : Prop where
  earlier_at : forks[position]? = some earlier
  later_at : forks[position + 1]? = some later
  broken : ¬ earlier.Precedes later
  before : ∀ i e l, i < position → forks[i]? = some e → forks[i + 1]? = some l → e.Precedes l

variable {position : Nat} {earlier later : Fork}

theorem breaksAt_zero_iff : BreaksAt (first :: second :: rest) 0 earlier later ↔
    earlier = first ∧ later = second ∧ ¬ first.Precedes second := by
  constructor
  · rintro ⟨hearlier, hlater, hbroken, -⟩
    cases hearlier
    cases hlater
    exact ⟨rfl, rfl, hbroken⟩
  · rintro ⟨rfl, rfl, hbroken⟩
    exact ⟨rfl, rfl, hbroken, fun i _ _ hi => absurd hi (Nat.not_lt_zero i)⟩

/-- A fork in front moves the first break one place on, if it is in order itself. -/
theorem breaksAt_succ_iff :
    BreaksAt (first :: second :: rest) (position + 1) earlier later ↔
      first.Precedes second ∧ BreaksAt (second :: rest) position earlier later := by
  constructor
  · rintro ⟨hearlier, hlater, hbroken, hbefore⟩
    refine ⟨hbefore 0 first second (Nat.zero_lt_succ position) rfl rfl, hearlier, hlater, hbroken, ?_⟩
    intro i e l hi he hl
    exact hbefore (i + 1) e l (Nat.succ_lt_succ hi) he hl
  · rintro ⟨hprecedes, hearlier, hlater, hbroken, hbefore⟩
    refine ⟨hearlier, hlater, hbroken, fun i e l hi he hl => ?_⟩
    cases i with
    | zero =>
        cases he
        cases hl
        exact hprecedes
    | succ i => exact hbefore i e l (Nat.lt_of_succ_lt_succ hi) he hl

/-- **The neighbours that are named are the first that are not in order.** -/
theorem orderFault?_eq_some_iff {fault : ScheduleFault} :
    orderFault? forks = some fault ↔
      ∃ position earlier later, BreaksAt forks position earlier later ∧
        fault = .outOfOrder later.milestone earlier.milestone := by
  induction forks with
  | nil =>
      refine iff_of_false nofun ?_
      rintro ⟨position, earlier, later, hbreaks, -⟩
      cases hbreaks.earlier_at
  | cons first rest ih =>
      cases rest with
      | nil =>
          refine iff_of_false nofun ?_
          rintro ⟨position, earlier, later, hbreaks, -⟩
          cases hbreaks.later_at
      | cons second rest =>
          by_cases h : first.Precedes second
          · rw [orderFault?_of_precedes h, ih]
            constructor
            · rintro ⟨position, earlier, later, hbreaks, hfault⟩
              exact ⟨position + 1, earlier, later, breaksAt_succ_iff.mpr ⟨h, hbreaks⟩, hfault⟩
            · rintro ⟨position, earlier, later, hbreaks, hfault⟩
              cases position with
              | zero =>
                  obtain ⟨-, -, hbroken⟩ := breaksAt_zero_iff.mp hbreaks
                  exact absurd h hbroken
              | succ position =>
                  exact ⟨position, earlier, later, (breaksAt_succ_iff.mp hbreaks).2, hfault⟩
          · rw [orderFault?_of_not_precedes h]
            constructor
            · intro hfault
              cases hfault
              exact ⟨0, first, second, breaksAt_zero_iff.mpr ⟨rfl, rfl, h⟩, rfl⟩
            · rintro ⟨position, earlier, later, hbreaks, hfault⟩
              cases position with
              | zero =>
                  obtain ⟨rfl, rfl, -⟩ := breaksAt_zero_iff.mp hbreaks
                  rw [hfault]
              | succ position => exact absurd (breaksAt_succ_iff.mp hbreaks).1 h

end Neighbours

/-! ## Schedules -/

namespace ForkSchedule

variable {s : ForkSchedule}

/-- The first fork activates at genesis. -/
def BeginsAtGenesis (s : ForkSchedule) : Prop := ∃ first, s.forks.head? = some first ∧ first.epoch = 0

/-- What a schedule has to be like: any two of its forks are in order, not only neighbours. -/
structure Sound (s : ForkSchedule) : Prop where
  slots : s.slotsPerEpoch ≠ 0
  genesis : s.BeginsAtGenesis
  ordered : s.forks.Pairwise Fork.Precedes

/-- The first thing wrong with a schedule. -/
inductive FirstFault (s : ForkSchedule) : ScheduleFault → Prop
  | noSlotsPerEpoch (none : s.slotsPerEpoch = 0) : FirstFault s .noSlotsPerEpoch
  | noForks (slots : s.slotsPerEpoch ≠ 0) (none : s.forks = []) : FirstFault s .noForks
  | lateGenesis {first : Fork} (slots : s.slotsPerEpoch ≠ 0) (head : s.forks.head? = some first)
      (late : first.epoch ≠ 0) : FirstFault s .lateGenesis
  | outOfOrder {position : Nat} {earlier later : Fork} (slots : s.slotsPerEpoch ≠ 0)
      (genesis : s.BeginsAtGenesis) (breaks : BreaksAt s.forks position earlier later) :
      FirstFault s (.outOfOrder later.milestone earlier.milestone)

/-- A schedule with slots that begins at genesis has only the order of its forks left to be checked. -/
theorem fault?_of_genesis (slots : s.slotsPerEpoch ≠ 0) (genesis : s.BeginsAtGenesis) :
    s.fault? = orderFault? s.forks := by
  obtain ⟨first, hhead, hepoch⟩ := genesis
  unfold fault?
  rw [if_neg slots]
  cases hforks : s.forks with
  | nil =>
      rw [hforks] at hhead
      cases hhead
  | cons head rest =>
      rw [hforks] at hhead
      cases hhead
      exact if_neg (not_not_intro hepoch)

/-- A schedule with slots that does not begin at genesis has no forks or begins too late. -/
theorem fault?_of_not_genesis (slots : s.slotsPerEpoch ≠ 0) (genesis : ¬ s.BeginsAtGenesis) :
    (s.forks = [] ∧ s.fault? = some .noForks) ∨
      ∃ first, s.forks.head? = some first ∧ first.epoch ≠ 0 ∧ s.fault? = some .lateGenesis := by
  unfold fault?
  rw [if_neg slots]
  cases hforks : s.forks with
  | nil => exact Or.inl ⟨rfl, rfl⟩
  | cons first rest =>
      have hlate : first.epoch ≠ 0 := fun hepoch => genesis ⟨first, by rw [hforks]; rfl, hepoch⟩
      exact Or.inr ⟨first, rfl, hlate, if_pos hlate⟩

theorem fault?_of_noSlots (none : s.slotsPerEpoch = 0) : s.fault? = some .noSlotsPerEpoch := by
  rw [fault?, if_pos none]

/-- **Nothing is wrong exactly with a sound schedule.** -/
theorem fault?_eq_none_iff : s.fault? = none ↔ s.Sound := by
  by_cases slots : s.slotsPerEpoch = 0
  · rw [fault?_of_noSlots slots]
    exact iff_of_false nofun fun h => h.slots slots
  by_cases genesis : s.BeginsAtGenesis
  · rw [fault?_of_genesis slots genesis, orderFault?_eq_none_iff]
    exact ⟨fun h => ⟨slots, genesis, h⟩, fun h => h.ordered⟩
  · refine iff_of_false ?_ fun h => genesis h.genesis
    rcases fault?_of_not_genesis slots genesis with ⟨-, hfault⟩ | ⟨first, -, -, hfault⟩
    · rw [hfault]
      exact nofun
    · rw [hfault]
      exact nofun

/-- The first thing wrong with a schedule is reported. -/
theorem FirstFault.reported {fault : ScheduleFault} (h : s.FirstFault fault) : s.fault? = some fault := by
  cases h with
  | noSlotsPerEpoch none => exact fault?_of_noSlots none
  | noForks slots none =>
      unfold fault?
      rw [if_neg slots, none]
  | lateGenesis slots head late =>
      have hgenesis : ¬ s.BeginsAtGenesis := by
        rintro ⟨first, hhead, hepoch⟩
        cases hhead.symm.trans head
        exact late hepoch
      rcases fault?_of_not_genesis slots hgenesis with ⟨hnone, -⟩ | ⟨first, -, -, hfault⟩
      · rw [hnone] at head
        cases head
      · exact hfault
  | outOfOrder slots genesis breaks =>
      rw [fault?_of_genesis slots genesis]
      exact orderFault?_eq_some_iff.mpr ⟨_, _, _, breaks, rfl⟩

/-- Of whatever is not sound there is a first thing wrong. -/
theorem exists_firstFault (h : ¬ s.Sound) : ∃ fault, s.FirstFault fault := by
  by_cases slots : s.slotsPerEpoch = 0
  · exact ⟨_, .noSlotsPerEpoch slots⟩
  by_cases genesis : s.BeginsAtGenesis
  · cases hfault : orderFault? s.forks with
    | none => exact absurd ⟨slots, genesis, orderFault?_eq_none_iff.mp hfault⟩ h
    | some fault =>
        obtain ⟨position, earlier, later, breaks, -⟩ := orderFault?_eq_some_iff.mp hfault
        exact ⟨_, .outOfOrder slots genesis breaks⟩
  · rcases fault?_of_not_genesis slots genesis with ⟨hnone, -⟩ | ⟨first, hhead, hlate, -⟩
    · exact ⟨_, .noForks slots hnone⟩
    · exact ⟨_, .lateGenesis slots hhead hlate⟩

/-- Forks in order whose milestones come after the first `passed` ones are at most as many as are left. -/
theorem length_le_of_ordered {forks : List Fork} {passed : Nat} (ordered : forks.Pairwise Fork.Precedes)
    (later : ∀ fork ∈ forks, passed ≤ fork.milestone.rank) : forks.length ≤ 6 - passed := by
  induction forks generalizing passed with
  | nil => exact Nat.zero_le _
  | cons first rest ih =>
      obtain ⟨hfirst, hrest⟩ := List.pairwise_cons.mp ordered
      have hpassed : passed ≤ first.milestone.rank := later first List.mem_cons_self
      have hrank := first.milestone.rank_lt
      have hleft : rest.length ≤ 6 - (first.milestone.rank + 1) :=
        ih hrest fun fork mem => (hfirst fork mem).milestone
      rw [List.length_cons]
      omega

/-- **There are no more forks than milestones.** -/
theorem Sound.length_le (h : s.Sound) : s.forks.length ≤ 6 :=
  length_le_of_ordered h.ordered fun _ _ => Nat.zero_le _

end ForkSchedule

end BeaconBroadcast
