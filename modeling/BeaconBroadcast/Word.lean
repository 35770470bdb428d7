/-!
# `BeaconBroadcast.Word` — capped arithmetic on 64-bit words

Slots, epochs and times are 64-bit words. Where a sum or a product would leave the range it is held at
the largest word instead of wrapping, so that a slot far in the future starts at the end of time and
not in the past.

## Contents
- **Capping.** `clamp` takes any natural number into the range.
- **Operations.** `addSat`, `mulSat` and `subSat` are the natural operations followed by `clamp`;
  `sub?` is the difference, if there is one.
- **Views.** One `toNat` equation per operation, after which nothing unfolds them.
-/

namespace BeaconBroadcast.Word

/-- The largest word. -/
def top : Nat := UInt64.size - 1

/-- The word nearest to `n`: `n` itself, or the largest word. -/
def clamp (n : Nat) : UInt64 := UInt64.ofNat (min n top)

/-- The sum, held at the largest word. -/
def addSat (a b : UInt64) : UInt64 := clamp (a.toNat + b.toNat)

/-- The product, held at the largest word. -/
def mulSat (a b : UInt64) : UInt64 := clamp (a.toNat * b.toNat)

/-- The difference, held at zero. -/
def subSat (a b : UInt64) : UInt64 := clamp (a.toNat - b.toNat)

/-- The difference, if `b` is at most `a`. -/
def sub? (a b : UInt64) : Option UInt64 := if b ≤ a then some (a - b) else none

/-! ## Views in the natural numbers -/

@[simp] theorem toNat_clamp (n : Nat) : (clamp n).toNat = min n top := by
  have h : min n top < 2 ^ 64 := Nat.lt_of_le_of_lt (Nat.min_le_right n top) (by decide)
  rw [clamp, UInt64.toNat_ofNat', Nat.mod_eq_of_lt h]

@[simp] theorem toNat_addSat (a b : UInt64) : (addSat a b).toNat = min (a.toNat + b.toNat) top := by
  simp [addSat]

@[simp] theorem toNat_mulSat (a b : UInt64) : (mulSat a b).toNat = min (a.toNat * b.toNat) top := by
  simp [mulSat]

@[simp] theorem toNat_subSat (a b : UInt64) : (subSat a b).toNat = a.toNat - b.toNat := by
  have h : a.toNat - b.toNat ≤ top :=
    Nat.le_trans (Nat.sub_le _ _) (Nat.le_sub_one_of_lt a.toNat_lt)
  simp [subSat, Nat.min_eq_left h]

theorem toNat_max (a b : UInt64) : (max a b).toNat = max a.toNat b.toNat := by
  by_cases h : a ≤ b
  · have hle : a.toNat ≤ b.toNat := UInt64.le_iff_toNat_le.mp h
    rw [show max a b = b from if_pos h, Nat.max_eq_right hle]
  · have hlt : b.toNat < a.toNat := by rwa [UInt64.le_iff_toNat_le, Nat.not_le] at h
    rw [show max a b = a from if_neg h, Nat.max_eq_left (Nat.le_of_lt hlt)]

theorem sub?_eq_some_iff {a b d : UInt64} :
    sub? a b = some d ↔ b.toNat ≤ a.toNat ∧ d.toNat = a.toNat - b.toNat := by
  unfold sub?
  split
  · rename_i h
    have hle : b.toNat ≤ a.toNat := UInt64.le_iff_toNat_le.mp h
    simp only [Option.some.injEq, hle, true_and, ← UInt64.toNat_inj, UInt64.toNat_sub_of_le a b h]
    exact eq_comm
  · rename_i h
    simp only [UInt64.le_iff_toNat_le] at h
    simp [h]

theorem sub?_eq_none_iff {a b : UInt64} : sub? a b = none ↔ a.toNat < b.toNat := by
  unfold sub?
  split <;> rename_i h <;> simp only [UInt64.le_iff_toNat_le] at h <;> simp <;> omega

end BeaconBroadcast.Word
