/-!
# `BeaconBroadcast.Chain.Milestone` — fork families

A milestone names the rules a block follows. Milestones are ordered by activation; from `deneb` on,
blocks carry blobs.
-/

namespace BeaconBroadcast

/-- A fork family, in order of activation. -/
inductive Milestone
  | phase0
  | altair
  | bellatrix
  | capella
  | deneb
  | electra
deriving DecidableEq

namespace Milestone

/-- Every milestone, in order. -/
def all : List Milestone := [phase0, altair, bellatrix, capella, deneb, electra]

/-- Place in the order of activation. -/
def rank : Milestone → Nat
  | phase0 => 0
  | altair => 1
  | bellatrix => 2
  | capella => 3
  | deneb => 4
  | electra => 5

theorem rank_injective {a b : Milestone} (h : a.rank = b.rank) : a = b := by
  cases a <;> cases b <;> simp_all [rank]

instance : LE Milestone where
  le a b := a.rank ≤ b.rank

instance : LT Milestone where
  lt a b := a.rank < b.rank

instance (a b : Milestone) : Decidable (a ≤ b) := inferInstanceAs (Decidable (a.rank ≤ b.rank))

instance (a b : Milestone) : Decidable (a < b) := inferInstanceAs (Decidable (a.rank < b.rank))

/-- Whether blocks of the fork carry blobs. -/
def carriesBlobs (m : Milestone) : Bool := decide (deneb ≤ m)

/-- The name in messages and documents. -/
def name : Milestone → String
  | phase0 => "phase0"
  | altair => "altair"
  | bellatrix => "bellatrix"
  | capella => "capella"
  | deneb => "deneb"
  | electra => "electra"

/-- The capitalised name, used where a log line lists milestones. -/
def label : Milestone → String
  | phase0 => "Phase0"
  | altair => "Altair"
  | bellatrix => "Bellatrix"
  | capella => "Capella"
  | deneb => "Deneb"
  | electra => "Electra"

end Milestone

end BeaconBroadcast
