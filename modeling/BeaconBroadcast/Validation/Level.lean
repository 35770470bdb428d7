/-!
# `BeaconBroadcast.Validation.Level` — how far a block was checked

A caller asks for a level of validation before broadcast, and an import reports the level it reached.
Levels are ordered by strength.

## Contents
- **Levels.** `Level`, its order, its names.
- **Verdicts.** `Verdict` is the answer of a validation that is not an import.
-/

namespace BeaconBroadcast

/-- A level of validation before broadcast, weakest first. -/
inductive Level
  | gossip
  | consensus
  | consensusAndEquivocation
deriving DecidableEq

namespace Level

/-- Every level, weakest first. -/
def all : List Level := [gossip, consensus, consensusAndEquivocation]

/-- Place in the order of strength. -/
def rank : Level → Nat
  | gossip => 0
  | consensus => 1
  | consensusAndEquivocation => 2

theorem rank_injective {a b : Level} (h : a.rank = b.rank) : a = b := by
  cases a <;> cases b <;> simp_all [rank]

instance : LE Level where
  le a b := a.rank ≤ b.rank

instance : LT Level where
  lt a b := a.rank < b.rank

instance (a b : Level) : Decidable (a ≤ b) := inferInstanceAs (Decidable (a.rank ≤ b.rank))

instance (a b : Level) : Decidable (a < b) := inferInstanceAs (Decidable (a.rank < b.rank))

/-- Whether a block checked at `reached` may go out to a caller who asked for `requested`. -/
def satisfies (reached requested : Level) : Bool := decide (requested ≤ reached)

/-- What is asked for by a caller who asks for nothing in particular. -/
def standard : Level := gossip

/-- The name in documents. -/
def name : Level → String
  | gossip => "gossip"
  | consensus => "consensus"
  | consensusAndEquivocation => "consensus_and_equivocation"

/-- The name in messages. -/
def label : Level → String
  | gossip => "Gossip"
  | consensus => "Consensus"
  | consensusAndEquivocation => "ConsensusAndEquivocation"

end Level

/-- What a validation before broadcast came to. -/
inductive Verdict
  | success
  | gossipFailure
  | consensusFailure
  /-- Another block by the same proposer for the same slot was seen. -/
  | equivocation
  /-- Nothing was wrong, but the checks stopped at a weaker level than asked for. -/
  | insufficient (reached : Level)
deriving DecidableEq

namespace Verdict

def isSuccess : Verdict → Bool
  | success => true
  | _ => false

/-- The verdict in words. -/
def text : Verdict → String
  | success => "success"
  | gossipFailure => "gossip validation failed"
  | consensusFailure => "consensus validation failed"
  | equivocation => "equivocating block observed"
  | insufficient reached => s!"validated only at {reached.label}"

end Verdict

end BeaconBroadcast
