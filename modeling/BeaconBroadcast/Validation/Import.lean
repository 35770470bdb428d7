import BeaconBroadcast.Chain.Block
import BeaconBroadcast.Validation.Level

/-!
# `BeaconBroadcast.Validation.Import` — answers of the import and the gate behind them

An import either vouches for a block up to some level, or refuses it with a verdict, or fails. The gate
turns away an import that vouches for less than was asked.

## Contents
- **Failures.** `ImportFailure` and `ChannelFault`, with their words.
- **Answers.** `ImportAnswer`, and `ImportAnswer.ofChannel` for a channel that broke.
- **Gate.** `ImportAnswer.gate` lets an import through exactly at the level asked for or above.
-/

namespace BeaconBroadcast

/-- Why a block could not be imported. -/
inductive ImportFailure
  | invalidBlock (detail : String)
  | invalidSidecars (detail : String)
  | unknownParent
  | failedTransition (detail : String)
  /-- Nothing is known against the block; the machinery broke. -/
  | internal (detail : String)
deriving DecidableEq

/-- The failure in words. -/
def ImportFailure.text : ImportFailure → String
  | invalidBlock detail => "invalid block: " ++ detail
  | invalidSidecars detail => "invalid blob sidecars: " ++ detail
  | unknownParent => "unknown parent"
  | failedTransition detail => "state transition failed: " ++ detail
  | internal detail => "internal error: " ++ detail

/-- Why the way to the import gave no answer. -/
inductive ChannelFault
  | closed
  | internal (detail : String)
deriving DecidableEq

/-- The error in words. -/
def ChannelFault.text : ChannelFault → String
  | closed => "Import channel closed"
  | internal detail => "Import channel error: " ++ detail

/-- What the import says of a block it took. -/
structure ImportedBlock where
  root : Root
  slot : Slot
  /-- How far the import checked the block. -/
  validatedAt : Level
  /-- Whether the import took the payload on trust. -/
  optimistic : Bool
deriving DecidableEq

/-- The answer of an import. -/
inductive ImportAnswer
  | imported (block : ImportedBlock)
  | refused (verdict : Verdict)
  | failed (reason : ImportFailure)
deriving DecidableEq

namespace ImportAnswer

/-- What the import says, where a broken channel counts as a failure of the machinery. -/
def ofChannel : Except ChannelFault ImportAnswer → ImportAnswer
  | .ok answer => answer
  | .error e => failed (.internal e.text)

def isImported : ImportAnswer → Bool
  | imported _ => true
  | _ => false

/-- Holds an answer against the level asked for: an import that vouches for less is a refusal, and a
    refusal that claims success is a failure, for it came without an import. -/
def gate (requested : Level) : ImportAnswer → ImportAnswer
  | imported block =>
      if block.validatedAt.satisfies requested then imported block
      else refused (.insufficient block.validatedAt)
  | refused .success => failed (.internal "validation reported success without an import result")
  | answer => answer

end ImportAnswer

end BeaconBroadcast
