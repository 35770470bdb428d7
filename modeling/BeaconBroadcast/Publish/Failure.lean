import BeaconBroadcast.Chain.Milestone
import BeaconBroadcast.Publish.Delivery
import BeaconBroadcast.Validation.Import

/-!
# `BeaconBroadcast.Publish.Failure` — why an attempt did not reach gossip

## Contents
- **Gossip.** `GossipFault` is why one message was not taken.
- **Attempts.** `PublishFailure` is why a whole attempt ended before gossip; every fault of a collaborator
  becomes one of these.
- **Results.** `PublishResult`, with the coarse account of each.
-/

namespace BeaconBroadcast

/-- Why gossip did not take a message. -/
inductive GossipFault
  | queueFull
  | channelClosed
  | encoding (detail : String)
deriving DecidableEq

/-- The fault in words. -/
def GossipFault.text : GossipFault → String
  | queueFull => "Gossip queue full"
  | channelClosed => "Gossip channel closed"
  | encoding detail => "Encoding error: " ++ detail

/-- Why an attempt ended before gossip. -/
inductive PublishFailure
  | importFailed (root : Root) (reason : ImportFailure)
  /-- The import did not vouch for the level `requested`. -/
  | validationFailed (root : Root) (requested : Level) (verdict : Verdict)
  /-- No pipeline is registered for the block's milestone. -/
  | unsupported (milestone : Milestone)
  /-- The attempt broke off; gossip may have begun. -/
  | internal (detail : String)
deriving DecidableEq

namespace PublishFailure

/-- The failure in words. -/
def text : PublishFailure → String
  | importFailed root reason => "Block " ++ root.hex ++ " import failed: " ++ reason.text
  | validationFailed root requested verdict =>
      "Block " ++ root.hex ++ " failed broadcast validation at " ++ requested.label ++ ": "
        ++ verdict.text
  | unsupported milestone => "No block publisher for milestone " ++ milestone.name
  | internal detail => "Internal error: " ++ detail

/-- Whether import found the block or its sidecars wanting, or broke down. -/
def isImportFailure : PublishFailure → Bool
  | importFailed .. => true
  | _ => false

/-- Whether the block passed import but not the level asked for. -/
def isValidationFailure : PublishFailure → Bool
  | validationFailed .. => true
  | _ => false

/-- The coarse account of an attempt that ended so. -/
def outcome : PublishFailure → Outcome
  | importFailed .. => .importFailed
  | validationFailed .. => .validationFailed
  | unsupported _ => .notAttempted
  | internal _ => .notAttempted

end PublishFailure

/-- What a caller gets. -/
abbrev PublishResult : Type := Except PublishFailure Publication

/-- The coarse account of an attempt that gave its caller this. -/
def PublishResult.outcome : PublishResult → Outcome
  | .ok publication => if publication.delivery.isPartial then .partiallyPublished else .published
  | .error failure => failure.outcome

end BeaconBroadcast
