import BeaconBroadcast.Publish.Failure
import BeaconBroadcast.Settings
import BeaconBroadcast.Validation.Sidecars

/-!
# `BeaconBroadcast.Notice` — what is told to the log

Everything worth a log line is a value; its severity and its wording are functions of it.

## Contents
- **Notices.** `Notice`, one constructor for each thing that is told.
- **Lines.** `Notice.severity` and `Notice.text`.
-/

namespace BeaconBroadcast

/-- How much a log line matters. -/
inductive Severity
  | debug
  | info
  | warn
  | error
deriving DecidableEq

/-- The severity in capitals. -/
def Severity.name : Severity → String
  | debug => "DEBUG"
  | info => "INFO"
  | warn => "WARN"
  | error => "ERROR"

/-- Something to tell the log. -/
inductive Notice
  /-- An attempt begins. -/
  | importing (root : Root) (slot : Slot) (sidecars : Nat) (level : Level)
  /-- Sidecars came with a block of a fork that has none. -/
  | sidecarsIgnored (count : Nat) (slot : Slot)
  /-- The sidecars do not belong to the block, which is not imported. -/
  | sidecarsRejected (root : Root) (slot : Slot) (fault : SidecarFault)
  | blockRefused (root : Root) (slot : Slot) (fault : GossipFault)
  | sidecarRefused (index : UInt64) (root : Root) (fault : GossipFault)
  /-- The broadcast came after the attestation deadline. -/
  | broadcastTooLate (root : Root) (slot : Slot) (offset : Millis)
  /-- The broadcast came past half the time to the attestation deadline. -/
  | broadcastDelayed (root : Root) (slot : Slot) (offset : Millis)
  | partlyBroadcast (root : Root) (slot : Slot) (blockTaken : Bool) (refused : List UInt64)
  | published (root : Root) (slot : Slot) (sidecars : Nat)
  /-- The import did not vouch for the level asked for. -/
  | publishingSkipped (root : Root) (slot : Slot) (verdict : Verdict)
  | importFailed (root : Root) (slot : Slot) (reason : ImportFailure)
  /-- The attempt broke off. -/
  | aborted (root : Root) (slot : Slot) (cause : String)
  /-- No pipeline is registered for the block's milestone. -/
  | noPublisher (milestone : Milestone) (slot : Slot)
  /-- A selector was set up. -/
  | ready (milestones : List Milestone)
  /-- A block arrived before its slot had begun. -/
  | arrivedEarly (root : Root) (slot : Slot)
  | arrived (root : Root) (slot : Slot) (offset : Millis) (timely : Bool)
deriving DecidableEq

/-- Items between brackets. -/
def bracketed (items : List String) : String := "[" ++ String.intercalate ", " items ++ "]"

/-- A truth value in words. -/
def truthText (b : Bool) : String := if b then "true" else "false"

namespace Notice

/-- How much the notice matters. -/
def severity : Notice → Severity
  | importing .. => .debug
  | sidecarsIgnored .. => .warn
  | sidecarsRejected .. => .warn
  | blockRefused .. => .error
  | sidecarRefused .. => .error
  | broadcastTooLate .. => .error
  | broadcastDelayed .. => .warn
  | partlyBroadcast .. => .warn
  | published .. => .info
  | publishingSkipped .. => .warn
  | importFailed .. => .error
  | aborted .. => .error
  | noPublisher .. => .warn
  | ready _ => .info
  | arrivedEarly .. => .debug
  | arrived .. => .debug

/-- A block by root and slot. -/
def blockText (root : Root) (slot : Slot) : String := s!"{root.hex} slot {slot}"

/-- What the notice says. -/
def body : Notice → String
  | importing root slot sidecars level =>
      "Importing block " ++ blockText root slot ++ s!" with {sidecars} blob sidecars at {level.label}"
  | sidecarsIgnored count slot =>
      s!"Ignoring {count} blob sidecars for pre-blob block at slot {slot}"
  | sidecarsRejected root slot fault =>
      "Rejecting block " ++ blockText root slot ++ s!" before import: {fault.text}"
  | blockRefused root slot fault =>
      "Failed to enqueue block " ++ blockText root slot ++ s!" for gossip: {fault.text}"
  | sidecarRefused index root fault =>
      s!"Failed to enqueue blob sidecar {index} of block {root.hex} for gossip: {fault.text}"
  | broadcastTooLate root slot offset =>
      "Block " ++ blockText root slot
        ++ s!" was broadcast too late ({offset}ms into slot); block likely to be orphaned"
  | broadcastDelayed root slot offset =>
      "Block " ++ blockText root slot
        ++ s!" broadcast was delayed ({offset}ms into slot); block may be orphaned"
  | partlyBroadcast root slot blockTaken refused =>
      "Block " ++ blockText root slot ++ " imported but partially broadcast (block enqueued: "
        ++ truthText blockTaken ++ ", failed sidecars: "
        ++ bracketed (refused.map toString) ++ ")"
  | published root slot sidecars =>
      "Published block " ++ blockText root slot ++ s!" with {sidecars} blob sidecars"
  | publishingSkipped root slot verdict =>
      "Block " ++ blockText root slot
        ++ s!" publishing skipped due to broadcast validation result: {verdict.text}"
  | importFailed root slot reason =>
      "Proposed block " ++ blockText root slot ++ s!" failed to import: {reason.text}"
  | aborted root slot cause =>
      "Publish pipeline for block " ++ blockText root slot ++ s!" aborted: {cause}"
  | noPublisher milestone slot =>
      s!"No block publisher for milestone {milestone.name} (block slot {slot})"
  | ready milestones =>
      "Block publisher ready for milestones " ++ bracketed (milestones.map (·.label))
  | arrivedEarly root slot =>
      s!"Block {root.hex} for slot {slot} arrived before its slot started, "
        ++ "timeliness not recorded"
  | arrived root slot offset timely =>
      "Block " ++ blockText root slot ++ s!" arrived {offset}ms into slot: "
        ++ if timely then "timely" else "late"

/-- The whole line, which begins with the number of the subsystem. -/
def text (n : Notice) : String := s!"[qc-{subsystemId}] " ++ n.body

end Notice

end BeaconBroadcast
