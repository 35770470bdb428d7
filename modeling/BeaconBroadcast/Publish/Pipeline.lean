import BeaconBroadcast.Publish.Variant
import BeaconBroadcast.Slot.Timing
import BeaconBroadcast.Text.Escaped

/-!
# `BeaconBroadcast.Publish.Pipeline` — import first, broadcast after

A pipeline imports a block, holds the answer against the level asked for, broadcasts what passes, and
reports the attempt to duty metrics and performance tracking whatever came of it.

## Contents
- **Pipelines.** `Pipeline`, and `Pipeline.run` for one attempt.
- **Parts.** `tellDelay` remarks on a late broadcast, `conclude` turns the gated answer into a result,
  `report` tells the two listeners.
- **Crashes.** `Crash.text`, and `abort` for a caller whose attempt broke off.
-/

namespace BeaconBroadcast

open Program (request notify)

/-- Tells duty metrics, then performance tracking. -/
def report (block : SignedBlock) (outcome : Outcome) : Program Unit := do
  request (.reportDuty block outcome)
  request (.reportPerformance block outcome)

/-- The remark on a broadcast that far into the slot, unless it was on time. -/
def latenessNotice? (block : SignedBlock) (timing : SlotTiming) (offset : Millis) : Option Notice :=
  match timing.lateness offset with
  | .tooLate => some (.broadcastTooLate block.root block.slot offset)
  | .delayed => some (.broadcastDelayed block.root block.slot offset)
  | .onTime => none

/-- Remarks on a broadcast that is late by the slots of `grid?`, if there is a clock to tell. -/
def tellDelay (block : SignedBlock) : Option SlotGrid → Program Unit
  | none => return
  | some grid => do
      let timing := grid.timing block.slot
      let now ← request .readClock
      match (timing.offset? now).bind (latenessNotice? block timing) with
      | some notice => notify notice
      | none => return

/-- The remark on a finished broadcast. -/
def deliveryNotice (block : SignedBlock) (d : Delivery) : Notice :=
  if d.isPartial then .partlyBroadcast block.root block.slot d.blockTaken d.sidecarsRefused
  else .published block.root block.slot d.sidecarsTaken

/-- The way a block of one fork takes. -/
structure Pipeline where
  variant : Variant
  /-- The slots by which late broadcasts are judged; without them there is no clock either. -/
  grid? : Option SlotGrid := none
deriving DecidableEq

namespace Pipeline

/-- What follows from the import's answer, once it was held against the level. -/
def conclude (p : Pipeline) (block : SignedBlock) (sidecars : List BlobSidecar) (level : Level) :
    ImportAnswer → Program PublishResult
  | .imported imported => do
      let delivery ← p.variant.broadcast block sidecars
      tellDelay block p.grid?
      notify (deliveryNotice block delivery)
      return .ok { root := block.root, slot := block.slot, optimistic := imported.optimistic, delivery }
  | .refused verdict => do
      notify (.publishingSkipped block.root block.slot verdict)
      return .error (.validationFailed block.root level verdict)
  | .failed reason => do
      notify (.importFailed block.root block.slot reason)
      return .error (.importFailed block.root reason)

/-- One attempt. -/
def run (p : Pipeline) (block : SignedBlock) (sidecars : List BlobSidecar) (level : Level) :
    Program PublishResult := do
  notify (.importing block.root block.slot sidecars.length level)
  let answer ← p.variant.importBlock block sidecars level
  let result ← p.conclude block sidecars level (answer.gate level)
  report block result.outcome
  return result

end Pipeline

/-! ## Crashes -/

/-- The end of the task named `task`, in words. -/
def Crash.text (task : String) (crash : Crash) : String :=
  match crash.message with
  | some message => s!"task {task} panicked with message " ++ Text.escaped message
  | none => s!"task {task} panicked"

/-- What a caller does whose attempt broke off: the listeners hear that nothing is known of it. -/
def abort (block : SignedBlock) (cause : String) : Program PublishResult := do
  notify (.aborted block.root block.slot cause)
  report block .notAttempted
  return .error (.internal cause)

end BeaconBroadcast
