import BeaconBroadcast.Publish.Pipeline
import BeaconBroadcast.Slot.Clock

/-!
# `BeaconBroadcast.Publish.Selector` — the pipeline of a block's milestone

A selector holds a fork schedule and pipelines by milestone. A block goes to the pipeline of the
milestone of its slot; where there is none the attempt is reported as not made.

## Contents
- **Selectors.** `Selector`, `register` and `pipeline?`.
- **Settings.** `Selector.ofSettings` registers a pipeline for every fork of a valid schedule.
- **Publishers.** `Publisher` is a single pipeline or a selector; `Publisher.dispatch` says what a
  `Request` comes to and whether a task of its own does it.
-/

namespace BeaconBroadcast

open Program (request notify)

/-- Pipelines by milestone. -/
structure Selector where
  schedule : ForkSchedule
  /-- The latest registration stands first. -/
  pipelines : List (Milestone × Pipeline) := []
deriving DecidableEq

namespace Selector

/-- Registers `p` for `milestone`, in place of what was registered before. -/
def register (s : Selector) (milestone : Milestone) (p : Pipeline) : Selector :=
  { s with pipelines := (milestone, p) :: s.pipelines }

/-- The pipeline last registered for `milestone`. -/
def pipeline? (s : Selector) (milestone : Milestone) : Option Pipeline := s.pipelines.lookup milestone

/-- The milestone of the block's slot. -/
def milestoneOf (s : Selector) (block : SignedBlock) : Milestone := s.schedule.milestoneAt block.slot

/-- What is done with a block that no pipeline takes. -/
def turnAway (block : SignedBlock) (milestone : Milestone) : Program PublishResult := do
  notify (.noPublisher milestone block.slot)
  report block .notAttempted
  return .error (.unsupported milestone)

end Selector

/-- The variant for blocks of `milestone`. -/
def Settings.variant (s : Settings) (counted : Bool) (milestone : Milestone) : Variant :=
  if milestone.carriesBlobs then .withBlobs (s.blobLimit milestone) counted else .plain

/-- The pipeline for blocks of `milestone`. -/
def Settings.pipeline (s : Settings) (clock? : Option SlotClock) (counted : Bool)
    (milestone : Milestone) : Pipeline where
  variant := s.variant counted milestone
  grid? := clock?.map fun clock => clock.grid s.timeliness.intervalsPerSlot

/-- Sets up a selector with a pipeline for every fork in the settings. If `counted`, sidecars are counted
    in the ledger. -/
def Selector.ofSettings (s : Settings) (clock? : Option SlotClock) (counted : Bool) :
    Program (Except SettingsFault Selector) := do
  match s.fault? with
  | some fault => return .error fault
  | none =>
      let milestones := s.forkSchedule.forks.map (·.milestone)
      notify (.ready milestones)
      return .ok (milestones.foldl
        (fun selector milestone => selector.register milestone (s.pipeline clock? counted milestone))
        { schedule := s.forkSchedule })

/-- What a caller asks for. -/
structure Request where
  block : SignedBlock
  sidecars : List BlobSidecar
  /-- How far the import has to vouch for the block. -/
  level : Level := .standard
deriving DecidableEq

/-- How the work of an attempt is done. -/
inductive Dispatch : Type
  /-- In a task of its own, which goes on if the caller leaves. -/
  | task (work : Program PublishResult)
  /-- By the caller. -/
  | direct (work : Program PublishResult)

/-- Something that publishes blocks. -/
inductive Publisher
  | single (p : Pipeline)
  | selector (s : Selector)
deriving DecidableEq

/-- The work that a request is, and who does it. -/
def Publisher.dispatch (r : Request) : Publisher → Dispatch
  | single p => .task (p.run r.block r.sidecars r.level)
  | selector s =>
      match s.pipeline? (s.milestoneOf r.block) with
      | some p => .task (p.run r.block r.sidecars r.level)
      | none => .direct (Selector.turnAway r.block (s.milestoneOf r.block))

end BeaconBroadcast
