import BeaconBroadcast.Publish.Attempt

/-!
# `BeaconBroadcast.Publish.Simulation` — attempts in virtual time

A simulation runs attempts against scripted collaborators. Time passes only while somebody waits: for
the answer of an import, until a caller loses patience, or because the whole simulation rests. Attempts
that were left by their callers go on and finish when their time has come.

Each caller brings a script, which takes the place of the one before it: gossip and the listeners act
as the latest script says, also towards attempts that were begun earlier. An import acts as the script
says that is the latest when it is called, and keeps to it while it is under way.

## Contents
- **Scripts.** `Script` is how the collaborators behave and how long the caller who brings it waits.
- **Simulations.** `Simulation`, with the work that is under way and all that has happened.
- **Work.** `begin`, `finish` and `passTo` move work on; `await` runs it with a caller who waits for it.
- **Attempts.** `publish` runs a request, and `rest` lets time pass.
-/

namespace BeaconBroadcast

/-- How the collaborators behave from one caller to the next. -/
structure Script where
  /-- What they reply to what has happened under this script; the slot clock is the simulation's. -/
  others : Collaborators
  /-- How long an import takes that does not break down. -/
  importDelay : Nat := 0
  /-- How long the caller waits, if not for ever. -/
  patience? : Option Nat := none

/-- Work of a caller. -/
structure Work (α : Type) where
  /-- Tells the events of different callers apart. -/
  number : Nat
  /-- The script that was the latest when the work was begun. -/
  script : Script
  /-- What had happened under that script before. -/
  earlier : List Event := []
  past : List Event := []
  progress : Progress α

/-- One thing that happened in a simulation. -/
structure Happening where
  /-- The number of the caller. -/
  number : Nat
  time : Nat
  event : Event

/-- Attempts in virtual time. -/
structure Simulation where
  /-- Whether duty metrics keep the ledger. -/
  dutyCounted : Bool := false
  /-- What the slot clock reads; it does not move by itself. -/
  clock : SlotClock
  ledger : Ledger := {}
  elapsed : Nat := 0
  /-- How many callers there have been. -/
  callers : Nat := 0
  /-- Tasks that have not begun, oldest first. -/
  queued : List (Work PublishResult) := []
  /-- Tasks that wait for their import, with the time when it answers, earliest first. -/
  importing : List (Nat × Work PublishResult) := []
  /-- All that has happened, oldest first. -/
  transcript : List Happening := []
  /-- The script of the latest caller. -/
  latest? : Option Script := none
  /-- What has happened under that script. -/
  recent : List Event := []

namespace Simulation

/-! ## Work -/

/-- The collaborators that `w` meets: its import keeps to the script of `w`, the clock is the
    simulation's, and the rest follow the latest script. -/
def others {α : Type} (s : Simulation) (w : Work α) : Collaborators := fun past c =>
  match c with
  | .readClock => .answer s.clock.now
  | c =>
      if c.isImport then w.script.others (w.earlier ++ past) c
      else (s.latest?.getD w.script).others (s.recent ++ past.drop w.past.length) c

/-- Takes note of what has happened since `before` in work that is now at `after`. -/
def record {α : Type} (s : Simulation) (before : List Event) (after : Work α) : Simulation :=
  let events := after.past.drop before.length
  { s with
    ledger := events.foldl (Ledger.observe s.dutyCounted) s.ledger
    transcript := s.transcript ++ events.map (⟨after.number, s.elapsed, ·⟩)
    recent := s.recent ++ events }

/-- Runs `program` as the work of `w`, up to an import that takes time. -/
def begin {α : Type} (s : Simulation) (w : Work α) (program : Program α) : Simulation × Work α :=
  let w := { w with script := s.latest?.getD w.script, earlier := s.recent }
  let waits (past : List Event) (c : Call) : Bool :=
    c.isImport && 0 < w.script.importDelay && !(s.others w past c).isCrash
  let (progress, past) := program.execute (s.others w) waits w.past
  let after := { w with progress, past }
  (s.record w.past after, after)

/-- Answers the import that `w` waits for, and runs it to its end. -/
def finish {α : Type} (s : Simulation) (w : Work α) : Simulation × Work α :=
  let (progress, past) := w.progress.resume (s.others w) w.past
  let after := { w with progress, past }
  (s.record w.past after, after)

/-- Puts a task among those that wait for their import. -/
def hold (s : Simulation) (due : Nat) (w : Work PublishResult) : Simulation :=
  let (before, after) := s.importing.span fun other => other.1 ≤ due
  { s with importing := before ++ (due, w) :: after }

/-- Lets time pass to `time`. Imports answer when they are due, and their tasks end. -/
def passTo (s : Simulation) (time : Nat) : Simulation :=
  let (due, later) := s.importing.span fun held => held.1 ≤ time
  let s := due.foldl (fun s (due, w) => ({ s with elapsed := due }.finish w).1)
    { s with importing := later }
  { s with elapsed := time }

/-- Begins one task that was queued. -/
def beginQueued (s : Simulation) (w : Work PublishResult) : Simulation :=
  match w.progress with
  | .ready c next =>
      let (s, w) := s.begin w (.call c next)
      match w.progress with
      | .blocked .. => s.hold (s.elapsed + w.script.importDelay) w
      | _ => s
  | _ => s

/-- Begins all tasks that are queued, oldest first. -/
def beginAllQueued (s : Simulation) : Simulation := s.queued.foldl beginQueued { s with queued := [] }

/-- The next caller, with work that has not begun. -/
def newWork {α : Type} (s : Simulation) (script : Script) (program : Program α) : Simulation × Work α :=
  ({ s with callers := s.callers + 1, latest? := some script, recent := [] },
    { number := s.callers, script, progress := .ofProgram program })

/-- Lets the caller of `w` wait until its import has answered, and for the end of the work. -/
def waitOut {α : Type} (s : Simulation) (w : Work α) : Simulation × Work α :=
  match w.progress with
  | .blocked .. =>
      let s := s.beginAllQueued
      (s.passTo (s.elapsed + w.script.importDelay)).finish w
  | _ => (s, w)

/-- Runs work that the caller does itself. -/
def await {α : Type} (s : Simulation) (script : Script) (program : Program α) :
    Simulation × Progress α :=
  let (s, w) := s.newWork script program
  let (s, w) := s.begin w program
  let (s, w) := s.waitOut w
  (s, w.progress)

/-! ## Attempts -/

/-- What the caller does when its task has ended. -/
def conclude (s : Simulation) (request : Request) (name : String) (w : Work PublishResult) :
    Simulation × Progress PublishResult :=
  match w.progress with
  | .crashed crash =>
      let (s, w) := s.begin w (abort request.block (crash.text name))
      (s, w.progress)
  | progress => (s, progress)

/-- Whether a caller with this script leaves before the import answers. -/
def leavesEarly (script : Script) : Option Nat :=
  script.patience?.filter fun patience => patience < script.importDelay

/-- Runs a request whose task is called `name`. There is no second part if the caller left. A caller
    without any patience leaves before its task has begun. -/
def publish (s : Simulation) (publisher : Publisher) (request : Request) (name : String)
    (script : Script) : Simulation × Option (Progress PublishResult) :=
  match publisher.dispatch request with
  | .direct program =>
      let (s, progress) := s.await script program
      (s, some progress)
  | .task program =>
      let (s, w) := s.newWork script program
      if script.patience? = some 0 then ({ s with queued := s.queued ++ [w] }, none)
      else
        let (s, w) := s.beginAllQueued.begin w program
        match w.progress, leavesEarly script with
        | .blocked .., some patience =>
            let due := s.elapsed + script.importDelay
            ((s.hold due w).passTo (s.elapsed + patience), none)
        | _, _ =>
            let (s, w) := s.waitOut w
            let (s, progress) := s.conclude request name w
            (s, some progress)

/-- Lets `time` pass. -/
def rest (s : Simulation) (time : Nat) : Simulation :=
  if time = 0 then s
  else
    let s := s.beginAllQueued
    s.passTo (s.elapsed + time)

end Simulation

end BeaconBroadcast
