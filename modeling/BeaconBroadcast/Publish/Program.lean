import BeaconBroadcast.Notice

/-!
# `BeaconBroadcast.Publish.Program` — work described by the calls it makes

What an attempt does is a tree: at each node one call to a collaborator, and below it what to do next
for each answer. Nothing runs here, so the same description can be run alone, among others, or only as
far as some call.

## Contents
- **Calls.** `Call` and the type of its answer.
- **Programs.** `Program α` ends with an `α` after finitely many calls.
- **Replies.** `Reply` is an answer or a crash; `Event` is one thing that happened; `Collaborators` are
  those of one attempt, whose replies may depend on all that the attempt did before.
- **Running.** `Progress` is where work stands and `Progress.step` the next thing to happen;
  `Program.execute` runs a program to its end, or up to a call that has to wait.
-/

namespace BeaconBroadcast

/-- A call to a collaborator. -/
inductive Call
  | importBlock (block : SignedBlock) (level : Level)
  | importWithSidecars (block : SignedBlock) (sidecars : List BlobSidecar) (level : Level)
  | gossipBlock (block : SignedBlock)
  | gossipSidecar (sidecar : BlobSidecar)
  /-- Tells duty metrics how an attempt went. -/
  | reportDuty (block : SignedBlock) (outcome : Outcome)
  /-- Tells performance tracking how an attempt went. -/
  | reportPerformance (block : SignedBlock) (outcome : Outcome)
  /-- Asks the slot clock for the time. -/
  | readClock
  /-- Adds to the sidecar counters of the ledger. -/
  | countSidecars (taken refused : Nat)
  /-- Tells the log something. -/
  | notify (notice : Notice)
deriving DecidableEq

namespace Call

/-- What a call is answered with. -/
abbrev Answer : Call → Type
  | importBlock .. => Except ChannelFault ImportAnswer
  | importWithSidecars .. => Except ChannelFault ImportAnswer
  | gossipBlock _ => Except GossipFault Unit
  | gossipSidecar _ => Except GossipFault Unit
  | reportDuty .. => Unit
  | reportPerformance .. => Unit
  | readClock => Millis
  | countSidecars .. => Unit
  | notify _ => Unit

/-- Whether the call goes to the import. -/
def isImport : Call → Bool
  | importBlock .. => true
  | importWithSidecars .. => true
  | _ => false

/-- Whether the call offers a message to gossip. -/
def isGossip : Call → Bool
  | gossipBlock _ => true
  | gossipSidecar _ => true
  | _ => false

end Call

/-! ## Programs -/

/-- Work that ends with an `α`. -/
inductive Program (α : Type) : Type
  | pure (a : α)
  | call (c : Call) (next : c.Answer → Program α)

namespace Program

/-- Does `p`, then what `f` makes of its result. -/
def bind {α β : Type} : Program α → (α → Program β) → Program β
  | pure a, f => f a
  | call c next, f => call c fun answer => (next answer).bind f

instance : Monad Program where
  pure := Program.pure
  bind := Program.bind

/-- Makes one call. -/
def request (c : Call) : Program c.Answer := call c pure

/-- Tells the log something. -/
def notify (notice : Notice) : Program Unit := request (.notify notice)

end Program

/-! ## Replies -/

/-- How a collaborator broke down: what it said, if that was text. -/
structure Crash where
  message : Option String
deriving DecidableEq

/-- What a call comes to. -/
inductive Reply (c : Call) : Type
  | answer (a : c.Answer)
  | crash (crash : Crash)

/-- Whether the collaborator broke down. -/
def Reply.isCrash {c : Call} : Reply c → Bool
  | answer _ => false
  | crash _ => true

/-- One thing that happened in an attempt. -/
inductive Event : Type
  /-- The call was made. -/
  | issued (c : Call)
  /-- The call was answered. -/
  | answered (c : Call) (a : c.Answer)
  /-- The call was not answered, for the collaborator broke down. -/
  | crashed (c : Call) (crash : Crash)

/-- The collaborators of one attempt: what they reply to a call after everything, that call included,
    that has happened in the attempt. -/
abbrev Collaborators : Type := List Event → (c : Call) → Reply c

/-! ## Running -/

/-- Where work stands. -/
inductive Progress (α : Type) : Type
  /-- The next call has not been made. -/
  | ready (c : Call) (next : c.Answer → Program α)
  /-- The call was made and has no reply yet. -/
  | blocked (c : Call) (next : c.Answer → Program α)
  | returned (a : α)
  | crashed (crash : Crash)

namespace Progress

/-- Work that has not begun. -/
def ofProgram {α : Type} : Program α → Progress α
  | .pure a => returned a
  | .call c next => ready c next

/-- Whether there is nothing left to do. -/
def isDone {α : Type} : Progress α → Bool
  | returned _ => true
  | crashed _ => true
  | _ => false

/-- The next thing to happen, if there is one: a call is made, or gets its reply. -/
def step {α : Type} (others : Collaborators) (past : List Event) :
    Progress α → Option (Event × Progress α)
  | ready c next => some (.issued c, blocked c next)
  | blocked c next =>
      match others past c with
      | .answer a => some (.answered c a, ofProgram (next a))
      | .crash crash => some (.crashed c crash, crashed crash)
  | returned _ => none
  | crashed _ => none

end Progress

/-- Runs a program after `past`, up to a call that `waits` for its reply after everything, that call
    included, that has happened. -/
def Program.execute {α : Type} (others : Collaborators) (waits : List Event → Call → Bool) :
    Program α → List Event → Progress α × List Event
  | pure a, past => (.returned a, past)
  | call c next, past =>
      let past := past ++ [.issued c]
      if waits past c then (.blocked c next, past)
      else match others past c with
        | .answer a => (next a).execute others waits (past ++ [.answered c a])
        | .crash crash => (.crashed crash, past ++ [.crashed c crash])

/-- Runs a program after `past` to its end. -/
def Program.complete {α : Type} (others : Collaborators) (p : Program α) (past : List Event) :
    Progress α × List Event :=
  p.execute others (fun _ _ => false) past

/-- Gives the reply that work waits for and runs it to its end. -/
def Progress.resume {α : Type} (others : Collaborators) (past : List Event) :
    Progress α → Progress α × List Event
  | blocked c next =>
      match others past c with
      | .answer a => (next a).complete others (past ++ [.answered c a])
      | .crash crash => (crashed crash, past ++ [.crashed c crash])
  | progress => (progress, past)

end BeaconBroadcast
