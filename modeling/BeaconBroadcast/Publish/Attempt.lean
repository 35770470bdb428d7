import BeaconBroadcast.Ledger
import BeaconBroadcast.Publish.Selector

/-!
# `BeaconBroadcast.Publish.Attempt` — attempts side by side

An attempt is the work in its task and the caller who waits for it. The two go on independently: a
caller may leave at any moment while it waits, and the task goes on; when a task breaks off, a caller
who is still there reports the attempt in its place.

## Contents
- **Attempts.** `Attempt`, `Attempt.start`, and `Attempt.awaited` for one that runs alone to its end.
- **Steps.** `Attempt.Step` says what may happen next in one attempt, call by call.
- **Systems.** `System` holds attempts and the ledger they share; in `System.Step` any one of them moves.
- **Runs.** `System.Run` is any number of steps.
-/

namespace BeaconBroadcast

/-! ## Attempts -/

/-- Where the caller of an attempt stands. -/
inductive Caller : Type
  /-- It waits for the task. -/
  | waiting
  /-- It works itself, or has its result. -/
  | acting (work : Progress PublishResult)
  /-- It has stopped waiting. -/
  | gone

/-- One call to publish a block. -/
structure Attempt where
  request : Request
  /-- The name of the task, for messages. -/
  name : String
  /-- The task, unless the caller does the work itself. -/
  task? : Option (Progress PublishResult)
  caller : Caller
  /-- What has happened, oldest first. -/
  past : List Event := []

namespace Attempt

/-- The attempt that a request becomes. -/
def start (publisher : Publisher) (request : Request) (name : String) : Attempt :=
  match publisher.dispatch request with
  | .task work => { request, name, task? := some (.ofProgram work), caller := .waiting }
  | .direct work => { request, name, task? := none, caller := .acting (.ofProgram work) }

/-- What becomes of an attempt whose caller waits to the end, and all that happens on the way. -/
def awaited (others : Collaborators) (publisher : Publisher) (request : Request) (name : String) :
    Progress PublishResult × List Event :=
  match publisher.dispatch request with
  | .direct work => work.complete others []
  | .task work =>
      match work.complete others [] with
      | (.crashed crash, past) => (abort request.block (crash.text name)).complete others past
      | ended => ended

/-- What the caller got, once it has got it. -/
def result? (a : Attempt) : Option PublishResult :=
  match a.caller with
  | .acting (.returned result) => some result
  | _ => none

/-- The attempt after `event`. -/
def note (a : Attempt) (event : Event) : Attempt := { a with past := a.past ++ [event] }

/-- What may happen next in an attempt, and which event it is, if it is one. -/
inductive Step (others : Collaborators) : Attempt → Option Event → Attempt → Prop
  /-- The task makes a call or gets a reply. -/
  | task {a : Attempt} {event : Event} {before after : Progress PublishResult}
      (running : a.task? = some before) (step : before.step others a.past = some (event, after)) :
      Step others a (some event) { a.note event with task? := some after }
  /-- The caller makes a call or gets a reply. -/
  | caller {a : Attempt} {event : Event} {before after : Progress PublishResult}
      (acting : a.caller = .acting before) (step : before.step others a.past = some (event, after)) :
      Step others a (some event) { a.note event with caller := .acting after }
  /-- The caller gets the result of the task. -/
  | deliver {a : Attempt} {result : PublishResult} (waiting : a.caller = .waiting)
      (returned : a.task? = some (.returned result)) :
      Step others a none { a with caller := .acting (.returned result) }
  /-- The caller learns that the task broke off. -/
  | takeOver {a : Attempt} {crash : Crash} (waiting : a.caller = .waiting)
      (crashed : a.task? = some (.crashed crash)) :
      Step others a none
        { a with caller := .acting (.ofProgram (abort a.request.block (crash.text a.name))) }
  /-- The caller stops waiting. -/
  | leave {a : Attempt} (waiting : a.caller = .waiting) : Step others a none { a with caller := .gone }

/-- Whether nothing is left to happen but that a waiting caller is told. -/
def isSettled (a : Attempt) : Bool :=
  (a.task?.all (·.isDone)) &&
    match a.caller with
    | .acting work => work.isDone
    | .gone => true
    | .waiting => false

end Attempt

/-! ## Systems -/

/-- The ledger after an event. If `dutyCounted`, it is the ledger that duty metrics keep. -/
def Ledger.observe (dutyCounted : Bool) (l : Ledger) : Event → Ledger
  | .answered (.countSidecars taken refused) _ => l.countSidecars taken refused
  | .answered (.reportDuty _ outcome) _ => if dutyCounted then l.countAttempt outcome else l
  | _ => l

/-- Attempts side by side, with the ledger that they share. -/
structure System where
  attempts : List Attempt
  ledger : Ledger := {}

namespace System

/-- Calls to publishers, none of which has begun. Tasks are named by their place. -/
def start (calls : List (Publisher × Request)) : System where
  attempts := calls.zipIdx.map fun ((publisher, request), i) =>
    .start publisher request (toString i)

/-- One of the attempts moves. Attempt `i` has the collaborators `others i`. -/
inductive Step (others : Nat → Collaborators) (dutyCounted : Bool) : System → System → Prop
  | attempt {s : System} {i : Nat} {before after : Attempt} {event? : Option Event}
      (here : s.attempts[i]? = some before) (step : before.Step (others i) event? after) :
      Step others dutyCounted s
        { attempts := s.attempts.set i after
          ledger := event?.elim s.ledger (s.ledger.observe dutyCounted) }

/-- Any number of steps. -/
inductive Run (others : Nat → Collaborators) (dutyCounted : Bool) : System → System → Prop
  | refl (s : System) : Run others dutyCounted s s
  | tail {s t u : System} (run : Run others dutyCounted s t) (step : t.Step others dutyCounted u) :
      Run others dutyCounted s u

end System

end BeaconBroadcast
