import BeaconBroadcast.Proofs.Arrival.Roll
import BeaconBroadcast.Proofs.Publish.Results
import BeaconBroadcast.Proofs.Publish.SidecarCounts
import BeaconBroadcast.Proofs.Publish.Tally

/-!
# `BeaconBroadcast.Proofs.Node.Runs` — one ledger for attempts and arrivals

A node publishes blocks and takes note of arrivals, and one ledger hears of both. The two sides know nothing of each
other, so each counter goes up by what its own side adds, in whatever order the two take turns.

## Contents
- **Nodes.** `Node`; `Node.Step` moves one attempt or takes one call to the tracker, and `Node.Run` is any number of
  steps.
- **Ledgers.** What a reply adds to the ledger, before or after an event.
- **Sides.** `Node.Run.system`: leaving the tracker out, a run is one of a system; `Node.Run.ledger_eq`.
- **Counters.** `Ledger.CountsBy` says how fast a counter goes up; `Node.Run.counter_eq`.
-/

namespace BeaconBroadcast

/-! ## Nodes -/

/-- Attempts and a tracker, with the one ledger that hears of both. -/
structure Node where
  attempts : List Attempt
  tracker : Tracker
  /-- What the tracker has replied, oldest first. -/
  replies : List TrackerReply := []
  ledger : Ledger := {}

/-- The ledger after a reply of the tracker. -/
def Ledger.observeReply (l : Ledger) : TrackerReply → Ledger
  | .arrived result => l.observeArrival result
  | _ => l

namespace Node

/-- Requests to one publisher, none of which has begun, beside a tracker. Nothing has been counted. -/
def start (publisher : Publisher) (requests : List Request) (tracker : Tracker) : Node where
  attempts := (System.start (requests.map (publisher, ·))).attempts
  tracker

/-- The node after a call to its tracker. -/
def take (n : Node) (call : TrackerCall) : Node where
  attempts := n.attempts
  tracker := (n.tracker.serve call).1
  replies := n.replies ++ [(n.tracker.serve call).2]
  ledger := n.ledger.observeReply (n.tracker.serve call).2

/-- One of the attempts moves, or the tracker takes a call. Duty metrics keep the ledger. -/
inductive Step (others : Nat → Collaborators) : Node → Node → Prop
  | attempt {n : Node} {i : Nat} {before after : Attempt} {event? : Option Event}
      (here : n.attempts[i]? = some before) (step : before.Step (others i) event? after) :
      Step others n
        { n with
          attempts := n.attempts.set i after
          ledger := event?.elim n.ledger (n.ledger.observe true) }
  | call (n : Node) (call : TrackerCall) : Step others n (n.take call)

/-- Any number of steps. -/
inductive Run (others : Nat → Collaborators) : Node → Node → Prop
  | refl (n : Node) : Run others n n
  | tail {n m o : Node} (run : Run others n m) (step : m.Step others o) : Run others n o

/-- All that has happened in the attempts, one after the other. -/
def happened (n : Node) : List Event := n.attempts.flatMap (·.past)

end Node

/-! ## Ledgers -/

namespace Ledger

theorem observeReply_eq_add (l : Ledger) (reply : TrackerReply) :
    l.observeReply reply = l.add (observeReply {} reply) := by
  cases reply with
  | arrived result =>
      cases result with
      | recorded arrival =>
          simp only [observeReply, observeArrival, countArrival]
          split
          · simp [add]
          · simp [add]
      | alreadyRecorded => exact (add_empty l).symm
      | future => simp [observeReply, observeArrival, countFuture, add]
  | _ => exact (add_empty l).symm

/-- It makes no difference whether an event comes before a reply or after it. -/
theorem observe_observeReply (l : Ledger) (e : Event) (reply : TrackerReply) :
    (l.observeReply reply).observe true e = (l.observe true e).observeReply reply := by
  rw [observe_eq_add (l.observeReply reply), observeReply_eq_add l, observeReply_eq_add (l.observe true e),
    observe_eq_add l, add_right_comm]

theorem foldl_observeReply_observe (replies : List TrackerReply) (l : Ledger) (e : Event) :
    replies.foldl observeReply (l.observe true e) = (replies.foldl observeReply l).observe true e := by
  induction replies generalizing l with
  | nil => rfl
  | cons reply replies ih => rw [List.foldl_cons, List.foldl_cons, ← observe_observeReply, ih]

end Ledger

/-! ## Sides -/

namespace Node

variable {others : Nat → Collaborators} {publisher : Publisher} {requests : List Request} {tracker : Tracker}
  {n : Node}

/-- **Without its tracker a run is one of a system**, and the ledger has all that the system's has and what the
    tracker's replies add. -/
theorem Run.system (run : Run others (.start publisher requests tracker) n) :
    ∃ l, System.Run others true (.start (requests.map (publisher, ·))) ⟨n.attempts, l⟩ ∧
      n.ledger = n.replies.foldl Ledger.observeReply l := by
  induction run with
  | refl => exact ⟨_, .refl _, rfl⟩
  | @tail m o run step ih =>
      obtain ⟨l, hsystem, hledger⟩ := ih
      cases step with
      | @attempt i before after event? here step =>
          refine ⟨_, hsystem.tail (.attempt here step), ?_⟩
          show event?.elim m.ledger _ = m.replies.foldl _ (event?.elim l _)
          cases event? with
          | none => exact hledger
          | some event =>
              show m.ledger.observe true event = m.replies.foldl _ (l.observe true event)
              rw [hledger, Ledger.foldl_observeReply_observe]
      | call call =>
          refine ⟨l, hsystem, ?_⟩
          show m.ledger.observeReply _ = (m.replies ++ [_]).foldl _ l
          rw [hledger, List.foldl_append]
          rfl

/-- **The ledger is the sum over all that has happened and over all replies.** -/
theorem Run.ledger_eq (run : Run others (.start publisher requests tracker) n) :
    n.ledger = n.replies.foldl Ledger.observeReply (n.happened.foldl (Ledger.observe true) {}) := by
  obtain ⟨l, hsystem, hledger⟩ := run.system
  rw [hledger]
  exact congrArg (n.replies.foldl Ledger.observeReply) hsystem.ledger_eq

/-- The attempts of a node go on while nobody asks its tracker. -/
theorem Run.thenSystem {m : Node} {l : Ledger} {t : System} (run : Run others n m)
    (system : System.Run others true ⟨m.attempts, l⟩ t) :
    ∃ o, Run others n o ∧ o.attempts = t.attempts ∧ o.tracker = m.tracker ∧ o.replies = m.replies := by
  generalize hstart : System.mk m.attempts l = s at system
  induction system with
  | refl =>
      subst hstart
      exact ⟨m, run, rfl, rfl, rfl⟩
  | tail _ step ih =>
      obtain ⟨o, hrun, hattempts, htracker, hreplies⟩ := ih
      cases step with
      | attempt here step =>
          rw [← hattempts] at here
          refine ⟨_, hrun.tail (.attempt here step), ?_, htracker, hreplies⟩
          rw [hattempts]

end Node

/-! ## Counters -/

/-- What an event adds to a counter that has so much for an attempt and so much for sidecars. -/
def Event.adds (ofAttempt : Outcome → Nat) (ofSidecars : Nat → Nat → Nat) : Event → Nat
  | answered (.reportDuty _ outcome) _ => ofAttempt outcome
  | answered (.countSidecars taken refused) _ => ofSidecars taken refused
  | _ => 0

/-- What a reply adds to a counter that has so much for an arrival. -/
def TrackerReply.adds (ofArrival : ArrivalResult → Nat) : TrackerReply → Nat
  | arrived result => ofArrival result
  | _ => 0

namespace Ledger

/-- The counter begins at zero, and goes up by so much for an attempt, for the sidecars of a broadcast and for an
    arrival. -/
structure CountsBy (counter : Ledger → UInt64) (ofAttempt : Outcome → Nat) (ofSidecars : Nat → Nat → Nat)
    (ofArrival : ArrivalResult → Nat) : Prop where
  empty : counter {} = 0
  attempt : ∀ l outcome, counter (l.countAttempt outcome) = counter l + .ofNat (ofAttempt outcome)
  sidecars : ∀ l taken refused,
    counter (l.countSidecars taken refused) = counter l + .ofNat (ofSidecars taken refused)
  arrival : ∀ l result, counter (l.observeArrival result) = counter l + .ofNat (ofArrival result)

namespace CountsBy

variable {counter : Ledger → UInt64} {ofAttempt : Outcome → Nat} {ofSidecars : Nat → Nat → Nat}
  {ofArrival : ArrivalResult → Nat}

theorem observe (h : CountsBy counter ofAttempt ofSidecars ofArrival) (l : Ledger) (e : Event) :
    counter (l.observe true e) = counter l + .ofNat (e.adds ofAttempt ofSidecars) := by
  have hnothing : counter l = counter l + .ofNat 0 := (UInt64.add_zero _).symm
  cases e with
  | issued c => exact hnothing
  | crashed c crash => exact hnothing
  | answered c answer =>
      cases c with
      | reportDuty block outcome => exact h.attempt l outcome
      | countSidecars taken refused => exact h.sidecars l taken refused
      | _ => exact hnothing

theorem observeReply (h : CountsBy counter ofAttempt ofSidecars ofArrival) (l : Ledger) (reply : TrackerReply) :
    counter (l.observeReply reply) = counter l + .ofNat (reply.adds ofArrival) := by
  cases reply with
  | arrived result => exact h.arrival l result
  | _ => exact (UInt64.add_zero _).symm

end CountsBy

/-- A counter that goes up by so much at each step has gone up by their sum. -/
theorem counter_foldl {β : Type} {step : Ledger → β → Ledger} {counter : Ledger → UInt64}
    {weight : β → Nat} (h : ∀ l x, counter (step l x) = counter l + .ofNat (weight x)) (xs : List β)
    (l : Ledger) : counter (xs.foldl step l) = counter l + .ofNat (xs.map weight).sum := by
  induction xs generalizing l with
  | nil => exact (UInt64.add_zero _).symm
  | cons x xs ih =>
      rw [List.foldl_cons, ih, h, List.map_cons, List.sum_cons, UInt64.ofNat_add, UInt64.add_assoc]

end Ledger

/-- **Each counter is the sum over both sides**, around the end of the word. -/
theorem Node.Run.counter_eq {others : Nat → Collaborators} {publisher : Publisher} {requests : List Request}
    {tracker : Tracker} {n : Node} (run : Run others (.start publisher requests tracker) n)
    {counter : Ledger → UInt64} {ofAttempt : Outcome → Nat} {ofSidecars : Nat → Nat → Nat}
    {ofArrival : ArrivalResult → Nat} (h : Ledger.CountsBy counter ofAttempt ofSidecars ofArrival) :
    counter n.ledger = .ofNat ((n.happened.map (Event.adds ofAttempt ofSidecars)).sum +
      (n.replies.map (TrackerReply.adds ofArrival)).sum) := by
  rw [run.ledger_eq, Ledger.counter_foldl h.observeReply, Ledger.counter_foldl h.observe, h.empty, UInt64.zero_add,
    UInt64.ofNat_add]

end BeaconBroadcast
