import BeaconBroadcast.Proofs.Publish.Course

/-!
# `BeaconBroadcast.Proofs.Publish.Tally` — the ledger is a sum

Every event adds to the counters what it adds to empty ones, so it makes no difference in which order the
events of several attempts come: at every moment of a run the shared ledger is the sum over all that has
happened in the attempts, taken one attempt after the other.

## Contents
- **Ledgers.** `Ledger.add`; `Ledger.observe_eq_add`, and `Ledger.foldl_observe_perm` for events in any order;
  `Call.isCounted` for those that the ledger hears of.
- **Pasts.** `Attempt.Step.past_eq`: a step adds its event; `System.happened` is what happened in all attempts.
- **Runs.** `System.Run.ledger_eq`.
-/

namespace BeaconBroadcast

variable {counted : Bool}

/-! ## Ledgers -/

/-- Whether the ledger hears of the call. -/
def Call.isCounted : Call → Bool
  | countSidecars .. => true
  | reportDuty .. => true
  | _ => false

namespace Ledger

/-- Counter by counter, around the end of the word. -/
def add (l m : Ledger) : Ledger where
  publishAttempts := l.publishAttempts + m.publishAttempts
  blocksPublished := l.blocksPublished + m.blocksPublished
  partialPublishes := l.partialPublishes + m.partialPublishes
  importFailures := l.importFailures + m.importFailures
  validationFailures := l.validationFailures + m.validationFailures
  sidecarsPublished := l.sidecarsPublished + m.sidecarsPublished
  sidecarFailures := l.sidecarFailures + m.sidecarFailures
  timelyBlocks := l.timelyBlocks + m.timelyBlocks
  lateBlocks := l.lateBlocks + m.lateBlocks
  futureArrivals := l.futureArrivals + m.futureArrivals

theorem add_empty (l : Ledger) : l.add {} = l := by
  simp [add]

theorem add_right_comm (l m n : Ledger) : (l.add m).add n = (l.add n).add m := by
  have h (a b c : UInt64) : a + b + c = a + c + b := by
    rw [UInt64.add_assoc, UInt64.add_comm b c, ← UInt64.add_assoc]
  simp only [add, h]

theorem countAttempt_eq_add (l : Ledger) (outcome : Outcome) :
    l.countAttempt outcome = l.add (countAttempt {} outcome) := by
  cases outcome <;> simp [countAttempt, add]

theorem countSidecars_eq_add (l : Ledger) (taken refused : Nat) :
    l.countSidecars taken refused = l.add (countSidecars {} taken refused) := by
  simp [countSidecars, add]

/-- **An event adds what it adds to an empty ledger.** -/
theorem observe_eq_add (l : Ledger) (e : Event) :
    l.observe counted e = l.add (observe counted {} e) := by
  unfold observe
  split
  · exact countSidecars_eq_add ..
  · split
    · exact countAttempt_eq_add ..
    · exact (add_empty l).symm
  · exact (add_empty l).symm

theorem observe_right_comm (l : Ledger) (e e' : Event) :
    (l.observe counted e).observe counted e' = (l.observe counted e').observe counted e := by
  rw [observe_eq_add (l.observe counted e), observe_eq_add l e, observe_eq_add (l.observe counted e'),
    observe_eq_add l e', add_right_comm]

/-- **The same events in any order add the same.** -/
theorem foldl_observe_perm {events events' : List Event} (h : events.Perm events') (l : Ledger) :
    events.foldl (observe counted) l = events'.foldl (observe counted) l := by
  apply h.foldl_eq'
  intro e _ e' _ l
  exact observe_right_comm l e e'

/-- Events that add nothing may be left out. -/
theorem foldl_observe_filter {keep : Event → Bool}
    (idle : ∀ (l : Ledger) (e : Event), keep e = false → l.observe counted e = l) (events : List Event)
    (l : Ledger) : (events.filter keep).foldl (observe counted) l = events.foldl (observe counted) l := by
  rw [List.foldl_filter]
  congr
  funext l e
  cases hkeep : keep e with
  | true => rfl
  | false => exact (idle l e hkeep).symm

theorem observe_of_not_isCounted (l : Ledger) (e : Event) (h : e.call.isCounted = false) :
    l.observe counted e = l := by
  unfold observe
  split
  · cases h
  · cases h
  · rfl

/-- Where there is nothing to hear the ledger stays. -/
theorem foldl_observe_of_not_isCounted {events : List Event} (h : ∀ e ∈ events, e.call.isCounted = false)
    (l : Ledger) : events.foldl (observe counted) l = l := by
  rw [← foldl_observe_filter observe_of_not_isCounted, List.filter_eq_nil_iff.mpr (by simpa using h)]
  rfl

end Ledger

/-! ## Pasts -/

/-- A step adds its event to the past, if it is one. -/
theorem Attempt.Step.past_eq {others : Collaborators} {a b : Attempt} {event? : Option Event}
    (h : a.Step others event? b) : b.past = a.past ++ event?.toList := by
  cases h with
  | task running step => rfl
  | caller acting step => rfl
  | deliver waiting returned => exact (List.append_nil _).symm
  | takeOver waiting crashed => exact (List.append_nil _).symm
  | leave waiting => exact (List.append_nil _).symm

/-- No attempt has a past when it begins. -/
theorem Attempt.start_past (publisher : Publisher) (r : Request) (name : String) :
    (start publisher r name).past = [] := by
  unfold start
  cases publisher.dispatch r <;> rfl

/-- What grows in one place grows in the whole. -/
theorem flatMap_set_perm {α β : Type} {f : α → List β} {a b : α} {more : List β} (grown : f b = f a ++ more)
    (xs : List α) {i : Nat} (here : xs[i]? = some a) :
    ((xs.set i b).flatMap f).Perm (xs.flatMap f ++ more) := by
  induction xs generalizing i with
  | nil => cases here
  | cons x xs ih =>
      cases i with
      | zero =>
          cases here
          simp only [List.set_cons_zero, List.flatMap_cons, grown, List.append_assoc]
          exact List.perm_append_comm.append_left (f a)
      | succ i =>
          simp only [List.set_cons_succ, List.flatMap_cons, List.append_assoc]
          exact (ih here).append_left (f x)

namespace System

variable {others : Nat → Collaborators} {calls : List (Publisher × Request)}

/-- All that has happened, one attempt after the other. -/
def happened (s : System) : List Event := s.attempts.flatMap (·.past)

theorem happened_start (calls : List (Publisher × Request)) : (start calls).happened = [] := by
  unfold happened start
  rw [List.flatMap_eq_nil_iff]
  intro a ha
  obtain ⟨⟨⟨publisher, r⟩, i⟩, -, rfl⟩ := List.mem_map.mp ha
  exact Attempt.start_past publisher r (toString i)

/-! ## Runs -/

/-- **The ledger is the sum over all that has happened**, one attempt after the other. -/
theorem Run.ledger_eq {s : System} (run : Run others counted (.start calls) s) :
    s.ledger = s.happened.foldl (Ledger.observe counted) {} := by
  induction run with
  | refl =>
      rw [happened_start]
      rfl
  | @tail t u run step ih =>
      cases step with
      | @attempt i before after event? here step =>
          have hgrown := flatMap_set_perm step.past_eq t.attempts here
          show event?.elim t.ledger _ = ((t.attempts.set i after).flatMap _).foldl _ _
          rw [Ledger.foldl_observe_perm hgrown, List.foldl_append, ← happened, ← ih]
          cases event? with
          | none => rfl
          | some event => rfl

/-- No attempt comes or goes. -/
theorem Run.length_eq {s t : System} (run : Run others counted s t) :
    t.attempts.length = s.attempts.length := by
  induction run with
  | refl => rfl
  | tail run step ih =>
      cases step with
      | attempt here step => exact List.length_set.trans ih

end System

end BeaconBroadcast
