import BeaconBroadcast.Proofs.Publish.Honesty

/-!
# `BeaconBroadcast.Proofs.Publish.Results` — what an attempt came to, and what it leaves behind then

An attempt comes to a result when its caller has it, or, if nobody waits any longer, when its task returns it. From
the result one can read off how the attempt went: a publication has the whole story of a pipeline behind it.

## Contents
- **Stories.** The stories of a sequence that comes to a result.
- **Results.** `Attempt.cameTo?`; `Attempt.OnCourse.story_of_ok`: the story behind a publication.
- **Reports.** `System.Run.reports_result`: a settled attempt has come to a result and reported it, unless it is
  lost.
-/

namespace BeaconBroadcast

open Program

variable {fallible : Call → Prop} {others : Collaborators} {publisher : Publisher} {r : Request} {a : Attempt}

/-! ## Stories -/

namespace Program.Story

variable {α β : Type} {events : List Event}

/-- A sequence that comes to a result has a first part that did. -/
theorem of_bind_returned {p : Program α} {f : α → Program β} {b : β}
    (h : Story fallible (p >>= f) events (.returned b)) :
    ∃ a first second, events = first ++ second ∧ Story fallible p first (.returned a) ∧
      Story fallible (f a) second (.returned b) := by
  rcases h.of_bind with ⟨crash, hdone, -⟩ | hparts
  · cases hdone
  · exact hparts

/-- A single call that comes to a result. -/
theorem of_request_returned {c : Call} {answer : c.Answer}
    (h : Story fallible (request c) events (.returned answer)) : events = exchange c (.ok answer) := by
  rcases h.of_request with ⟨crash, -, -, hdone⟩ | ⟨a, rfl, hdone⟩
  · cases hdone
  · cases hdone
    rfl

end Program.Story

/-! ## Results -/

/-- What work came to, once it has returned. -/
def Progress.result? {α : Type} : Progress α → Option α
  | returned a => some a
  | _ => none

theorem Progress.eq_returned_of_result? {α : Type} {work : Progress α} {a : α} (h : work.result? = some a) :
    work = .returned a := by
  cases work with
  | returned b => cases h; rfl
  | ready c next => cases h
  | blocked c next => cases h
  | crashed crash => cases h

/-- What the attempt came to: what its caller has got, or, as long as the caller waits or when it has left, what its
    task has returned. -/
def Attempt.cameTo? (a : Attempt) : Option PublishResult :=
  match a.caller with
  | .acting work => work.result?
  | _ => a.task?.bind Progress.result?

/-- Whoever turns a block away says that there is no pipeline. -/
theorem Selector.turnAway_returnsOnly (block : SignedBlock) (milestone : Milestone) :
    (turnAway block milestone).ReturnsOnly fun result => result = .error (.unsupported milestone) :=
  returnsOnly_bind fun _ => returnsOnly_bind fun _ => rfl

/-- An ending with a publication is that of a task that returned. -/
theorem Attempt.Ending.story_of_ok {name : String} {events : List Event} {publication : Publication}
    (h : Ending fallible publisher r name events (.returned (.ok publication))) :
    ∃ p, publisher.pipeline? r = some p ∧
      (p.run r.block r.sidecars r.level).Story fallible events (.returned (.ok publication)) := by
  cases h with
  | direct dispatched story =>
      obtain ⟨-, milestone, rfl⟩ := Publisher.of_dispatch_direct dispatched
      cases story.of_returnsOnly (Selector.turnAway_returnsOnly _ _)
  | returned dispatched story =>
      obtain ⟨p, hp, rfl⟩ := Publisher.of_dispatch_task dispatched
      exact ⟨p, hp, story⟩
  | takenOver dispatched broke story => cases story.of_returnsOnly (abort_returnsOnly _ _)

/-- **Behind a publication there is the whole story of a pipeline.** -/
theorem Attempt.OnCourse.story_of_ok (h : a.OnCourse others publisher) {publication : Publication}
    (came : a.cameTo? = some (.ok publication)) :
    ∃ p, publisher.pipeline? a.request = some p ∧
      (p.run a.request.block a.request.sidecars a.request.level).Story (fun _ => True) a.past
        (.returned (.ok publication)) := by
  unfold cameTo? at came
  cases h with
  | @working whole work dispatched task caller same_end =>
      have returned : work = .returned (.ok publication) := by
        apply Progress.eq_returned_of_result?
        rcases caller with hcaller | hcaller
        · rwa [hcaller, task] at came
        · rwa [hcaller, task] at came
      obtain ⟨p, hp, rfl⟩ := Publisher.of_dispatch_task dispatched
      obtain ⟨events, hpast, hstory⟩ :=
        (p.run a.request.block a.request.sidecars a.request.level).complete_story others.crashOnlyOn_all []
      rw [← same_end, returned] at hpast hstory
      have hevents : a.past = events := hpast
      rw [hevents]
      exact ⟨p, hp, hstory⟩
  | @acting work caller task same_end =>
      rw [caller] at came
      cases Progress.eq_returned_of_result? came
      have hending : Ending (fun _ => True) publisher a.request a.name _ _ :=
        awaited_ending others.crashOnlyOn_all
      rw [← same_end] at hending
      exact hending.story_of_ok

/-! ## Reports -/

/-- What duty metrics have heard and answered. -/
def Event.dutyHeard? : Event → Option Outcome
  | answered (.reportDuty _ outcome) _ => some outcome
  | _ => none

/-- What duty metrics have heard of an attempt, oldest first. -/
def dutyHeard (past : List Event) : List Outcome := past.filterMap Event.dutyHeard?

theorem dutyHeard_append (first second : List Event) :
    dutyHeard (first ++ second) = dutyHeard first ++ dutyHeard second := List.filterMap_append

/-- What a call tells duty metrics. -/
def Call.dutyOutcome? : Call → Option Outcome
  | reportDuty _ outcome => some outcome
  | _ => none

/-- Duty metrics have heard whatever they were told, for they do not break down. -/
theorem Program.Story.dutyHeard_eq {α : Type} {p : Program α} {events : List Event} {done : Progress α}
    (h : PortStory p events done) : dutyHeard events = (reportsIn events).filterMap Call.dutyOutcome? := by
  induction h with
  | returned a => rfl
  | @crashed c next crash may => cases c <;> first | rfl | cases may
  | @answered c next answer events done rest ih => cases c <;> first | exact ih | exact congrArg (_ :: ·) ih

/-- What is heard of an attempt that was not made. -/
theorem dutyHeard_notAttempted {block : SignedBlock} {notice : Notice} {failure : PublishFailure}
    {events : List Event} {done : Progress PublishResult}
    (h : PortStory (notify notice >>= fun _ => report block .notAttempted >>= fun _ =>
      Pure.pure (.error failure)) events done) :
    done = .returned (.error failure) ∧ dutyHeard events = [.notAttempted] := by
  obtain ⟨hevents, hdone⟩ := notAttempted_story h
  refine ⟨hdone, ?_⟩
  rw [h.dutyHeard_eq, ← reportsIn_portEvents, hevents]
  rfl

/-- **An attempt whose caller waits to the end comes to a result, and duty metrics hear of it once**, with the
    outcome that the result stands for. -/
theorem Attempt.Ending.reports_result {name : String} {events : List Event} {done : Progress PublishResult}
    (h : Ending (fun c => c.canCrash) publisher r name events done) :
    ∃ result, done = .returned result ∧ dutyHeard events = [result.outcome] := by
  cases h with
  | direct dispatched story =>
      obtain ⟨-, milestone, rfl⟩ := Publisher.of_dispatch_direct dispatched
      exact ⟨_, dutyHeard_notAttempted story⟩
  | @returned _ _ result dispatched story =>
      obtain ⟨p, -, rfl⟩ := Publisher.of_dispatch_task dispatched
      refine ⟨result, rfl, ?_⟩
      rw [story.dutyHeard_eq, (Pipeline.run_reports story).1]
      rfl
  | @takenOver _ first second crash _ dispatched broke story =>
      obtain ⟨p, -, rfl⟩ := Publisher.of_dispatch_task dispatched
      obtain ⟨rfl, hsecond⟩ := dutyHeard_notAttempted story
      -- a task that broke off has not reported
      have hfirst : dutyHeard first = [] := by
        rcases reportsIn_run name broke with ⟨-, -, hnone⟩ | ⟨⟨result, hdone⟩, -⟩
        · rw [broke.dutyHeard_eq, hnone]
          rfl
        · cases hdone
      exact ⟨_, rfl, by rw [dutyHeard_append, hfirst, hsecond]; rfl⟩

variable {calls : List (Publisher × Request)} {others : Nat → Collaborators} {counted : Bool}

/-- **A settled attempt has come to a result, and duty metrics have heard of it once**, with the outcome that the
    result stands for, unless the attempt is lost. -/
theorem System.Run.reports_result {s : System} (run : Run others counted (.start calls) s) {i : Nat}
    (here : s.attempts[i]? = some a) (dependable : (others i).Dependable) (settled : a.isSettled)
    (kept : ¬ a.IsLost) : ∃ result, a.cameTo? = some result ∧ dutyHeard a.past = [result.outcome] := by
  obtain ⟨htask, hcaller⟩ := Bool.and_eq_true_iff.mp settled
  unfold Attempt.cameTo?
  cases hwhere : a.caller with
  | waiting => rw [hwhere] at hcaller; cases hcaller
  | acting work =>
      rw [hwhere] at hcaller
      obtain ⟨publisher, -, hending⟩ := run.ending here dependable hwhere hcaller
      obtain ⟨result, rfl, hheard⟩ := hending.reports_result
      exact ⟨result, rfl, hheard⟩
  | gone =>
      obtain ⟨publisher, -, -, hcourse⟩ := run.onCourse here
      cases hcourse with
      | acting acts task same_end => cases acts.symm.trans hwhere
      | @working whole work dispatched task caller same_end =>
          have hdone : work.isDone := (Option.all_eq_true _ _).mp htask work task
          obtain ⟨p, -, rfl⟩ := Publisher.of_dispatch_task dispatched
          obtain ⟨events, hpast, hstory⟩ := Program.complete_story dependable
            (p.run a.request.block a.request.sidecars a.request.level) []
          rw [← same_end, Progress.finish_of_isDone hdone] at hpast hstory
          obtain rfl : a.past = events := hpast
          rw [task]
          cases work with
          | ready c next => cases hdone
          | blocked c next => cases hdone
          | returned result =>
              refine ⟨result, rfl, ?_⟩
              rw [hstory.dutyHeard_eq, (Pipeline.run_reports hstory).1]
              rfl
          | crashed crash => exact absurd ⟨hwhere, hstory.any_isCrash_iff.mpr ⟨crash, rfl⟩⟩ kept

end BeaconBroadcast
