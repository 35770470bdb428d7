import BeaconBroadcast.Proofs.Publish.Routing

/-!
# `BeaconBroadcast.Proofs.Publish.Settled` — what is left behind where nobody breaks down

Where nobody breaks down it makes no difference who does the work of an attempt, whether its caller stays, and
what the other attempts do meanwhile: once nothing is left to run, the attempt has done its own work from
beginning to end, and a caller who has stayed has the result.

## Contents
- **Work.** `Dispatch.work`; `Attempt.awaited_eq_complete`: an awaited attempt is its work done to the end.
- **Runs.** `System.Run.complete_of_settled`, and the stories that this leaves in `Attempt.SettledStory`.
-/

namespace BeaconBroadcast

open Program

variable {others : Collaborators} {publisher : Publisher} {r : Request} {a : Attempt}

/-! ## Work -/

/-- What there is to do, whoever does it. -/
def Dispatch.work : Dispatch → Program PublishResult
  | task work => work
  | direct work => work

/-- The work of a request that a pipeline takes. -/
theorem Publisher.work_of_pipeline? {p : Pipeline} (takes : publisher.pipeline? r = some p) :
    (publisher.dispatch r).work = p.run r.block r.sidecars r.level := by
  rw [dispatch_of_pipeline? takes]
  rfl

/-- The work of a request that no pipeline takes. -/
theorem Publisher.work_of_none (untaken : publisher.pipeline? r = none) :
    ∃ milestone, publisher.dispatch r = .direct (Selector.turnAway r.block milestone) := by
  cases hdispatch : publisher.dispatch r with
  | task whole =>
      obtain ⟨p, hp, -⟩ := of_dispatch_task hdispatch
      cases untaken.symm.trans hp
  | direct whole =>
      obtain ⟨-, milestone, rfl⟩ := of_dispatch_direct hdispatch
      exact ⟨milestone, rfl⟩

/-- **Where nobody breaks down, an awaited attempt is its work done to the end.** -/
theorem Attempt.awaited_eq_complete (steady : others.Steady) (name : String) :
    awaited others publisher r name = (publisher.dispatch r).work.complete others [] := by
  cases hdispatch : publisher.dispatch r with
  | direct work => exact awaited_of_direct hdispatch
  | task work =>
      obtain ⟨result, hresult⟩ := work.complete_returned steady []
      have hcomplete : work.complete others [] = (.returned result, (work.complete others []).2) :=
        Prod.ext hresult rfl
      rw [awaited_of_task hdispatch, Dispatch.work, hcomplete]
      rfl

/-! ## Runs -/

variable {calls : List (Publisher × Request)} {others : Nat → Collaborators} {counted : Bool}

/-- Nothing is left to happen in any of the attempts. -/
def System.IsSettled (s : System) : Prop := ∀ a ∈ s.attempts, a.isSettled

/-- **A settled attempt has done its work to the end**, and a caller who has stayed has the result. -/
theorem System.Run.complete_of_settled {s : System} (run : Run others counted (.start calls) s) {i : Nat}
    (here : s.attempts[i]? = some a) (steady : (others i).Steady) (settled : a.isSettled) :
    ∃ publisher result, calls[i]? = some (publisher, a.request) ∧
      (publisher.dispatch a.request).work.complete (others i) [] = (.returned result, a.past) ∧
      (a.caller = .gone ∨ a.result? = some result) := by
  obtain ⟨publisher, hcall, -, hcourse⟩ := run.onCourse here
  obtain ⟨result, hresult⟩ := (publisher.dispatch a.request).work.complete_returned steady []
  obtain ⟨htask, hcaller⟩ := Bool.and_eq_true_iff.mp settled
  refine ⟨publisher, result, hcall, ?_⟩
  cases hwhere : a.caller with
  | waiting =>
      rw [hwhere] at hcaller
      cases hcaller
  | acting work =>
      rw [hwhere] at hcaller
      have hend := hcourse.awaited_eq hwhere hcaller
      rw [Attempt.awaited_eq_complete steady] at hend
      rw [hend] at hresult
      subst hresult
      exact ⟨hend, Or.inr (by unfold Attempt.result?; rw [hwhere])⟩
  | gone =>
      have hdone (work : Progress PublishResult) (hwork : a.task? = some work) : work.isDone :=
        (Option.all_eq_true _ _).mp htask work hwork
      obtain ⟨whole, work, hdispatch, hend⟩ := hcourse.complete_eq hwhere hdone
      rw [hdispatch, Dispatch.work, hend] at hresult
      subst hresult
      refine ⟨?_, Or.inl rfl⟩
      rw [hdispatch]
      exact hend

/-- What a settled attempt leaves behind where nobody breaks down: the story of a pipeline that returned, or the
    report that there is none. -/
inductive Attempt.SettledStory (publisher : Publisher) (r : Request) : List Event → Prop
  | ran {p : Pipeline} {events : List Event} {result : PublishResult}
      (takes : publisher.pipeline? r = some p)
      (story : PortStory (p.run r.block r.sidecars r.level) events (.returned result)) :
      SettledStory publisher r events
  | turnedAway {milestone : Milestone} (untaken : publisher.pipeline? r = none) :
      SettledStory publisher r
        (exchange (.notify (.noPublisher milestone r.block.slot)) (.ok ()) ++ reported r.block .notAttempted)

/-- **Every settled attempt has one of these stories behind it.** -/
theorem System.Run.story_of_settled {s : System} (run : Run others counted (.start calls) s) {i : Nat}
    (here : s.attempts[i]? = some a) (steady : (others i).Steady) (settled : a.isSettled) :
    ∃ publisher, calls[i]? = some (publisher, a.request) ∧
      Attempt.SettledStory publisher a.request a.past := by
  obtain ⟨publisher, result, hcall, hend, -⟩ := run.complete_of_settled here steady settled
  refine ⟨publisher, hcall, ?_⟩
  cases htakes : publisher.pipeline? a.request with
  | some p =>
      rw [Publisher.work_of_pipeline? htakes] at hend
      obtain ⟨events, hpast, hstory⟩ :=
        (p.run a.request.block a.request.sidecars a.request.level).complete_story steady.dependable []
      rw [hend] at hpast hstory
      have hevents : a.past = events := hpast
      rw [hevents]
      exact .ran htakes hstory
  | none =>
      obtain ⟨milestone, hdispatch⟩ := Publisher.work_of_none htakes
      have hawaited := (Publisher.turnsAway hdispatch).returns steady.dependable a.name
      rw [Attempt.awaited_eq_complete steady, hend] at hawaited
      have hpast : a.past = _ := congrArg Prod.snd hawaited
      rw [hpast]
      exact .turnedAway htakes

end BeaconBroadcast
