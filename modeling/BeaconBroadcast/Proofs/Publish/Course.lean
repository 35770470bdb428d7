import BeaconBroadcast.Publish.Attempt
import BeaconBroadcast.Proofs.Publish.Stages

/-!
# `BeaconBroadcast.Proofs.Publish.Course` — every attempt is on its way to one end

Attempts move side by side, call by call, and their callers may leave. Whatever the order, each attempt
goes through the history that it would leave behind if it ran alone with a caller who waits: at every
moment, running what is left of its task gives what the whole task gives.

## Contents
- **Ends.** `Progress.finish` runs what is left; `Progress.finish_step`: a step does not change its end, and
  `Progress.leads_finish`: steps lead to it.
- **Tasks.** `Publisher.pipeline?` is what a task runs, `Attempt.afterTask` what a waiting caller makes of a
  task that ended; `Attempt.Ending` are the histories that come of the two.
- **Courses.** `Attempt.OnCourse` says where an attempt stands on its way; `Attempt.Step` keeps it there.
- **Workers.** `Worker` is the task or the caller; `Attempt.advance` is an attempt after some work of one of them.
- **Runs.** `System.Run.onCourse`: in every run each attempt is on course. `OnCourse.past_prefix`: its
  past is the beginning of the history of the awaited attempt. `System.Run.ending`: a caller who is through
  has come to one of its endings. `System.Run.thenWork`: what a worker's steps lead to, a run leads to;
  `System.Run.thenComplete`: every task can run to its end.
- **A case.** A block of which gossip takes all but the blob.
-/

namespace BeaconBroadcast

variable {α : Type} {others : Collaborators}

/-! ## Ends -/

namespace Progress

/-- Runs what is left of some work to its end. -/
def finish (others : Collaborators) (past : List Event) : Progress α → Progress α × List Event
  | ready c next => (Program.call c next).complete others past
  | progress => progress.resume others past

theorem finish_ofProgram (p : Program α) (past : List Event) :
    (ofProgram p).finish others past = p.complete others past := by
  cases p with
  | pure a => rfl
  | call c next => rfl

theorem finish_of_isDone {work : Progress α} (h : work.isDone) (past : List Event) :
    work.finish others past = (work, past) := by
  cases work with
  | ready c next => exact absurd h Bool.false_ne_true
  | blocked c next => exact absurd h Bool.false_ne_true
  | returned a => rfl
  | crashed crash => rfl

theorem finish_isDone (work : Progress α) (past : List Event) : (work.finish others past).1.isDone := by
  have hwhole (p : Program α) (past : List Event) : (p.complete others past).1.isDone := by
    obtain ⟨events, -, hstory⟩ := p.complete_story others.crashOnlyOn_all past
    exact hstory.isDone
  cases work with
  | ready c next => exact hwhole (.call c next) past
  | blocked c next =>
      simp only [finish, resume]
      cases others past c with
      | answer answer => exact hwhole (next answer) _
      | crash crash => rfl
  | returned a => rfl
  | crashed crash => rfl

/-- Work that is done takes no step. -/
theorem step_of_isDone {work : Progress α} (h : work.isDone) (past : List Event) :
    work.step others past = none := by
  cases work with
  | ready c next => exact absurd h Bool.false_ne_true
  | blocked c next => exact absurd h Bool.false_ne_true
  | returned a => rfl
  | crashed crash => rfl

/-- **A step does not change the end.** -/
theorem finish_step {before after : Progress α} {past : List Event} {event : Event}
    (h : before.step others past = some (event, after)) :
    after.finish others (past ++ [event]) = before.finish others past := by
  cases before with
  | ready c next =>
      cases h
      exact (Program.complete_call next past).symm
  | blocked c next =>
      simp only [step] at h
      cases hreply : others past c with
      | answer a =>
          rw [hreply] at h
          cases h
          rw [finish_ofProgram]
          simp only [finish, resume, hreply]
      | crash crash =>
          rw [hreply] at h
          cases h
          simp only [finish, resume, hreply]
  | returned a => cases h
  | crashed crash => cases h

/-- From `work` with `past` behind it some steps lead to other work with more behind it. -/
inductive Leads (others : Collaborators) (work : Progress α) (past : List Event) : Progress α → List Event → Prop
  | refl : Leads others work past work past
  | tail {before after : Progress α} {later : List Event} {event : Event}
      (leads : Leads others work past before later) (step : before.step others later = some (event, after)) :
      Leads others work past after (later ++ [event])

/-- What has happened stays. -/
theorem Leads.past_prefix {work done : Progress α} {past later : List Event}
    (leads : work.Leads others past done later) : past <+: later := by
  induction leads with
  | refl => exact List.prefix_refl past
  | tail leads step ih => exact ih.trans (List.prefix_append _ _)

/-- No steps change the end. -/
theorem Leads.finish_eq {work done : Progress α} {past later : List Event}
    (leads : work.Leads others past done later) : done.finish others later = work.finish others past := by
  induction leads with
  | refl => rfl
  | tail leads step ih => exact (finish_step step).trans ih

/-- **Executing a program takes steps**, up to whatever call. -/
theorem Leads.execute {work : Progress α} {past later : List Event} (waits : List Event → Call → Bool)
    (p : Program α) (h : work.Leads others past (.ofProgram p) later) :
    work.Leads others past (p.execute others waits later).1 (p.execute others waits later).2 := by
  induction p generalizing later with
  | pure a => exact h
  | call c next ih =>
      have issued : work.Leads others past (.blocked c next) (later ++ [.issued c]) := h.tail rfl
      rw [Program.execute]
      by_cases hwaits : waits (later ++ [.issued c]) c
      · rw [if_pos hwaits]
        exact issued
      · rw [if_neg hwaits]
        cases hreply : others (later ++ [.issued c]) c with
        | answer a => exact ih a (issued.tail (by simp only [step, hreply]))
        | crash crash => exact issued.tail (by simp only [step, hreply])

/-- So does giving a reply that was waited for. -/
theorem leads_resume (work : Progress α) (past : List Event) :
    work.Leads others past (work.resume others past).1 (work.resume others past).2 := by
  cases work with
  | blocked c next =>
      simp only [resume]
      cases hreply : others past c with
      | answer a => exact Leads.execute _ _ (Leads.refl.tail (by simp only [step, hreply]))
      | crash crash => exact Leads.refl.tail (by simp only [step, hreply])
  | ready c next => exact .refl
  | returned a => exact .refl
  | crashed crash => exact .refl

/-- **Finishing takes steps.** -/
theorem leads_finish (work : Progress α) (past : List Event) :
    work.Leads others past (work.finish others past).1 (work.finish others past).2 := by
  cases work with
  | ready c next => exact Leads.execute _ (.call c next) .refl
  | blocked c next => exact leads_resume _ past
  | returned a => exact .refl
  | crashed crash => exact .refl

/-- Finishing only adds to what happened before. -/
theorem prefix_finish (work : Progress α) (past : List Event) : past <+: (work.finish others past).2 :=
  Leads.past_prefix (work.leads_finish past)

end Progress

/-- A run only adds to what happened before. -/
theorem Program.prefix_complete (p : Program α) (past : List Event) : past <+: (p.complete others past).2 :=
  Progress.Leads.past_prefix (.execute _ p .refl)

/-! ## Tasks -/

namespace Publisher

variable {publisher : Publisher} {r : Request} {work : Program PublishResult}

/-- The pipeline that takes a request, if there is one. -/
def pipeline? (r : Request) : Publisher → Option Pipeline
  | single p => some p
  | selector s => s.pipeline? (s.milestoneOf r.block)

/-- A task runs a pipeline. -/
theorem of_dispatch_task (h : publisher.dispatch r = .task work) :
    ∃ p, publisher.pipeline? r = some p ∧ work = p.run r.block r.sidecars r.level := by
  cases publisher with
  | single p =>
      cases h
      exact ⟨p, rfl, rfl⟩
  | selector s =>
      simp only [dispatch] at h
      split at h
      · next p hp =>
          cases h
          exact ⟨p, hp, rfl⟩
      · cases h

/-- A pipeline that takes a request runs in a task. -/
theorem dispatch_of_pipeline? {p : Pipeline} (h : publisher.pipeline? r = some p) :
    publisher.dispatch r = .task (p.run r.block r.sidecars r.level) := by
  cases publisher with
  | single q =>
      cases h
      rfl
  | selector s =>
      have htakes : s.pipeline? (s.milestoneOf r.block) = some p := h
      simp only [dispatch, htakes]

/-- A caller does the work itself where there is no pipeline. -/
theorem of_dispatch_direct (h : publisher.dispatch r = .direct work) :
    publisher.pipeline? r = none ∧ ∃ milestone, work = Selector.turnAway r.block milestone := by
  cases publisher with
  | single p => cases h
  | selector s =>
      simp only [dispatch] at h
      split at h
      · cases h
      · next hp =>
          cases h
          exact ⟨hp, _, rfl⟩

end Publisher

namespace Attempt

/-- What a waiting caller makes of a task that came to its end: it reports the attempt if that crashed. -/
def afterTask (others : Collaborators) (request : Request) (name : String) :
    Progress PublishResult × List Event → Progress PublishResult × List Event
  | (.crashed crash, past) => (abort request.block (crash.text name)).complete others past
  | ended => ended

variable {publisher : Publisher} {request : Request} {name : String}

theorem prefix_afterTask (ended : Progress PublishResult × List Event) :
    ended.2 <+: (afterTask others request name ended).2 := by
  obtain ⟨work, past⟩ := ended
  cases work with
  | crashed crash => exact Program.prefix_complete _ past
  | ready c next => exact List.prefix_refl past
  | blocked c next => exact List.prefix_refl past
  | returned result => exact List.prefix_refl past

/-- A caller who waits for a task gets what it makes of the task's end. -/
theorem awaited_of_task {work : Program PublishResult} (h : publisher.dispatch request = .task work) :
    awaited others publisher request name
      = afterTask others request name (work.complete others []) := by
  simp only [awaited, h]
  rcases work.complete others [] with ⟨_ | _ | _ | crash, past⟩ <;> rfl

theorem awaited_of_direct {work : Program PublishResult}
    (h : publisher.dispatch request = .direct work) :
    awaited others publisher request name = work.complete others [] := by
  simp only [awaited, h]

/-- The histories that an attempt can leave behind whose caller waits to the end. -/
inductive Ending (fallible : Call → Prop) (publisher : Publisher) (request : Request) (name : String) :
    List Event → Progress PublishResult → Prop
  | direct {work : Program PublishResult} {events : List Event} {done : Progress PublishResult}
      (dispatched : publisher.dispatch request = .direct work)
      (story : work.Story fallible events done) : Ending fallible publisher request name events done
  | returned {work : Program PublishResult} {events : List Event} {result : PublishResult}
      (dispatched : publisher.dispatch request = .task work)
      (story : work.Story fallible events (.returned result)) :
      Ending fallible publisher request name events (.returned result)
  | takenOver {work : Program PublishResult} {first second : List Event} {crash : Crash}
      {done : Progress PublishResult} (dispatched : publisher.dispatch request = .task work)
      (broke : work.Story fallible first (.crashed crash))
      (story : (abort request.block (crash.text name)).Story fallible second done) :
      Ending fallible publisher request name (first ++ second) done

/-- **An attempt whose caller waits to the end has one of its endings.** -/
theorem awaited_ending {fallible : Call → Prop} (hothers : others.CrashOnlyOn fallible) :
    Ending fallible publisher request name (awaited others publisher request name).2
      (awaited others publisher request name).1 := by
  cases h : publisher.dispatch request with
  | direct work =>
      obtain ⟨events, hpast, hstory⟩ := work.complete_story hothers []
      rw [awaited_of_direct h, hpast]
      exact .direct h hstory
  | task work =>
      obtain ⟨events, hpast, hstory⟩ := work.complete_story hothers []
      rcases hwork : work.complete others [] with ⟨done, past⟩
      rw [hwork] at hpast hstory
      rw [awaited_of_task h, hwork]
      cases hpast
      cases done with
      | ready c next => exact absurd hstory.isDone Bool.false_ne_true
      | blocked c next => exact absurd hstory.isDone Bool.false_ne_true
      | returned result => exact .returned h hstory
      | crashed crash =>
          obtain ⟨rest, hrest, habort⟩ :=
            (abort request.block (crash.text name)).complete_story hothers events
          show Ending _ _ _ _ ((abort request.block (crash.text name)).complete others events).2 _
          rw [hrest]
          exact .takenOver h hstory habort

theorem afterTask_faithful {ended : Progress PublishResult × List Event}
    (h : Faithful others ended.2) : Faithful others (afterTask others request name ended).2 := by
  obtain ⟨work, past⟩ := ended
  cases work with
  | crashed crash => exact Program.complete_faithful _ h
  | ready c next => exact h
  | blocked c next => exact h
  | returned result => exact h

/-- An awaited attempt tells the truth about its collaborators. -/
theorem awaited_faithful : Faithful others (awaited others publisher request name).2 := by
  cases h : publisher.dispatch request with
  | direct work =>
      rw [awaited_of_direct h]
      exact work.complete_faithful faithful_nil
  | task work =>
      rw [awaited_of_task h]
      exact afterTask_faithful (work.complete_faithful faithful_nil)

/-! ## Courses -/

/-- Where an attempt stands on its way to the end that it has with a caller who waits. -/
inductive OnCourse (others : Collaborators) (publisher : Publisher) (a : Attempt) : Prop
  /-- Its task is what counts, and what is left of it ends as the whole task does. -/
  | working {whole : Program PublishResult} {work : Progress PublishResult}
      (dispatched : publisher.dispatch a.request = .task whole) (task : a.task? = some work)
      (caller : a.caller = .waiting ∨ a.caller = .gone)
      (same_end : work.finish others a.past = whole.complete others [])
  /-- Its caller is what counts, and what is left for it to do ends as the whole attempt does. -/
  | acting {work : Progress PublishResult} (caller : a.caller = .acting work)
      (task : ∀ t ∈ a.task?, t.isDone)
      (same_end : work.finish others a.past = awaited others publisher a.request a.name)

/-- Whoever has a result has nothing left to do. -/
theorem caller_of_result? {a : Attempt} {result : PublishResult} (h : a.result? = some result) :
    a.caller = .acting (.returned result) := by
  unfold result? at h
  split at h
  · next hcaller =>
      cases h
      exact hcaller
  · cases h

theorem start_request : (start publisher request name).request = request := by
  unfold start
  cases publisher.dispatch request <;> rfl

theorem start_name : (start publisher request name).name = name := by
  unfold start
  cases publisher.dispatch request <;> rfl

/-- An attempt begins on course. -/
theorem onCourse_start : (start publisher request name).OnCourse others publisher := by
  cases h : publisher.dispatch request with
  | task work =>
      simp only [start, h]
      exact .working h rfl (Or.inl rfl) (Progress.finish_ofProgram work [])
  | direct work =>
      simp only [start, h]
      have hnone : ∀ t ∈ (none : Option (Progress PublishResult)), t.isDone := by simp
      refine .acting rfl hnone ?_
      rw [awaited_of_direct h]
      exact Progress.finish_ofProgram work []

/-- Steps change neither what was asked for nor the name of the task. -/
theorem Step.same_request {a b : Attempt} {event? : Option Event} (h : a.Step others event? b) :
    b.request = a.request ∧ b.name = a.name := by
  cases h <;> exact ⟨rfl, rfl⟩

/-- **Every step keeps an attempt on course.** -/
theorem OnCourse.step {a b : Attempt} {event? : Option Event} (h : a.OnCourse others publisher)
    (hstep : a.Step others event? b) : b.OnCourse others publisher := by
  cases h with
  | working dispatched task caller same_end =>
      cases hstep with
      | task running step =>
          cases task.symm.trans running
          exact .working dispatched rfl caller ((Progress.finish_step step).trans same_end)
      | caller acting step => rcases caller with h | h <;> cases h.symm.trans acting
      -- from here on the caller is what counts, and it makes of the task what a waiting caller makes
      | deliver waiting returned =>
          cases task.symm.trans returned
          have hdone : ∀ t ∈ a.task?, t.isDone := by
            intro t ht
            cases task.symm.trans ht
            rfl
          refine .acting rfl hdone ?_
          rw [awaited_of_task dispatched, ← same_end]
          rfl
      | takeOver waiting crashed =>
          cases task.symm.trans crashed
          have hdone : ∀ t ∈ a.task?, t.isDone := by
            intro t ht
            cases task.symm.trans ht
            rfl
          refine .acting rfl hdone ?_
          rw [awaited_of_task dispatched, ← same_end]
          exact Progress.finish_ofProgram _ _
      | leave waiting => exact .working dispatched task (Or.inr rfl) same_end
  | acting caller task same_end =>
      cases hstep with
      | task running step =>
          -- the task has come to its end before the caller acts
          rw [Progress.step_of_isDone (task _ running)] at step
          cases step
      | caller acting step =>
          cases caller.symm.trans acting
          exact .acting rfl task ((Progress.finish_step step).trans same_end)
      | deliver waiting returned => cases caller.symm.trans waiting
      | takeOver waiting crashed => cases caller.symm.trans waiting
      | leave waiting => cases caller.symm.trans waiting

/-- **The past of an attempt is the beginning of what it leaves behind when awaited.** -/
theorem OnCourse.past_prefix {a : Attempt} (h : a.OnCourse others publisher) :
    a.past <+: (awaited others publisher a.request a.name).2 := by
  cases h with
  | working dispatched task caller same_end =>
      rw [awaited_of_task dispatched, ← same_end]
      exact (Progress.prefix_finish _ _).trans (prefix_afterTask _)
  | acting caller task same_end =>
      rw [← same_end]
      exact Progress.prefix_finish _ _

/-- Where there is nothing left to do for a caller who has not left, the attempt has come to the end that it
    has when awaited. -/
theorem OnCourse.awaited_eq {a : Attempt} {work : Progress PublishResult}
    (h : a.OnCourse others publisher) (caller : a.caller = .acting work) (hdone : work.isDone) :
    awaited others publisher a.request a.name = (work, a.past) := by
  cases h with
  | working dispatched task waiting same_end =>
      rcases waiting with h | h <;> cases h.symm.trans caller
  | acting acts task same_end =>
      cases acts.symm.trans caller
      rw [← same_end]
      exact Progress.finish_of_isDone hdone a.past

/-- Where a caller has left and its task is done, the task has come to the end that it has alone. -/
theorem OnCourse.complete_eq {a : Attempt} (h : a.OnCourse others publisher) (gone : a.caller = .gone)
    (hdone : ∀ work, a.task? = some work → work.isDone) :
    ∃ whole work, publisher.dispatch a.request = .task whole ∧
      whole.complete others [] = (work, a.past) := by
  cases h with
  | @working whole work dispatched task waiting same_end =>
      refine ⟨whole, work, dispatched, ?_⟩
      rw [← same_end]
      exact Progress.finish_of_isDone (hdone work task) a.past
  | acting acts task same_end => cases acts.symm.trans gone

/-- A settled attempt has come to the end that it has when awaited, or its task to the end that it has
    alone. -/
theorem OnCourse.of_settled {a : Attempt} (h : a.OnCourse others publisher) (settled : a.isSettled) :
    (∃ work, awaited others publisher a.request a.name = (work, a.past)) ∨
    ∃ whole work, publisher.dispatch a.request = .task whole ∧ whole.complete others [] = (work, a.past) := by
  obtain ⟨htask, hcaller⟩ := Bool.and_eq_true_iff.mp settled
  cases hwhere : a.caller with
  | waiting =>
      rw [hwhere] at hcaller
      cases hcaller
  | acting work =>
      rw [hwhere] at hcaller
      exact Or.inl ⟨work, h.awaited_eq hwhere hcaller⟩
  | gone =>
      have hdone (work : Progress PublishResult) (hwork : a.task? = some work) : work.isDone :=
        (Option.all_eq_true _ _).mp htask work hwork
      exact Or.inr (h.complete_eq hwhere hdone)

end Attempt

/-! ## Workers -/

/-- Who does the work of an attempt. -/
inductive Worker
  | task
  | caller

namespace Attempt

/-- The work that `worker` does. -/
def work? (a : Attempt) : Worker → Option (Progress PublishResult)
  | .task => a.task?
  | .caller =>
      match a.caller with
      | .acting work => some work
      | _ => none

/-- The attempt when `worker` has come to `work` and left `past` behind. -/
def advance (a : Attempt) (work : Progress PublishResult) (past : List Event) : Worker → Attempt
  | .task => { a with task? := some work, past }
  | .caller => { a with caller := .acting work, past }

variable {a : Attempt} {worker : Worker} {work after : Progress PublishResult} {past : List Event}

theorem caller_of_work? (h : a.work? .caller = some work) : a.caller = .acting work := by
  simp only [work?] at h
  split at h
  · next hcaller =>
      cases h
      exact hcaller
  · cases h

theorem advance_self (h : a.work? worker = some work) : a.advance work a.past worker = a := by
  obtain ⟨request, name, task?, caller, past⟩ := a
  cases worker with
  | task =>
      have htask : task? = some work := h
      rw [htask]
      rfl
  | caller =>
      have hcaller : caller = .acting work := caller_of_work? h
      rw [hcaller]
      rfl

@[simp] theorem past_advance (a : Attempt) (work : Progress PublishResult) (past : List Event) :
    (a.advance work past worker).past = past := by
  cases worker <;> rfl

@[simp] theorem work?_advance (a : Attempt) (work : Progress PublishResult) (past : List Event) :
    (a.advance work past worker).work? worker = some work := by
  cases worker <;> rfl

@[simp] theorem advance_advance (a : Attempt) (work after : Progress PublishResult) (past later : List Event) :
    (a.advance work past worker).advance after later worker = a.advance after later worker := by
  cases worker <;> rfl

/-- A step of the work is a step of the attempt. -/
theorem step_of_work {event : Event} (step : work.step others past = some (event, after)) :
    (a.advance work past worker).Step others (some event)
      ((a.advance work past worker).advance after (past ++ [event]) worker) := by
  cases worker with
  | task => exact .task rfl step
  | caller => exact .caller rfl step

end Attempt

/-! ## Runs -/

namespace System

theorem getElem?_start {calls : List (Publisher × Request)} {i : Nat} {a : Attempt}
    (h : (start calls).attempts[i]? = some a) :
    ∃ publisher request, calls[i]? = some (publisher, request) ∧
      a = .start publisher request (toString i) := by
  simp only [start, List.getElem?_map, List.getElem?_zipIdx, Option.map_eq_some_iff] at h
  obtain ⟨⟨⟨publisher, request⟩, j⟩, ⟨_, hcall, hpair⟩, rfl⟩ := h
  cases hpair
  exact ⟨publisher, request, hcall, by rw [Nat.zero_add]⟩

variable {calls : List (Publisher × Request)} {others : Nat → Collaborators} {counted : Bool}

/-- **In every run each attempt is on course**, and it is the attempt of the call in its place. -/
theorem Run.onCourse {s : System} (run : Run others counted (.start calls) s) {i : Nat} {a : Attempt}
    (here : s.attempts[i]? = some a) :
    ∃ publisher, calls[i]? = some (publisher, a.request) ∧ a.name = toString i ∧
      a.OnCourse (others i) publisher := by
  induction run generalizing i a with
  | refl =>
      obtain ⟨publisher, request, hcall, rfl⟩ := getElem?_start here
      refine ⟨publisher, ?_, Attempt.start_name, Attempt.onCourse_start⟩
      rw [hcall, Attempt.start_request]
  | @tail t _ _ hstep ih =>
      cases hstep with
      | @attempt j before after event? before_here step =>
          -- the other attempts stay where they are
          by_cases hij : j = i
          · subst hij
            obtain ⟨publisher, hcall, hname, hcourse⟩ := ih before_here
            have hj : j < t.attempts.length := (List.getElem?_eq_some_iff.mp before_here).1
            have hafter : after = a := by
              simpa only [List.getElem?_set_self hj, Option.some.injEq] using here
            subst hafter
            obtain ⟨hrequest, hsame⟩ := step.same_request
            exact ⟨publisher, by rw [hrequest]; exact hcall, hsame.trans hname, hcourse.step step⟩
          · rw [List.getElem?_set_ne hij] at here
            exact ih here

/-- **Whoever has nothing left to do in a run has come to one of the endings of an awaited attempt**, unless
    it is a caller who left. -/
theorem Run.ending {fallible : Call → Prop} {s : System} (run : Run others counted (.start calls) s) {i : Nat}
    {a : Attempt} (here : s.attempts[i]? = some a) (hothers : (others i).CrashOnlyOn fallible)
    {work : Progress PublishResult} (caller : a.caller = .acting work) (hdone : work.isDone) :
    ∃ publisher, calls[i]? = some (publisher, a.request) ∧
      Attempt.Ending fallible publisher a.request (toString i) a.past work := by
  obtain ⟨publisher, hcall, hname, hcourse⟩ := run.onCourse here
  have hending : Attempt.Ending fallible publisher a.request a.name _ _ := Attempt.awaited_ending hothers
  rw [hcourse.awaited_eq caller hdone, hname] at hending
  exact ⟨publisher, hcall, hending⟩

/-- Steps go on from where others have led. -/
theorem Run.trans {s t u : System} (first : Run others counted s t) (second : Run others counted t u) :
    Run others counted s u := by
  induction second with
  | refl => exact first
  | tail run step ih => exact ih.tail step

/-- The task of attempt `i` goes on. -/
theorem Run.thenTask {s t : System} (run : Run others counted s t) (i : Nat) {a : Attempt} {event : Event}
    {before after : Progress PublishResult} (here : t.attempts[i]? = some a)
    (running : a.task? = some before) (step : before.step (others i) a.past = some (event, after)) :
    Run others counted s
      { attempts := t.attempts.set i { a.note event with task? := some after }
        ledger := t.ledger.observe counted event } :=
  run.tail (.attempt here (.task running step))

/-- **The work of an attempt can go on while the other attempts stand still.** -/
theorem Run.thenWork {s t : System} (run : Run others counted s t) (i : Nat) {a : Attempt} (worker : Worker)
    {before after : Progress PublishResult} {past : List Event} (here : t.attempts[i]? = some a)
    (working : a.work? worker = some before) (leads : before.Leads (others i) a.past after past) :
    ∃ events, past = a.past ++ events ∧ Run others counted s
      { attempts := t.attempts.set i (a.advance after past worker)
        ledger := events.foldl (Ledger.observe counted) t.ledger } := by
  have hi : i < t.attempts.length := (List.getElem?_eq_some_iff.mp here).1
  induction leads with
  | refl =>
      refine ⟨[], (List.append_nil _).symm, ?_⟩
      rw [Attempt.advance_self working, ← (List.getElem?_eq_some_iff.mp here).2, List.set_getElem_self]
      exact run
  | @tail between after later event leads step ih =>
      obtain ⟨events, rfl, hrun⟩ := ih
      have hnext := hrun.tail (.attempt (List.getElem?_set_self hi) (Attempt.step_of_work step))
      refine ⟨events ++ [event], List.append_assoc .., ?_⟩
      rw [List.foldl_append]
      rwa [List.set_set, Attempt.advance_advance] at hnext

/-- **A task can run to its end while the other attempts stand still.** What it leaves behind when it is run
    alone is then the past of its attempt. -/
theorem Run.completeTask {s t : System} (run : Run others counted s t) (i : Nat) {a : Attempt}
    {p : Program PublishResult} (here : t.attempts[i]? = some a) (running : a.task? = some (.ofProgram p)) :
    ∃ u, Run others counted s u ∧ u.attempts = t.attempts.set i
      { a with
        task? := some (p.complete (others i) a.past).1
        past := (p.complete (others i) a.past).2 } := by
  obtain ⟨events, -, hrun⟩ := run.thenWork i .task here running (Progress.Leads.execute _ p .refl)
  exact ⟨_, hrun, rfl⟩

/-- A task that runs to its end is where it is alone at the end. -/
theorem Run.thenComplete {s t : System} (run : Run others counted s t) (i : Nat) {a : Attempt}
    {p : Program PublishResult} (here : t.attempts[i]? = some a) (running : a.task? = some (.ofProgram p)) :
    ∃ u, Run others counted s u ∧ u.attempts[i]? = some
      { a with
        task? := some (p.complete (others i) a.past).1
        past := (p.complete (others i) a.past).2 } := by
  obtain ⟨u, hrun, hattempts⟩ := run.completeTask i here running
  refine ⟨u, hrun, ?_⟩
  rw [hattempts]
  exact List.getElem?_set_self (List.getElem?_eq_some_iff.mp here).1

/-- **A task can run to its end and its caller be told**, while the other attempts stand still. -/
theorem Run.completeAttempt {s t : System} (run : Run others counted s t) (i : Nat) {a : Attempt}
    {p : Program PublishResult} (here : t.attempts[i]? = some a) (running : a.task? = some (.ofProgram p))
    (waiting : a.caller = .waiting) {result : PublishResult} {past : List Event}
    (returns : p.complete (others i) a.past = (.returned result, past)) :
    ∃ u, Run others counted s u ∧ u.attempts = t.attempts.set i
      { a with task? := some (.returned result), caller := .acting (.returned result), past } := by
  obtain ⟨u, hrun, hattempts⟩ := run.completeTask i here running
  rw [returns] at hattempts
  have hi : i < t.attempts.length := (List.getElem?_eq_some_iff.mp here).1
  have hdone : u.attempts[i]? = some { a with task? := some (.returned result), past } := by
    rw [hattempts]
    exact List.getElem?_set_self hi
  refine ⟨_, hrun.tail (.attempt hdone (.deliver waiting rfl)), ?_⟩
  show u.attempts.set i _ = _
  rw [hattempts, List.set_set]

/-- The caller of attempt `i` leaves. -/
theorem Run.thenLeave {s t : System} (run : Run others counted s t) (i : Nat) {a : Attempt}
    (here : t.attempts[i]? = some a) (waiting : a.caller = .waiting) :
    Run others counted s { t with attempts := t.attempts.set i { a with caller := .gone } } :=
  run.tail (.attempt here (.leave waiting))

end System

/-! ## A case -/

/-- The attempt to publish `Request.oneBlob`, once its caller has heard that gossip did not take the blob. -/
def Attempt.oneBlob (counted : Bool) : Attempt where
  request := .oneBlob
  name := "0"
  task? := some (.returned (.ok Request.oneBlobPublished))
  caller := .acting (.returned (.ok Request.oneBlobPublished))
  past := Request.oneBlobPast counted

/-- A publisher that takes the block comes to that. -/
theorem System.exists_run_oneBlob (publisher : Publisher) {counted : Bool}
    (takes : publisher.pipeline? .oneBlob = some { variant := .withBlobs standardBlobLimit counted })
    (dutyCounted : Bool) :
    ∃ s, Run (fun _ => .refusing 0) dutyCounted (.start [(publisher, .oneBlob)]) s ∧
      s.attempts = [.oneBlob counted] := by
  let work := Pipeline.run { variant := .withBlobs standardBlobLimit counted } Request.oneBlob.block
    Request.oneBlob.sidecars Request.oneBlob.level
  have begun : (System.start [(publisher, .oneBlob)]).attempts
      = [{ request := .oneBlob, name := "0", task? := some (.ofProgram work), caller := .waiting }] := by
    show [Attempt.start publisher .oneBlob "0"] = _
    rw [Attempt.start, Publisher.dispatch_of_pipeline? takes]
  have start : Run (fun _ => .refusing 0) dutyCounted (.start [(publisher, .oneBlob)]) _ := .refl _
  obtain ⟨s, run, hs⟩ := start.completeAttempt 0 (congrArg (·[0]?) begun) rfl rfl (Request.complete_oneBlob counted)
  refine ⟨s, run, ?_⟩
  rw [hs, begun]
  rfl

end BeaconBroadcast
