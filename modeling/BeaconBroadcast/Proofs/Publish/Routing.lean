import BeaconBroadcast.Proofs.Chain.ForkLookup
import BeaconBroadcast.Proofs.Publish.Course
import BeaconBroadcast.Proofs.Publish.Stages
import BeaconBroadcast.Proofs.Settings.Validity

/-!
# `BeaconBroadcast.Proofs.Publish.Routing` — every block goes to the pipeline of its milestone

A selector looks a block's slot up in its schedule and hands the block to what is registered for the
milestone found. Set up from settings it always finds something, for a valid schedule has an active fork at
every slot and every fork has a pipeline; put together by hand it may find nothing, and then says so.

## Contents
- **Registration.** `Selector.registerAll` and `lastFor`; `Selector.pipeline?_registerAll`: the last
  registration counts.
- **Settings.** `Settings.standAlone` is the pipeline that a milestone calls for; `Settings.selector` is what
  `Selector.ofSettings` sets up.
- **Requests.** `Publisher.GoesAs`, `Publisher.NeverTurnsAway` and `Publisher.TurnsAway` say how a request
  goes.
- **Pipelines.** `Pipeline.run_returnsOnly`: a task that returns has made the attempt, so where a pipeline
  takes a request nobody hears that there is none.
- **Turning away.** Which calls are made where there is none.
- **Routing.** `Selector.routing`, with a chain on which two forks share an epoch.
-/

namespace BeaconBroadcast

open Program

/-! ## Registration -/

/-- The last entry for `milestone`. -/
def lastFor (registered : List (Milestone × Pipeline)) (milestone : Milestone) : Option Pipeline :=
  (registered.filter fun entry => entry.1 = milestone).getLast?.map (·.2)

theorem lastFor_cons (entry : Milestone × Pipeline) (registered : List (Milestone × Pipeline))
    (milestone : Milestone) :
    lastFor (entry :: registered) milestone
      = (lastFor registered milestone).or (if entry.1 = milestone then some entry.2 else none) := by
  unfold lastFor
  by_cases h : entry.1 = milestone
  · rw [List.filter_cons_of_pos (by simp [h]), List.getLast?_cons, if_pos h]
    cases (registered.filter fun entry => entry.1 = milestone).getLast? <;> rfl
  · rw [List.filter_cons_of_neg (by simp [h]), if_neg h, Option.or_none]

/-- Where what is registered depends on the milestone alone, it does not matter which entry is the last. -/
theorem lastFor_map (milestones : List Milestone) (f : Milestone → Pipeline) (milestone : Milestone) :
    lastFor (milestones.map fun m => (m, f m)) milestone
      = if milestone ∈ milestones then some (f milestone) else none := by
  induction milestones with
  | nil => rfl
  | cons first rest ih =>
      rw [List.map_cons, lastFor_cons, ih]
      by_cases hrest : milestone ∈ rest
      · simp [hrest]
      · by_cases hfirst : first = milestone
        · simp [hrest, hfirst]
        · simp [hrest, hfirst, Ne.symm hfirst]

namespace Selector

/-- The selector after some registrations, one after the other. -/
def registerAll (s : Selector) (registered : List (Milestone × Pipeline)) : Selector :=
  registered.foldl (fun selector entry => selector.register entry.1 entry.2) s

/-- The selector that is put together by hand from a schedule and some registrations. -/
def byHand (schedule : ForkSchedule) (registered : List (Milestone × Pipeline)) : Selector :=
  registerAll { schedule } registered

theorem pipeline?_register (s : Selector) (milestone : Milestone) (p : Pipeline) (wanted : Milestone) :
    (s.register milestone p).pipeline? wanted = if milestone = wanted then some p else s.pipeline? wanted := by
  simp only [pipeline?, register, List.lookup_cons]
  by_cases h : milestone = wanted
  · simp [h]
  · have hne : (wanted == milestone) = false := beq_false_of_ne (Ne.symm h)
    rw [hne, if_neg h]

@[simp] theorem registerAll_schedule (s : Selector) (registered : List (Milestone × Pipeline)) :
    (s.registerAll registered).schedule = s.schedule := by
  induction registered generalizing s with
  | nil => rfl
  | cons entry rest ih => exact ih (s.register entry.1 entry.2)

/-- **The last registration counts.** -/
theorem pipeline?_registerAll (s : Selector) (registered : List (Milestone × Pipeline))
    (milestone : Milestone) :
    (s.registerAll registered).pipeline? milestone
      = (lastFor registered milestone).or (s.pipeline? milestone) := by
  induction registered generalizing s with
  | nil => rfl
  | cons entry rest ih =>
      show ((s.register entry.1 entry.2).registerAll rest).pipeline? milestone = _
      rw [ih, pipeline?_register, lastFor_cons, Option.or_assoc]
      by_cases h : entry.1 = milestone <;> simp [h]

@[simp] theorem milestoneOf_byHand (schedule : ForkSchedule) (registered : List (Milestone × Pipeline))
    (block : SignedBlock) :
    (byHand schedule registered).milestoneOf block = schedule.milestoneAt block.slot := by
  rw [milestoneOf, byHand, registerAll_schedule]

@[simp] theorem pipeline?_byHand (schedule : ForkSchedule) (registered : List (Milestone × Pipeline))
    (milestone : Milestone) :
    (byHand schedule registered).pipeline? milestone = lastFor registered milestone := by
  rw [byHand, pipeline?_registerAll]
  exact Option.or_none

end Selector

/-! ## Settings -/

namespace Settings

/-- The pipeline that stands alone for blocks of `milestone`: without blobs before `deneb`, with the limit of
    the fork from there on. -/
def standAlone (s : Settings) (clock? : Option SlotClock) (counted : Bool) (milestone : Milestone) :
    Pipeline where
  variant :=
    match milestone with
    | .phase0 | .altair | .bellatrix | .capella => .plain
    | .deneb => .withBlobs s.maxBlobs counted
    | .electra => .withBlobs s.maxBlobsElectra counted
  grid? := clock?.map fun clock => clock.grid s.timeliness.intervalsPerSlot

theorem pipeline_eq_standAlone (s : Settings) (clock? : Option SlotClock) (counted : Bool)
    (milestone : Milestone) : s.pipeline clock? counted milestone = s.standAlone clock? counted milestone := by
  cases milestone <;> rfl

/-- From `deneb` on the limit is that of the fork. -/
theorem variant_standAlone_of_blobs (s : Settings) (clock? : Option SlotClock) (counted : Bool)
    {milestone : Milestone} (h : milestone = .deneb ∨ milestone = .electra) :
    (s.standAlone clock? counted milestone).variant = .withBlobs (s.blobLimit milestone) counted := by
  rcases h with rfl | rfl
  · rfl
  · rfl

theorem variant_standAlone_of_lt (s : Settings) (clock? : Option SlotClock) (counted : Bool)
    {milestone : Milestone} (h : milestone < .deneb) :
    (s.standAlone clock? counted milestone).variant = .plain := by
  cases milestone with
  | deneb => exact absurd h (by decide)
  | electra => exact absurd h (by decide)
  | _ => rfl

/-- The selector with a pipeline for every fork. -/
def selector (s : Settings) (clock? : Option SlotClock) (counted : Bool) : Selector :=
  .byHand s.forkSchedule
    ((s.forkSchedule.forks.map (·.milestone)).map fun m => (m, s.standAlone clock? counted m))

/-- **A selector with valid settings has a pipeline for every block.** -/
theorem pipeline?_selector {s : Settings} (valid : s.fault? = none) (clock? : Option SlotClock)
    (counted : Bool) (block : SignedBlock) :
    (s.selector clock? counted).pipeline? ((s.selector clock? counted).milestoneOf block)
      = some (s.standAlone clock? counted (s.forkSchedule.milestoneAt block.slot)) := by
  have hactive := (fault?_eq_none_iff.mp valid).schedule.milestoneAt_mem block.slot
  rw [selector, Selector.milestoneOf_byHand, Selector.pipeline?_byHand, lastFor_map, if_pos hactive]

/-- What is registered for the forks, one after the other. -/
theorem foldl_register (s : Settings) (clock? : Option SlotClock) (counted : Bool) :
    (s.forkSchedule.forks.map (·.milestone)).foldl
        (fun selector milestone => selector.register milestone (s.pipeline clock? counted milestone))
        { schedule := s.forkSchedule }
      = s.selector clock? counted := by
  simp only [selector, Selector.byHand, Selector.registerAll, List.foldl_map, pipeline_eq_standAlone]

end Settings

/-- Telling the log something is one exchange, after which the work goes on. -/
theorem Program.complete_notify_bind {α : Type} {others : Collaborators} (dependable : others.Dependable)
    (notice : Notice) (next : Unit → Program α) (past : List Event) :
    (notify notice >>= next).complete others past
      = (next ()).complete others (past ++ exchange (.notify notice) (.ok ())) := by
  show (call (.notify notice) next).complete others past = _
  rw [complete_call]
  cases hreply : others (past ++ [.issued (.notify notice)]) (.notify notice) with
  | answer answer =>
      show (next ()).complete others (past ++ [.issued _] ++ [.answered _ _]) = _
      rw [List.append_assoc]
      rfl
  | crash crash =>
      have hcan := dependable _ _ (by rw [hreply]; rfl)
      cases hcan

/-- **Setting up a selector fails as the settings do, and otherwise has a pipeline for every fork.** Nobody but
    the log hears of it. -/
theorem Selector.complete_ofSettings {others : Collaborators} (dependable : others.Dependable) (s : Settings)
    (clock? : Option SlotClock) (counted : Bool) (past : List Event) :
    (ofSettings s clock? counted).complete others past =
      match s.fault? with
      | some fault => (.returned (.error fault), past)
      | none => (.returned (.ok (s.selector clock? counted)),
          past ++ exchange (.notify (.ready (s.forkSchedule.forks.map (·.milestone)))) (.ok ())) := by
  unfold ofSettings
  cases s.fault? with
  | some fault => rfl
  | none =>
      simp only [complete_notify_bind dependable, Settings.foldl_register]
      rfl

/-! ## Requests -/

namespace Publisher

/-- A request to `first` goes as it would go to `second`: among any other attempts it begins in the same
    way, and awaited alone it comes to the same end and leaves the same behind. -/
structure GoesAs (first second : Publisher) (r : Request) : Prop where
  begins : ∀ before after, System.start (before ++ (first, r) :: after)
    = System.start (before ++ (second, r) :: after)
  ends : ∀ others name, Attempt.awaited others first r name = Attempt.awaited others second r name

/-- No caller hears that there is no pipeline for the request. -/
structure NeverTurnsAway (publisher : Publisher) (r : Request) : Prop where
  in_runs : ∀ {calls others counted} {s : System}, System.Run others counted (.start calls) s →
    ∀ {i : Nat} {a : Attempt}, s.attempts[i]? = some a → calls[i]? = some (publisher, r) →
    ∀ milestone, a.result? ≠ some (.error (.unsupported milestone))
  alone : ∀ others name milestone,
    (Attempt.awaited others publisher r name).1 ≠ .returned (.error (.unsupported milestone))

/-- The calls that are made for a block that no pipeline takes. -/
def callsTurningAway (block : SignedBlock) (milestone : Milestone) : List Call :=
  [.notify (.noPublisher milestone block.slot), .reportDuty block .notAttempted,
    .reportPerformance block .notAttempted]

/-- The request is turned away for want of a pipeline for `milestone`. -/
structure TurnsAway (publisher : Publisher) (r : Request) (milestone : Milestone) : Prop where
  /-- Nothing is called but the log and the listeners, in this order. -/
  calls : ∀ {calls others counted} {s : System}, System.Run others counted (.start calls) s →
    ∀ {i : Nat} {a : Attempt}, s.attempts[i]? = some a → calls[i]? = some (publisher, r) →
    callsIn a.past <+: callsTurningAway r.block milestone
  /-- Who gets a result gets this one, after all of these calls. -/
  result : ∀ {calls others counted} {s : System}, System.Run others counted (.start calls) s →
    ∀ {i : Nat} {a : Attempt}, s.attempts[i]? = some a → calls[i]? = some (publisher, r) →
    ∀ {got}, a.result? = some got →
      got = .error (.unsupported milestone) ∧ callsIn a.past = callsTurningAway r.block milestone
  /-- Unless the log or a listener breaks down, there is a result. -/
  returns : ∀ {others : Collaborators}, others.Dependable → ∀ name,
    Attempt.awaited others publisher r name = (.returned (.error (.unsupported milestone)),
      exchange (.notify (.noPublisher milestone r.block.slot)) (.ok ())
        ++ reported r.block .notAttempted)

/-- Only the pipeline that takes a request matters for how it goes. -/
theorem goesAs_of_pipeline? {publisher : Publisher} {r : Request} {p : Pipeline}
    (takes : publisher.pipeline? r = some p) : publisher.GoesAs (.single p) r := by
  have h : publisher.dispatch r = (single p).dispatch r := dispatch_of_pipeline? takes
  have hstart (name : String) : Attempt.start publisher r name = Attempt.start (.single p) r name := by
    simp only [Attempt.start, h]
  refine ⟨fun before after => ?_, fun others name => ?_⟩
  · simp only [System.start, List.zipIdx_append, List.zipIdx_cons, List.map_append, List.map_cons, hstart]
  · simp only [Attempt.awaited, h]

end Publisher

/-- A selector without a pipeline for a request leaves it to the caller to say so. -/
theorem Selector.dispatch_of_none {s : Selector} {r : Request}
    (h : s.pipeline? (s.milestoneOf r.block) = none) :
    (Publisher.selector s).dispatch r = .direct (turnAway r.block (s.milestoneOf r.block)) := by
  simp only [Publisher.dispatch, h]

/-! ## Pipelines -/

/-- Whatever gossip took, the attempt was made. -/
theorem PublishResult.outcome_ok_ne (publication : Publication) :
    PublishResult.outcome (.ok publication) ≠ .notAttempted := by
  show (if publication.delivery.isPartial then Outcome.partiallyPublished else .published) ≠ .notAttempted
  split <;> simp

/-- What follows from the import's answer is never that the attempt was not made. -/
theorem Pipeline.conclude_returnsOnly (p : Pipeline) (r : Request) (answer : ImportAnswer) :
    (p.conclude r.block r.sidecars r.level answer).ReturnsOnly
      fun result => result.outcome ≠ .notAttempted := by
  cases answer with
  | imported imported =>
      refine returnsOnly_bind fun delivery => returnsOnly_bind fun _ => returnsOnly_bind fun _ => ?_
      exact PublishResult.outcome_ok_ne _
  | refused verdict => exact returnsOnly_bind fun _ => nofun
  | failed reason => exact returnsOnly_bind fun _ => nofun

/-- **A task that returns has made the attempt.** -/
theorem Pipeline.run_returnsOnly (p : Pipeline) (r : Request) :
    (p.run r.block r.sidecars r.level).ReturnsOnly fun result => result.outcome ≠ .notAttempted := by
  refine returnsOnly_bind fun _ => returnsOnly_bind fun answer => ?_
  refine (p.conclude_returnsOnly r (answer.gate r.level)).bind fun result hresult => ?_
  exact returnsOnly_bind fun _ => hresult

/-- Whoever takes over says that the attempt broke off. -/
theorem abort_returnsOnly (block : SignedBlock) (cause : String) :
    (abort block cause).ReturnsOnly fun result => result = .error (.internal cause) :=
  returnsOnly_bind fun _ => returnsOnly_bind fun _ => rfl

/-- Where a pipeline takes the request, no ending of the attempt says that there was none. -/
theorem Attempt.Ending.ne_unsupported {fallible : Call → Prop} {publisher : Publisher} {r : Request}
    {name : String} {events : List Event} {done : Progress PublishResult} {p : Pipeline}
    (takes : publisher.pipeline? r = some p) (h : Ending fallible publisher r name events done)
    (milestone : Milestone) : done ≠ .returned (.error (.unsupported milestone)) := by
  intro hdone
  cases h with
  | direct dispatched story => cases takes.symm.trans (Publisher.of_dispatch_direct dispatched).1
  | returned dispatched story =>
      obtain ⟨q, -, rfl⟩ := Publisher.of_dispatch_task dispatched
      cases hdone
      exact story.of_returnsOnly (q.run_returnsOnly r) rfl
  | takenOver dispatched broke story =>
      subst hdone
      cases story.of_returnsOnly (abort_returnsOnly _ _)

theorem Publisher.neverTurnsAway {publisher : Publisher} {r : Request} {p : Pipeline}
    (takes : publisher.pipeline? r = some p) : publisher.NeverTurnsAway r := by
  refine ⟨?_, ?_⟩
  · intro calls others counted s run i a here called milestone hresult
    obtain ⟨_, hcall, hending⟩ :=
      run.ending here (others i).crashOnlyOn_all (Attempt.caller_of_result? hresult) rfl
    cases called.symm.trans hcall
    exact hending.ne_unsupported takes milestone rfl
  · intro others name milestone
    exact (Attempt.awaited_ending others.crashOnlyOn_all).ne_unsupported takes milestone

/-! ## Turning away -/

/-- Turning a block away makes its calls whatever they are answered with. -/
theorem Selector.turnAway_recites (block : SignedBlock) (milestone : Milestone) :
    (turnAway block milestone).Recites (.error (.unsupported milestone))
      (Publisher.callsTurningAway block milestone) :=
  ⟨_, rfl, fun _ => ⟨_, rfl, fun _ => ⟨_, rfl, fun _ => ⟨rfl, rfl⟩⟩⟩⟩

/-- An attempt that its caller does alone leaves a story of that work behind. -/
theorem Attempt.Ending.of_direct {fallible : Call → Prop} {publisher : Publisher} {r : Request}
    {name : String} {events : List Event} {done : Progress PublishResult} {work : Program PublishResult}
    (dispatched : publisher.dispatch r = .direct work)
    (h : Ending fallible publisher r name events done) : work.Story fallible events done := by
  cases h with
  | direct again story =>
      cases dispatched.symm.trans again
      exact story
  | returned again story => cases dispatched.symm.trans again
  | takenOver again broke story => cases dispatched.symm.trans again

/-- **A block without a pipeline is turned away.** -/
theorem Publisher.turnsAway {publisher : Publisher} {r : Request} {milestone : Milestone}
    (h : publisher.dispatch r = .direct (Selector.turnAway r.block milestone)) :
    publisher.TurnsAway r milestone := by
  have hrecites := Selector.turnAway_recites r.block milestone
  refine ⟨?_, ?_, ?_⟩
  · intro calls others counted s run i a here called
    obtain ⟨_, hcall, -, hcourse⟩ := run.onCourse here
    cases called.symm.trans hcall
    obtain ⟨events, hpast, hstory⟩ :=
      (Selector.turnAway a.request.block milestone).complete_story (others i).crashOnlyOn_all []
    have hwhole := hcourse.past_prefix
    rw [Attempt.awaited_of_direct h, hpast] at hwhole
    exact (hwhole.filterMap _).trans (hstory.of_recites hrecites).1
  · intro calls others counted s run i a here called got hresult
    obtain ⟨_, hcall, hending⟩ :=
      run.ending here (others i).crashOnlyOn_all (Attempt.caller_of_result? hresult) rfl
    cases called.symm.trans hcall
    exact ((hending.of_direct h).of_recites hrecites).2 got rfl
  · intro others dependable name
    rw [Attempt.awaited_of_direct h, Selector.turnAway, complete_notify_bind dependable]
    obtain ⟨events, hpast, hstory⟩ := (report r.block .notAttempted >>= fun _ =>
      Pure.pure (.error (.unsupported milestone) : PublishResult)).complete_story dependable
        ([] ++ exchange (.notify (.noPublisher milestone r.block.slot)) (.ok ()))
    rcases hstory.of_bind with ⟨crash, -, hreport⟩ | ⟨_, first, last, rfl, hreport, hlast⟩
    · cases (report_story hreport).2
    obtain ⟨rfl, -⟩ := report_story hreport
    obtain ⟨rfl, hdone⟩ := hlast.of_pure
    exact Prod.ext hdone (by rw [hpast]; simp)

/-! ## Routing -/

/-- **Every block goes to the pipeline of its milestone.** A selector is set up exactly with valid settings,
    takes every block, and treats it as the pipeline alone would that the milestone calls for. One that is put
    together by hand treats a block as the pipeline alone would that was last registered for the milestone,
    and turns it away if there is none. -/
theorem Selector.routing {others : Collaborators} (dependable : others.Dependable) :
    (∀ (s : Settings) (clock? : Option SlotClock) (counted : Bool) (past : List Event),
      match s.fault? with
      | some fault => (ofSettings s clock? counted).complete others past = (.returned (.error fault), past)
      | none => ∃ selector,
          (ofSettings s clock? counted).complete others past = (.returned (.ok selector),
            past ++ exchange (.notify (.ready (s.forkSchedule.forks.map (·.milestone)))) (.ok ())) ∧
          ∀ r : Request, (Publisher.selector selector).NeverTurnsAway r ∧
            (Publisher.selector selector).GoesAs
              (.single (s.standAlone clock? counted (s.forkSchedule.milestoneAt r.block.slot))) r) ∧
    ∀ (schedule : ForkSchedule) (registered : List (Milestone × Pipeline)) (r : Request),
      match lastFor registered (schedule.milestoneAt r.block.slot) with
      | some p => (Publisher.selector (byHand schedule registered)).GoesAs (.single p) r
      | none => (Publisher.selector (byHand schedule registered)).TurnsAway r
          (schedule.milestoneAt r.block.slot) := by
  refine ⟨?_, ?_⟩
  · intro s clock? counted past
    have hsetup := complete_ofSettings dependable s clock? counted past
    cases hfault : s.fault? with
    | some fault =>
        rw [hfault] at hsetup
        exact hsetup
    | none =>
        rw [hfault] at hsetup
        refine ⟨s.selector clock? counted, hsetup, fun r => ?_⟩
        have htakes := Settings.pipeline?_selector hfault clock? counted r.block
        exact ⟨Publisher.neverTurnsAway htakes, Publisher.goesAs_of_pipeline? htakes⟩
  · intro schedule registered r
    have hlast : (byHand schedule registered).pipeline? ((byHand schedule registered).milestoneOf r.block)
        = lastFor registered (schedule.milestoneAt r.block.slot) := by
      rw [pipeline?_byHand, milestoneOf_byHand]
    cases hregistered : lastFor registered (schedule.milestoneAt r.block.slot) with
    | some p => exact Publisher.goesAs_of_pipeline? (hlast.trans hregistered)
    | none =>
        have hnone := dispatch_of_none (hlast.trans hregistered)
        rw [milestoneOf_byHand] at hnone
        exact Publisher.turnsAway hnone

/-- Two forks at epoch 1, the later of which is the one that counts. -/
def ForkSchedule.crowded : ForkSchedule := ((genesis .phase0).andThen .deneb 1).andThen .electra 1

/-- A request for a block of epoch 1. -/
def Request.second : Request := { block := .ofMessage { slot := 40 } Bytes.zero, sidecars := [] }

/-- A selector that is set up for two forks at one epoch, and one that has a pipeline for the earlier fork
    alone. -/
theorem routing_when_crowded :
    (Collaborators.willing .standard).Dependable ∧
    (∃ selector : Selector,
      (Selector.ofSettings { forkSchedule := .crowded } none false).complete (.willing .standard) []
        = (.returned (.ok selector), exchange (.notify (.ready [.phase0, .deneb, .electra])) (.ok ())) ∧
      (Publisher.selector selector).NeverTurnsAway .second ∧
      (Publisher.selector selector).GoesAs (.single { variant := .withBlobs standardBlobLimitElectra false })
        .second) ∧
    (Publisher.selector (.byHand .crowded [(.deneb, { variant := .plain })])).TurnsAway .second .electra := by
  have dependable := Collaborators.willing_dependable .standard
  obtain ⟨settings, byHand⟩ := Selector.routing dependable
  obtain ⟨selector, hsetup, hroutes⟩ := settings { forkSchedule := .crowded } none false []
  exact ⟨dependable, ⟨selector, hsetup, hroutes .second⟩,
    byHand .crowded [(.deneb, { variant := .plain })] .second⟩

end BeaconBroadcast
