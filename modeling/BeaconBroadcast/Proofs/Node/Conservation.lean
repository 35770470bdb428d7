import BeaconBroadcast.Proofs.Node.Runs

/-!
# `BeaconBroadcast.Proofs.Node.Conservation` — the ledger adds up

Ten counters hear of attempts, sidecars and arrivals from many places. Once every attempt is through, or waits for
its import, they say exactly what has come of the attempts, what gossip said of the sidecars and what came of the
arrivals: nothing is counted twice, and nothing is forgotten.

## Contents
- **Counters.** How fast each of the ten counters goes up.
- **Moments.** What the counters say at every moment of a run, of reports and of arrivals.
- **Rest.** `Attempt.IsPending`, `Node.completed` and `Node.AtRest`; what the counters say then.
- **Conservation.** `Node.Balanced`, `Node.ArrivalsCounted` and `Node.Run.conserves`, with a node that publishes a
  block and sees it arrive.
-/

namespace BeaconBroadcast

open Program

/-! ## Counters -/

namespace Ledger

/-- The counter of an outcome. Attempts that were not made have none. -/
def ofOutcome (l : Ledger) : Outcome → UInt64
  | .published => l.blocksPublished
  | .partiallyPublished => l.partialPublishes
  | .importFailed => l.importFailures
  | .validationFailed => l.validationFailures
  | .notAttempted => 0

/-- An arrival is counted where attempts and sidecars are not. -/
theorem observeArrival_eq (l : Ledger) (result : ArrivalResult) :
    ∃ timely late future, l.observeArrival result =
      { l with timelyBlocks := timely, lateBlocks := late, futureArrivals := future } := by
  cases result with
  | recorded arrival =>
      simp only [observeArrival, countArrival]
      split
      · exact ⟨_, _, _, rfl⟩
      · exact ⟨_, _, _, rfl⟩
  | alreadyRecorded => exact ⟨_, _, _, rfl⟩
  | future => exact ⟨_, _, _, rfl⟩

/-- A counter of attempts or sidecars goes up by nothing for an arrival. -/
theorem counter_observeArrival (counter : Ledger → UInt64) (l : Ledger) (result : ArrivalResult)
    (elsewhere : ∀ timely late future,
      counter { l with timelyBlocks := timely, lateBlocks := late, futureArrivals := future } = counter l) :
    counter (l.observeArrival result) = counter l + .ofNat 0 := by
  obtain ⟨timely, late, future, heq⟩ := l.observeArrival_eq result
  rw [heq, elsewhere]
  exact (UInt64.add_zero _).symm

theorem countsBy_publishAttempts :
    CountsBy publishAttempts (fun _ => 1) (fun _ _ => 0) (fun _ => 0) where
  empty := rfl
  attempt l outcome := by cases outcome <;> rfl
  sidecars l taken refused := (UInt64.add_zero _).symm
  arrival l result := counter_observeArrival _ l result fun _ _ _ => rfl

theorem countsBy_ofOutcome {outcome : Outcome} (h : outcome ≠ .notAttempted) :
    CountsBy (ofOutcome · outcome) (fun other => (other == outcome).toNat) (fun _ _ => 0) (fun _ => 0) where
  empty := by cases outcome <;> rfl
  attempt l other := by
    cases outcome <;> cases other <;> first | rfl | exact (UInt64.add_zero _).symm | exact absurd rfl h
  sidecars l taken refused := by cases outcome <;> exact (UInt64.add_zero _).symm
  arrival l result := counter_observeArrival (ofOutcome · outcome) l result fun _ _ _ => by cases outcome <;> rfl

theorem countsBy_sidecarsPublished :
    CountsBy sidecarsPublished (fun _ => 0) (fun taken _ => taken) (fun _ => 0) where
  empty := rfl
  attempt l outcome := by cases outcome <;> exact (UInt64.add_zero _).symm
  sidecars l taken refused := rfl
  arrival l result := counter_observeArrival _ l result fun _ _ _ => rfl

theorem countsBy_sidecarFailures :
    CountsBy sidecarFailures (fun _ => 0) (fun _ refused => refused) (fun _ => 0) where
  empty := rfl
  attempt l outcome := by cases outcome <;> exact (UInt64.add_zero _).symm
  sidecars l taken refused := rfl
  arrival l result := counter_observeArrival _ l result fun _ _ _ => rfl

end Ledger

/-- Whether an arrival is now on record, as timely or as late. -/
def ArrivalResult.isRecorded (timely : Bool) : ArrivalResult → Bool
  | recorded arrival => arrival.timely == timely
  | _ => false

namespace Ledger

theorem countsBy_timelyBlocks :
    CountsBy timelyBlocks (fun _ => 0) (fun _ _ => 0) (fun result => (result.isRecorded true).toNat) where
  empty := rfl
  attempt l outcome := by cases outcome <;> exact (UInt64.add_zero _).symm
  sidecars l taken refused := (UInt64.add_zero _).symm
  arrival l result := by
    rcases result with ⟨slot, _ | _, offset⟩ | _ | _ <;> first | rfl | exact (UInt64.add_zero _).symm

theorem countsBy_lateBlocks :
    CountsBy lateBlocks (fun _ => 0) (fun _ _ => 0) (fun result => (result.isRecorded false).toNat) where
  empty := rfl
  attempt l outcome := by cases outcome <;> exact (UInt64.add_zero _).symm
  sidecars l taken refused := (UInt64.add_zero _).symm
  arrival l result := by
    rcases result with ⟨slot, _ | _, offset⟩ | _ | _ <;> first | rfl | exact (UInt64.add_zero _).symm

theorem countsBy_futureArrivals :
    CountsBy futureArrivals (fun _ => 0) (fun _ _ => 0) (fun result => (result == .future).toNat) where
  empty := rfl
  attempt l outcome := by cases outcome <;> exact (UInt64.add_zero _).symm
  sidecars l taken refused := (UInt64.add_zero _).symm
  arrival l result := by
    rcases result with ⟨slot, _ | _, offset⟩ | _ | _ <;> first | rfl | exact (UInt64.add_zero _).symm

end Ledger

/-! ## Moments -/

/-- What came of an arrival. -/
def TrackerReply.result? : TrackerReply → Option ArrivalResult
  | arrived result => some result
  | _ => none

namespace Node

/-- What duty metrics have heard, one attempt after the other. -/
def heard (n : Node) : List Outcome := dutyHeard n.happened

/-- What came of the arrivals, oldest first. -/
def arrivals (n : Node) : List ArrivalResult := n.replies.filterMap TrackerReply.result?

end Node

theorem sum_adds_attempt (counts : Outcome → Bool) (past : List Event) :
    (past.map (Event.adds (fun outcome => (counts outcome).toNat) fun _ _ => 0)).sum
      = (dutyHeard past).countP counts := by
  induction past with
  | nil => rfl
  | cons e past ih =>
      rw [List.map_cons, List.sum_cons, ih]
      have hnothing : 0 + (dutyHeard past).countP counts = (dutyHeard past).countP counts := Nat.zero_add _
      cases e with
      | issued c => exact hnothing
      | crashed c crash => exact hnothing
      | answered c answer =>
          cases c with
          | reportDuty block outcome =>
              show (counts outcome).toNat + _ = (outcome :: dutyHeard past).countP counts
              rw [List.countP_cons]
              cases counts outcome <;> simp [Nat.add_comm]
          | _ => exact hnothing

theorem sum_adds_arrival (counts : ArrivalResult → Bool) (replies : List TrackerReply) :
    (replies.map (TrackerReply.adds fun result => (counts result).toNat)).sum
      = (replies.filterMap TrackerReply.result?).countP counts := by
  induction replies with
  | nil => rfl
  | cons reply replies ih =>
      rw [List.map_cons, List.sum_cons, ih]
      cases reply with
      | arrived result =>
          show (counts result).toNat + _ = (result :: replies.filterMap TrackerReply.result?).countP counts
          rw [List.countP_cons]
          cases counts result <;> simp [Nat.add_comm]
      | _ => exact Nat.zero_add _

theorem sum_adds_nothing (past : List Event) : (past.map (Event.adds (fun _ => 0) fun _ _ => 0)).sum = 0 :=
  (sum_adds_attempt (fun _ => false) past).trans (List.countP_eq_zero.mpr fun _ _ => Bool.false_ne_true)

theorem sum_adds_no_arrival (replies : List TrackerReply) :
    (replies.map (TrackerReply.adds fun _ => 0)).sum = 0 :=
  (sum_adds_arrival (fun _ => false) replies).trans (List.countP_eq_zero.mpr fun _ _ => Bool.false_ne_true)

namespace Node.Run

variable {others : Nat → Collaborators} {publisher : Publisher} {requests : List Request} {tracker : Tracker}
  {n : Node}

/-- **At every moment, every outcome that duty metrics have heard is counted once.** -/
theorem heard_counted (run : Run others (.start publisher requests tracker) n) :
    n.ledger.publishAttempts = .ofNat n.heard.length ∧
      ∀ outcome, outcome ≠ .notAttempted →
        n.ledger.ofOutcome outcome = .ofNat (n.heard.countP (· == outcome)) := by
  refine ⟨?_, ?_⟩
  · rw [run.counter_eq Ledger.countsBy_publishAttempts, sum_adds_no_arrival, Nat.add_zero]
    have hall := sum_adds_attempt (fun _ => true) n.happened
    rw [List.countP_true] at hall
    exact congrArg UInt64.ofNat hall
  · intro outcome h
    have hcount := run.counter_eq (Ledger.countsBy_ofOutcome h)
    rw [sum_adds_no_arrival, Nat.add_zero, sum_adds_attempt] at hcount
    exact hcount

/-- At every moment, the ledger has heard as much of sidecars as it was told. -/
theorem sidecars_counted (run : Run others (.start publisher requests tracker) n) :
    n.ledger.sidecarsPublished = .ofNat (n.happened.map Event.countedTaken).sum ∧
      n.ledger.sidecarFailures = .ofNat (n.happened.map Event.countedRefused).sum := by
  have htaken : Event.adds (fun _ => 0) (fun taken _ => taken) = Event.countedTaken := by
    funext e
    cases e with
    | answered c answer => cases c <;> rfl
    | _ => rfl
  have hrefused : Event.adds (fun _ => 0) (fun _ refused => refused) = Event.countedRefused := by
    funext e
    cases e with
    | answered c answer => cases c <;> rfl
    | _ => rfl
  refine ⟨?_, ?_⟩
  · rw [run.counter_eq Ledger.countsBy_sidecarsPublished, sum_adds_no_arrival, Nat.add_zero, htaken]
  · rw [run.counter_eq Ledger.countsBy_sidecarFailures, sum_adds_no_arrival, Nat.add_zero, hrefused]

end Node.Run

/-- The ledger has counted every arrival that was judged, and every one that came too early. -/
structure Node.ArrivalsCounted (n : Node) : Prop where
  timely : n.ledger.timelyBlocks = .ofNat (n.arrivals.countP (ArrivalResult.isRecorded true))
  late : n.ledger.lateBlocks = .ofNat (n.arrivals.countP (ArrivalResult.isRecorded false))
  future : n.ledger.futureArrivals = .ofNat (n.arrivals.countP (· == .future))

/-- **At every moment, every arrival is counted once.** -/
theorem Node.Run.arrivalsCounted {others : Nat → Collaborators} {publisher : Publisher} {requests : List Request}
    {tracker : Tracker} {n : Node} (run : Run others (.start publisher requests tracker) n) :
    n.ArrivalsCounted := by
  refine ⟨?_, ?_, ?_⟩
  · rw [run.counter_eq Ledger.countsBy_timelyBlocks, sum_adds_nothing, Nat.zero_add, sum_adds_arrival, arrivals]
  · rw [run.counter_eq Ledger.countsBy_lateBlocks, sum_adds_nothing, Nat.zero_add, sum_adds_arrival, arrivals]
  · rw [run.counter_eq Ledger.countsBy_futureArrivals, sum_adds_nothing, Nat.zero_add, sum_adds_arrival, arrivals]

/-! ## Rest -/

/-- The attempt has got no further than its import. -/
def Attempt.IsPending (a : Attempt) : Prop := ∀ e ∈ a.past, e.call.isImport ∨ e.call.isNotice

theorem Attempt.IsPending.dutyHeard {a : Attempt} (h : a.IsPending) : dutyHeard a.past = [] := by
  apply List.filterMap_eq_nil_iff.mpr
  intro e he
  cases e with
  | answered c answer =>
      rcases h _ he with himport | hnotice
      · cases c <;> first | rfl | cases himport
      · cases c <;> first | rfl | cases hnotice
  | _ => rfl

theorem Attempt.IsPending.sidecarsCounted {a : Attempt} (h : a.IsPending) : SidecarsCounted a.past := by
  apply SidecarsCounted.of_idle
  intro e he
  rcases h e he with himport | hnotice
  · cases hc : e.call <;> rw [hc] at himport <;> first | rfl | cases himport
  · cases hc : e.call <;> rw [hc] at hnotice <;> first | rfl | cases hnotice

namespace Node

/-- The attempts that have been completed. -/
def completed (n : Node) : List Attempt := n.attempts.filter (·.isSettled)

/-- No attempt is between its import and its end. -/
def AtRest (n : Node) : Prop := ∀ a ∈ n.attempts, a.isSettled ∨ a.IsPending

/-- No caller has left an attempt in which somebody broke down. -/
def LosesNothing (n : Node) : Prop := ∀ a ∈ n.attempts, ¬ a.IsLost

end Node

/-- Counting in a list of lists that are single where they matter, and empty elsewhere. -/
theorem countP_flatMap_of_single {α β : Type} {xs : List α} {f : α → List β} {keep q : α → Bool}
    {p : β → Bool} (h : ∀ x ∈ xs, (keep x = true ∧ ∃ b, f x = [b] ∧ q x = p b) ∨ (keep x = false ∧ f x = [])) :
    (xs.flatMap f).countP p = (xs.filter keep).countP q := by
  induction xs with
  | nil => rfl
  | cons x xs ih =>
      have hrest := ih fun y hy => h y (List.mem_cons_of_mem x hy)
      rw [List.flatMap_cons, List.countP_append, hrest, List.filter_cons]
      rcases h x List.mem_cons_self with ⟨hkeep, b, hf, hq⟩ | ⟨hkeep, hf⟩
      · rw [if_pos hkeep, hf, List.countP_singleton, List.countP_cons, hq, Nat.add_comm]
      · rw [if_neg (by rw [hkeep]; exact Bool.false_ne_true), hf, List.countP_nil, Nat.zero_add]

theorem SidecarsCounted.flatMap {attempts : List Attempt} (h : ∀ a ∈ attempts, SidecarsCounted a.past) :
    SidecarsCounted (attempts.flatMap (·.past)) := by
  induction attempts with
  | nil => exact ⟨rfl, rfl⟩
  | cons a attempts ih =>
      exact (h a List.mem_cons_self).append (ih fun b hb => h b (List.mem_cons_of_mem a hb))

namespace Node.Run

variable {others : Nat → Collaborators} {publisher : Publisher} {requests : List Request} {tracker : Tracker}
  {n : Node}

/-- **At rest, what is counted of reports is counted of completed attempts.** -/
theorem countP_heard (run : Run others (.start publisher requests tracker) n)
    (answers : ∀ i, (others i).GossipAnswers) (rest : n.AtRest) (kept : n.LosesNothing)
    {counts : Outcome → Bool} {completes : Attempt → Bool}
    (h : ∀ a result, a.cameTo? = some result → dutyHeard a.past = [result.outcome] →
      completes a = counts result.outcome) :
    n.heard.countP counts = n.completed.countP completes := by
  have hheard : n.heard = n.attempts.flatMap fun a => dutyHeard a.past := List.filterMap_flatMap
  rw [hheard]
  apply countP_flatMap_of_single
  intro a ha
  obtain ⟨i, here⟩ := List.mem_iff_getElem?.mp ha
  obtain ⟨l, hsystem, -⟩ := run.system
  cases hsettled : a.isSettled with
  | true =>
      obtain ⟨result, came, hduty⟩ := hsystem.reports_result here (answers i).dependable hsettled (kept a ha)
      exact Or.inl ⟨rfl, result.outcome, hduty, h a result came hduty⟩
  | false =>
      have pending := (rest a ha).resolve_left (by rw [hsettled]; exact Bool.false_ne_true)
      exact Or.inr ⟨rfl, pending.dutyHeard⟩

/-- **At rest, the ledger has heard of every sidecar what gossip said of it.** -/
theorem sidecarsCounted (run : Run others (.start publisher requests tracker) n)
    (answers : ∀ i, (others i).GossipAnswers) (counts : ∀ r, publisher.Counts r) (rest : n.AtRest) :
    SidecarsCounted n.happened := by
  apply SidecarsCounted.flatMap
  intro a ha
  obtain ⟨i, here⟩ := List.mem_iff_getElem?.mp ha
  obtain ⟨l, hsystem, -⟩ := run.system
  obtain ⟨other, hcall, -, hcourse⟩ := hsystem.onCourse here
  rcases rest a ha with settled | pending
  · have hcounts : other.Counts a.request := by
      rw [List.getElem?_map, Option.map_eq_some_iff] at hcall
      obtain ⟨r, -, hpair⟩ := hcall
      cases hpair
      exact counts _
    exact hcourse.sidecarsCounted settled (answers i) hcounts
  · exact pending.sidecarsCounted

end Node.Run

/-! ## Conservation -/

namespace PublishResult

/-- Gossip took every message. -/
def isFull : PublishResult → Bool
  | .ok publication => !publication.delivery.isPartial
  | .error _ => false

/-- The block was imported, and gossip did not take every message. -/
def isInPart : PublishResult → Bool
  | .ok publication => publication.delivery.isPartial
  | .error _ => false

def isImportFailure : PublishResult → Bool
  | .ok _ => false
  | .error failure => failure.isImportFailure

def isValidationFailure : PublishResult → Bool
  | .ok _ => false
  | .error failure => failure.isValidationFailure

/-- Each outcome stands for one kind of result. -/
theorem outcome_kinds (result : PublishResult) :
    isFull result = (result.outcome == .published) ∧ isInPart result = (result.outcome == .partiallyPublished) ∧
      isImportFailure result = (result.outcome == .importFailed) ∧
      isValidationFailure result = (result.outcome == .validationFailed) := by
  cases result with
  | error failure => cases failure <;> exact ⟨rfl, rfl, rfl, rfl⟩
  | ok publication =>
      simp only [isFull, isInPart, isImportFailure, isValidationFailure, PublishResult.outcome]
      cases publication.delivery.isPartial <;> exact ⟨rfl, rfl, rfl, rfl⟩

end PublishResult

/-- All that duty metrics have heard of the attempt is that it was not made. -/
def Attempt.heardNotAttempted (a : Attempt) : Bool := dutyHeard a.past == [.notAttempted]

/-- The counters of attempts and sidecars say what has come of the attempts, around the end of the word. -/
structure Node.Balanced (n : Node) : Prop where
  attempts : n.ledger.publishAttempts = .ofNat n.completed.length
  sum : n.ledger.publishAttempts = n.ledger.blocksPublished + n.ledger.partialPublishes + n.ledger.importFailures +
    n.ledger.validationFailures + .ofNat (n.completed.countP Attempt.heardNotAttempted)
  published : n.ledger.blocksPublished = .ofNat (n.completed.countP (·.cameTo?.any PublishResult.isFull))
  inPart : n.ledger.partialPublishes = .ofNat (n.completed.countP (·.cameTo?.any PublishResult.isInPart))
  importFailed :
    n.ledger.importFailures = .ofNat (n.completed.countP (·.cameTo?.any PublishResult.isImportFailure))
  validationFailed :
    n.ledger.validationFailures = .ofNat (n.completed.countP (·.cameTo?.any PublishResult.isValidationFailure))
  sidecarsTaken : n.ledger.sidecarsPublished = .ofNat (n.happened.countP Event.takesSidecar)
  sidecarsRefused : n.ledger.sidecarFailures = .ofNat (n.happened.countP Event.refusesSidecar)

/-- Nothing is counted of an arrival whose root was on record, nor of pruning and queries. -/
structure Node.CountsNothingElse (n : Node) : Prop where
  alreadyRecorded : ∀ block time, (n.tracker.arrive block time).2 = .alreadyRecorded →
    (n.take (.arrive block time)).ledger = n.ledger
  /-- A call that is no arrival prunes or asks. -/
  elsewhere : ∀ call, (∀ block time, call ≠ .arrive block time) → (n.take call).ledger = n.ledger

theorem Node.countsNothingElse (n : Node) : n.CountsNothingElse := by
  refine ⟨?_, ?_⟩
  · intro block time h
    show n.ledger.observeArrival (n.tracker.arrive block time).2 = n.ledger
    rw [h]
    rfl
  · intro call h
    cases call with
    | arrive block time => exact absurd rfl (h block time)
    | _ => rfl

/-- Every outcome is one of five. -/
theorem length_eq_countP_outcomes (outcomes : List Outcome) :
    outcomes.length = outcomes.countP (· == .published) + outcomes.countP (· == .partiallyPublished) +
      outcomes.countP (· == .importFailed) + outcomes.countP (· == .validationFailed) +
      outcomes.countP (· == .notAttempted) := by
  induction outcomes with
  | nil => rfl
  | cons outcome outcomes ih =>
      simp only [List.length_cons, List.countP_cons, ih]
      cases outcome <;> simp <;> omega

/-- **At rest the ledger is balanced**, if nothing was lost. -/
theorem Node.Run.balanced {others : Nat → Collaborators} {publisher : Publisher} {requests : List Request}
    {tracker : Tracker} {n : Node} (run : Run others (.start publisher requests tracker) n)
    (answers : ∀ i, (others i).GossipAnswers) (counts : ∀ r, publisher.Counts r) (rest : n.AtRest)
    (kept : n.LosesNothing) : n.Balanced := by
  obtain ⟨hattempts, houtcomes⟩ := run.heard_counted
  obtain ⟨htaken, hrefused⟩ := run.sidecars_counted
  have hsidecars := run.sidecarsCounted answers counts rest
  -- each counter of an outcome counts the results of its kind
  have hkind (outcome : Outcome) {kind : PublishResult → Bool} (hmade : outcome ≠ .notAttempted)
      (hkind : ∀ result, kind result = (result.outcome == outcome)) :
      n.ledger.ofOutcome outcome = .ofNat (n.completed.countP (·.cameTo?.any kind)) := by
    rw [houtcomes outcome hmade]
    refine congrArg UInt64.ofNat (run.countP_heard answers rest kept fun a result came _ => ?_)
    rw [came, Option.any_some, hkind]
  have hnotAttempted : n.heard.countP (· == .notAttempted) = n.completed.countP Attempt.heardNotAttempted := by
    refine run.countP_heard answers rest kept fun a result _ hduty => ?_
    rw [Attempt.heardNotAttempted, hduty]
    cases result.outcome <;> rfl
  refine ⟨?_, ?_, ?_, ?_, ?_, ?_, ?_, ?_⟩
  · have hall : n.heard.countP (fun _ => true) = n.completed.countP (fun _ => true) :=
      run.countP_heard answers rest kept fun _ _ _ _ => rfl
    rw [List.countP_true, List.countP_true] at hall
    rw [hattempts, hall]
  · have hblocks := houtcomes .published (by decide)
    have hpartial := houtcomes .partiallyPublished (by decide)
    have himport := houtcomes .importFailed (by decide)
    have hvalidation := houtcomes .validationFailed (by decide)
    simp only [Ledger.ofOutcome] at hblocks hpartial himport hvalidation
    rw [hattempts, hblocks, hpartial, himport, hvalidation, ← hnotAttempted, length_eq_countP_outcomes]
    simp only [UInt64.ofNat_add]
  · exact hkind .published (by decide) fun result => result.outcome_kinds.1
  · exact hkind .partiallyPublished (by decide) fun result => result.outcome_kinds.2.1
  · exact hkind .importFailed (by decide) fun result => result.outcome_kinds.2.2.1
  · exact hkind .validationFailed (by decide) fun result => result.outcome_kinds.2.2.2
  · rw [htaken, hsidecars.taken]
  · rw [hrefused, hsidecars.refused]

/-- The pipelines of a selector that was set up to count do so. -/
theorem Selector.counts_of_built {setup : Collaborators} {settings : Settings} {clock? : Option SlotClock}
    {before : List Event} {selector : Selector}
    (built : ((ofSettings settings clock? true).complete setup before).1 = .returned (.ok selector)) (r : Request) :
    (Publisher.selector selector).Counts r := by
  obtain ⟨valid, rfl⟩ := eq_of_complete_ofSettings built
  intro p takes
  cases (Settings.pipeline?_selector valid clock? true r.block).symm.trans takes
  cases settings.forkSchedule.milestoneAt r.block.slot <;> rfl

/-- **The ledger adds up.** A selector that was set up to count, duty metrics and a tracker share one fresh ledger,
    and are called in any order. At every moment every arrival is counted once, and nothing is counted of arrivals on
    record, of pruning and of queries. Once no attempt is between its import and its end, the counters of attempts
    and sidecars are those of the completed attempts, if no caller has left one in which somebody broke down. -/
theorem Node.Run.conserves {setup : Collaborators} {settings : Settings} {clock? : Option SlotClock}
    {before : List Event} {selector : Selector}
    (built : ((Selector.ofSettings settings clock? true).complete setup before).1 = .returned (.ok selector))
    {others : Nat → Collaborators} (answers : ∀ i, (others i).GossipAnswers) {requests : List Request}
    {tracker : Tracker} {n : Node} (run : Run others (.start (.selector selector) requests tracker) n) :
    n.ArrivalsCounted ∧ n.CountsNothingElse ∧ (n.AtRest → n.LosesNothing → n.Balanced) :=
  ⟨run.arrivalsCounted, n.countsNothingElse, run.balanced answers (Selector.counts_of_built built)⟩

/-- A node that publishes a block without its blob and sees another arrive before its slot has begun. -/
theorem conserves_when_refused :
    ∃ (selector : Selector) (n : Node),
      ((Selector.ofSettings { forkSchedule := .genesis .deneb } none true).complete (.willing .standard) []).1
        = .returned (.ok selector) ∧
      (Collaborators.refusing 0).GossipAnswers ∧
      Node.Run (fun _ => .refusing 0) (.start (.selector selector) [.oneBlob] (.ofSettings 8 6 {})) n ∧
      n.AtRest ∧ n.LosesNothing ∧ n.ArrivalsCounted ∧ n.Balanced ∧
      n.ledger.publishAttempts = 1 ∧ n.ledger.partialPublishes = 1 ∧ n.ledger.sidecarFailures = 1 ∧
      n.ledger.futureArrivals = 1 := by
  let selector := Settings.selector { forkSchedule := .genesis .deneb } none true
  have built : ((Selector.ofSettings { forkSchedule := .genesis .deneb } none true).complete
      (.willing .standard) []).1 = .returned (.ok selector) := rfl
  have answers : (Collaborators.refusing 0).GossipAnswers := (Collaborators.refusing_steady 0).crashOnlyOn
  obtain ⟨s, published, hs⟩ := System.exists_run_oneBlob (.selector selector) rfl true
  have start : Node.Run (fun _ => .refusing 0)
      (.start (.selector selector) [.oneBlob] (.ofSettings 8 6 {})) _ := .refl _
  obtain ⟨m, run, hm, htracker, hreplies⟩ := start.thenSystem published
  have arrived := run.tail (.call m (.arrive Request.blank.block 0))
  have hattempts : (m.take (.arrive Request.blank.block 0)).attempts = [.oneBlob true] := hm.trans hs
  have rest : (m.take (.arrive Request.blank.block 0)).AtRest := by
    intro a ha
    rw [hattempts] at ha
    cases List.mem_singleton.mp ha
    exact Or.inl rfl
  have kept : (m.take (.arrive Request.blank.block 0)).LosesNothing := by
    intro a ha
    rw [hattempts] at ha
    cases List.mem_singleton.mp ha
    rintro ⟨hgone, -⟩
    cases hgone
  obtain ⟨harrivals, -, hbalanced⟩ := Node.Run.conserves built (fun _ => answers) arrived
  have balanced := hbalanced rest kept
  refine ⟨selector, _, built, answers, arrived, rest, kept, harrivals, balanced, ?_, ?_, ?_, ?_⟩
  · rw [balanced.attempts, Node.completed, hattempts]
    rfl
  · rw [balanced.inPart, Node.completed, hattempts]
    rfl
  · rw [balanced.sidecarsRefused, Node.happened, hattempts]
    rfl
  · have hreply : (m.take (.arrive Request.blank.block 0)).replies = [.arrived .future] := by
      show m.replies ++ [(m.tracker.serve (.arrive Request.blank.block 0)).2] = _
      rw [hreplies, htracker]
      rfl
    rw [harrivals.future, Node.arrivals, hreply]
    rfl

end BeaconBroadcast
