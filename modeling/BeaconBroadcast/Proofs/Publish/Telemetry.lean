import BeaconBroadcast.Proofs.Publish.Reference

/-!
# `BeaconBroadcast.Proofs.Publish.Telemetry` — when the listeners hear of an attempt

Two parties share the duty of reporting an attempt: its task, which reports when it is through, and its
caller, who reports in the place of a task that broke off. Between them every attempt is reported exactly
once, but for one case: the task breaks off after the caller has left, and then nobody reports it.

## Contents
- **Reports.** `reportsIn`, `Attempt.ReportedOnce` and `Attempt.IsLost`.
- **Crashes.** A history has a crash in it exactly if it ends in one.
- **Accounts.** What passes the ports before the report is no report.
- **Attempts.** `Attempt.Ending.reported_once` and `reportsIn_run`; for runs of a system, which attempts are
  reported, with one that is and one that is lost.
-/

namespace BeaconBroadcast

open Program

variable {p : Pipeline} {r : Request} {past events : List Event}

/-! ## Reports -/

/-- The calls to duty metrics and to performance tracking, oldest first. -/
def reportsIn (past : List Event) : List Call := (callsIn past).filter Call.isReport

theorem reportsIn_append (first second : List Event) :
    reportsIn (first ++ second) = reportsIn first ++ reportsIn second := by
  unfold reportsIn
  rw [callsIn_append, List.filter_append]

theorem reportsIn_eq_nil (h : ∀ e ∈ past, e.call.isReport = false) : reportsIn past = [] := by
  apply List.filter_eq_nil_iff.mpr
  intro c hc
  have hcall : c.isReport = false := h _ (mem_callsIn.mp hc)
  rw [hcall]
  exact Bool.false_ne_true

/-- Reports pass a port. -/
theorem reportsIn_portEvents (past : List Event) : reportsIn (portEvents past) = reportsIn past := by
  refine filter_callsIn_filter ?_ past
  intro c hc
  cases c <;> first | rfl | cases hc

/-- Duty metrics have heard of the attempt exactly once, performance tracking has heard of it exactly once,
    and both have heard the same. -/
def Attempt.ReportedOnce (a : Attempt) : Prop :=
  ∃ outcome, reportsIn a.past
    = [.reportDuty a.request.block outcome, .reportPerformance a.request.block outcome]

/-- Whether somebody broke down. -/
def Event.isCrash : Event → Bool
  | .crashed .. => true
  | _ => false

/-- The caller has left and somebody broke down. -/
def Attempt.IsLost (a : Attempt) : Prop := a.caller = .gone ∧ a.past.any Event.isCrash

/-! ## Crashes -/

/-- A history has a crash in it exactly if it ends in one. -/
theorem Program.Story.any_isCrash_iff {α : Type} {fallible : Call → Prop} {work : Program α}
    {done : Progress α} (h : work.Story fallible events done) :
    events.any Event.isCrash ↔ ∃ crash, done = .crashed crash := by
  induction h with
  | returned a =>
      constructor
      · intro h
        cases h
      · rintro ⟨crash, hdone⟩
        cases hdone
  | crashed next crash may => exact iff_of_true rfl ⟨crash, rfl⟩
  | answered a rest ih => exact ih

/-! ## Accounts -/

theorem isReport_of_mem_exchange {c : Call} {reply : Except Crash c.Answer} {e : Event}
    (hc : c.isReport = false) (he : e ∈ exchange c reply) : e.call.isReport = false := by
  rcases mem_exchange.mp he with rfl | rfl
  · exact hc
  · cases reply <;> exact hc

theorem isReport_of_mem_sidecarExchanges {replies : Nat → GossipReply} {sidecars : List BlobSidecar}
    {e : Event} (he : e ∈ sidecarExchanges replies sidecars) : e.call.isReport = false := by
  induction sidecars generalizing replies with
  | nil => cases he
  | cons sidecar sidecars ih =>
      rcases List.mem_append.mp he with he | he
      · exact isReport_of_mem_exchange rfl he
      · split at he
        · cases he
        · exact ih he

theorem isReport_of_mem_broadcastExchanges {replies : Replies} {e : Event}
    (he : e ∈ p.broadcastExchanges r replies) : e.call.isReport = false := by
  rcases List.mem_append.mp he with he | he
  · rcases List.mem_append.mp he with he | he
    · exact isReport_of_mem_exchange rfl he
    · split at he
      · cases he
      · exact isReport_of_mem_sidecarExchanges he
  · split at he
    · cases he
    · cases hgrid : p.grid? with
      | none => rw [hgrid] at he; cases he
      | some grid => rw [hgrid] at he; exact isReport_of_mem_exchange rfl he

/-- After the import there is a broadcast or nothing. -/
theorem accountAfterImport_exchanges (p : Pipeline) (r : Request) (name : String) (replies : Replies) :
    (p.accountAfterImport r name replies).exchanges = [] ∨
      (p.accountAfterImport r name replies).exchanges = p.broadcastExchanges r replies := by
  unfold Pipeline.accountAfterImport
  split
  · exact Or.inl rfl
  · exact Or.inl rfl
  · next imported _ =>
      split
      · apply Or.inr
        unfold Pipeline.broadcastAccount
        cases p.broadcastCrash? r replies <;> rfl
      · exact Or.inl rfl
  · exact Or.inl rfl
  · exact Or.inl rfl
  · exact Or.inl rfl

/-- **What passes the ports before the report is no report.** -/
theorem reportsIn_account (p : Pipeline) (r : Request) (name : String) (replies : Replies) :
    reportsIn (p.account r name replies).exchanges = [] := by
  unfold Pipeline.account
  split
  · rfl
  · have himport : reportsIn (p.variant.importExchange r replies.toImport) = [] := by
      apply reportsIn_eq_nil
      intro e he
      cases hv : p.variant <;> rw [hv] at he <;> exact isReport_of_mem_exchange rfl he
    rw [reportsIn_append, himport, List.nil_append]
    rcases accountAfterImport_exchanges p r name replies with h | h
    · rw [h]
      rfl
    · rw [h]
      exact reportsIn_eq_nil fun e he => isReport_of_mem_broadcastExchanges he

/-! ## Attempts -/

/-- What the listeners hear when an attempt is reported after `exchanges` that hold no report. -/
theorem reportsIn_reported {exchanges : List Event} {block : SignedBlock} {outcome : Outcome}
    (hexchanges : reportsIn exchanges = [])
    (hevents : portEvents events = exchanges ++ reported block outcome) :
    reportsIn events = [.reportDuty block outcome, .reportPerformance block outcome] := by
  rw [← reportsIn_portEvents, hevents, reportsIn_append, hexchanges]
  rfl

/-- **An awaited attempt is reported exactly once.** -/
theorem Attempt.Ending.reported_once {publisher : Publisher} {name : String} {done : Progress PublishResult}
    (h : Ending (fun c => c.canCrash) publisher r name events done) :
    ∃ outcome, reportsIn events = [.reportDuty r.block outcome, .reportPerformance r.block outcome] := by
  cases hpipeline : publisher.pipeline? r with
  | some p =>
      obtain ⟨replies, -, hevents⟩ := h.matches_account hpipeline
      exact ⟨_, reportsIn_reported (reportsIn_account p r name replies) hevents⟩
  | none =>
      cases h with
      | direct dispatched story =>
          obtain ⟨-, milestone, rfl⟩ := Publisher.of_dispatch_direct dispatched
          have hevents : portEvents events = [] ++ reported r.block .notAttempted :=
            (notAttempted_story story).1
          exact ⟨.notAttempted, reportsIn_reported rfl hevents⟩
      | returned dispatched story =>
          obtain ⟨q, hq, -⟩ := Publisher.of_dispatch_task dispatched
          cases hpipeline.symm.trans hq
      | takenOver dispatched broke story =>
          obtain ⟨q, hq, -⟩ := Publisher.of_dispatch_task dispatched
          cases hpipeline.symm.trans hq

/-- **A task that nobody waits for is reported exactly once if nobody breaks down, and not at all
    otherwise.** -/
theorem reportsIn_run {done : Progress PublishResult} (name : String)
    (h : PortStory (p.run r.block r.sidecars r.level) events done) :
    (∃ crash, done = .crashed crash ∧ reportsIn events = []) ∨
    (∃ result, done = .returned result) ∧ ∃ outcome,
      reportsIn events = [.reportDuty r.block outcome, .reportPerformance r.block outcome] := by
  obtain ⟨replies, hstory⟩ := run_taskStory name h
  have hnone := reportsIn_account p r name replies
  cases hstory with
  | @brokeOff crash _ broke =>
      rw [broke] at hnone
      refine Or.inl ⟨crash, rfl, ?_⟩
      rw [← reportsIn_portEvents]
      exact hnone
  | returned reports => exact Or.inr ⟨⟨_, rfl⟩, _, reportsIn_reported hnone reports⟩

variable {calls : List (Publisher × Request)} {others : Nat → Collaborators} {counted : Bool}

/-- **An attempt of which nothing is left to run has been reported exactly once, unless its caller left and
    somebody broke down; then nobody has reported it.** -/
theorem System.Run.reportedOnce_iff (dependable : ∀ i, (others i).Dependable) {s : System}
    (run : Run others counted (.start calls) s) {i : Nat} {a : Attempt} (here : s.attempts[i]? = some a)
    (settled : a.isSettled) :
    (a.ReportedOnce ↔ ¬ a.IsLost) ∧ (a.IsLost → reportsIn a.past = []) := by
  obtain ⟨htask, hcaller⟩ := Bool.and_eq_true_iff.mp settled
  cases hwhere : a.caller with
  | waiting => rw [hwhere] at hcaller; cases hcaller
  | acting work =>
      rw [hwhere] at hcaller
      -- the caller saw to the report itself, or the task did before it returned
      have hnot : ¬ a.IsLost := fun h => by cases hwhere.symm.trans h.1
      have hreported : a.ReportedOnce := by
        obtain ⟨publisher, -, hending⟩ := run.ending here (dependable i) hwhere hcaller
        exact hending.reported_once
      exact ⟨iff_of_true hreported hnot, fun h => absurd h hnot⟩
  | gone =>
      -- nobody takes over for a task that nobody waits for, so its own history is all there is
      obtain ⟨publisher, -, -, hcourse⟩ := run.onCourse here
      obtain ⟨whole, work, dispatched, hwhole⟩ :=
        hcourse.complete_eq hwhere fun work hwork => (Option.all_eq_true _ _).mp htask work hwork
      obtain ⟨p, -, rfl⟩ := Publisher.of_dispatch_task dispatched
      obtain ⟨events, hpast, hstory⟩ := Program.complete_story (dependable i) _ []
      rw [hwhole] at hpast hstory
      cases hpast
      rcases reportsIn_run a.name hstory with ⟨crash, rfl, hnone⟩ | ⟨⟨result, rfl⟩, hreported⟩
      · have hlost : a.IsLost := ⟨hwhere, hstory.any_isCrash_iff.mpr ⟨crash, rfl⟩⟩
        refine ⟨iff_of_false ?_ (not_not_intro hlost), fun _ => hnone⟩
        rintro ⟨outcome, hreported⟩
        cases hnone.symm.trans hreported
      · have hnot : ¬ a.IsLost := by
          rintro ⟨-, hcrash⟩
          obtain ⟨crash, hdone⟩ := hstory.any_isCrash_iff.mp hcrash
          cases hdone
        exact ⟨iff_of_true hreported hnot, fun h => absurd h hnot⟩

/-- An attempt that goes on to its report after the caller has left. -/
theorem reportedOnce_after_leaving :
    ∃ (s : System) (a : Attempt),
      (∀ _ : Nat, (Collaborators.willing .standard).Dependable) ∧
      System.Run (fun _ => .willing .standard) false (.start [(.single { variant := .plain }, .blank)]) s ∧
      s.attempts[0]? = some a ∧ a.isSettled ∧ a.caller = .gone ∧ a.ReportedOnce := by
  have dependable (_ : Nat) := Collaborators.willing_dependable .standard
  have start : System.Run (fun _ => .willing .standard) false
      (.start [(.single { variant := .plain }, .blank)]) _ := .refl _
  have left := start.thenLeave 0 rfl rfl
  have imported := (((left.thenTask 0 rfl rfl rfl).thenTask 0 rfl rfl rfl).thenTask 0 rfl rfl
    rfl).thenTask 0 rfl rfl rfl
  have offered := (((imported.thenTask 0 rfl rfl rfl).thenTask 0 rfl rfl rfl).thenTask 0 rfl rfl
    rfl).thenTask 0 rfl rfl rfl
  have told := (((offered.thenTask 0 rfl rfl rfl).thenTask 0 rfl rfl rfl).thenTask 0 rfl rfl
    rfl).thenTask 0 rfl rfl rfl
  refine ⟨_, _, dependable, told, rfl, rfl, rfl,
    (told.reportedOnce_iff dependable (i := 0) rfl rfl).1.mpr ?_⟩
  rintro ⟨-, hcrash⟩
  cases hcrash

/-- Collaborators who let everything through but for gossip, which breaks down. -/
def Collaborators.failingAtGossip : Collaborators := fun past c =>
  match c with
  | .gossipBlock _ => .crash { message := none }
  | c => willing .standard past c

theorem Collaborators.failingAtGossip_dependable : failingAtGossip.Dependable := by
  intro past c hcrash
  cases c with
  | gossipBlock block => rfl
  | gossipSidecar sidecar => rfl
  | importBlock block level => rfl
  | importWithSidecars block sidecars level => rfl
  | readClock => rfl
  | reportDuty block outcome => cases hcrash
  | reportPerformance block outcome => cases hcrash
  | countSidecars taken refused => cases hcrash
  | notify notice => cases hcrash

/-- An attempt that breaks off after the caller has left, and that nobody reports. -/
theorem not_reportedOnce_after_leaving :
    Collaborators.failingAtGossip.Dependable ∧ ∃ (s : System) (a : Attempt),
      System.Run (fun _ => .failingAtGossip) false (.start [(.single { variant := .plain }, .blank)]) s ∧
      s.attempts[0]? = some a ∧ a.isSettled ∧ ¬ a.ReportedOnce := by
  have start : System.Run (fun _ => .failingAtGossip) false
      (.start [(.single { variant := .plain }, .blank)]) _ := .refl _
  have left := start.thenLeave 0 rfl rfl
  have imported := (((left.thenTask 0 rfl rfl rfl).thenTask 0 rfl rfl rfl).thenTask 0 rfl rfl
    rfl).thenTask 0 rfl rfl rfl
  have broken := (imported.thenTask 0 rfl rfl rfl).thenTask 0 rfl rfl rfl
  refine ⟨Collaborators.failingAtGossip_dependable, _, _, broken, rfl, rfl, ?_⟩
  rintro ⟨outcome, hreported⟩
  cases hreported

end BeaconBroadcast
