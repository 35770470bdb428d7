import BeaconBroadcast.Proofs.Publish.BlobContract
import BeaconBroadcast.Proofs.Publish.Settled
import BeaconBroadcast.Proofs.Publish.Telemetry

/-!
# `BeaconBroadcast.Proofs.Publish.Honesty` — when the listeners hear that something was published

The listeners hear of a publication whenever a block was offered to gossip, and a refusal of single messages
makes it a partial one. So what they hear agrees with what gossip took, but for one case: gossip was offered
the block and whatever goes with it, and took nothing at all.

## Contents
- **Gossip.** `Event.isTaken`; `Attempt.ReportedHonestly` and `Attempt.IsWhollyRefused`.
- **Accounts.** `Pipeline.published_takes`: an attempt that counts as published in full has had its block taken.
- **Stories.** A message is offered before it is taken, and a task that returns reports its own result.
- **Attempts.** `System.Run.reportedHonestly_iff`, with a request that gossip refuses altogether.
-/

namespace BeaconBroadcast

open Program

variable {p : Pipeline} {r : Request} {a : Attempt} {result : PublishResult} {events : List Event}

/-! ## Gossip -/

/-- Whether gossip took a message. -/
def Event.isTaken : Event → Bool
  | .answered (.gossipBlock _) (.ok ()) => true
  | .answered (.gossipSidecar _) (.ok ()) => true
  | _ => false

/-- What gossip takes was offered to it. -/
theorem Event.call_isGossip {e : Event} (h : e.isTaken) : e.call.isGossip := by
  unfold isTaken at h
  split at h
  · rfl
  · rfl
  · cases h

/-- Both listeners have heard of the attempt once, and they have heard that something was published exactly if
    gossip took some message. -/
def Attempt.ReportedHonestly (a : Attempt) : Prop :=
  ∃ outcome, reportsIn a.past
      = [.reportDuty a.request.block outcome, .reportPerformance a.request.block outcome] ∧
    (outcome.isPublished ↔ ∃ e ∈ a.past, e.isTaken)

/-- Gossip was offered something and took nothing. -/
def Attempt.IsWhollyRefused (a : Attempt) : Prop :=
  (∃ c ∈ callsIn a.past, c.isGossip) ∧ ¬ ∃ e ∈ a.past, e.isTaken

/-! ## Accounts -/

/-- What the caller gets and what the listeners hear are the same account. -/
theorem Pipeline.account_outcome (p : Pipeline) (r : Request) (name : String) (replies : Replies) :
    (p.account r name replies).result.outcome = (p.account r name replies).outcome := by
  unfold account
  cases p.variant.fault? r with
  | some fault => rfl
  | none =>
      show (p.accountAfterImport r name replies).result.outcome
        = (p.accountAfterImport r name replies).outcome
      unfold accountAfterImport
      split
      · rfl
      · rfl
      · next imported _ =>
          split
          · unfold broadcastAccount
            cases hcrash : p.broadcastCrash? r replies with
            | some crash => rfl
            | none => exact fullAccount_outcome hcrash
          · rfl
      · rfl
      · rfl
      · rfl

/-- A block that gossip takes leaves that behind. -/
theorem Pipeline.broadcastExchanges_takes {replies : Replies} (h : replies.toGossip.toBlock.isTaken) :
    ∃ e ∈ p.broadcastExchanges r replies, e.isTaken := by
  have hreply : replies.toGossip.toBlock = .ok (.ok ()) := by
    unfold GossipReply.isTaken at h
    split at h
    · assumption
    · cases h
  refine ⟨.answered (.gossipBlock r.block) (.ok ()), ?_, rfl⟩
  unfold broadcastExchanges GossipReplies.exchanges
  rw [hreply]
  simp [exchange, Event.replied]

/-- **An attempt that counts as published in full has had its block taken.** -/
theorem Pipeline.published_takes {name : String} {replies : Replies}
    (h : (p.account r name replies).outcome = .published) :
    ∃ e ∈ (p.account r name replies).exchanges, e.isTaken := by
  unfold account at h ⊢
  cases hfault : p.variant.fault? r with
  | some fault =>
      simp only [hfault] at h
      cases h
  | none =>
      simp only [hfault] at h ⊢
      have hrest : ∃ e ∈ (p.accountAfterImport r name replies).exchanges, e.isTaken := by
        unfold accountAfterImport at h ⊢
        split at h
        · cases h
        · cases h
        · next imported _ =>
            by_cases hlevel : r.level ≤ imported.validatedAt
            · simp only [if_pos hlevel, broadcastAccount] at h ⊢
              cases hcrash : p.broadcastCrash? r replies with
              | some crash =>
                  simp only [hcrash] at h
                  cases h
              | none =>
                  -- everything was taken, so the block was
                  simp only [hcrash, fullAccount] at h ⊢
                  split at h
                  · next hall =>
                      have htaken : replies.toGossip.toBlock.isTaken := (Bool.and_eq_true_iff.mp hall).1
                      exact broadcastExchanges_takes htaken
                  · cases h
            · simp only [if_neg hlevel] at h
              cases h
        · cases h
        · cases h
        · cases h
      obtain ⟨e, he, htaken⟩ := hrest
      exact ⟨e, List.mem_append_right _ he, htaken⟩

/-! ## Stories -/

/-- Whatever happens to a call, it was made. -/
theorem Program.Story.issued_mem {α : Type} {fallible : Call → Prop} {work : Program α}
    {done : Progress α} (h : work.Story fallible events done) {e : Event} (he : e ∈ events) :
    .issued e.call ∈ events := by
  induction h with
  | returned b => cases he
  | crashed next crash may =>
      rcases List.mem_cons.mp he with rfl | he
      · exact List.mem_cons_self
      · rw [List.mem_singleton.mp he]
        exact List.mem_cons_self
  | answered answer rest ih =>
      rcases List.mem_cons.mp he with rfl | he
      · exact List.mem_cons_self
      rcases List.mem_cons.mp he with rfl | he
      · exact List.mem_cons_self
      · exact List.mem_cons_of_mem _ (List.mem_cons_of_mem _ (ih he))

/-- Where gossip took something, it was offered something. -/
theorem Program.Story.offered_of_taken {α : Type} {fallible : Call → Prop} {work : Program α}
    {done : Progress α} (h : work.Story fallible events done) (htaken : ∃ e ∈ events, e.isTaken) :
    ∃ c ∈ callsIn events, c.isGossip := by
  obtain ⟨e, he, htaken⟩ := htaken
  exact ⟨e.call, mem_callsIn.mpr (h.issued_mem he), Event.call_isGossip htaken⟩

/-- No failure counts as a publication. -/
theorem PublishFailure.outcome_isPublished (failure : PublishFailure) :
    failure.outcome.isPublished = false := by
  cases failure <;> rfl

/-- Every publication counts as one, in full or in part. -/
theorem Publication.outcome_isPublished (publication : Publication) :
    (PublishResult.outcome (.ok publication)).isPublished := by
  show (if publication.delivery.isPartial then Outcome.partiallyPublished else .published).isPublished
  split
  · rfl
  · rfl

/-- An attempt counts as a publication exactly if something was offered to gossip. -/
theorem Pipeline.Sends.isPublished_iff {sent : List Call} (h : p.Sends r sent result) :
    result.outcome.isPublished ↔ ∃ c ∈ sent, c.isGossip := by
  cases h with
  | @nothing fault failure faulty =>
      have hoffered : ¬ ∃ c ∈ ([] : List Call), c.isGossip := by simp
      exact iff_of_false (by simp [PublishResult.outcome, failure.outcome_isPublished]) hoffered
  | @imported failure sound =>
      have hoffered : ¬ ∃ c ∈ [p.variant.importCall r], c.isGossip := by
        cases p.variant <;> simp [Variant.importCall, Call.isGossip]
      exact iff_of_false (by simp [PublishResult.outcome, failure.outcome_isPublished]) hoffered
  | @everything publication replies sound unbroken delivery =>
      refine iff_of_true publication.outcome_isPublished ⟨.gossipBlock r.block, ?_, rfl⟩
      exact List.mem_cons_of_mem _ List.mem_cons_self

/-- **What a task that returned leaves behind**: it reported its own result, and where that is a publication in
    full, gossip took something. -/
theorem Pipeline.run_reports
    (h : PortStory (p.run r.block r.sidecars r.level) events (.returned result)) :
    reportsIn events
        = [.reportDuty r.block result.outcome, .reportPerformance r.block result.outcome] ∧
      (result.outcome = .published → ∃ e ∈ events, e.isTaken) := by
  obtain ⟨replies, hstory⟩ := run_taskStory "" h
  generalize hdone : Progress.returned result = done at hstory
  cases hstory with
  | brokeOff broke => cases hdone
  | returned reports =>
      cases hdone
      rw [p.account_outcome r "" replies]
      refine ⟨reportsIn_reported (reportsIn_account p r "" replies) reports, ?_⟩
      intro hpublished
      obtain ⟨e, he, htaken⟩ := published_takes hpublished
      have hport : e ∈ portEvents events := by
        rw [reports]
        exact List.mem_append_left _ he
      exact ⟨e, (List.mem_filter.mp hport).1, htaken⟩

/-! ## Attempts -/

variable {calls : List (Publisher × Request)} {others : Nat → Collaborators} {counted : Bool}

/-- Where the listeners hear of a publication exactly if something was offered, they hear the truth unless it was
    all refused. -/
theorem Attempt.reportedHonestly_iff_of_offered {outcome : Outcome}
    (hreports : reportsIn a.past
      = [.reportDuty a.request.block outcome, .reportPerformance a.request.block outcome])
    (hpublished : outcome.isPublished ↔ ∃ c ∈ callsIn a.past, c.isGossip)
    (htaken : (∃ e ∈ a.past, e.isTaken) → ∃ c ∈ callsIn a.past, c.isGossip) :
    a.ReportedHonestly ↔ ¬ a.IsWhollyRefused := by
  constructor
  · rintro ⟨other, hother, honest⟩ ⟨hoffered, hnone⟩
    cases hreports.symm.trans hother
    exact hnone (honest.mp (hpublished.mpr hoffered))
  · intro hnot
    refine ⟨outcome, hreports, fun h => ?_, fun h => hpublished.mpr (htaken h)⟩
    exact Decidable.byContradiction fun hnone => hnot ⟨hpublished.mp h, hnone⟩

/-- **The listeners hear the truth, unless gossip refused everything it was offered.** Then they hear of a
    publication in part. -/
theorem System.Run.reportedHonestly_iff {s : System} (run : Run others counted (.start calls) s) {i : Nat}
    (here : s.attempts[i]? = some a) (steady : (others i).Steady) (settled : a.isSettled) :
    (a.ReportedHonestly ↔ ¬ a.IsWhollyRefused) ∧
      (a.IsWhollyRefused → reportsIn a.past = [.reportDuty a.request.block .partiallyPublished,
        .reportPerformance a.request.block .partiallyPublished]) := by
  obtain ⟨publisher, -, hstory⟩ := run.story_of_settled here steady settled
  generalize hpast : a.past = past at hstory
  cases hstory with
  | @ran p _ result takes story =>
      subst hpast
      obtain ⟨hreports, hfull⟩ := Pipeline.run_reports story
      have hpublished : result.outcome.isPublished ↔ ∃ c ∈ callsIn a.past, c.isGossip := by
        rw [(Pipeline.run_sends story).isPublished_iff]
        constructor
        · rintro ⟨c, hc, hgossip⟩
          exact ⟨c, (mem_channelCalls.mp hc).1, hgossip⟩
        · rintro ⟨c, hc, hgossip⟩
          exact ⟨c, mem_channelCalls.mpr ⟨hc, Or.inr hgossip⟩, hgossip⟩
      refine ⟨Attempt.reportedHonestly_iff_of_offered hreports hpublished story.offered_of_taken, ?_⟩
      rintro ⟨hoffered, hnone⟩
      have hsome := hpublished.mpr hoffered
      have hpartial : result.outcome = .partiallyPublished := by
        cases houtcome : result.outcome with
        | published => exact absurd (hfull houtcome) hnone
        | partiallyPublished => rfl
        | importFailed => rw [houtcome] at hsome; cases hsome
        | validationFailed => rw [houtcome] at hsome; cases hsome
        | notAttempted => rw [houtcome] at hsome; cases hsome
      rw [hreports, hpartial]
  | @turnedAway milestone untaken =>
      -- nothing was offered, and the listeners heard of no publication
      have hnothing : ¬ ∃ c ∈ callsIn a.past, c.isGossip := by
        rw [hpast]
        simp [reported, callsIn_append, Call.isGossip]
      have huntaken : ¬ ∃ e ∈ a.past, e.isTaken := by
        rw [hpast]
        simp [reported, exchange, Event.replied, Event.isTaken]
      have hreports : reportsIn a.past = [.reportDuty a.request.block .notAttempted,
          .reportPerformance a.request.block .notAttempted] := by
        rw [hpast]
        rfl
      refine ⟨Attempt.reportedHonestly_iff_of_offered hreports ?_ (fun h => absurd h huntaken), ?_⟩
      · exact iff_of_false (by simp [Outcome.isPublished]) hnothing
      · exact fun h => absurd h.1 hnothing

/-- An attempt whose block gossip takes without its blob. The listeners hear that it was published in part. -/
theorem reportedHonestly_when_refused :
    ∃ (s : System) (a : Attempt),
      (Collaborators.refusing 0).Steady ∧
      System.Run (fun _ => .refusing 0) false
        (.start [(.single { variant := .withBlobs standardBlobLimit true }, .oneBlob)]) s ∧
      s.attempts[0]? = some a ∧ a.isSettled ∧ (∃ e ∈ a.past, e.isTaken) ∧
      .answered (.gossipSidecar .lone) (.error .queueFull) ∈ a.past ∧
      .answered (.reportDuty Request.oneBlob.block .partiallyPublished) () ∈ a.past ∧ a.ReportedHonestly := by
  have steady := Collaborators.refusing_steady 0
  obtain ⟨s, run, hs⟩ := System.exists_run_oneBlob (.single { variant := .withBlobs standardBlobLimit true }) rfl false
  have here : s.attempts[0]? = some (.oneBlob true) := congrArg (·[0]?) hs
  have htaken : ∃ e ∈ (Attempt.oneBlob true).past, e.isTaken := List.any_eq_true.mp rfl
  have honest := (run.reportedHonestly_iff here steady rfl).1.mpr fun h => h.2 htaken
  refine ⟨s, _, steady, run, here, rfl, htaken, ?_, ?_, honest⟩
  · simp [Attempt.oneBlob, Request.oneBlobPast, exchange, Event.replied]
  · simp [Attempt.oneBlob, Request.oneBlobPast, reported, exchange, Event.replied]

/-- Collaborators who let everything through but for gossip, which has no room for any message. -/
def Collaborators.overfull : Collaborators := fun past c =>
  match c with
  | .gossipBlock _ | .gossipSidecar _ => .answer (.error .queueFull)
  | c => willing .standard past c

theorem Collaborators.overfull_steady : overfull.Steady := by
  intro past c hcrash
  cases c <;> cases hcrash

/-- An attempt whose block gossip refuses, and of which the listeners hear that something was published. -/
theorem not_reportedHonestly_when_overfull :
    Collaborators.overfull.Steady ∧ ∃ (s : System) (a : Attempt),
      System.Run (fun _ => .overfull) false (.start [(.single { variant := .plain }, .blank)]) s ∧
      s.attempts[0]? = some a ∧ a.isSettled ∧ ¬ a.ReportedHonestly := by
  have start : System.Run (fun _ => .overfull) false
      (.start [(.single { variant := .plain }, .blank)]) _ := .refl _
  obtain ⟨s, run, here⟩ := (start.thenLeave 0 rfl rfl).thenComplete 0 rfl rfl
  refine ⟨Collaborators.overfull_steady, s, _, run, here, rfl, ?_⟩
  rintro ⟨outcome, hreports, honest⟩
  -- both listeners heard of a publication in part
  cases hreports
  obtain ⟨e, he, htaken⟩ := honest.mp rfl
  have hnone : ¬ ∃ e ∈ (({ variant := .plain : Pipeline }.run Request.blank.block Request.blank.sidecars
      .standard).complete .overfull []).2, e.isTaken := fun h => by cases List.any_eq_true.mpr h
  exact hnone ⟨e, he, htaken⟩

end BeaconBroadcast
