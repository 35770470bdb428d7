import BeaconBroadcast.Proofs.Publish.Broadcast
import BeaconBroadcast.Proofs.Publish.Course

/-!
# `BeaconBroadcast.Proofs.Publish.Reference` — what an awaited attempt comes to

The account of an attempt is written down without its program: given what each collaborator comes to, it says
what passes the ports, what the caller gets and what the listeners hear. An awaited attempt leaves exactly
that behind, whoever its collaborators are.

## Contents
- **Accounts.** `Replies`, `Account` and `Pipeline.account`.
- **Outcomes.** A broadcast is called partial unless gossip took every message.
- **Stories.** The stories of the steps after the import, and of a whole pipeline, are those of the account.
- **Attempts.** `Attempt.Ending.matches_account`: every ending of an attempt is the one its account gives, for
  an awaited attempt and for a caller with a result in any run of a system.
-/

namespace BeaconBroadcast

open Program

/-! ## Accounts -/

/-- What the collaborators of one attempt come to, whether or not they are asked. -/
structure Replies where
  toImport : Except Crash (Except ChannelFault ImportAnswer)
  toGossip : GossipReplies
  toClock : Except Crash Millis

/-- The replies of an attempt that gets no further than the import. -/
def Replies.ofImport (reply : Except Crash (Except ChannelFault ImportAnswer)) : Replies where
  toImport := reply
  toGossip := { toBlock := .ok (.ok ()), toSidecar := fun _ => .ok (.ok ()) }
  toClock := .ok 0

/-- What an attempt comes to. -/
structure Account where
  /-- What passes the import and gossip, in order. -/
  exchanges : List Event
  /-- What the caller gets. -/
  result : PublishResult
  /-- What the two listeners hear afterwards. -/
  outcome : Outcome

/-- Whether gossip took the block and the `n` sidecars after it. -/
def GossipReplies.takesAll (replies : GossipReplies) (n : Nat) : Bool :=
  replies.toBlock.isTaken && (List.range n).all fun i => (replies.toSidecar i).isTaken

namespace Account

/-- The account of a task named `name` that broke off. -/
def brokenOff (name : String) (crash : Crash) (exchanges : List Event) : Account where
  exchanges := exchanges
  result := .error (.internal (crash.text name))
  outcome := .notAttempted

/-- The account of a block that was not imported. -/
def notImported (root : Root) (reason : ImportFailure) : Account where
  exchanges := []
  result := .error (.importFailed root reason)
  outcome := .importFailed

/-- The account of a block that was not vouched for at the level asked for. -/
def notVouchedFor (root : Root) (level : Level) (verdict : Verdict) : Account where
  exchanges := []
  result := .error (.validationFailed root level verdict)
  outcome := .validationFailed

end Account

namespace Pipeline

/-- How a broadcast breaks down, if it does: at gossip, or at the slot clock after it. -/
def broadcastCrash? (p : Pipeline) (r : Request) (replies : Replies) : Option Crash :=
  (replies.toGossip.crash? (p.variant.sidecarsSent r).length).or (clockCrash? replies.toClock p.grid?)

/-- What passes the ports in a broadcast: the block, then its sidecars in order whatever became of those
    before, and a look at the slot clock at the end. -/
def broadcastExchanges (p : Pipeline) (r : Request) (replies : Replies) : List Event :=
  replies.toGossip.exchanges r.block (p.variant.sidecarsSent r) ++
    if (replies.toGossip.crash? (p.variant.sidecarsSent r).length).isSome then []
    else clockExchange replies.toClock p.grid?

/-- The account of a broadcast in which nobody breaks down. The root and the slot are those of the block
    that was asked for. -/
def fullAccount (p : Pipeline) (r : Request) (replies : Replies) (imported : ImportedBlock) : Account where
  exchanges := p.broadcastExchanges r replies
  result := .ok
    { root := r.block.root, slot := r.block.slot, optimistic := imported.optimistic,
      delivery := replies.toGossip.delivery (p.variant.sidecarsSent r) }
  outcome :=
    if replies.toGossip.takesAll (p.variant.sidecarsSent r).length then .published
    else .partiallyPublished

/-- The account of a broadcast. -/
def broadcastAccount (p : Pipeline) (r : Request) (name : String) (replies : Replies)
    (imported : ImportedBlock) : Account :=
  match p.broadcastCrash? r replies with
  | some crash => .brokenOff name crash (p.broadcastExchanges r replies)
  | none => p.fullAccount r replies imported

/-- The account of an attempt from the import's reply on. -/
def accountAfterImport (p : Pipeline) (r : Request) (name : String) (replies : Replies) : Account :=
  match replies.toImport with
  | .error crash => .brokenOff name crash []
  | .ok (.error fault) => .notImported r.block.root (.internal fault.text)
  | .ok (.ok (.imported imported)) =>
      if r.level ≤ imported.validatedAt then p.broadcastAccount r name replies imported
      else .notVouchedFor r.block.root r.level (.insufficient imported.validatedAt)
  | .ok (.ok (.refused .success)) =>
      .notImported r.block.root (.internal "validation reported success without an import result")
  | .ok (.ok (.refused verdict)) => .notVouchedFor r.block.root r.level verdict
  | .ok (.ok (.failed reason)) => .notImported r.block.root reason

/-- The account of an attempt in a task named `name`. -/
def account (p : Pipeline) (r : Request) (name : String) (replies : Replies) : Account :=
  match p.variant.fault? r with
  | some fault => .notImported r.block.root (.invalidSidecars fault.text)
  | none =>
      let rest := p.accountAfterImport r name replies
      { rest with exchanges := p.variant.importExchange r replies.toImport ++ rest.exchanges }

end Pipeline

/-! ## Outcomes -/

/-- No sidecar is refused exactly where all of them are taken. -/
theorem sidecarsWhere_isRefused_isEmpty {replies : Nat → GossipReply} {sidecars : List BlobSidecar}
    (h : firstCrash? replies sidecars.length = none) :
    (sidecarsWhere GossipReply.isRefused replies sidecars).isEmpty
      = (List.range sidecars.length).all fun i => (replies i).isTaken := by
  induction sidecars generalizing replies with
  | nil => rfl
  | cons sidecar sidecars ih =>
      rw [List.length_cons, firstCrash?_succ, Option.or_eq_none_iff] at h
      rw [sidecarsWhere_cons, GossipReply.isRefused_of_crash? h.1, List.length_cons,
        List.range_succ_eq_map, List.all_cons, List.all_map]
      cases (replies 0).isTaken with
      | false => rfl
      | true => exact ih h.2

/-- **A broadcast is called partial unless gossip took every message.** -/
theorem GossipReplies.delivery_isPartial {replies : GossipReplies} {sidecars : List BlobSidecar}
    (h : replies.crash? sidecars.length = none) :
    (replies.delivery sidecars).isPartial = !replies.takesAll sidecars.length := by
  obtain ⟨-, hsidecars⟩ := Option.or_eq_none_iff.mp h
  unfold Delivery.isPartial takesAll
  rw [← sidecarsWhere_isRefused_isEmpty hsidecars, Bool.not_and]
  simp only [delivery, List.isEmpty_map]

variable {p : Pipeline} {r : Request} {events : List Event}

/-- What the caller hears of a broadcast and what the listeners hear agree. -/
theorem fullAccount_outcome {replies : Replies} {imported : ImportedBlock}
    (h : p.broadcastCrash? r replies = none) :
    (p.fullAccount r replies imported).result.outcome = (p.fullAccount r replies imported).outcome := by
  obtain ⟨hgossip, -⟩ := Option.or_eq_none_iff.mp h
  simp only [Pipeline.fullAccount, PublishResult.outcome, GossipReplies.delivery_isPartial hgossip]
  cases replies.toGossip.takesAll (p.variant.sidecarsSent r).length <;> rfl

/-! ## Stories -/

/-- What a block comes to that is not let through. -/
theorem refusal_story {notice : Notice} {result : PublishResult} {done : Progress PublishResult}
    (h : PortStory (notify notice >>= fun _ => Pure.pure result) events done) :
    portEvents events = [] ∧ done = .returned result := by
  obtain ⟨rest, hevents, hrest⟩ := of_notify_bind h
  obtain ⟨rfl, rfl⟩ := hrest.of_pure
  exact ⟨hevents, rfl⟩

/-- What a block comes to that is let through. -/
theorem conclude_imported_story {imported : ImportedBlock} {done : Progress PublishResult}
    (reply : Except Crash (Except ChannelFault ImportAnswer))
    (h : PortStory (p.conclude r.block r.sidecars r.level (.imported imported)) events done) :
    ∃ replies : Replies, replies.toImport = reply ∧ portEvents events = p.broadcastExchanges r replies ∧
      done = .unless (p.broadcastCrash? r replies) (p.fullAccount r replies imported).result := by
  rcases Story.of_bind h with ⟨crash, rfl, hbroadcast⟩ | ⟨delivery, first, rest, rfl, hbroadcast, hrest⟩
  · obtain ⟨toGossip, hevents, hdone⟩ := broadcast_story hbroadcast
    have hcrash := Progress.eq_some_of_crashed hdone
    refine ⟨⟨reply, toGossip, .ok 0⟩, rfl, ?_, ?_⟩
    · rw [Pipeline.broadcastExchanges, hcrash, hevents]
      exact (List.append_nil _).symm
    · rw [Pipeline.broadcastCrash?, hcrash]
      rfl
  obtain ⟨toGossip, hfirst, hdelivery⟩ := broadcast_story hbroadcast
  obtain ⟨hnone, rfl⟩ := Progress.eq_none_of_returned hdelivery
  rcases Story.of_bind hrest with ⟨crash, rfl, hdelay⟩ | ⟨_, second, rest, rfl, hdelay, hlast⟩
  · obtain ⟨toClock, hsecond, hdone⟩ := tellDelay_story hdelay
    refine ⟨⟨reply, toGossip, toClock⟩, rfl, ?_, ?_⟩
    · rw [Pipeline.broadcastExchanges, hnone, portEvents_append, hfirst, hsecond]
      rfl
    · rw [Pipeline.broadcastCrash?, hnone, Option.none_or, Progress.eq_some_of_crashed hdone]
      rfl
  · obtain ⟨toClock, hsecond, hdone⟩ := tellDelay_story hdelay
    obtain ⟨hthird, rfl⟩ := refusal_story hlast
    refine ⟨⟨reply, toGossip, toClock⟩, rfl, ?_, ?_⟩
    · rw [Pipeline.broadcastExchanges, hnone, portEvents_append, portEvents_append, hfirst, hsecond,
        hthird, List.append_nil]
      rfl
    · rw [Pipeline.broadcastCrash?, hnone, Option.none_or, (Progress.eq_none_of_returned hdone).1]
      rfl

/-- The report of what some work came to, where the work came to anything. -/
def reporting (r : Request) (work : Program PublishResult) : Program PublishResult := do
  let result ← work
  report r.block result.outcome
  return result

theorem reporting_story {work : Program PublishResult} {done : Progress PublishResult}
    (h : PortStory (reporting r work) events done) :
    (∃ crash, done = .crashed crash ∧ PortStory work events (.crashed crash)) ∨
    ∃ result first, done = .returned result ∧ PortStory work first (.returned result) ∧
      portEvents events = portEvents first ++ reported r.block result.outcome := by
  rcases Story.of_bind h with ⟨crash, rfl, hwork⟩ | ⟨result, first, rest, rfl, hwork, hrest⟩
  · exact Or.inl ⟨crash, rfl, hwork⟩
  rcases Story.of_bind hrest with ⟨crash, -, hreport⟩ | ⟨_, second, last, rfl, hreport, hlast⟩
  · cases (report_story hreport).2
  obtain ⟨rfl, -⟩ := report_story hreport
  obtain ⟨rfl, rfl⟩ := hlast.of_pure
  exact Or.inr ⟨result, first, rfl, hwork, by rw [portEvents_append, List.append_nil]; rfl⟩

/-- The ways in which a task goes as the account says: it breaks off before it could report, or it reports
    and returns. -/
inductive Account.TaskStory (account : Account) (block : SignedBlock) (name : String) :
    List Event → Progress PublishResult → Prop
  | brokeOff {crash : Crash} {events : List Event}
      (broke : account = .brokenOff name crash (portEvents events)) :
      TaskStory account block name events (.crashed crash)
  | returned {events : List Event}
      (reports : portEvents events = account.exchanges ++ reported block account.outcome) :
      TaskStory account block name events (.returned account.result)

/-- A block that is not let through leaves nothing but the report behind. -/
theorem Account.taskStory_of_refusal {account : Account} {name : String} {notice : Notice}
    {done : Progress PublishResult} (hnothing : account.exchanges = [])
    (houtcome : account.result.outcome = account.outcome)
    (h : PortStory (reporting r (notify notice >>= fun _ => Pure.pure account.result)) events done) :
    account.TaskStory r.block name events done := by
  rcases reporting_story h with ⟨crash, -, hrefusal⟩ | ⟨result, first, rfl, hrefusal, hevents⟩
  · cases (refusal_story hrefusal).2
  · obtain ⟨hfirst, hdone⟩ := refusal_story hrefusal
    cases hdone
    exact .returned (by rw [hevents, hfirst, hnothing, houtcome])

/-- A block that is let through is broadcast. -/
theorem broadcast_taskStory {imported : ImportedBlock} {done : Progress PublishResult} (name : String)
    (reply : Except Crash (Except ChannelFault ImportAnswer))
    (h : PortStory (reporting r (p.conclude r.block r.sidecars r.level (.imported imported)))
      events done) :
    ∃ replies : Replies, replies.toImport = reply ∧
      (p.broadcastAccount r name replies imported).TaskStory r.block name events done := by
  rcases reporting_story h with ⟨crash, rfl, hconclude⟩ | ⟨result, first, rfl, hconclude, hevents⟩
  · obtain ⟨replies, himport, hevents, hdone⟩ := conclude_imported_story reply hconclude
    refine ⟨replies, himport, .brokeOff ?_⟩
    simp only [Pipeline.broadcastAccount, Progress.eq_some_of_crashed hdone, hevents]
  · obtain ⟨replies, himport, hfirst, hdone⟩ := conclude_imported_story reply hconclude
    obtain ⟨hnone, rfl⟩ := Progress.eq_none_of_returned hdone
    have haccount : p.broadcastAccount r name replies imported = p.fullAccount r replies imported := by
      simp only [Pipeline.broadcastAccount, hnone]
    refine ⟨replies, himport, ?_⟩
    rw [haccount]
    apply Account.TaskStory.returned
    rw [hevents, hfirst, fullAccount_outcome hnone]
    rfl

/-- **What follows the import's answer goes as the account says.** -/
theorem answered_taskStory {answer : Except ChannelFault ImportAnswer} {done : Progress PublishResult}
    (name : String) (h : PortStory (reporting r (p.conclude r.block r.sidecars r.level
      ((ImportAnswer.ofChannel answer).gate r.level))) events done) :
    ∃ replies : Replies, replies.toImport = .ok answer ∧
      (p.accountAfterImport r name replies).TaskStory r.block name events done := by
  rcases answer with fault | imported | verdict | reason
  · refine ⟨.ofImport (.ok (.error fault)), rfl, ?_⟩
    show (Account.notImported r.block.root (.internal fault.text)).TaskStory r.block name events done
    exact Account.taskStory_of_refusal rfl rfl h
  · by_cases hlevel : r.level ≤ imported.validatedAt
    · have hgate : (ImportAnswer.ofChannel (.ok (.imported imported))).gate r.level
          = .imported imported := if_pos (decide_eq_true hlevel)
      rw [hgate] at h
      obtain ⟨replies, himport, hstory⟩ := broadcast_taskStory name (.ok (.ok (.imported imported))) h
      refine ⟨replies, himport, ?_⟩
      rw [Pipeline.accountAfterImport, himport]
      simp only [if_pos hlevel]
      exact hstory
    · have hgate : (ImportAnswer.ofChannel (.ok (.imported imported))).gate r.level
          = .refused (.insufficient imported.validatedAt) :=
        if_neg fun h => hlevel (of_decide_eq_true h)
      rw [hgate] at h
      refine ⟨.ofImport (.ok (.ok (.imported imported))), rfl, ?_⟩
      have haccount : p.accountAfterImport r name (.ofImport (.ok (.ok (.imported imported))))
          = .notVouchedFor r.block.root r.level (.insufficient imported.validatedAt) := if_neg hlevel
      rw [haccount]
      exact Account.taskStory_of_refusal rfl rfl h
  · refine ⟨.ofImport (.ok (.ok (.refused verdict))), rfl, ?_⟩
    -- success without an import is the one verdict that counts as a failed import
    cases verdict with
    | success =>
        show (Account.notImported r.block.root (.internal
          "validation reported success without an import result")).TaskStory r.block name events done
        exact Account.taskStory_of_refusal rfl rfl h
    | gossipFailure => exact Account.taskStory_of_refusal rfl rfl h
    | consensusFailure => exact Account.taskStory_of_refusal rfl rfl h
    | equivocation => exact Account.taskStory_of_refusal rfl rfl h
    | insufficient reached => exact Account.taskStory_of_refusal rfl rfl h
  · refine ⟨.ofImport (.ok (.ok (.failed reason))), rfl, ?_⟩
    show (Account.notImported r.block.root reason).TaskStory r.block name events done
    exact Account.taskStory_of_refusal rfl rfl h

/-- What passes the ports before the rest of a task comes before it in the account. -/
theorem Account.TaskStory.prepend {account : Account} {block : SignedBlock} {name : String}
    {exchanges rest : List Event} {done : Progress PublishResult}
    (h : account.TaskStory block name rest done)
    (hevents : portEvents events = exchanges ++ portEvents rest) :
    Account.TaskStory { account with exchanges := exchanges ++ account.exchanges } block name events
      done := by
  cases h with
  | brokeOff broke =>
      refine .brokeOff ?_
      rw [hevents, broke]
      rfl
  | returned reports =>
      refine .returned ?_
      rw [hevents, reports, List.append_assoc]

theorem portEvents_importExchange (v : Variant)
    (reply : Except Crash (Except ChannelFault ImportAnswer)) :
    portEvents (v.importExchange r reply) = v.importExchange r reply := by
  cases v <;> cases reply <;> rfl

/-- **A task goes as the account of its pipeline says.** -/
theorem run_taskStory {done : Progress PublishResult} (name : String)
    (h : PortStory (p.run r.block r.sidecars r.level) events done) :
    ∃ replies, (p.account r name replies).TaskStory r.block name events done := by
  obtain ⟨rest, hevents, hrest⟩ := of_notify_bind h
  rcases Story.of_bind hrest with ⟨crash, rfl, himport⟩ | ⟨answer, first, last, rfl, himport, hlast⟩
  · obtain ⟨quiet, hquiet, himport⟩ := Variant.importBlock_story himport
    have hnone : portEvents quiet = [] := portEvents_of_isNotice hquiet
    cases himport with
    | cutShort may => cases may
    | brokeDown sound =>
        have hstory : (p.accountAfterImport r name (.ofImport (.error crash))).TaskStory r.block name []
            (.crashed crash) := .brokeOff rfl
        refine ⟨.ofImport (.error crash), ?_⟩
        simp only [Pipeline.account, sound]
        apply hstory.prepend
        rw [hevents, portEvents_append, hnone, portEvents_importExchange]
        exact (List.append_nil _).symm
  · obtain ⟨quiet, hquiet, himport⟩ := Variant.importBlock_story himport
    have hnone : portEvents quiet = [] := portEvents_of_isNotice hquiet
    cases himport with
    | @turnedAway fault faulty =>
        -- the import is not asked, so what it would reply does not matter
        refine ⟨.ofImport (.ok (.error .closed)), ?_⟩
        have hrefusal : (Account.notImported r.block.root (.invalidSidecars fault.text)).TaskStory
            r.block name last done := Account.taskStory_of_refusal rfl rfl hlast
        have hsame : portEvents events = [] ++ portEvents last := by
          rw [hevents, portEvents_append, hnone]
        simp only [Pipeline.account, faulty]
        exact hrefusal.prepend hsame
    | answered sound =>
        obtain ⟨replies, hreply, hstory⟩ := answered_taskStory name hlast
        refine ⟨replies, ?_⟩
        simp only [Pipeline.account, sound]
        apply hstory.prepend
        rw [hevents, portEvents_append, portEvents_append, hnone, portEvents_importExchange, hreply]
        rfl

/-! ## Attempts -/

/-- What is done where an attempt broke off, or where no pipeline takes the block. -/
theorem notAttempted_story {block : SignedBlock} {notice : Notice} {failure : PublishFailure}
    {done : Progress PublishResult}
    (h : PortStory (notify notice >>= fun _ => report block .notAttempted >>= fun _ =>
      Pure.pure (.error failure)) events done) :
    portEvents events = reported block .notAttempted ∧ done = .returned (.error failure) := by
  obtain ⟨rest, hevents, hrest⟩ := of_notify_bind h
  rcases Story.of_bind hrest with ⟨crash, -, hreport⟩ | ⟨_, first, last, rfl, hreport, hlast⟩
  · cases (report_story hreport).2
  obtain ⟨rfl, -⟩ := report_story hreport
  obtain ⟨rfl, rfl⟩ := hlast.of_pure
  rw [hevents, List.append_nil]
  exact ⟨rfl, rfl⟩

/-- The ways in which an awaited attempt goes as the account says. -/
def Account.Matches (account : Account) (block : SignedBlock) (events : List Event)
    (done : Progress PublishResult) : Prop :=
  done = .returned account.result ∧
    portEvents events = account.exchanges ++ reported block account.outcome

/-- **Every ending of an attempt is one that the account of its pipeline gives.** -/
theorem Attempt.Ending.matches_account {publisher : Publisher} {name : String}
    {done : Progress PublishResult} (takes : publisher.pipeline? r = some p)
    (h : Ending (fun c => c.canCrash) publisher r name events done) :
    ∃ replies, (p.account r name replies).Matches r.block events done := by
  cases h with
  | direct dispatched story => cases takes.symm.trans (Publisher.of_dispatch_direct dispatched).1
  | returned dispatched story =>
      obtain ⟨q, hq, rfl⟩ := Publisher.of_dispatch_task dispatched
      cases takes.symm.trans hq
      obtain ⟨replies, hstory⟩ := run_taskStory name story
      refine ⟨replies, ?_⟩
      -- a task that returned has not broken off
      generalize hdone : Progress.returned _ = done at hstory
      cases hstory with
      | brokeOff broke => cases hdone
      | returned reports => exact ⟨rfl, reports⟩
  | takenOver dispatched broke story =>
      obtain ⟨q, hq, rfl⟩ := Publisher.of_dispatch_task dispatched
      cases takes.symm.trans hq
      obtain ⟨replies, hstory⟩ := run_taskStory name broke
      obtain ⟨hreports, rfl⟩ := notAttempted_story story
      -- the task has not reported, so the caller's report is the only one
      cases hstory with
      | brokeOff broke =>
          refine ⟨replies, ?_⟩
          rw [broke]
          exact ⟨rfl, by rw [portEvents_append, hreports]; rfl⟩

/-- **An awaited attempt on a single pipeline leaves exactly behind what its account says**, for some
    replies, and these are the replies of its collaborators. -/
theorem Attempt.awaited_matches_account {others : Collaborators} (dependable : others.Dependable)
    (p : Pipeline) (r : Request) (name : String) :
    ∃ replies,
      (p.account r name replies).Matches r.block (awaited others (.single p) r name).2
        (awaited others (.single p) r name).1 ∧
      Faithful others (awaited others (.single p) r name).2 := by
  have takes : (Publisher.single p).pipeline? r = some p := rfl
  obtain ⟨replies, hmatches⟩ := (awaited_ending dependable).matches_account takes
  exact ⟨replies, hmatches, awaited_faithful⟩

/-- An attempt in which a block is published without its blob. -/
theorem awaited_matches_account_when_refused :
    (Collaborators.refusing 0).Dependable ∧
    Attempt.awaited (.refusing 0) (.single { variant := .withBlobs standardBlobLimit true }) .oneBlob "0"
      = (.returned (.ok Request.oneBlobPublished), Request.oneBlobPast true) ∧
    Request.oneBlobPublished.delivery = { blockTaken := true, sidecarsRefused := [0] } ∧
    ∃ replies : Replies,
      (Pipeline.account { variant := .withBlobs standardBlobLimit true } .oneBlob "0" replies).Matches
        Request.oneBlob.block (Request.oneBlobPast true) (.returned (.ok Request.oneBlobPublished)) ∧
      Faithful (.refusing 0) (Request.oneBlobPast true) := by
  have dependable := (Collaborators.refusing_steady 0).dependable
  have hawaited : Attempt.awaited (.refusing 0) (.single { variant := .withBlobs standardBlobLimit true })
      .oneBlob "0" = (.returned (.ok Request.oneBlobPublished), Request.oneBlobPast true) := by
    rw [Attempt.awaited_of_task rfl, Request.complete_oneBlob]
    rfl
  have hmatches := Attempt.awaited_matches_account dependable { variant := .withBlobs standardBlobLimit true }
    .oneBlob "0"
  rw [hawaited] at hmatches
  exact ⟨dependable, hawaited, rfl, hmatches⟩

variable {calls : List (Publisher × Request)} {others : Nat → Collaborators} {counted : Bool}

/-- **In every run, a caller who has a result has the one that the account gives**, whatever the other
    attempts do meanwhile. -/
theorem System.Run.result_matches_account (dependable : ∀ i, (others i).Dependable) {s : System}
    (run : Run others counted (.start calls) s) {i : Nat} {a : Attempt} (here : s.attempts[i]? = some a)
    {publisher : Publisher} (called : calls[i]? = some (publisher, r))
    (takes : publisher.pipeline? r = some p) {result : PublishResult} (got : a.result? = some result) :
    ∃ replies, (p.account r (toString i) replies).Matches r.block a.past (.returned result) := by
  obtain ⟨_, hcall, hending⟩ :=
    run.ending here (dependable i) (Attempt.caller_of_result? got) rfl
  cases called.symm.trans hcall
  exact hending.matches_account takes

end BeaconBroadcast
