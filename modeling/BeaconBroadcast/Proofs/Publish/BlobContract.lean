import BeaconBroadcast.Proofs.Publish.Reference
import BeaconBroadcast.Proofs.Publish.Routing
import BeaconBroadcast.Proofs.Validation.Sidecars

/-!
# `BeaconBroadcast.Proofs.Publish.BlobContract` — which sidecars travel with a block

The sidecars of a request are checked once, before the import, and the broadcast uses the same list without
another look. Where the fork of the block carries blobs, whatever reaches the import or gossip is the block
with exactly its own blobs, and no more of them than the fork allows; where it does not, no sidecar goes
anywhere, whatever the caller brought.

## Contents
- **Channels.** `channelCalls` and `sidecarsOffered`: what goes to the import and to gossip.
- **Pipelines.** `Pipeline.Sends` lists what a pipeline sends where nobody breaks down, and what comes of it;
  `Pipeline.account_sends`.
- **Runs.** `System.Run.sends`: at every moment of every run an attempt has sent a beginning of that.
- **Contracts.** `Attempt.CarriesBlobs`, `Attempt.CarriesNoBlobs` and `System.Run.blobContract`.
-/

namespace BeaconBroadcast

open Program

variable {p : Pipeline} {r : Request} {a : Attempt} {sent : List Call} {result : PublishResult}

/-! ## Channels -/

/-- Whether the call goes to the import or to gossip. -/
def Call.isChannel (c : Call) : Bool := c.isImport || c.isGossip

/-- The calls to the import and to gossip, oldest first. -/
def channelCalls (past : List Event) : List Call := (callsIn past).filter Call.isChannel

/-- The sidecar that a call offers to gossip. -/
def Call.sidecar? : Call → Option BlobSidecar
  | gossipSidecar sidecar => some sidecar
  | _ => none

/-- The sidecars that were offered to gossip, oldest first. -/
def sidecarsOffered (past : List Event) : List BlobSidecar := (callsIn past).filterMap Call.sidecar?

theorem channelCalls_append (first second : List Event) :
    channelCalls (first ++ second) = channelCalls first ++ channelCalls second := by
  unfold channelCalls
  rw [callsIn_append, List.filter_append]

theorem mem_channelCalls {past : List Event} {c : Call} :
    c ∈ channelCalls past ↔ c ∈ callsIn past ∧ (c.isImport ∨ c.isGossip) := by
  rw [channelCalls, List.mem_filter, Call.isChannel, Bool.or_eq_true]

/-- The import and gossip are ports. -/
theorem channelCalls_portEvents (past : List Event) : channelCalls (portEvents past) = channelCalls past := by
  refine filter_callsIn_filter ?_ past
  intro c hc
  cases c <;> first | rfl | cases hc

theorem channelCalls_prefix {past events : List Event} (h : past <+: events) :
    channelCalls past <+: channelCalls events := (h.filterMap _).filter _

/-- What is offered to gossip goes through a channel. -/
theorem sidecarsOffered_eq (past : List Event) :
    sidecarsOffered past = (channelCalls past).filterMap Call.sidecar? := by
  rw [sidecarsOffered, channelCalls, List.filterMap_filter]
  congr 1
  funext c
  cases c <;> rfl

theorem filterMap_gossipSidecar (sidecars : List BlobSidecar) :
    (sidecars.map Call.gossipSidecar).filterMap Call.sidecar? = sidecars := by
  rw [List.filterMap_map]
  exact List.filterMap_some

/-! ## Pipelines -/

/-- The call that hands a request to the import. -/
def Variant.importCall (r : Request) : Variant → Call
  | plain => .importBlock r.block r.level
  | withBlobs .. => .importWithSidecars r.block r.sidecars r.level

/-- What a pipeline sends to the import and to gossip where nobody breaks down, and what comes of it. -/
inductive Pipeline.Sends (p : Pipeline) (r : Request) : List Call → PublishResult → Prop
  /-- The sidecars are not those of the block. -/
  | nothing {fault : SidecarFault} {failure : PublishFailure} (faulty : p.variant.fault? r = some fault) :
      Sends p r [] (.error failure)
  /-- The import does not vouch for the block. -/
  | imported {failure : PublishFailure} (sound : p.variant.fault? r = none) :
      Sends p r [p.variant.importCall r] (.error failure)
  /-- The block is imported and broadcast. -/
  | everything {publication : Publication} {replies : GossipReplies} (sound : p.variant.fault? r = none)
      (unbroken : replies.crash? (p.variant.sidecarsSent r).length = none)
      (delivery : publication.delivery = replies.delivery (p.variant.sidecarsSent r)) :
      Sends p r (p.variant.importCall r :: .gossipBlock r.block ::
        (p.variant.sidecarsSent r).map .gossipSidecar) (.ok publication)

theorem channelCalls_importExchange (v : Variant) (r : Request)
    (reply : Except Crash (Except ChannelFault ImportAnswer)) :
    channelCalls (v.importExchange r reply) = [v.importCall r] := by
  cases v <;> cases reply <;> rfl

theorem channelCalls_clockExchange (reply : Except Crash Millis) (grid? : Option SlotGrid) :
    channelCalls (clockExchange reply grid?) = [] := by
  cases grid? <;> cases reply <;> rfl

theorem channelCalls_reported (block : SignedBlock) (outcome : Outcome) :
    channelCalls (reported block outcome) = [] := rfl

/-- A broadcast in which nobody breaks down offers everything. -/
theorem channelCalls_broadcastExchanges {replies : Replies} (h : p.broadcastCrash? r replies = none) :
    channelCalls (p.broadcastExchanges r replies)
      = .gossipBlock r.block :: (p.variant.sidecarsSent r).map .gossipSidecar := by
  obtain ⟨hgossip, -⟩ := Option.or_eq_none_iff.mp h
  have hgoes : ¬ (replies.toGossip.crash? (p.variant.sidecarsSent r).length).isSome := by simp [hgossip]
  have hall : ((p.variant.sidecarsSent r).map Call.gossipSidecar).filter Call.isChannel
      = (p.variant.sidecarsSent r).map Call.gossipSidecar := by
    apply List.filter_eq_self.mpr
    intro c hc
    obtain ⟨sidecar, -, rfl⟩ := List.mem_map.mp hc
    rfl
  rw [Pipeline.broadcastExchanges, if_neg hgoes, channelCalls_append, channelCalls_clockExchange,
    List.append_nil, channelCalls, GossipReplies.callsIn_exchanges hgossip,
    List.filter_cons_of_pos (by rfl), hall]

/-- **An account that does not end in a breakdown is one of what the pipeline sends.** -/
theorem Pipeline.account_sends {name : String} {replies : Replies}
    (h : (p.account r name replies).result.outcome ≠ .notAttempted) :
    p.Sends r (channelCalls (p.account r name replies).exchanges) (p.account r name replies).result := by
  unfold account at h ⊢
  cases hfault : p.variant.fault? r with
  | some fault => exact .nothing hfault
  | none =>
      simp only [hfault] at h ⊢
      rw [channelCalls_append, channelCalls_importExchange]
      unfold accountAfterImport at h ⊢
      split at h
      · exact absurd rfl h
      · exact .imported hfault
      · next imported _ =>
          by_cases hlevel : r.level ≤ imported.validatedAt
          · simp only [if_pos hlevel, broadcastAccount] at h ⊢
            cases hcrash : p.broadcastCrash? r replies with
            | some crash =>
                simp only [hcrash] at h
                exact absurd rfl h
            | none =>
                obtain ⟨hgossip, -⟩ := Option.or_eq_none_iff.mp hcrash
                simp only [fullAccount, channelCalls_broadcastExchanges hcrash]
                exact .everything hfault hgossip rfl
          · simp only [if_neg hlevel]
            exact .imported hfault
      · exact .imported hfault
      · exact .imported hfault
      · exact .imported hfault

/-- **Where nobody breaks down, a task sends what its pipeline sends.** -/
theorem Pipeline.run_sends {events : List Event}
    (h : PortStory (p.run r.block r.sidecars r.level) events (.returned result)) :
    p.Sends r (channelCalls events) result := by
  have hattempted : result.outcome ≠ .notAttempted := h.of_returnsOnly (p.run_returnsOnly r)
  obtain ⟨replies, hstory⟩ := run_taskStory "" h
  generalize hdone : Progress.returned result = done at hstory
  cases hstory with
  | brokeOff broke => cases hdone
  | returned reports =>
      cases hdone
      rw [← channelCalls_portEvents, reports, channelCalls_append, channelCalls_reported, List.append_nil]
      exact account_sends hattempted

/-! ## Runs -/

/-- Where nobody breaks down, an awaited attempt goes as its task does, and that returns. -/
theorem Attempt.awaited_of_steady {others : Collaborators} {publisher : Publisher} (steady : others.Steady)
    (takes : publisher.pipeline? r = some p) (name : String) :
    ∃ events result, PortStory (p.run r.block r.sidecars r.level) events (.returned result) ∧
      (p.run r.block r.sidecars r.level).complete others [] = (.returned result, events) ∧
      awaited others publisher r name = (.returned result, events) := by
  obtain ⟨events, hpast, hstory⟩ :=
    (p.run r.block r.sidecars r.level).complete_story steady.dependable []
  obtain ⟨result, hresult⟩ := (p.run r.block r.sidecars r.level).complete_returned steady []
  have hcomplete : (p.run r.block r.sidecars r.level).complete others [] = (.returned result, events) :=
    Prod.ext hresult hpast
  rw [hresult] at hstory
  refine ⟨events, result, hstory, hcomplete, ?_⟩
  rw [awaited_of_task (Publisher.dispatch_of_pipeline? takes), hcomplete]
  rfl

variable {calls : List (Publisher × Request)} {others : Nat → Collaborators} {counted : Bool}
  {publisher : Publisher}

/-- **At every moment of every run, an attempt among collaborators who do not break down has sent a beginning
    of what its pipeline sends**, all of it once it is settled, and its caller gets what comes of it. -/
theorem System.Run.sends {s : System} (run : Run others counted (.start calls) s) {i : Nat}
    (here : s.attempts[i]? = some a) (called : calls[i]? = some (publisher, r))
    (takes : publisher.pipeline? r = some p) (steady : (others i).Steady) :
    ∃ sent result, p.Sends r sent result ∧ channelCalls a.past <+: sent ∧
      (a.isSettled → channelCalls a.past = sent) ∧ ∀ got, a.result? = some got → got = result := by
  obtain ⟨_, hcall, -, hcourse⟩ := run.onCourse here
  cases called.symm.trans hcall
  obtain ⟨events, result, hstory, hcomplete, hawaited⟩ :=
    Attempt.awaited_of_steady steady takes a.name
  refine ⟨channelCalls events, result, Pipeline.run_sends hstory, ?_, ?_, ?_⟩
  · have hbegins := hcourse.past_prefix
    rw [hawaited] at hbegins
    exact channelCalls_prefix hbegins
  · intro settled
    -- with its caller or without, the attempt has come to the same end
    rcases hcourse.of_settled settled with ⟨work, hend⟩ | ⟨whole, work, dispatched, hend⟩
    · rw [hawaited] at hend
      cases hend
      rfl
    · cases (Publisher.dispatch_of_pipeline? takes).symm.trans dispatched
      rw [hcomplete] at hend
      cases hend
      rfl
  · intro got hgot
    have hend := hcourse.awaited_eq (Attempt.caller_of_result? hgot) rfl
    rw [hawaited] at hend
    cases hend
    rfl

/-! ## Contracts -/

namespace Pipeline.Sends

/-- Whatever is sent, the check found nothing wrong. -/
theorem sound {c : Call} (h : p.Sends r sent result) (hc : c ∈ sent) : p.variant.fault? r = none := by
  cases h with
  | nothing faulty => cases hc
  | imported sound => exact sound
  | everything sound unbroken delivery => exact sound

/-- A publication comes of a block that was handed to the import. -/
theorem importCall_mem {publication : Publication} (h : p.Sends r sent (.ok publication)) :
    p.variant.importCall r ∈ sent := by
  cases h with
  | everything sound unbroken delivery => exact List.mem_cons_self

/-- Only one call ever goes to the import. -/
theorem eq_importCall {c : Call} (h : p.Sends r sent result) (hc : c ∈ sent) (himport : c.isImport) :
    c = p.variant.importCall r := by
  cases h with
  | nothing faulty => cases hc
  | imported sound => exact List.mem_singleton.mp hc
  | everything sound unbroken delivery =>
      rcases List.mem_cons.mp hc with hc | hc
      · exact hc
      rcases List.mem_cons.mp hc with rfl | hc
      · cases himport
      · obtain ⟨sidecar, -, rfl⟩ := List.mem_map.mp hc
        cases himport

theorem sidecar?_importCall (v : Variant) (r : Request) : (v.importCall r).sidecar? = none := by
  cases v <;> rfl

/-- No sidecar is offered, or all of them are; and if anything goes to gossip, all of them are. -/
theorem offered (h : p.Sends r sent result) :
    sent.filterMap Call.sidecar? <+: p.variant.sidecarsSent r ∧
      ∀ c ∈ sent, c.isGossip → sent.filterMap Call.sidecar? = p.variant.sidecarsSent r := by
  cases h with
  | nothing faulty => exact ⟨List.nil_prefix, by simp⟩
  | imported sound =>
      rw [List.filterMap_cons_none (sidecar?_importCall p.variant r)]
      refine ⟨List.nil_prefix, ?_⟩
      intro c hc hgossip
      rw [List.mem_singleton.mp hc] at hgossip
      cases hvariant : p.variant <;> rw [hvariant] at hgossip <;> cases hgossip
  | everything sound unbroken delivery =>
      rw [List.filterMap_cons_none (sidecar?_importCall p.variant r), List.filterMap_cons_none (by rfl),
        filterMap_gossipSidecar]
      exact ⟨List.prefix_refl _, fun _ _ _ => rfl⟩

/-- The report counts every sidecar once, and names those that were refused in their order. -/
theorem report {publication : Publication} (h : p.Sends r sent (.ok publication)) :
    publication.delivery.sidecarsTaken + publication.delivery.sidecarsRefused.length
        = (p.variant.sidecarsSent r).length ∧
      publication.delivery.sidecarsRefused.Sublist ((p.variant.sidecarsSent r).map (·.index)) := by
  cases h with
  | everything sound unbroken delivery =>
      obtain ⟨-, hsidecars⟩ := Option.or_eq_none_iff.mp unbroken
      rw [delivery]
      simp only [GossipReplies.delivery, List.length_map]
      exact ⟨length_taken_add_refused hsidecars, (sidecarsWhere_sublist ..).map _⟩

end Pipeline.Sends

/-- What an attempt sees to where the block's fork carries blobs and allows `limit` of them. -/
structure Attempt.CarriesBlobs (a : Attempt) (r : Request) (limit : UInt64) : Prop where
  /-- Nothing is imported or broadcast but a block within the limit, with its own sidecars. -/
  checked : (∃ c ∈ callsIn a.past, c.isImport ∨ c.isGossip) →
    r.block.commitments.length ≤ limit.toNat ∧ r.block.MatchedBy r.sidecars
  /-- The import is handed these sidecars. -/
  imports : ∀ c ∈ callsIn a.past, c.isImport → c = .importWithSidecars r.block r.sidecars r.level
  /-- Gossip is offered these sidecars, in their order. -/
  offers : sidecarsOffered a.past <+: r.sidecars
  /-- A broadcast that is over has offered all of them. -/
  offers_all : a.isSettled → (∃ c ∈ callsIn a.past, c.isGossip) → sidecarsOffered a.past = r.sidecars
  /-- Each of them was taken or refused. -/
  accounts : ∀ publication, a.result? = some (.ok publication) →
    publication.delivery.sidecarsTaken + publication.delivery.sidecarsRefused.length
      = r.block.commitments.length
  in_order : ∀ publication, a.result? = some (.ok publication) →
    publication.delivery.sidecarsRefused.Pairwise (· < ·)

/-- What an attempt sees to where the block's fork has no blobs: no sidecar goes anywhere. -/
structure Attempt.CarriesNoBlobs (a : Attempt) (r : Request) : Prop where
  imports : ∀ c ∈ callsIn a.past, c.isImport → c = .importBlock r.block r.level
  offers : sidecarsOffered a.past = []
  accounts : ∀ publication, a.result? = some (.ok publication) →
    publication.delivery.sidecarsTaken = 0 ∧ publication.delivery.sidecarsRefused = []

/-- Where the variant has blobs, what is sent is the block with its own sidecars. -/
theorem Pipeline.Sends.carriesBlobs {limit : UInt64} {ledger : Bool} (h : p.Sends r sent result)
    (hvariant : p.variant = .withBlobs limit ledger) (hbegins : channelCalls a.past <+: sent)
    (hsettled : a.isSettled → channelCalls a.past = sent)
    (hresult : ∀ got, a.result? = some got → got = result) : a.CarriesBlobs r limit := by
  have hsent {c : Call} (hc : c ∈ callsIn a.past) (hchannel : c.isImport ∨ c.isGossip) : c ∈ sent :=
    hbegins.subset (mem_channelCalls.mpr ⟨hc, hchannel⟩)
  have hmatched {c : Call} (hc : c ∈ sent) :
      r.block.commitments.length ≤ limit.toNat ∧ r.block.MatchedBy r.sidecars := by
    have hsound := h.sound hc
    rw [hvariant] at hsound
    exact SignedBlock.sidecarFault?_eq_none_iff.mp hsound
  have hsidecars : p.variant.sidecarsSent r = r.sidecars := by rw [hvariant]; rfl
  obtain ⟨hoffered, hoffered_all⟩ := h.offered
  rw [hsidecars] at hoffered hoffered_all
  refine ⟨?_, ?_, ?_, ?_, ?_, ?_⟩
  · rintro ⟨c, hc, hchannel⟩
    exact hmatched (hsent hc hchannel)
  · intro c hc himport
    rw [h.eq_importCall (hsent hc (Or.inl himport)) himport, hvariant]
    rfl
  · rw [sidecarsOffered_eq]
    exact (hbegins.filterMap _).trans hoffered
  · rintro settled ⟨c, hc, hgossip⟩
    rw [sidecarsOffered_eq, hsettled settled]
    exact hoffered_all c (hsent hc (Or.inr hgossip)) hgossip
  -- a publication comes of an attempt that sent everything, so the check found nothing wrong
  · intro publication hgot
    cases hresult _ hgot
    have hone := (hmatched (h.importCall_mem)).2.one_each
    rw [h.report.1, hsidecars, hone]
  · intro publication hgot
    cases hresult _ hgot
    have hindices := (hmatched (h.importCall_mem)).2.indices
    have hrefused := h.report.2
    rw [hsidecars] at hrefused
    exact hindices.sublist hrefused

/-- Where the variant has no blobs, what is sent is the block alone. -/
theorem Pipeline.Sends.carriesNoBlobs (h : p.Sends r sent result) (hvariant : p.variant = .plain)
    (hbegins : channelCalls a.past <+: sent)
    (hresult : ∀ got, a.result? = some got → got = result) : a.CarriesNoBlobs r := by
  have hnone : p.variant.sidecarsSent r = [] := by rw [hvariant]; rfl
  refine ⟨?_, ?_, ?_⟩
  · intro c hc himport
    have hsent : c ∈ sent := hbegins.subset (mem_channelCalls.mpr ⟨hc, Or.inl himport⟩)
    rw [h.eq_importCall hsent himport, hvariant]
    rfl
  · have hoffered := (hbegins.filterMap Call.sidecar?).trans h.offered.1
    rw [hnone, ← sidecarsOffered_eq] at hoffered
    exact List.prefix_nil.mp hoffered
  · intro publication hgot
    cases hresult _ hgot
    have hcount := h.report.1
    rw [hnone] at hcount
    simp only [List.length_nil, Nat.add_eq_zero_iff, List.length_eq_zero_iff] at hcount
    exact hcount

/-- What a successful set-up comes to. -/
theorem Selector.eq_of_complete_ofSettings {setup : Collaborators} {s : Settings} {clock? : Option SlotClock}
    {ledger : Bool} {before : List Event} {selector : Selector}
    (built : ((ofSettings s clock? ledger).complete setup before).1 = .returned (.ok selector)) :
    s.fault? = none ∧ selector = s.selector clock? ledger := by
  have hreturns : (ofSettings s clock? ledger).ReturnsOnly fun made =>
      ∀ selector, made = .ok selector → s.fault? = none ∧ selector = s.selector clock? ledger := by
    unfold ofSettings
    cases s.fault? with
    | some fault => exact nofun
    | none =>
        refine returnsOnly_bind fun _ => ?_
        intro selector hmade
        cases hmade
        exact ⟨rfl, s.foldl_register clock? ledger⟩
  obtain ⟨events, -, hstory⟩ := (ofSettings s clock? ledger).complete_story setup.crashOnlyOn_all before
  rw [built] at hstory
  exact hstory.of_returnsOnly hreturns selector rfl

/-- **Blocks travel with exactly their blobs.** In every run, whatever collaborators do that do not break
    down, an attempt through a selector that was set up from settings carries the blobs of a block whose fork
    has them, within the limit of the fork, and no sidecar at all where the fork has none. -/
theorem System.Run.blobContract {setup : Collaborators} {settings : Settings} {clock? : Option SlotClock}
    {ledger : Bool} {before : List Event} {selector : Selector}
    (built : ((Selector.ofSettings settings clock? ledger).complete setup before).1
      = .returned (.ok selector))
    {s : System} (run : Run others counted (.start calls) s) {i : Nat} (here : s.attempts[i]? = some a)
    (called : calls[i]? = some (.selector selector, r)) (steady : (others i).Steady) :
    let milestone := settings.forkSchedule.milestoneAt r.block.slot
    (milestone = .deneb ∨ milestone = .electra → a.CarriesBlobs r (settings.blobLimit milestone)) ∧
      (milestone < .deneb → a.CarriesNoBlobs r) := by
  intro milestone
  obtain ⟨valid, rfl⟩ := Selector.eq_of_complete_ofSettings built
  have htakes := Settings.pipeline?_selector valid clock? ledger r.block
  obtain ⟨sent, result, hsends, hbegins, hsettled, hresult⟩ := run.sends here called htakes steady
  refine ⟨?_, ?_⟩
  · intro hblobs
    have hvariant := settings.variant_standAlone_of_blobs clock? ledger hblobs
    exact hsends.carriesBlobs hvariant hbegins hsettled hresult
  · intro hbefore
    have hvariant := settings.variant_standAlone_of_lt clock? ledger hbefore
    exact hsends.carriesNoBlobs hvariant hbegins hresult

/-- A run that sends a block with its blob through a selector for a chain that carries blobs from genesis. -/
theorem blobContract_of_oneBlob :
    ∃ (selector : Selector) (s : System) (a : Attempt),
      ((Selector.ofSettings { forkSchedule := .genesis .deneb } none false).complete
        (.willing .standard) []).1 = .returned (.ok selector) ∧
      System.Run (fun _ => .willing .standard) false (.start [(.selector selector, .oneBlob)]) s ∧
      s.attempts[0]? = some a ∧ (Collaborators.willing .standard).Steady ∧
      sidecarsOffered a.past = Request.oneBlob.sidecars ∧ a.CarriesBlobs .oneBlob standardBlobLimit := by
  have steady := Collaborators.willing_steady .standard
  let p : Pipeline := { variant := .withBlobs standardBlobLimit false }
  let work := p.run Request.oneBlob.block Request.oneBlob.sidecars .standard
  let selector := Settings.selector { forkSchedule := .genesis .deneb } none false
  have hoffers : sidecarsOffered (work.complete (.willing .standard) []).2 = Request.oneBlob.sidecars := by
    simp only [work, p, Pipeline.run, Variant.importBlock, Request.oneBlob_sound]
    rfl
  have built : ((Selector.ofSettings { forkSchedule := .genesis .deneb } none false).complete
      (.willing .standard) []).1 = .returned (.ok selector) := rfl
  have start : System.Run (fun _ => .willing .standard) false (.start [(.selector selector, .oneBlob)]) _ :=
    .refl _
  have begun : (System.start [(Publisher.selector selector, Request.oneBlob)]).attempts[0]?
      = some { request := .oneBlob, name := "0", task? := some (.ofProgram work), caller := .waiting } := rfl
  obtain ⟨s, run, here⟩ := start.thenComplete 0 begun rfl
  refine ⟨selector, s, _, built, run, here, steady, ?_, ?_⟩
  · dsimp only
    rw [hoffers]
  · exact (run.blobContract built here rfl steady).1 (Or.inl rfl)

end BeaconBroadcast
