import BeaconBroadcast.Proofs.Publish.Calls
import BeaconBroadcast.Proofs.Publish.Course

/-!
# `BeaconBroadcast.Proofs.Publish.ImportGate` — nothing goes out that the import did not vouch for

Gossip cannot be taken back, so nothing may be offered to it on the strength of an import that failed, that
is still pending, or that belongs to somebody else's attempt. The history of an attempt falls apart at the
import's reply: before it nothing goes to gossip, after it nothing goes to the import, and if gossip is
called at all the import vouched for this very request.

## Contents
- **Vouching.** `Event.VouchesFor`; `ImportGated` says what is behind the calls to gossip in a history.
- **Parts.** `Parted` cuts a history at the import's reply; `Parted.importGated`: every beginning of such a
  history is gated.
- **Attempts.** `Attempt.Ending.importGated`: every ending of an attempt is gated. So is every attempt, at
  every moment, in every run of a system.
-/

namespace BeaconBroadcast

open Program

variable {fallible : Call → Prop} {publisher : Publisher} {r : Request}

/-! ## Vouching -/

/-- Whether the event is an answer in which the import, asked for this very request, takes the block and
    has checked it at the level of the request or above. -/
def Event.VouchesFor (r : Request) : Event → Prop
  | .answered (.importBlock block level) (.ok (.imported imported)) =>
      block = r.block ∧ level = r.level ∧ r.level ≤ imported.validatedAt
  | .answered (.importWithSidecars block sidecars level) (.ok (.imported imported)) =>
      block = r.block ∧ sidecars = r.sidecars ∧ level = r.level ∧ r.level ≤ imported.validatedAt
  | _ => False

/-- Whether the event is a reply of the import. -/
def Event.isImportReply : Event → Bool
  | .issued _ => false
  | .answered c _ => c.isImport
  | .crashed c _ => c.isImport

theorem Event.call_isImport {e : Event} (h : e.isImportReply) : e.call.isImport := by
  cases e with
  | issued c => cases h
  | answered c a => exact h
  | crashed c crash => exact h

theorem Event.VouchesFor.isImportReply {e : Event} (h : e.VouchesFor r) : e.isImportReply := by
  unfold Event.VouchesFor at h
  split at h
  · rfl
  · rfl
  · exact h.elim

/-- Whether a request gets as far as the import. -/
def Publisher.TakesIn (publisher : Publisher) (r : Request) : Prop :=
  ∃ p, publisher.pipeline? r = some p ∧ p.variant.fault? r = none

/-- What is behind the calls to gossip in the history of an attempt. -/
structure ImportGated (publisher : Publisher) (r : Request) (past : List Event) : Prop where
  /-- Before each of them the import vouched for the request. -/
  vouched : ∀ before c after, past = before ++ .issued c :: after → c.isGossip →
    ∃ e ∈ before, e.VouchesFor r
  /-- There is none once the import replied anything else. -/
  held_back : ∀ e ∈ past, e.isImportReply → ¬ e.VouchesFor r → ∀ c ∈ callsIn past, ¬ c.isGossip
  /-- There is none as long as the import has not replied. -/
  pending : (∀ e ∈ past, ¬ e.isImportReply) → ∀ c ∈ callsIn past, ¬ c.isGossip
  /-- There is none where the request does not get as far as the import. -/
  unasked : ¬ publisher.TakesIn r → ∀ c ∈ callsIn past, c.isQuiet
  one_import : (callsIn past).countP Call.isImport ≤ 1
  one_block : (callsIn past).countP Call.isBlockGossip ≤ 1

/-! ## Parts -/

/-- A history that the import's reply cuts in two: nothing goes to gossip before it, nothing to the import
    after it, and if anything goes to gossip at all the import vouched for the request. -/
structure Parted (publisher : Publisher) (r : Request) (lead tail : List Event) : Prop where
  lead_offers_nothing : ∀ e ∈ lead, e.call.isGossip = false
  tail_asks_nothing : ∀ e ∈ tail, e.call.isImport = false
  unasked : ¬ publisher.TakesIn r → ∀ e ∈ lead, e.call.isImport = false
  opened : (∀ e ∈ tail, e.call.isGossip = false) ∨
    (∃ e ∈ lead, e.VouchesFor r) ∧ ∀ e ∈ lead, e.isImportReply → e.VouchesFor r

namespace Parted

variable {lead tail : List Event}

/-- Where the import was not asked, or has just been, gossip has not been called. -/
theorem of_lead (hgossip : ∀ e ∈ lead, e.call.isGossip = false)
    (hunasked : ¬ publisher.TakesIn r → ∀ e ∈ lead, e.call.isImport = false) :
    Parted publisher r lead [] :=
  ⟨hgossip, by simp, hunasked, Or.inl (by simp)⟩

theorem of_quiet (h : ∀ e ∈ lead, e.call.isQuiet) : Parted publisher r lead [] :=
  of_lead (fun e he => (Call.isQuiet_iff.mp (h e he)).2) fun _ e he => (Call.isQuiet_iff.mp (h e he)).1

/-- Quiet calls at the end change nothing. -/
theorem extend {more : List Event} (h : Parted publisher r lead tail)
    (hquiet : ∀ e ∈ more, e.call.isQuiet) : Parted publisher r lead (tail ++ more) := by
  refine ⟨h.lead_offers_nothing, ?_, h.unasked, h.opened.imp_left fun hclosed => ?_⟩
  · intro e he
    rcases List.mem_append.mp he with he | he
    · exact h.tail_asks_nothing e he
    · exact (Call.isQuiet_iff.mp (hquiet e he)).1
  · intro e he
    rcases List.mem_append.mp he with he | he
    · exact hclosed e he
    · exact (Call.isQuiet_iff.mp (hquiet e he)).2

/-- A call to gossip stands after the import's reply. -/
theorem mem_tail {e : Event} (h : Parted publisher r lead tail) (he : e ∈ lead ++ tail)
    (hgossip : e.call.isGossip) : e ∈ tail := by
  rcases List.mem_append.mp he with he | he
  · exact absurd ((h.lead_offers_nothing e he).symm.trans hgossip) Bool.false_ne_true
  · exact he

/-- A reply of the import stands in the first part. -/
theorem mem_lead {e : Event} (h : Parted publisher r lead tail) (he : e ∈ lead ++ tail)
    (himport : e.call.isImport) : e ∈ lead := by
  rcases List.mem_append.mp he with he | he
  · exact he
  · exact absurd ((h.tail_asks_nothing e he).symm.trans himport) Bool.false_ne_true

/-- Where anything goes to gossip, the import has vouched, and has replied nothing else. -/
theorem vouches {e : Event} (h : Parted publisher r lead tail) (he : e ∈ lead ++ tail)
    (hgossip : e.call.isGossip) :
    (∃ e ∈ lead, e.VouchesFor r) ∧ ∀ e ∈ lead, e.isImportReply → e.VouchesFor r := by
  rcases h.opened with hclosed | hopened
  · exact absurd ((hclosed e (h.mem_tail he hgossip)).symm.trans hgossip) Bool.false_ne_true
  · exact hopened

/-- The first part has passed by the time of any call to gossip. -/
theorem subset_before {before after : List Event} {e : Event} (h : Parted publisher r lead tail)
    (hsplit : lead ++ tail = before ++ e :: after) (hgossip : e.call.isGossip) : lead ⊆ before := by
  intro x hx
  rcases List.append_eq_append_iff.mp hsplit with ⟨middle, rfl, -⟩ | ⟨middle, hlead, hrest⟩
  · exact List.mem_append_left middle hx
  · cases middle with
    | nil => rwa [hlead, List.append_nil] at hx
    | cons y middle =>
        -- then the call to gossip would stand in the first part
        cases hrest
        have hy : e ∈ lead := by rw [hlead]; simp
        exact absurd ((h.lead_offers_nothing e hy).symm.trans hgossip) Bool.false_ne_true

/-- **Every beginning of a history that falls apart at the import's reply is gated.** -/
theorem importGated {past : List Event} (h : Parted publisher r lead tail)
    (hpast : past <+: lead ++ tail)
    (hone_import : (callsIn (lead ++ tail)).countP Call.isImport ≤ 1)
    (hone_block : (callsIn (lead ++ tail)).countP Call.isBlockGossip ≤ 1) :
    ImportGated publisher r past := by
  have hcalls : (callsIn past).Sublist (callsIn (lead ++ tail)) := hpast.sublist.filterMap _
  have hmem {c : Call} (hc : c ∈ callsIn past) : .issued c ∈ lead ++ tail :=
    hpast.subset (mem_callsIn.mp hc)
  have hvouched (before : List Event) (c : Call) (after : List Event)
      (hsplit : past = before ++ .issued c :: after)
      (hc : c.isGossip) : ∃ e ∈ before, e.VouchesFor r := by
    obtain ⟨rest, hrest⟩ := hpast
    have hwhole : lead ++ tail = before ++ .issued c :: (after ++ rest) := by
      rw [← hrest, hsplit, List.append_assoc, List.cons_append]
    obtain ⟨e, he, hvouches⟩ := (h.vouches (e := .issued c) (by rw [hwhole]; simp) hc).1
    exact ⟨e, h.subset_before hwhole hc he, hvouches⟩
  refine ⟨hvouched, ?_, ?_, ?_, ?_, ?_⟩
  -- a reply that does not vouch would stand in the first part, where all replies vouch
  · intro e he hreply hother c hc hgossip
    have hlead : e ∈ lead := h.mem_lead (hpast.subset he) (Event.call_isImport hreply)
    exact hother ((h.vouches (hmem hc) hgossip).2 e hlead hreply)
  · intro hnone c hc hgossip
    obtain ⟨before, after, hsplit⟩ := List.append_of_mem (mem_callsIn.mp hc)
    obtain ⟨e, he, hvouches⟩ := hvouched before c after hsplit hgossip
    exact hnone e (by rw [hsplit]; exact List.mem_append_left _ he) hvouches.isImportReply
  · intro hnot c hc
    refine Call.isQuiet_iff.mpr ⟨?_, ?_⟩
    · rcases List.mem_append.mp (hmem hc) with hc | hc
      · exact h.unasked hnot _ hc
      · exact h.tail_asks_nothing _ hc
    · by_cases hgossip : c.isGossip
      · obtain ⟨⟨e, he, hvouches⟩, -⟩ := h.vouches (hmem hc) hgossip
        have himport : e.call.isImport := Event.call_isImport hvouches.isImportReply
        exact absurd ((h.unasked hnot e he).symm.trans himport) Bool.false_ne_true
      · exact eq_false_of_ne_true hgossip
  · exact Nat.le_trans hcalls.countP_le hone_import
  · exact Nat.le_trans hcalls.countP_le hone_block

end Parted

/-! ## Attempts -/

/-- The gate lets through what was imported at the level asked for, and nothing else. -/
theorem ImportAnswer.of_gate {level : Level} {answer : ImportAnswer} {imported : ImportedBlock}
    (h : answer.gate level = .imported imported) :
    answer = .imported imported ∧ level ≤ imported.validatedAt := by
  unfold ImportAnswer.gate at h
  split at h
  · next block =>
      split at h
      · next hlevel =>
          cases h
          exact ⟨rfl, of_decide_eq_true hlevel⟩
      · cases h
  · cases h
  · next hother _ => exact absurd h (hother imported)

theorem ImportAnswer.of_ofChannel {answer : Except ChannelFault ImportAnswer} {imported : ImportedBlock}
    (h : ofChannel answer = .imported imported) : answer = .ok (.imported imported) := by
  cases answer with
  | ok a => rw [show a = .imported imported from h]
  | error fault => cases h

namespace Variant

variable {v : Variant} {quiet events : List Event}

theorem importExchange_isGossip {reply : Except Crash (Except ChannelFault ImportAnswer)} {e : Event}
    (he : e ∈ v.importExchange r reply) : e.call.isGossip = false := by
  cases v <;> cases reply <;> rcases mem_exchange.mp he with rfl | rfl <;> rfl

/-- The exchange in which the import takes the block. -/
theorem importExchange_vouches {imported : ImportedBlock} (hlevel : r.level ≤ imported.validatedAt) :
    (∃ e ∈ v.importExchange r (.ok (.ok (.imported imported))), e.VouchesFor r) ∧
      ∀ e ∈ v.importExchange r (.ok (.ok (.imported imported))), e.isImportReply → e.VouchesFor r := by
  cases v with
  | plain =>
      refine ⟨⟨_, List.mem_cons_of_mem _ List.mem_cons_self, rfl, rfl, hlevel⟩, ?_⟩
      intro e he hreply
      rcases mem_exchange.mp he with rfl | rfl
      · cases hreply
      · exact ⟨rfl, rfl, hlevel⟩
  | withBlobs limit counted =>
      refine ⟨⟨_, List.mem_cons_of_mem _ List.mem_cons_self, rfl, rfl, rfl, hlevel⟩, ?_⟩
      intro e he hreply
      rcases mem_exchange.mp he with rfl | rfl
      · cases hreply
      · exact ⟨rfl, rfl, rfl, hlevel⟩

/-- An import offers nothing to gossip, and asks only for a request that it takes in. -/
theorem ImportStory.parted {p : Pipeline} {done : Progress ImportAnswer}
    (takes : publisher.pipeline? r = some p) (hquiet : ∀ e ∈ quiet, e.call.isNotice)
    (h : p.variant.ImportStory fallible r quiet events done) : Parted publisher r events [] := by
  have hnotices (e : Event) (he : e ∈ quiet) : e.call.isQuiet := isQuiet_of_isNotice (hquiet e he)
  have hasked {reply : Except Crash (Except ChannelFault ImportAnswer)}
      (sound : p.variant.fault? r = none) :
      Parted publisher r (quiet ++ p.variant.importExchange r reply) [] := by
    refine .of_lead (fun e he => ?_) fun hnot => absurd ⟨p, takes, sound⟩ hnot
    rcases List.mem_append.mp he with he | he
    · exact (Call.isQuiet_iff.mp (hnotices e he)).2
    · exact importExchange_isGossip he
  cases h with
  | cutShort may => exact .of_quiet hnotices
  | turnedAway faulty => exact .of_quiet hnotices
  | brokeDown sound => exact hasked sound
  | answered sound => exact hasked sound

/-- What the gate lets through, the import has vouched for. -/
theorem ImportStory.vouches {answer : ImportAnswer} {imported : ImportedBlock}
    (hquiet : ∀ e ∈ quiet, e.call.isNotice)
    (h : v.ImportStory fallible r quiet events (.returned answer))
    (hgate : answer.gate r.level = .imported imported) :
    (∃ e ∈ events, e.VouchesFor r) ∧ ∀ e ∈ events, e.isImportReply → e.VouchesFor r := by
  obtain ⟨hanswer, hlevel⟩ := ImportAnswer.of_gate hgate
  cases h with
  | turnedAway faulty => cases hanswer
  | answered sound =>
      cases ImportAnswer.of_ofChannel hanswer
      obtain ⟨⟨e, he, hvouches⟩, hall⟩ := importExchange_vouches (v := v) hlevel
      refine ⟨⟨e, List.mem_append_right quiet he, hvouches⟩, ?_⟩
      intro e he hreply
      rcases List.mem_append.mp he with he | he
      · -- a notice is no reply of the import
        have hnotice := (Call.isQuiet_iff.mp (isQuiet_of_isNotice (hquiet e he))).1
        exact absurd (hnotice.symm.trans (Event.call_isImport hreply)) Bool.false_ne_true
      · exact hall e he hreply

end Variant

/-- **The history of a pipeline falls apart at the import's reply.** -/
theorem Pipeline.run_parted {p : Pipeline} {events : List Event} {done : Progress PublishResult}
    (takes : publisher.pipeline? r = some p)
    (h : (p.run r.block r.sidecars r.level).Story fallible events done) :
    ∃ lead tail, events = lead ++ tail ∧ Parted publisher r lead tail := by
  rcases h.of_bind with ⟨crash, rfl, hnotice⟩ | ⟨_, first, rest, rfl, hnotice, hrest⟩
  · have hquiet (e : Event) (he : e ∈ events) : e.call.isQuiet :=
      isQuiet_of_isNotice (isNotice_of_notify hnotice e he)
    exact ⟨events, [], (List.append_nil _).symm, .of_quiet hquiet⟩
  -- the notice at the start is one more before the import
  have hall {quiet : List Event} (hquiet : ∀ e ∈ quiet, e.call.isNotice) :
      ∀ e ∈ first ++ quiet, e.call.isNotice := by
    intro e he
    rcases List.mem_append.mp he with he | he
    · exact isNotice_of_notify hnotice e he
    · exact hquiet e he
  rcases hrest.of_bind with ⟨crash, rfl, himport⟩ | ⟨answer, second, rest, rfl, himport, hrest⟩
  · obtain ⟨quiet, hquiet, himport⟩ := Variant.importBlock_story himport
    exact ⟨_, [], (List.append_nil _).symm, (himport.prepend first).parted takes (hall hquiet)⟩
  · obtain ⟨quiet, hquiet, himport⟩ := Variant.importBlock_story himport
    have hlead : Parted publisher r (first ++ second) [] :=
      (himport.prepend first).parted takes (hall hquiet)
    have hrestQuiet (h : ∀ imported, answer.gate r.level ≠ .imported imported) :
        Parted publisher r (first ++ second) rest :=
      hlead.extend (hrest.forall_call (callsOnly_reported (fun c hc => hc) (conclude_quiet p h)))
    refine ⟨first ++ second, rest, (List.append_assoc ..).symm, ?_⟩
    -- only what the gate lets through is broadcast, and that the import has vouched for
    cases hgate : answer.gate r.level with
    | imported imported =>
        have htail : ∀ e ∈ rest, e.call.isImport = false :=
          hrest.forall_call (callsOnly_reported (P := fun c => c.isImport = false)
            (fun c hc => (Call.isQuiet_iff.mp hc).1) (conclude_callsOnly p _))
        have hvouches := (himport.prepend first).vouches (hall hquiet) hgate
        exact ⟨hlead.lead_offers_nothing, htail, hlead.unasked, Or.inr hvouches⟩
    | refused verdict => exact hrestQuiet (by rw [hgate]; exact fun _ h => nomatch h)
    | failed reason => exact hrestQuiet (by rw [hgate]; exact fun _ h => nomatch h)

/-- **Every history of an attempt is gated**, and so is every beginning of it. -/
theorem Attempt.Ending.importGated {name : String} {past events : List Event}
    {done : Progress PublishResult} (h : Ending fallible publisher r name events done)
    (hpast : past <+: events) : ImportGated publisher r past := by
  cases h with
  | direct dispatched story =>
      obtain ⟨hnone, milestone, rfl⟩ := Publisher.of_dispatch_direct dispatched
      have hcalls := notAttempted_quiet (.noPublisher milestone r.block.slot) r.block
        (.error (.unsupported milestone))
      have hquiet : ∀ e ∈ events, e.call.isQuiet := story.forall_call hcalls
      have hparted : Parted publisher r [] ([] ++ events) :=
        Parted.extend (.of_quiet fun e he => absurd he List.not_mem_nil) hquiet
      have himports := story.count_le
        (CallsOnly.atMost (hcalls.mono fun c hc => (Call.isQuiet_iff.mp hc).1) 1)
      have hblocks := story.count_le
        (CallsOnly.atMost (hcalls.mono fun c hc => Call.isBlockGossip_of_isQuiet hc) 1)
      exact hparted.importGated hpast himports hblocks
  | returned dispatched story =>
      obtain ⟨p, takes, rfl⟩ := Publisher.of_dispatch_task dispatched
      obtain ⟨lead, tail, rfl, hparted⟩ := Pipeline.run_parted takes story
      have himports := story.count_le (run_atMost_import p)
      have hblocks := story.count_le (run_atMost_block p)
      exact hparted.importGated hpast himports hblocks
  | @takenOver work first second crash done dispatched broke story =>
      obtain ⟨p, takes, rfl⟩ := Publisher.of_dispatch_task dispatched
      obtain ⟨lead, tail, rfl, hparted⟩ := Pipeline.run_parted takes broke
      have hcalls := notAttempted_quiet (.aborted r.block.root r.block.slot (crash.text name)) r.block
        (.error (.internal (crash.text name)))
      -- what the caller does for a task that broke off is quiet, so it counts for nothing
      have hmore {counts : Call → Bool} (hfirst : (callsIn (lead ++ tail)).countP counts ≤ 1)
          (hnone : ∀ c : Call, c.isQuiet → counts c = false) :
          (callsIn (lead ++ (tail ++ second))).countP counts ≤ 1 := by
        have hsecond := story.count_le (CallsOnly.atMost (hcalls.mono hnone) 0)
        rw [← List.append_assoc, callsIn_append, List.countP_append]
        exact Nat.add_le_add hfirst hsecond
      rw [List.append_assoc] at hpast
      have hextended : Parted publisher r lead (tail ++ second) :=
        hparted.extend (story.forall_call hcalls)
      have himports := hmore (broke.count_le (run_atMost_import p)) fun c hc => (Call.isQuiet_iff.mp hc).1
      have hblocks := hmore (broke.count_le (run_atMost_block p)) fun c hc =>
        Call.isBlockGossip_of_isQuiet hc
      exact hextended.importGated hpast himports hblocks

variable {calls : List (Publisher × Request)} {others : Nat → Collaborators} {counted : Bool}

/-- **In every run, whatever the collaborators do, whichever callers leave and in whatever order the
    attempts move, a call to gossip follows an import that vouched for the attempt's own request.** -/
theorem System.Run.gossip_follows_own_import {s : System} (run : Run others counted (.start calls) s)
    {i : Nat} {a : Attempt} (here : s.attempts[i]? = some a) (called : calls[i]? = some (publisher, r)) :
    ImportGated publisher r a.past := by
  obtain ⟨_, hcall, -, hcourse⟩ := run.onCourse here
  cases called.symm.trans hcall
  exact (Attempt.awaited_ending (others i).crashOnlyOn_all).importGated hcourse.past_prefix

/-- A run in which a block is imported with its blob and gossip takes the block alone. -/
theorem gossip_follows_own_import_when_refused :
    ∃ (s : System) (a : Attempt),
      System.Run (fun _ => .refusing 0) false
        (.start [(.single { variant := .withBlobs standardBlobLimit true }, .oneBlob)]) s ∧
      s.attempts[0]? = some a ∧ .answered (.gossipBlock Request.oneBlob.block) (.ok ()) ∈ a.past ∧
      .answered (.gossipSidecar .lone) (.error .queueFull) ∈ a.past ∧
      ImportGated (.single { variant := .withBlobs standardBlobLimit true }) .oneBlob a.past := by
  obtain ⟨s, run, hs⟩ := System.exists_run_oneBlob (.single { variant := .withBlobs standardBlobLimit true }) rfl false
  have here : s.attempts[0]? = some (.oneBlob true) := congrArg (·[0]?) hs
  refine ⟨s, _, run, here, ?_, ?_, run.gossip_follows_own_import here rfl⟩
  · simp [Attempt.oneBlob, Request.oneBlobPast, exchange, Event.replied]
  · simp [Attempt.oneBlob, Request.oneBlobPast, exchange, Event.replied]

end BeaconBroadcast
