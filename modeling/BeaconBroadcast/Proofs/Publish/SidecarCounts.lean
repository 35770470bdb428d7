import BeaconBroadcast.Proofs.Publish.Calls
import BeaconBroadcast.Proofs.Publish.Results
import Mathlib.Algebra.GroupWithZero.Nat

/-!
# `BeaconBroadcast.Proofs.Publish.SidecarCounts` — the ledger hears of every sidecar once

A broadcast that counts offers its sidecars one after the other and tells the ledger at the end how many gossip
took and how many it refused. In between the two numbers are apart; at the end of every part of an attempt they are
the same again, whether or not the import or the slot clock breaks down.

## Contents
- **Counts.** What gossip said of sidecars and what the ledger was told of them; `SidecarsCounted`.
- **Parts.** `Program.KeepsCount`: parts that leave counted sidecars behind, and how they are put together.
- **Broadcast.** The offers of a broadcast, and the count at its end.
- **Attempts.** `Attempt.OnCourse.sidecarsCounted`: a settled attempt has counted what it offered.
-/

namespace BeaconBroadcast

open Program

/-! ## Counts -/

namespace Event

/-- Whether gossip took a sidecar. -/
def takesSidecar : Event → Bool
  | answered (.gossipSidecar _) (.ok _) => true
  | _ => false

/-- Whether gossip refused a sidecar. -/
def refusesSidecar : Event → Bool
  | answered (.gossipSidecar _) (.error _) => true
  | _ => false

/-- How many sidecars the ledger hears were taken. -/
def countedTaken : Event → Nat
  | answered (.countSidecars taken _) _ => taken
  | _ => 0

/-- How many sidecars the ledger hears were refused. -/
def countedRefused : Event → Nat
  | answered (.countSidecars _ refused) _ => refused
  | _ => 0

end Event

/-- What the ledger heard of sidecars is what gossip said of them. -/
structure SidecarsCounted (past : List Event) : Prop where
  taken : (past.map Event.countedTaken).sum = past.countP Event.takesSidecar
  refused : (past.map Event.countedRefused).sum = past.countP Event.refusesSidecar

/-- Whether the call offers a sidecar or counts some. -/
def Call.isAboutSidecars : Call → Bool
  | gossipSidecar _ => true
  | countSidecars .. => true
  | _ => false

namespace SidecarsCounted

variable {first second past : List Event}

theorem append (h : SidecarsCounted first) (h' : SidecarsCounted second) : SidecarsCounted (first ++ second) := by
  refine ⟨?_, ?_⟩
  · rw [List.map_append, List.sum_append, List.countP_append, h.taken, h'.taken]
  · rw [List.map_append, List.sum_append, List.countP_append, h.refused, h'.refused]

/-- Where nobody speaks of sidecars, nothing is missing. -/
theorem of_idle (h : ∀ e ∈ past, e.call.isAboutSidecars = false) : SidecarsCounted past := by
  induction past with
  | nil => exact ⟨rfl, rfl⟩
  | cons e past ih =>
      obtain ⟨htaken, hrefused⟩ := ih fun e he => h e (List.mem_cons_of_mem _ he)
      have hidle := h e List.mem_cons_self
      have hsingle : SidecarsCounted [e] := by
        cases e with
        | issued c => exact ⟨rfl, rfl⟩
        | answered c a => cases c <;> first | exact ⟨rfl, rfl⟩ | cases hidle
        | crashed c crash => exact ⟨rfl, rfl⟩
      exact hsingle.append ⟨htaken, hrefused⟩

end SidecarsCounted

/-! ## Parts -/

/-- Whether the call goes to the import or to the slot clock. -/
def Call.isImportOrClock (c : Call) : Bool := c.isImport || c == .readClock

/-- Gossip answers, as do the listeners, the ledger and the log; only the import and the slot clock break down. -/
def Collaborators.GossipAnswers (others : Collaborators) : Prop := others.CrashOnlyOn fun c => c.isImportOrClock

theorem Call.canCrash_of_isImportOrClock {c : Call} (h : c.isImportOrClock) : c.canCrash := by
  cases c <;> first | rfl | cases h

theorem Call.not_isImportOrClock_of_isOfBroadcast {c : Call} (h : c.isOfBroadcast) : ¬ c.isImportOrClock := by
  cases c <;> first | exact Bool.false_ne_true | cases h

theorem Collaborators.GossipAnswers.dependable {others : Collaborators} (h : others.GossipAnswers) :
    others.Dependable := fun past c hcrash => Call.canCrash_of_isImportOrClock (h past c hcrash)

/-- The stories in which only the import and the slot clock crash. -/
abbrev Program.GossipStory {α : Type} (p : Program α) (events : List Event) (done : Progress α) : Prop :=
  p.Story (fun c => c.isImportOrClock) events done

/-- Whatever the program comes to, it leaves counted sidecars behind. -/
def Program.KeepsCount {α : Type} (p : Program α) : Prop :=
  ∀ (events : List Event) (done : Progress α), p.GossipStory events done → SidecarsCounted events

namespace Program

variable {α β : Type}

theorem KeepsCount.bind {p : Program α} {f : α → Program β} (hp : p.KeepsCount)
    (hf : ∀ a, (f a).KeepsCount) : (p >>= f).KeepsCount := by
  intro events done h
  rcases h.of_bind with ⟨crash, -, hfirst⟩ | ⟨a, first, second, rfl, hfirst, hsecond⟩
  · exact hp events _ hfirst
  · exact (hp first _ hfirst).append (hf a second done hsecond)

/-- A part that does not speak of sidecars has nothing to count. -/
theorem keepsCount_of_idle {p : Program α} (h : p.CallsOnly fun c => c.isAboutSidecars = false) : p.KeepsCount :=
  fun _ _ hstory => .of_idle (hstory.forall_call h)

theorem keepsCount_pure (a : α) : (Pure.pure a : Program α).KeepsCount := keepsCount_of_idle (callsOnly_pure a)

theorem keepsCount_request {c : Call} (h : c.isAboutSidecars = false) : (request c).KeepsCount :=
  keepsCount_of_idle (callsOnly_request h)

end Program

theorem report_keepsCount (block : SignedBlock) (outcome : Outcome) : (report block outcome).KeepsCount :=
  (keepsCount_request rfl).bind fun _ => keepsCount_request rfl

theorem tellDelay_keepsCount (block : SignedBlock) (grid? : Option SlotGrid) :
    (tellDelay block grid?).KeepsCount := by
  cases grid? with
  | none => exact keepsCount_pure ()
  | some grid =>
      refine (keepsCount_request rfl).bind fun now => ?_
      split
      · exact keepsCount_request rfl
      · exact keepsCount_pure ()

theorem importBlock_keepsCount (r : Request) (v : Variant) :
    (v.importBlock r.block r.sidecars r.level).KeepsCount := by
  refine keepsCount_of_idle ((importBlock_isOfImport v).mono ?_)
  intro c hc
  cases c <;> first | rfl | cases hc

/-! ## Broadcast -/

/-- What a delivery has more than another, after some offers of sidecars of which none has been counted. -/
structure Delivery.GrownBy (d : Delivery) (events : List Event) (later : Delivery) : Prop where
  taken : later.sidecarsTaken = d.sidecarsTaken + events.countP Event.takesSidecar
  refused : later.sidecarsRefused.length = d.sidecarsRefused.length + events.countP Event.refusesSidecar
  taken_uncounted : (events.map Event.countedTaken).sum = 0
  refused_uncounted : (events.map Event.countedRefused).sum = 0

namespace Delivery.GrownBy

variable {d between later : Delivery} {sidecar : BlobSidecar} {first second : List Event}

theorem refl (d : Delivery) : d.GrownBy [] d := ⟨rfl, rfl, rfl, rfl⟩

theorem trans (h : d.GrownBy first between) (h' : between.GrownBy second later) :
    d.GrownBy (first ++ second) later := by
  refine ⟨?_, ?_, ?_, ?_⟩
  · rw [h'.taken, h.taken, List.countP_append, Nat.add_assoc]
  · rw [h'.refused, h.refused, List.countP_append, Nat.add_assoc]
  · rw [List.map_append, List.sum_append, h.taken_uncounted, h'.taken_uncounted]
  · rw [List.map_append, List.sum_append, h.refused_uncounted, h'.refused_uncounted]

theorem take (taken : Unit) : d.GrownBy (exchange (.gossipSidecar sidecar) (.ok (.ok taken))) d.take :=
  ⟨rfl, rfl, rfl, rfl⟩

theorem refuse (fault : GossipFault) :
    d.GrownBy (exchange (.gossipSidecar sidecar) (.ok (.error fault))) (d.refuse sidecar.index) :=
  ⟨rfl, List.length_append, rfl, rfl⟩

/-- What the log is told changes nothing. -/
theorem notice (notice : Notice) (told : Unit) : d.GrownBy (exchange (.notify notice) (.ok told)) d :=
  ⟨rfl, rfl, rfl, rfl⟩

end Delivery.GrownBy

/-- A call to someone who answers comes to an answer, and the rest follows. -/
theorem Program.GossipStory.of_request_bind {α : Type} {c : Call} {next : c.Answer → Program α}
    {events : List Event} {done : Progress α} (hc : c.isImportOrClock = false)
    (h : (request c >>= next).GossipStory events done) :
    ∃ answer rest, events = exchange c (.ok answer) ++ rest ∧ (next answer).GossipStory rest done := by
  have hanswers : ¬ c.isImportOrClock := by rw [hc]; exact Bool.false_ne_true
  rcases Story.of_bind h with ⟨crash, -, hcall⟩ | ⟨answer, first, rest, rfl, hcall, hrest⟩
  · obtain ⟨a, -, hdone⟩ := request_story_of_not hanswers hcall
    cases hdone
  · obtain rfl := hcall.of_request_returned
    exact ⟨answer, rest, rfl, hrest⟩

/-- **What gossip says of the sidecars it is offered is in the delivery**, and nothing is counted yet. -/
theorem offerSidecars_grownBy {block : SignedBlock} {sidecars : List BlobSidecar} {d : Delivery}
    {events : List Event} {done : Progress Delivery}
    (h : (offerSidecars block sidecars d).GossipStory events done) :
    ∃ later, done = .returned later ∧ d.GrownBy events later := by
  induction sidecars generalizing d events with
  | nil =>
      obtain ⟨rfl, rfl⟩ := Story.of_pure h
      exact ⟨d, rfl, .refl d⟩
  | cons sidecar sidecars ih =>
      obtain ⟨answer, rest, rfl, hrest⟩ := Program.GossipStory.of_request_bind rfl h
      cases answer with
      | ok taken =>
          obtain ⟨later, rfl, grown⟩ := ih hrest
          exact ⟨later, rfl, (Delivery.GrownBy.take taken).trans grown⟩
      | error fault =>
          obtain ⟨told, others, rfl, hothers⟩ := Program.GossipStory.of_request_bind rfl hrest
          obtain ⟨later, rfl, grown⟩ := ih hothers
          refine ⟨later, rfl, (Delivery.GrownBy.refuse fault).trans ?_⟩
          exact (Delivery.GrownBy.notice _ told).trans grown

/-- What was offered since there were no sidecars, and then is counted, is counted. -/
theorem Delivery.GrownBy.counted {taken : Bool} {later : Delivery} {events : List Event} {told : Unit}
    (h : (Delivery.ofBlock taken).GrownBy events later) :
    SidecarsCounted (events ++
      exchange (.countSidecars later.sidecarsTaken later.sidecarsRefused.length) (.ok told)) := by
  refine ⟨?_, ?_⟩
  · rw [List.map_append, List.sum_append, List.countP_append, h.taken_uncounted, Nat.zero_add]
    exact (Nat.zero_add _).trans (h.taken.trans (Nat.zero_add _))
  · rw [List.map_append, List.sum_append, List.countP_append, h.refused_uncounted, Nat.zero_add]
    exact (Nat.zero_add _).trans (h.refused.trans (Nat.zero_add _))

/-- Whether broadcasts of sidecars are counted, if there are any. -/
def Variant.isCounted : Variant → Bool
  | plain => true
  | withBlobs _ counted => counted

/-- **A broadcast that counts leaves counted sidecars behind.** -/
theorem broadcast_keepsCount (block : SignedBlock) (sidecars : List BlobSidecar) {v : Variant}
    (counts : v.isCounted) : (v.broadcast block sidecars).KeepsCount := by
  have hblock : (offerBlock block).KeepsCount := keepsCount_of_idle (offerBlock_callsOnly rfl fun _ _ _ => rfl)
  cases v with
  | plain => exact hblock.bind fun taken => keepsCount_pure _
  | withBlobs limit counted =>
      obtain rfl : counted = true := counts
      refine hblock.bind fun taken => ?_
      intro events done h
      -- between the offers and the count the sidecars are not counted, so the two are taken together
      rcases Story.of_bind h with ⟨crash, -, hoffers⟩ | ⟨later, first, rest, rfl, hoffers, hrest⟩
      · obtain ⟨later, hdone, -⟩ := offerSidecars_grownBy hoffers
        cases hdone
      · obtain ⟨_, hdone, grown⟩ := offerSidecars_grownBy hoffers
        cases hdone
        obtain ⟨told, last, rfl, hlast⟩ := Program.GossipStory.of_request_bind rfl hrest
        obtain ⟨rfl, -⟩ := Story.of_pure hlast
        rw [List.append_nil]
        exact grown.counted

/-! ## Attempts -/

/-- **A pipeline that counts leaves counted sidecars behind**, whatever it comes to. -/
theorem Pipeline.run_keepsCount {p : Pipeline} (counts : p.variant.isCounted) (r : Request) :
    (p.run r.block r.sidecars r.level).KeepsCount := by
  refine (keepsCount_request rfl).bind fun _ => (importBlock_keepsCount r p.variant).bind fun answer => ?_
  have hconclude : (p.conclude r.block r.sidecars r.level (answer.gate r.level)).KeepsCount := by
    cases answer.gate r.level with
    | imported imported =>
        refine (broadcast_keepsCount r.block r.sidecars counts).bind fun delivery => ?_
        refine (tellDelay_keepsCount r.block p.grid?).bind fun _ => ?_
        exact (keepsCount_request rfl).bind fun _ => keepsCount_pure _
    | refused verdict => exact (keepsCount_request rfl).bind fun _ => keepsCount_pure _
    | failed reason => exact (keepsCount_request rfl).bind fun _ => keepsCount_pure _
  exact hconclude.bind fun result => (report_keepsCount _ _).bind fun _ => keepsCount_pure result

/-- Whoever says that an attempt was not made speaks of no sidecars. -/
theorem notAttempted_keepsCount (notice : Notice) (block : SignedBlock) (result : PublishResult) :
    (notify notice >>= fun _ => report block .notAttempted >>= fun _ => Pure.pure result).KeepsCount :=
  (keepsCount_request rfl).bind fun _ => (report_keepsCount _ _).bind fun _ => keepsCount_pure result

variable {others : Collaborators} {publisher : Publisher} {r : Request} {a : Attempt}

/-- The pipeline that takes a request counts sidecars, if there is one. -/
def Publisher.Counts (publisher : Publisher) (r : Request) : Prop :=
  ∀ p, publisher.pipeline? r = some p → p.variant.isCounted

theorem Publisher.Counts.work_keepsCount (counts : publisher.Counts r) :
    (publisher.dispatch r).work.KeepsCount := by
  cases htakes : publisher.pipeline? r with
  | some p =>
      rw [work_of_pipeline? htakes]
      exact p.run_keepsCount (counts p htakes) r
  | none =>
      obtain ⟨milestone, hdispatch⟩ := work_of_none htakes
      rw [hdispatch]
      exact notAttempted_keepsCount _ _ _

/-- Work that leaves counted sidecars behind leaves none uncounted among those before. -/
theorem Program.KeepsCount.complete {α : Type} {p : Program α} (keeps : p.KeepsCount)
    (answers : others.GossipAnswers) {past : List Event} (h : SidecarsCounted past) :
    SidecarsCounted (p.complete others past).2 := by
  obtain ⟨events, hpast, hstory⟩ := p.complete_story answers past
  rw [hpast]
  exact h.append (keeps events _ hstory)

/-- What a waiting caller makes of its task leaves no sidecar uncounted. -/
theorem Attempt.afterTask_sidecarsCounted {name : String} {ended : Progress PublishResult × List Event}
    (answers : others.GossipAnswers) (h : SidecarsCounted ended.2) :
    SidecarsCounted (afterTask others r name ended).2 := by
  obtain ⟨work, past⟩ := ended
  cases work with
  | crashed crash => exact (notAttempted_keepsCount _ _ _).complete answers h
  | ready c next => exact h
  | blocked c next => exact h
  | returned result => exact h

/-- **A settled attempt has counted the sidecars that it offered**, whoever has waited for it. -/
theorem Attempt.OnCourse.sidecarsCounted (h : a.OnCourse others publisher) (settled : a.isSettled)
    (answers : others.GossipAnswers) (counts : publisher.Counts a.request) : SidecarsCounted a.past := by
  have hnothing : SidecarsCounted [] := ⟨rfl, rfl⟩
  have hwork : SidecarsCounted ((publisher.dispatch a.request).work.complete others []).2 :=
    counts.work_keepsCount.complete answers hnothing
  rcases h.of_settled settled with ⟨work, hend⟩ | ⟨whole, work, hdispatch, hend⟩
  · cases hdispatch : publisher.dispatch a.request with
    | direct whole =>
        rw [awaited_of_direct hdispatch] at hend
        rwa [hdispatch, Dispatch.work, hend] at hwork
    | task whole =>
        rw [awaited_of_task hdispatch] at hend
        rw [hdispatch, Dispatch.work] at hwork
        have hafter : SidecarsCounted (afterTask others a.request a.name (whole.complete others [])).2 :=
          afterTask_sidecarsCounted answers hwork
        rwa [hend] at hafter
  · rwa [hdispatch, Dispatch.work, hend] at hwork

end BeaconBroadcast
