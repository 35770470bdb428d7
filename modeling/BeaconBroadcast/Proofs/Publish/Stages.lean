import BeaconBroadcast.Publish.Selector
import BeaconBroadcast.Proofs.Publish.Story
import BeaconBroadcast.Proofs.Validation.Sidecars

/-!
# `BeaconBroadcast.Proofs.Publish.Stages` — the stories of the parts of an attempt

Import, remarks and reports, each with the histories that it can leave behind. Later proofs put these
together and open none of the programs again.

## Contents
- **Calls by kind.** `Call.isNotice`, `Call.isReport` and `Call.canCrash`; `Dependable` and `Steady` say who
  breaks down; `portEvents` leaves out what only the log and the ledger see.
- **Exchanges.** `exchange` is a call with its reply.
- **Telling.** `notify` and `report`.
- **Import.** `Variant.fault?`, `Variant.importExchange` and `Variant.ImportStory`.
- **Delay.** A remark on a late broadcast reads the slot clock.
- **Cases.** `Request.blank` and `Collaborators.willing`; `Request.oneBlob` and `Collaborators.refusing`, where gossip
  takes a block and not its blob.
-/

namespace BeaconBroadcast

open Program

variable {fallible : Call → Prop}

/-! ## Calls by kind -/

namespace Call

/-- Whether the call tells the log something. -/
def isNotice : Call → Bool
  | notify _ => true
  | _ => false

/-- Whether the call offers a block to gossip. -/
def isBlockGossip : Call → Bool
  | gossipBlock _ => true
  | _ => false

/-- Whether the call tells one of the two listeners how an attempt went. -/
def isReport : Call → Bool
  | reportDuty .. => true
  | reportPerformance .. => true
  | _ => false

/-- Whether the call goes to a collaborator that may break down: the import, gossip or the slot clock. The
    listeners, the ledger and the log always answer. -/
def canCrash : Call → Bool
  | readClock => true
  | c => c.isImport || c.isGossip

end Call

/-- The listeners, the ledger and the log always answer. -/
def Collaborators.Dependable (others : Collaborators) : Prop :=
  others.CrashOnlyOn (fun c => c.canCrash)

/-- Nobody ever breaks down. -/
def Collaborators.Steady (others : Collaborators) : Prop :=
  others.CrashOnlyOn fun _ => False

theorem Collaborators.Steady.crashOnlyOn {others : Collaborators} {fallible : Call → Prop} (steady : others.Steady) :
    others.CrashOnlyOn fallible := fun past c hcrash => (steady past c hcrash).elim

theorem Collaborators.Steady.dependable {others : Collaborators} (steady : others.Steady) : others.Dependable :=
  steady.crashOnlyOn

/-- Whether the call goes to the import, to gossip, to the slot clock or to a listener: that is, neither to
    the log nor to the ledger. -/
def Call.isPort : Call → Bool
  | notify _ => false
  | countSidecars .. => false
  | _ => true

/-- What happened anywhere but at the log and at the ledger. -/
def portEvents (past : List Event) : List Event := past.filter fun e => e.call.isPort

@[simp] theorem portEvents_append (first second : List Event) :
    portEvents (first ++ second) = portEvents first ++ portEvents second := List.filter_append ..

theorem portEvents_of_isNotice {events : List Event} (h : ∀ e ∈ events, e.call.isNotice) :
    portEvents events = [] := by
  apply List.filter_eq_nil_iff.mpr
  intro e he
  have hnotice := h e he
  cases hc : e.call <;> rw [hc] at hnotice <;> first | exact Bool.false_ne_true | cases hnotice

/-- Leaving out the events of some calls leaves out those calls. -/
theorem callsIn_filter (keep : Call → Bool) (past : List Event) :
    callsIn (past.filter fun e => keep e.call) = (callsIn past).filter keep := by
  unfold callsIn
  rw [List.filterMap_filter, List.filter_filterMap]
  congr 1
  funext e
  cases e with
  | issued c => cases hkeep : keep c <;> simp [Event.call, Event.issued?, Option.filter, hkeep]
  | answered c a => cases hkeep : keep c <;> simp [Event.call, Event.issued?, hkeep]
  | crashed c crash => cases hkeep : keep c <;> simp [Event.call, Event.issued?, hkeep]

/-- Calls that are kept are all still there. -/
theorem filter_callsIn_filter {P keep : Call → Bool} (hP : ∀ c, P c → keep c) (past : List Event) :
    (callsIn (past.filter fun e => keep e.call)).filter P = (callsIn past).filter P := by
  rw [callsIn_filter, List.filter_filter]
  apply List.filter_congr
  intro c _
  cases hc : P c with
  | false => rfl
  | true => rw [hP c hc]; rfl

/-! ## Exchanges -/

/-- The event of a reply. -/
def Event.replied (c : Call) : Except Crash c.Answer → Event
  | .ok a => .answered c a
  | .error crash => .crashed c crash

/-- A call and its reply. -/
def exchange (c : Call) (reply : Except Crash c.Answer) : List Event := [.issued c, .replied c reply]

@[simp] theorem callsIn_exchange (c : Call) (reply : Except Crash c.Answer) :
    callsIn (exchange c reply) = [c] := by
  cases reply <;> rfl

theorem mem_exchange {c : Call} {reply : Except Crash c.Answer} {e : Event} :
    e ∈ exchange c reply ↔ e = .issued c ∨ e = .replied c reply := by
  simp only [exchange, List.mem_cons, List.not_mem_nil, or_false]

/-- How work stands after a reply with which it ends. -/
def Progress.ofReply {α : Type} : Except Crash α → Progress α
  | .ok a => .returned a
  | .error crash => .crashed crash

/-- Work that ends with `a` unless somebody broke down. -/
def Progress.unless {α : Type} (crash? : Option Crash) (a : α) : Progress α :=
  crash?.elim (.returned a) .crashed

theorem Progress.eq_some_of_crashed {α : Type} {crash? : Option Crash} {a : α} {crash : Crash}
    (h : .crashed crash = Progress.unless crash? a) : crash? = some crash := by
  cases crash? with
  | none => cases h
  | some other => cases h; rfl

theorem Progress.eq_none_of_returned {α : Type} {crash? : Option Crash} {a b : α}
    (h : .returned b = Progress.unless crash? a) : crash? = none ∧ b = a := by
  cases crash? with
  | none => cases h; exact ⟨rfl, rfl⟩
  | some other => cases h

/-- A single call leaves one exchange behind. -/
theorem request_story {c : Call} {events : List Event} {done : Progress c.Answer}
    (h : Story fallible (request c) events done) :
    ∃ reply, events = exchange c reply ∧ done = .ofReply reply := by
  rcases h.of_request with ⟨crash, -, rfl, rfl⟩ | ⟨a, rfl, rfl⟩
  · exact ⟨.error crash, rfl, rfl⟩
  · exact ⟨.ok a, rfl, rfl⟩

/-- A single call to someone who always answers. -/
theorem request_story_of_not {c : Call} {events : List Event} {done : Progress c.Answer}
    (hc : ¬ fallible c) (h : Story fallible (request c) events done) :
    ∃ a, events = exchange c (.ok a) ∧ done = .returned a := by
  rcases h.of_request with ⟨crash, may, rfl, rfl⟩ | ⟨a, rfl, rfl⟩
  · exact absurd may hc
  · exact ⟨a, rfl, rfl⟩

/-- The stories in which only the import, gossip and the slot clock crash. -/
abbrev Program.PortStory {α : Type} (p : Program α) (events : List Event) (done : Progress α) : Prop :=
  p.Story (fun c => c.canCrash) events done

/-! ## Telling -/

/-- Telling the log is noticed by the log alone. -/
theorem isNotice_of_notify {notice : Notice} {events : List Event} {done : Progress Unit}
    (h : Story fallible (notify notice) events done) : ∀ e ∈ events, e.call.isNotice :=
  h.forall_call (P := fun c => c.isNotice) (callsOnly_notify (fun _ => rfl) notice)

theorem portEvents_of_notify {notice : Notice} {events : List Event} {done : Progress Unit}
    (h : Story fallible (notify notice) events done) : portEvents events = [] :=
  portEvents_of_isNotice (isNotice_of_notify h)

theorem notify_story {notice : Notice} {events : List Event} {done : Progress Unit}
    (h : PortStory (notify notice) events done) :
    events = exchange (.notify notice) (.ok ()) ∧ done = .returned () := by
  obtain ⟨a, hevents, hdone⟩ := request_story_of_not Bool.false_ne_true h
  exact ⟨hevents, hdone⟩

/-- What follows a notice. -/
theorem of_notify_bind {α : Type} {notice : Notice} {next : Unit → Program α} {events : List Event}
    {done : Progress α} (h : PortStory (notify notice >>= next) events done) :
    ∃ rest, portEvents events = portEvents rest ∧ PortStory (next ()) rest done := by
  rcases Story.of_bind h with ⟨crash, -, hnotice⟩ | ⟨_, first, second, rfl, hnotice, hrest⟩
  · cases (notify_story hnotice).2
  · refine ⟨second, ?_, hrest⟩
    rw [portEvents_append, portEvents_of_notify hnotice, List.nil_append]

/-- What both listeners hear. -/
def reported (block : SignedBlock) (outcome : Outcome) : List Event :=
  exchange (.reportDuty block outcome) (.ok ()) ++ exchange (.reportPerformance block outcome) (.ok ())

/-- A report reaches both listeners. -/
theorem report_story {block : SignedBlock} {outcome : Outcome} {events : List Event}
    {done : Progress Unit} (h : PortStory (report block outcome) events done) :
    events = reported block outcome ∧ done = .returned () := by
  rcases Story.of_bind h with ⟨crash, -, hduty⟩ | ⟨a, first, second, rfl, hduty, hperformance⟩
  · obtain ⟨a, -, hcrash⟩ := request_story_of_not Bool.false_ne_true hduty
    cases hcrash
  · obtain ⟨_, rfl, -⟩ := request_story_of_not Bool.false_ne_true hduty
    obtain ⟨_, rfl, rfl⟩ := request_story_of_not Bool.false_ne_true hperformance
    exact ⟨rfl, rfl⟩

/-! ## Import -/

namespace Variant

/-- What is wrong with the sidecars of a request, where there are blobs. -/
def fault? (r : Request) : Variant → Option SidecarFault
  | plain => none
  | withBlobs limit _ => r.block.sidecarFault? r.sidecars limit

/-- The call to the import and its reply. -/
def importExchange (r : Request) (reply : Except Crash (Except ChannelFault ImportAnswer)) :
    Variant → List Event
  | plain => exchange (.importBlock r.block r.level) reply
  | withBlobs .. => exchange (.importWithSidecars r.block r.sidecars r.level) reply

/-- The histories that an import can leave behind. Nothing but `quiet` notices comes before the call. -/
inductive ImportStory (fallible : Call → Prop) (r : Request) (v : Variant) (quiet : List Event) :
    List Event → Progress ImportAnswer → Prop
  /-- The log broke down. -/
  | cutShort {notice : Notice} {crash : Crash} (may : fallible (.notify notice)) :
      ImportStory fallible r v quiet quiet (.crashed crash)
  /-- The sidecars are not those of the block. -/
  | turnedAway {fault : SidecarFault} (faulty : v.fault? r = some fault) :
      ImportStory fallible r v quiet quiet (.returned (.failed (.invalidSidecars fault.text)))
  | brokeDown {crash : Crash} (sound : v.fault? r = none) :
      ImportStory fallible r v quiet (quiet ++ v.importExchange r (.error crash)) (.crashed crash)
  | answered {answer : Except ChannelFault ImportAnswer} (sound : v.fault? r = none) :
      ImportStory fallible r v quiet (quiet ++ v.importExchange r (.ok answer))
        (.returned (.ofChannel answer))

/-- The call to the import, with what is made of its answer. -/
theorem importCall_story {r : Request} {v : Variant} {c : Call} {events : List Event}
    {done : Progress ImportAnswer} {f : c.Answer → Except ChannelFault ImportAnswer}
    (hexchange : ∀ reply : Except Crash c.Answer, exchange c reply = v.importExchange r (reply.map f))
    (sound : v.fault? r = none)
    (h : Story fallible (request c >>= fun a => Pure.pure (.ofChannel (f a))) events done) :
    v.ImportStory fallible r [] events done := by
  rcases h.of_bind with ⟨crash, rfl, hcall⟩ | ⟨a, first, second, rfl, hcall, hanswer⟩
  · obtain ⟨reply | a, rfl, hdone⟩ := request_story hcall
    · cases hdone
      rw [hexchange]
      exact .brokeDown sound
    · cases hdone
  · obtain ⟨crash | b, rfl, hdone⟩ := request_story hcall
    · cases hdone
    · cases hdone
      obtain ⟨rfl, rfl⟩ := hanswer.of_pure
      rw [List.append_nil, hexchange]
      exact .answered sound

/-- Notices before an import change nothing about it. -/
theorem ImportStory.prepend {r : Request} {v : Variant} {quiet second : List Event}
    {done : Progress ImportAnswer} (h : v.ImportStory fallible r quiet second done) (first : List Event) :
    v.ImportStory fallible r (first ++ quiet) (first ++ second) done := by
  cases h with
  | cutShort may => exact .cutShort may
  | turnedAway faulty => exact .turnedAway faulty
  | brokeDown sound => rw [← List.append_assoc]; exact .brokeDown sound
  | answered sound => rw [← List.append_assoc]; exact .answered sound

/-- An import that begins with a notice. -/
theorem ImportStory.after_notice {r : Request} {v : Variant} {notice : Notice} {events : List Event}
    {done : Progress ImportAnswer} {next : Unit → Program ImportAnswer}
    (h : Story fallible (notify notice >>= next) events done)
    (hnext : ∀ {rest}, Story fallible (next ()) rest done → v.ImportStory fallible r [] rest done) :
    ∃ quiet, (∀ e ∈ quiet, e.call.isNotice) ∧ v.ImportStory fallible r quiet events done := by
  rcases h.of_bind with ⟨crash, rfl, hnotice⟩ | ⟨_, first, second, rfl, hnotice, hrest⟩
  · refine ⟨events, isNotice_of_notify hnotice, ?_⟩
    rcases hnotice.of_request with ⟨_, may, rfl, _⟩ | ⟨_, _, hdone⟩
    · exact .cutShort may
    · cases hdone
  · refine ⟨first, isNotice_of_notify hnotice, ?_⟩
    simpa only [List.append_nil] using (hnext hrest).prepend first

/-- **An import asks once, and not at all if the sidecars are not those of the block.** -/
theorem importBlock_story {r : Request} {v : Variant} {events : List Event}
    {done : Progress ImportAnswer}
    (h : Story fallible (v.importBlock r.block r.sidecars r.level) events done) :
    ∃ quiet, (∀ e ∈ quiet, e.call.isNotice) ∧ v.ImportStory fallible r quiet events done := by
  cases v with
  | plain =>
      have hcall {rest : List Event}
          (hrest : Story fallible (request (.importBlock r.block r.level) >>=
            fun a => Pure.pure (.ofChannel a)) rest done) :
          plain.ImportStory fallible r [] rest done :=
        importCall_story (f := id) (fun reply => by cases reply <;> rfl) rfl hrest
      simp only [importBlock] at h
      split at h
      · exact ImportStory.after_notice h hcall
      · exact ⟨[], by simp, hcall h⟩
  | withBlobs limit counted =>
      simp only [importBlock] at h
      split at h
      · next fault hfault =>
          refine ImportStory.after_notice h fun {rest} hrest => ?_
          obtain ⟨rfl, rfl⟩ := hrest.of_pure
          exact .turnedAway hfault
      · next hfault =>
          exact ⟨[], by simp, importCall_story (f := id) (fun reply => by cases reply <;> rfl) hfault h⟩

end Variant

/-! ## Delay -/

/-- The reading of the slot clock, where there is one. -/
def clockExchange (reply : Except Crash Millis) : Option SlotGrid → List Event
  | none => []
  | some _ => exchange .readClock reply

/-- How the reading of the slot clock breaks down, if there is a clock and it does. -/
def clockCrash? : Except Crash Millis → Option SlotGrid → Option Crash
  | .error crash, some _ => some crash
  | _, _ => none

/-- **A remark on a late broadcast reads the slot clock once**, if there is one. -/
theorem tellDelay_story {block : SignedBlock} {grid? : Option SlotGrid} {events : List Event}
    {done : Progress Unit} (h : PortStory (tellDelay block grid?) events done) :
    ∃ reply, portEvents events = clockExchange reply grid? ∧
      done = .unless (clockCrash? reply grid?) () := by
  cases grid? with
  | none =>
      obtain ⟨rfl, rfl⟩ := h.of_pure
      exact ⟨.ok 0, rfl, rfl⟩
  | some grid =>
      simp only [tellDelay] at h
      rcases Story.of_bind h with ⟨crash, rfl, hclock⟩ | ⟨now, first, second, rfl, hclock, hrest⟩
      · obtain ⟨reply, rfl, hdone⟩ := request_story hclock
        refine ⟨reply, ?_, ?_⟩
        · cases reply <;> rfl
        · cases reply <;> cases hdone
          rfl
      · obtain ⟨reply | now, rfl, hdone⟩ := request_story hclock
        · cases hdone
        have hsecond : portEvents second = [] ∧ done = .returned () := by
          split at hrest
          · exact ⟨portEvents_of_notify hrest, (notify_story hrest).2⟩
          · obtain ⟨rfl, rfl⟩ := hrest.of_pure
            exact ⟨rfl, rfl⟩
        refine ⟨.ok now, ?_, hsecond.2⟩
        rw [portEvents_append, hsecond.1]
        rfl

/-! ## Cases -/

/-- Collaborators who let everything through, with an import that checks blocks at `level`. -/
def Collaborators.willing (level : Level) : Collaborators := fun _ c =>
  match c with
  | .importBlock block _ | .importWithSidecars block _ _ =>
      .answer (.ok (.imported
        { root := block.root, slot := block.slot, validatedAt := level, optimistic := false }))
  | .gossipBlock _ | .gossipSidecar _ => .answer (.ok ())
  | .readClock => .answer 0
  | .reportDuty .. | .reportPerformance .. | .countSidecars .. | .notify _ => .answer ()

/-- The request to publish a block that has nothing in it. -/
def Request.blank : Request := { block := .ofMessage {} Bytes.zero, sidecars := [] }

theorem Collaborators.willing_steady (level : Level) : (willing level).Steady := by
  intro past c hcrash
  cases c <;> cases hcrash

theorem Collaborators.willing_dependable (level : Level) : (willing level).Dependable :=
  (willing_steady level).dependable

/-- Collaborators who let everything through but for gossip, which has no room for sidecars of one index. -/
def Collaborators.refusing (index : UInt64) : Collaborators := fun past c =>
  match c with
  | .gossipSidecar sidecar => .answer (if sidecar.index = index then .error .queueFull else .ok ())
  | c => willing .standard past c

theorem Collaborators.refusing_steady (index : UInt64) : (refusing index).Steady := by
  intro past c hcrash
  cases c <;> cases hcrash

/-- The sidecar of a block with one blob. -/
def BlobSidecar.lone : BlobSidecar where
  index := 0
  blockRoot := (SignedBlock.ofMessage { commitments := [Bytes.zero] } Bytes.zero).root
  slot := 0
  commitment := Bytes.zero
  proof := Bytes.zero
  blob := []

/-- The request to publish a block with one blob. -/
def Request.oneBlob : Request where
  block := .ofMessage { commitments := [Bytes.zero] } Bytes.zero
  sidecars := [.lone]

namespace Request

theorem oneBlob_matched : oneBlob.block.MatchedBy oneBlob.sidecars := by
  refine ⟨rfl, fun i commitment sidecar hcommitment hsidecar => ?_⟩
  cases i with
  | zero =>
      cases hcommitment
      cases hsidecar
      exact ⟨rfl, rfl, rfl, rfl⟩
  | succ i => cases hsidecar

theorem oneBlob_sound : oneBlob.block.sidecarFault? oneBlob.sidecars standardBlobLimit = none :=
  SignedBlock.sidecarFault?_eq_none_iff.mpr ⟨by decide, oneBlob_matched⟩

/-- What the caller gets for it where gossip takes all but the blob. -/
def oneBlobPublished : Publication where
  root := oneBlob.block.root
  slot := 0
  optimistic := false
  delivery := { blockTaken := true, sidecarsRefused := [0] }

/-- What happens then. -/
def oneBlobPast (counted : Bool) : List Event :=
  exchange (.notify (.importing oneBlob.block.root 0 1 .standard)) (.ok ()) ++
  exchange (.importWithSidecars oneBlob.block [.lone] .standard) (.ok (.ok (.imported
    { root := oneBlob.block.root, slot := 0, validatedAt := .standard, optimistic := false }))) ++
  exchange (.gossipBlock oneBlob.block) (.ok (.ok ())) ++
  exchange (.gossipSidecar .lone) (.ok (.error .queueFull)) ++
  exchange (.notify (.sidecarRefused 0 oneBlob.block.root .queueFull)) (.ok ()) ++
  (if counted then exchange (.countSidecars 0 1) (.ok ()) else []) ++
  exchange (.notify (.partlyBroadcast oneBlob.block.root 0 true [0])) (.ok ()) ++
  reported oneBlob.block .partiallyPublished

/-- A block whose blob gossip has no room for is published in part. -/
theorem complete_oneBlob (counted : Bool) :
    (Pipeline.run { variant := .withBlobs standardBlobLimit counted } oneBlob.block oneBlob.sidecars
      oneBlob.level).complete (.refusing 0) [] = (.returned (.ok oneBlobPublished), oneBlobPast counted) := by
  simp only [Pipeline.run, Variant.importBlock, oneBlob_sound]
  cases counted <;> rfl

end Request

end BeaconBroadcast
