import BeaconBroadcast.Proofs.Publish.Calls
import BeaconBroadcast.Proofs.Publish.Results

/-!
# `BeaconBroadcast.Proofs.Publish.Remarks` — what the log hears of a late broadcast

A pipeline with a slot clock asks it for the time once, when a broadcast is over, and remarks on the broadcast if
that is late. Nothing else that an attempt does has to do with the time.

## Contents
- **Delays.** `Notice.delay?` tells remarks on a delay from other notices; `noticesIn` are the lines of the log.
- **Parts.** The parts of an attempt that neither read the clock nor remark on a delay.
- **Remarks.** `SlotGrid.remark?` is the remark due at a moment; `Pipeline.run_delayEvents`: what a publication
  leaves behind of clock and remark.
- **Attempts.** `RemarksAt`, for attempts that came to a publication.
-/

namespace BeaconBroadcast

open Program

variable {fallible : Call → Prop} {events : List Event} {grid : SlotGrid} {block : SignedBlock} {now : Millis}

/-! ## Delays -/

/-- How far into its slot a broadcast was, where a notice remarks on that. -/
def Notice.delay? : Notice → Option Millis
  | broadcastTooLate _ _ offset => some offset
  | broadcastDelayed _ _ offset => some offset
  | _ => none

/-- What a call tells the log. -/
def Call.notice? : Call → Option Notice
  | notify notice => some notice
  | _ => none

/-- What the log heard, oldest first. -/
def noticesIn (past : List Event) : List Notice := (callsIn past).filterMap Call.notice?

theorem mem_noticesIn {past : List Event} {notice : Notice} :
    notice ∈ noticesIn past ↔ .issued (.notify notice) ∈ past := by
  rw [← mem_callsIn, noticesIn, List.mem_filterMap]
  constructor
  · rintro ⟨c, hc, hnotice⟩
    cases c <;> cases hnotice
    exact hc
  · exact fun hc => ⟨_, hc, rfl⟩

/-- Whether the call reads the slot clock or remarks on a delay. -/
def Call.isAboutDelay : Call → Bool
  | readClock => true
  | notify notice => notice.delay?.isSome
  | _ => false

/-- What happened at the slot clock, and in remarks on a delay. -/
def delayEvents (past : List Event) : List Event := past.filter fun e => e.call.isAboutDelay

/-- What the log heard of delays is what it heard that has to do with them. -/
theorem noticesIn_delayEvents (past : List Event) :
    noticesIn (delayEvents past) = (noticesIn past).filter (·.delay?.isSome) := by
  unfold noticesIn callsIn delayEvents
  rw [List.filterMap_filterMap, List.filterMap_filterMap, List.filterMap_filter, List.filter_filterMap]
  refine List.filterMap_congr fun e _ => ?_
  cases e with
  | issued c =>
      cases c with
      | notify notice =>
          show (if notice.delay?.isSome then some notice else none) = (some notice).filter (·.delay?.isSome)
          rw [Option.filter_some]
      | _ => rfl
  | answered c a => exact ite_self none
  | crashed c crash => exact ite_self none

theorem delayEvents_append (first second : List Event) :
    delayEvents (first ++ second) = delayEvents first ++ delayEvents second := List.filter_append ..

/-! ## Parts -/

theorem Call.isAboutDelay_of_isOfImport {c : Call} (h : c.isOfImport) : c.isAboutDelay = false := by
  cases c with
  | notify notice => cases notice <;> first | rfl | cases h
  | _ => first | rfl | cases h

theorem Call.isAboutDelay_of_isOfBroadcast {c : Call} (h : c.isOfBroadcast) : c.isAboutDelay = false := by
  cases c with
  | notify notice => cases notice <;> first | rfl | cases h
  | _ => first | rfl | cases h

theorem deliveryNotice_delay? (block : SignedBlock) (d : Delivery) : (deliveryNotice block d).delay? = none := by
  unfold deliveryNotice
  split
  · rfl
  · rfl

/-- A part of an attempt that has nothing to do with delays leaves nothing of that kind behind. -/
theorem Program.Story.delayEvents_eq_nil {α : Type} {p : Program α} {done : Progress α}
    (h : p.Story fallible events done) (hp : p.CallsOnly fun c => c.isAboutDelay = false) :
    delayEvents events = [] := by
  apply List.filter_eq_nil_iff.mpr
  intro e he
  rw [h.forall_call hp e he]
  exact Bool.false_ne_true

/-! ## Remarks -/

/-- The remark that is due on a broadcast that is over at `now`. -/
def SlotGrid.remark? (grid : SlotGrid) (block : SignedBlock) (now : Millis) : Option Notice :=
  ((grid.timing block.slot).offset? now).bind (latenessNotice? block (grid.timing block.slot))

/-- A line of the log, if there is one. -/
def tellings (notice? : Option Notice) : List Event :=
  notice?.elim [] fun notice => exchange (.notify notice) (.ok ())

theorem mem_tellings {notice? : Option Notice} {e : Event} :
    e ∈ tellings notice? ↔ ∃ notice, notice? = some notice ∧
      (e = .issued (.notify notice) ∨ e = .answered (.notify notice) ()) := by
  cases notice? with
  | none => exact iff_of_false List.not_mem_nil nofun
  | some notice =>
      constructor
      · exact fun he => ⟨notice, rfl, mem_exchange.mp he⟩
      · rintro ⟨_, hnotice, he⟩
        cases hnotice
        exact mem_exchange.mpr he

/-- The clock is read, and then the remark is made that is due. -/
theorem tellDelay_returned (h : Story fallible (tellDelay block (some grid)) events (.returned ())) :
    ∃ now, events = exchange .readClock (.ok now) ++ tellings (grid.remark? block now) := by
  obtain ⟨now, first, second, rfl, hclock, hrest⟩ := h.of_bind_returned
  refine ⟨now, ?_⟩
  rw [hclock.of_request_returned]
  congr 1
  show second = tellings (((grid.timing block.slot).offset? now).bind _)
  split at hrest
  · next notice hnotice =>
      rw [hnotice, hrest.of_request_returned]
      rfl
  · next hnotice =>
      rw [hnotice]
      exact hrest.of_pure.1

/-- A remark is made on a delay. -/
theorem SlotGrid.delay?_of_remark? {notice : Notice} (h : grid.remark? block now = some notice) :
    notice.delay?.isSome := by
  obtain ⟨offset, -, hnotice⟩ := Option.bind_eq_some_iff.mp h
  unfold latenessNotice? at hnotice
  split at hnotice
  · cases hnotice; rfl
  · cases hnotice; rfl
  · cases hnotice

theorem delayEvents_tellings :
    delayEvents (tellings (grid.remark? block now)) = tellings (grid.remark? block now) := by
  apply List.filter_eq_self.mpr
  intro e he
  obtain ⟨notice, hremark, rfl | rfl⟩ := mem_tellings.mp he
  · exact SlotGrid.delay?_of_remark? hremark
  · exact SlotGrid.delay?_of_remark? hremark

/-- **A publication leaves one look at the clock behind and the remark that was due at that moment**, and nothing
    else of that kind. -/
theorem Pipeline.run_delayEvents {p : Pipeline} {r : Request} {publication : Publication}
    (h : (p.run r.block r.sidecars r.level).Story fallible events (.returned (.ok publication)))
    (clocked : p.grid? = some grid) :
    ∃ now, delayEvents events = exchange .readClock (.ok now) ++ tellings (grid.remark? r.block now) := by
  obtain ⟨_, opening, rest, rfl, hopening, hrest⟩ := h.of_bind_returned
  obtain ⟨answer, importing, rest, rfl, himport, hrest⟩ := hrest.of_bind_returned
  obtain ⟨result, conclusion, rest, rfl, hconclude, hrest⟩ := hrest.of_bind_returned
  obtain ⟨_, reports, last, rfl, hreport, hlast⟩ := hrest.of_bind_returned
  obtain ⟨rfl, hresult⟩ := hlast.of_pure
  cases hresult
  -- only a block that was let through comes to a publication
  cases hgate : answer.gate r.level with
  | refused verdict =>
      rw [hgate] at hconclude
      obtain ⟨_, _, _, -, -, hend⟩ := hconclude.of_bind_returned
      cases hend.of_pure.2
  | failed reason =>
      rw [hgate] at hconclude
      obtain ⟨_, _, _, -, -, hend⟩ := hconclude.of_bind_returned
      cases hend.of_pure.2
  | imported imported =>
      rw [hgate] at hconclude
      obtain ⟨delivery, broadcast, rest, rfl, hbroadcast, hrest⟩ := hconclude.of_bind_returned
      obtain ⟨_, delay, rest, rfl, hdelay, hrest⟩ := hrest.of_bind_returned
      obtain ⟨_, closing, last, rfl, hclosing, hlast⟩ := hrest.of_bind_returned
      obtain ⟨rfl, -⟩ := hlast.of_pure
      rw [clocked] at hdelay
      obtain ⟨now, rfl⟩ := tellDelay_returned hdelay
      have hopening := hopening.delayEvents_eq_nil (callsOnly_request rfl)
      have himport := himport.delayEvents_eq_nil
        ((importBlock_isOfImport p.variant).mono fun _ => Call.isAboutDelay_of_isOfImport)
      have hbroadcast := hbroadcast.delayEvents_eq_nil
        ((broadcast_isOfBroadcast ..).mono fun _ => Call.isAboutDelay_of_isOfBroadcast)
      have hclosing := hclosing.delayEvents_eq_nil
        (callsOnly_request (by rw [Call.isAboutDelay, deliveryNotice_delay?]; rfl))
      have hreport := hreport.delayEvents_eq_nil
        (callsOnly_bind (callsOnly_request rfl) fun _ => callsOnly_request rfl)
      refine ⟨now, ?_⟩
      simp only [delayEvents_append, hopening, himport, hbroadcast, hclosing, hreport, List.nil_append,
        List.append_nil, delayEvents_tellings]
      rfl

/-! ## Attempts -/

/-- The slot clock was read once, at `now`, and the log heard the remark that was due then, and no other. -/
structure RemarksAt (past : List Event) (grid : SlotGrid) (block : SignedBlock) (now : Millis) : Prop where
  reads : Event.answered .readClock now ∈ past
  once : ∀ other, Event.answered .readClock other ∈ past → other = now
  remarks : (noticesIn past).filter (·.delay?.isSome) = (grid.remark? block now).toList

theorem noticesIn_tellings (notice? : Option Notice) : noticesIn (tellings notice?) = notice?.toList := by
  cases notice? <;> rfl

/-- One look at the clock and the remark that is due make up all there is. -/
theorem RemarksAt.of_delayEvents {past : List Event}
    (h : delayEvents past = exchange .readClock (.ok now) ++ tellings (grid.remark? block now)) :
    RemarksAt past grid block now := by
  have hmem {e : Event} (about : e.call.isAboutDelay) : e ∈ past ↔
      (e = .issued .readClock ∨ e = .answered .readClock now) ∨ e ∈ tellings (grid.remark? block now) := by
    have hkept : e ∈ past ↔ e ∈ delayEvents past := by rw [delayEvents, List.mem_filter, and_iff_left about]
    rw [hkept, h, List.mem_append, mem_exchange]
    rfl
  refine ⟨(hmem rfl).mpr (Or.inl (Or.inr rfl)), ?_, ?_⟩
  · intro other hother
    rcases (hmem rfl).mp hother with (hevent | hevent) | htold
    · cases hevent
    · cases hevent
      rfl
    · obtain ⟨_, -, hevent | hevent⟩ := mem_tellings.mp htold <;> cases hevent
  · rw [← noticesIn_delayEvents, h, ← noticesIn_tellings]
    rfl

/-- The remark that is due is the only one on a delay. -/
theorem RemarksAt.mem_iff {past : List Event} (h : RemarksAt past grid block now) {notice : Notice}
    (remarks : notice.delay?.isSome) : notice ∈ noticesIn past ↔ grid.remark? block now = some notice := by
  rw [← Option.mem_toList, ← h.remarks, List.mem_filter, and_iff_left remarks]

variable {calls : List (Publisher × Request)} {others : Nat → Collaborators} {counted : Bool}
  {publisher : Publisher} {p : Pipeline} {r : Request}

/-- **An attempt that came to a publication has read the clock once and remarked as was due.** -/
theorem System.Run.remarksAt {s : System} (run : Run others counted (.start calls) s) {i : Nat} {a : Attempt}
    (here : s.attempts[i]? = some a) (called : calls[i]? = some (publisher, r))
    (takes : publisher.pipeline? r = some p) (clocked : p.grid? = some grid) {publication : Publication}
    (came : a.cameTo? = some (.ok publication)) : ∃ now, RemarksAt a.past grid r.block now := by
  obtain ⟨_, hcall, -, hcourse⟩ := run.onCourse here
  cases called.symm.trans hcall
  obtain ⟨q, hq, hstory⟩ := hcourse.story_of_ok came
  cases takes.symm.trans hq
  obtain ⟨now, hdelay⟩ := Pipeline.run_delayEvents hstory clocked
  exact ⟨now, .of_delayEvents hdelay⟩

end BeaconBroadcast
