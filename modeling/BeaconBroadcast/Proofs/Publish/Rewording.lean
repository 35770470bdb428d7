import BeaconBroadcast.Proofs.Publish.Remarks
import BeaconBroadcast.Proofs.Publish.Tally

/-!
# `BeaconBroadcast.Proofs.Publish.Rewording` — the same work, put differently

Two programs can do the same thing and put some of their calls differently, or one of them can make calls that the
other does without. A *rewording* says which call stands for which and which calls are left out. Among collaborators
who reply to a call as to the one that stands for it, a program and its rewording come to the same end, and what the
second leaves behind is what the first leaves behind, reworded.

## Contents
- **Rewordings.** `Rewording`, for calls, events, replies and histories; `Rewording.Suits` says that collaborators do
  not mind.
- **Programs.** `Rewording.Renders`: one program is the rewording of the other, part by part.
- **Runs.** `Renders.complete`, and `Renders.awaited` for attempts whose caller waits.
- **Histories.** What a rewording leaves as it is.
-/

namespace BeaconBroadcast

open Program

variable {α β : Type} {others others' : Collaborators}

/-! ## Rewordings -/

/-- Which call stands for which, with the same answers to choose from, and which calls nothing stands for. -/
structure Rewording where
  call : Call → Call
  same_answers (c : Call) : c.Answer = (call c).Answer
  omits : Call → Bool := fun _ => false

namespace Rewording

variable {t : Rewording}

/-- The answer to a call as that to the call that stands for it. -/
def answer (t : Rewording) {c : Call} (a : c.Answer) : (t.call c).Answer := cast (t.same_answers c) a

/-- The event with the call that stands for its call. -/
def event (t : Rewording) : Event → Event
  | .issued c => .issued (t.call c)
  | .answered c a => .answered (t.call c) (t.answer a)
  | .crashed c crash => .crashed (t.call c) crash

/-- The reply to a call as that to the call that stands for it. -/
def reply (t : Rewording) {c : Call} : Reply c → Reply (t.call c)
  | .answer a => .answer (t.answer a)
  | .crash crash => .crash crash

/-- A history, reworded. -/
def past (t : Rewording) (events : List Event) : List Event :=
  (events.filter fun e => !t.omits e.call).map t.event

/-- Where work stands and what it has left behind, reworded. -/
def ending (t : Rewording) (ended : Progress α × List Event) : Progress α × List Event :=
  (ended.1, t.past ended.2)

/-- The rewording leaves the call as it is. -/
def Keeps (t : Rewording) (c : Call) : Prop := t.omits c = false ∧ t.call c = c

/-- `others'` reply in a reworded history, and to a reworded call, as `others` do in the history and to the call as
    they were; and `others` do not break down on calls that are left out. -/
structure Suits (t : Rewording) (others others' : Collaborators) : Prop where
  alike : ∀ events c, t.omits c = false → others' (t.past events) (t.call c) = t.reply (others events c)
  answered : ∀ events c, t.omits c → (others events c).isCrash = false

@[simp] theorem event_call (e : Event) : (t.event e).call = t.call e.call := by
  cases e <;> rfl

theorem event_eq_self {e : Event} (h : t.Keeps e.call) : t.event e = e := by
  have hanswer {c d : Call} (hc : d = c) (same : c.Answer = d.Answer) (a : c.Answer) :
      Event.answered d (cast same a) = .answered c a := by
    subst hc
    rfl
  cases e with
  | issued c => exact congrArg Event.issued h.2
  | answered c a => exact hanswer h.2 (t.same_answers c) a
  | crashed c crash => exact congrArg (Event.crashed · crash) h.2

@[simp] theorem past_nil : t.past [] = [] := rfl

theorem past_append (first second : List Event) : t.past (first ++ second) = t.past first ++ t.past second := by
  unfold past
  rw [List.filter_append, List.map_append]

theorem past_concat_of_kept (events : List Event) {e : Event} (kept : t.omits e.call = false) :
    t.past (events ++ [e]) = t.past events ++ [t.event e] := by
  rw [past_append]
  congr 1
  unfold past
  rw [List.filter_cons_of_pos (by rw [kept]; rfl)]
  rfl

theorem past_concat_of_omitted (events : List Event) {e : Event} (omitted : t.omits e.call) :
    t.past (events ++ [e]) = t.past events := by
  have hnone : t.past [e] = [] := by
    unfold past
    rw [List.filter_cons_of_neg (by rw [omitted]; exact Bool.false_ne_true)]
    rfl
  rw [past_append, hnone, List.append_nil]

/-! ## Programs -/

/-- `t.Renders p p'`: `p'` does what `p` does, with each call of `p` reworded or left out. -/
inductive Renders (t : Rewording) : Program α → Program α → Prop
  | pure (a : α) : Renders t (.pure a) (.pure a)
  | call {c : Call} {next : c.Answer → Program α} {next' : (t.call c).Answer → Program α}
      (kept : t.omits c = false) (rest : ∀ a, Renders t (next a) (next' (t.answer a))) :
      Renders t (.call c next) (.call (t.call c) next')
  /-- The first program makes a call that the second does without. -/
  | aside {c : Call} {next : c.Answer → Program α} {p' : Program α}
      (omitted : t.omits c) (rest : ∀ a, Renders t (next a) p') : Renders t (.call c next) p'

namespace Renders

theorem bind {p p' : Program α} {f f' : α → Program β} (h : t.Renders p p') (hf : ∀ a, t.Renders (f a) (f' a)) :
    t.Renders (p >>= f) (p' >>= f') := by
  induction h with
  | pure a => exact hf a
  | call kept rest ih => exact .call kept fun a => ih a
  | aside omitted rest ih => exact .aside omitted fun a => ih a

/-- A program whose calls all stay as they are is its own rewording. -/
theorem of_callsOnly {p : Program α} (h : p.CallsOnly t.Keeps) : t.Renders p p := by
  have hcall {c d : Call} (hc : d = c) (same : d.Answer = c.Answer) (next : c.Answer → Program α) :
      Program.call d (fun a => next (cast same a)) = Program.call c next := by
    subst hc
    rfl
  induction p with
  | pure a => exact .pure a
  | call c next ih =>
      have hself : t.Renders (Program.call c next)
          (Program.call (t.call c) fun a => next (cast (t.same_answers c).symm a)) := by
        refine .call h.1.1 fun a => ?_
        rw [answer, cast_cast, cast_eq]
        exact ih a (h.2 a)
      rwa [hcall h.1.2 (t.same_answers c).symm next] at hself

theorem report_same (reports : ∀ c : Call, c.isReport → t.Keeps c) (block : SignedBlock) (outcome : Outcome) :
    t.Renders (report block outcome) (report block outcome) :=
  of_callsOnly (callsOnly_bind (callsOnly_request (reports _ rfl)) fun _ => callsOnly_request (reports _ rfl))

theorem abort_same (reports : ∀ c : Call, c.isReport → t.Keeps c) {block : SignedBlock} {cause : String}
    (remark : t.Keeps (.notify (.aborted block.root block.slot cause))) :
    t.Renders (abort block cause) (abort block cause) :=
  .bind (of_callsOnly (callsOnly_request remark)) fun _ => .bind (report_same reports ..) fun _ => .pure _

theorem tellDelay_same (clock : t.Keeps .readClock)
    (remarks : ∀ notice, notice.delay?.isSome → t.Keeps (.notify notice)) (block : SignedBlock)
    (grid? : Option SlotGrid) : t.Renders (tellDelay block grid?) (tellDelay block grid?) := by
  apply of_callsOnly
  cases grid? with
  | none => exact callsOnly_pure ()
  | some grid =>
      refine callsOnly_bind (callsOnly_request clock) fun now => ?_
      split
      · next notice hnotice => exact callsOnly_request (remarks notice (SlotGrid.delay?_of_remark? hnotice))
      · exact callsOnly_pure ()

/-! ## Runs -/

/-- **A program and its rewording come to the same end, and what the second leaves behind is what the first leaves
    behind, reworded.** -/
theorem complete {p p' : Program α} (h : t.Renders p p') (suits : t.Suits others others') (events : List Event) :
    p'.complete others' (t.past events) = t.ending (p.complete others events) := by
  induction h generalizing events with
  | pure a => rfl
  | @call c next next' kept rest ih =>
      have hissued : t.past (events ++ [.issued c]) = t.past events ++ [.issued (t.call c)] :=
        past_concat_of_kept events kept
      have halike := suits.alike (events ++ [.issued c]) c kept
      rw [hissued] at halike
      rw [complete_call, complete_call, halike]
      cases hreply : others (events ++ [.issued c]) c with
      | answer a =>
          have hanswered := past_concat_of_kept (events ++ [.issued c]) (e := .answered c a) kept
          rw [hissued] at hanswered
          have hrest := ih a (events ++ [.issued c] ++ [.answered c a])
          rw [hanswered] at hrest
          exact hrest
      | crash crash =>
          have hcrashed := past_concat_of_kept (events ++ [.issued c]) (e := .crashed c crash) kept
          rw [hissued] at hcrashed
          exact (congrArg (Prod.mk _) hcrashed).symm
  | @aside c next p' omitted rest ih =>
      rw [complete_call]
      cases hreply : others (events ++ [.issued c]) c with
      | answer a =>
          have hrest := ih a (events ++ [.issued c] ++ [.answered c a])
          rw [past_concat_of_omitted _ (e := .answered c a) omitted,
            past_concat_of_omitted _ (e := .issued c) omitted] at hrest
          exact hrest
      | crash crash =>
          have hanswers := suits.answered (events ++ [.issued c]) c omitted
          rw [hreply] at hanswers
          cases hanswers

/-- A caller who waits makes the same of a task and of its rewording. -/
theorem afterTask {r r' : Request} (same_block : r'.block = r.block) {name : String}
    (gives_up : ∀ cause, t.Renders (abort r.block cause) (abort r.block cause)) (suits : t.Suits others others')
    (ended : Progress PublishResult × List Event) :
    Attempt.afterTask others' r' name (t.ending ended) = t.ending (Attempt.afterTask others r name ended) := by
  obtain ⟨work, events⟩ := ended
  cases work with
  | crashed crash =>
      show (abort r'.block (crash.text name)).complete others' (t.past events) = _
      rw [same_block]
      exact (gives_up (crash.text name)).complete suits events
  | ready c next => rfl
  | blocked c next => rfl
  | returned result => rfl

/-- **An attempt and its rewording come to the same result**, where a caller who waits has the same to say of a task
    that broke off. -/
theorem awaited {publisher publisher' : Publisher} {r r' : Request} {work work' : Program PublishResult}
    (dispatched : publisher.dispatch r = .task work) (dispatched' : publisher'.dispatch r' = .task work')
    (same_block : r'.block = r.block) (h : t.Renders work work')
    (gives_up : ∀ cause, t.Renders (abort r.block cause) (abort r.block cause)) (suits : t.Suits others others')
    (name : String) :
    Attempt.awaited others' publisher' r' name = t.ending (Attempt.awaited others publisher r name) := by
  have hwork := h.complete suits []
  rw [past_nil] at hwork
  rw [Attempt.awaited_of_task dispatched, Attempt.awaited_of_task dispatched', hwork]
  exact afterTask same_block gives_up suits _

end Renders

/-! ## Histories -/

/-- The calls of a reworded history. -/
theorem callsIn_past (events : List Event) :
    callsIn (t.past events) = ((callsIn events).filter fun c => !t.omits c).map t.call := by
  have hissued : Event.issued? ∘ t.event = fun e => e.issued?.map t.call := by
    funext e
    cases e <;> rfl
  rw [← callsIn_filter fun c => !t.omits c, callsIn, callsIn, past, List.filterMap_map, hissued,
    List.map_filterMap]

/-- What a reworded history has of some calls is what the history has of them, reworded. -/
theorem filter_past {keep : Call → Bool} (same : ∀ c, keep (t.call c) = keep c) (events : List Event) :
    (t.past events).filter (fun e => keep e.call) = t.past (events.filter fun e => keep e.call) := by
  have hkeep : (fun e : Event => keep e.call) ∘ t.event = fun e => keep e.call := by
    funext e
    show keep (t.event e).call = _
    rw [event_call, same]
  unfold past
  rw [List.filter_map, hkeep, List.filter_filter, List.filter_filter]
  congr 2
  funext e
  exact Bool.and_comm ..

/-- Calls that the rewording leaves as they are leave the same behind. -/
theorem past_of_keeps {events : List Event} (h : ∀ e ∈ events, t.Keeps e.call) : t.past events = events := by
  have hkept : (events.filter fun e => !t.omits e.call) = events := by
    apply List.filter_eq_self.mpr
    intro e he
    rw [(h e he).1]
    rfl
  rw [past, hkept, List.map_congr_left fun e he => event_eq_self (h e he), List.map_id']

theorem filter_past_of_keeps {keep : Call → Bool} (same : ∀ c, keep (t.call c) = keep c)
    (kept : ∀ c, keep c → t.Keeps c) (events : List Event) :
    (t.past events).filter (fun e => keep e.call) = events.filter fun e => keep e.call := by
  rw [filter_past same, past_of_keeps]
  exact fun e he => kept e.call (List.mem_filter.mp he).2

end Rewording

end BeaconBroadcast
