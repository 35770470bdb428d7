import BeaconBroadcast.Publish.Simulation
import BeaconBroadcast.Proofs.Publish.Calls
import BeaconBroadcast.Proofs.Publish.Splicing
import Mathlib.Data.List.TakeDrop

/-!
# `BeaconBroadcast.Proofs.Publish.Following` — systems that follow a simulation

A simulation moves work on by itself: it executes a program up to a call that waits, puts the task aside, and takes
it up again when its time has come. A system follows it when every task stands in the system where the simulation has
brought it. Each thing that the simulation does with a task is then done in the system by steps of that task.

## Contents
- **Executing.** A program is executed to its end or up to a call that waits.
- **Work.** `begin_leads` and `waitOut_leads`: what a simulation does with some work takes steps.
- **Attempts.** `System.named` starts attempts whose tasks have names; `Simulation.Shows` compares a simulation with a
  system.
- **Recording.** `Shows.record`: what is recorded of some work is what a worker does in the system.
- **Running.** `Simulation.Follows` says that some run leads to such a system; `begin`, `finish`, `passTo` and
  `waitOut` keep it.
-/

namespace BeaconBroadcast

variable {fallible : Call → Prop} {counted : Bool} {callers : List Caller} {hand : List (Work PublishResult)}
  {s : Simulation} {u : System} {worker : Worker}

/-! ## Executing -/

namespace Program

variable {α : Type} {others : Collaborators} {waits : List Event → Call → Bool}

/-- A program is executed to its end or up to a call that waits. -/
theorem execute_cases (p : Program α) (past : List Event) :
    (p.execute others waits past).1.isDone ∨ ∃ c next, (p.execute others waits past).1 = .blocked c next := by
  induction p generalizing past with
  | pure a => exact Or.inl rfl
  | call c next ih =>
      rw [execute]
      by_cases hwaits : waits (past ++ [.issued c]) c
      · rw [if_pos hwaits]
        exact Or.inr ⟨c, next, rfl⟩
      · rw [if_neg hwaits]
        cases others (past ++ [.issued c]) c with
        | answer a => exact ih a _
        | crash crash => exact Or.inl rfl

/-- A program none of whose calls waits is executed to its end. -/
theorem execute_isDone {p : Program α} (h : p.CallsOnly fun c => ∀ past, waits past c = false) (past : List Event) :
    (p.execute others waits past).1.isDone := by
  induction p generalizing past with
  | pure a => rfl
  | call c next ih =>
      rw [execute, if_neg (by rw [h.1]; exact Bool.false_ne_true)]
      cases others (past ++ [.issued c]) c with
      | answer a => exact ih a (h.2 a) _
      | crash crash => rfl

end Program

/-! ## Work -/

namespace Simulation

section Work

variable {α : Type} {w : Work α} {p : Program α}

/-- The script of work that is begun now. -/
theorem crashOnlyOn_latest (hlatest : ∀ script ∈ s.latest?, script.others.CrashOnlyOn fallible)
    (hscript : w.script.others.CrashOnlyOn fallible) : (s.latest?.getD w.script).others.CrashOnlyOn fallible := by
  cases hl : s.latest? with
  | none => exact hscript
  | some script => exact hlatest script hl

/-- The collaborators that some work meets break down where its script or the latest one does. -/
theorem crashOnlyOn_others (hlatest : ∀ script ∈ s.latest?, script.others.CrashOnlyOn fallible)
    (hscript : w.script.others.CrashOnlyOn fallible) : (s.others w).CrashOnlyOn fallible := by
  intro past c hcrash
  unfold others at hcrash
  split at hcrash
  · cases hcrash
  · split at hcrash
    · exact hscript _ _ hcrash
    · exact crashOnlyOn_latest hlatest hscript _ _ hcrash

theorem begin_leads (hlatest : ∀ script ∈ s.latest?, script.others.CrashOnlyOn fallible)
    (hscript : w.script.others.CrashOnlyOn fallible) (p : Program α) :
    ∃ others : Collaborators, others.CrashOnlyOn fallible ∧
      (Progress.ofProgram p).Leads others w.past (s.begin w p).2.progress (s.begin w p).2.past :=
  ⟨_, crashOnlyOn_others (w := { w with script := s.latest?.getD w.script, earlier := s.recent }) hlatest
    (crashOnlyOn_latest hlatest hscript), Progress.Leads.execute _ p .refl⟩

theorem begin_cases (s : Simulation) (w : Work α) (p : Program α) :
    (s.begin w p).2.progress.isDone ∨ ∃ c next, (s.begin w p).2.progress = .blocked c next :=
  p.execute_cases w.past

/-- Work that never goes to the import never waits. -/
theorem begin_isDone (s : Simulation) (w : Work α) (h : p.CallsOnly fun c => c.isQuiet) :
    (s.begin w p).2.progress.isDone := by
  apply Program.execute_isDone
  refine h.mono fun c hc past => ?_
  rw [(Call.isQuiet_iff.mp hc).1]
  rfl

/-- Whoever has waited out its task finds it at its end. -/
theorem waitOut_isDone (h : w.progress.isDone ∨ ∃ c next, w.progress = .blocked c next) :
    (s.waitOut w).2.progress.isDone := by
  unfold waitOut
  rcases h with hdone | ⟨c, next, hblocked⟩
  · split
    · next hblocked =>
        rw [hblocked] at hdone
        cases hdone
    · exact hdone
  · rw [hblocked]
    show (w.progress.resume _ w.past).1.isDone
    rw [hblocked]
    exact Progress.finish_isDone (.blocked c next) w.past

theorem waitOut_of_isDone (h : w.progress.isDone) : s.waitOut w = (s, w) := by
  unfold waitOut
  split
  · next hblocked =>
      rw [hblocked] at h
      cases h
  · rfl

theorem waitOut_number : (s.waitOut w).2.number = w.number := by
  unfold waitOut
  split <;> rfl

theorem latest?_foldl {β : Type} {step : Simulation → β → Simulation} (h : ∀ s b, (step s b).latest? = s.latest?)
    (items : List β) (s : Simulation) : (items.foldl step s).latest? = s.latest? := by
  induction items generalizing s with
  | nil => rfl
  | cons item items ih => exact (ih _).trans (h s item)

theorem latest?_passTo (s : Simulation) (time : Nat) : (s.passTo time).latest? = s.latest? := by
  refine latest?_foldl ?_ (s.importing.span fun held => held.1 ≤ time).1 _
  exact fun _ _ => rfl

theorem latest?_beginAllQueued (s : Simulation) : s.beginAllQueued.latest? = s.latest? := by
  refine latest?_foldl ?_ s.queued _
  intro s w
  unfold beginQueued
  split
  · dsimp only
    split <;> rfl
  · rfl

theorem waitOut_leads (hlatest : ∀ script ∈ s.latest?, script.others.CrashOnlyOn fallible)
    (hscript : w.script.others.CrashOnlyOn fallible) :
    ∃ others : Collaborators, others.CrashOnlyOn fallible ∧
      w.progress.Leads others w.past (s.waitOut w).2.progress (s.waitOut w).2.past := by
  let later := s.beginAllQueued.passTo (s.beginAllQueued.elapsed + w.script.importDelay)
  have same : later.latest? = s.latest? := (latest?_passTo ..).trans (latest?_beginAllQueued s)
  refine ⟨later.others w, crashOnlyOn_others (same ▸ hlatest) hscript, ?_⟩
  unfold waitOut
  split
  · exact w.progress.leads_resume w.past
  · exact .refl

end Work

end Simulation

/-! ## Attempts -/

/-- In attempt `i` the `worker` has come to `work`, and `past` has happened. -/
def System.Has (u : System) (worker : Worker) (i : Nat) (work : Progress PublishResult) (past : List Event) : Prop :=
  ∃ a, u.attempts[i]? = some a ∧ a.work? worker = some work ∧ a.past = past

/-- The attempts that some calls become, each with the name of its task. -/
def System.named (calls : List (Publisher × Request × String)) : System where
  attempts := calls.map fun (publisher, request, name) => .start publisher request name

theorem System.named_concat (calls : List (Publisher × Request × String)) (publisher : Publisher) (request : Request)
    (name : String) :
    named (calls ++ [(publisher, request, name)]) = (named calls).join [.start publisher request name] := by
  simp only [named, join, List.map_append, List.map_cons, List.map_nil]

/-- A system that starts with tasks named by their places. -/
theorem System.named_zipIdx (calls : List (Publisher × Request)) :
    named (calls.zipIdx.map fun ((publisher, request), i) => (publisher, request, toString i)) = start calls := by
  simp only [named, start, List.map_map]
  rfl

namespace Simulation

variable {w : Work PublishResult}

/-- What has happened in the attempt of caller `number`, oldest first. -/
def eventsOf (s : Simulation) (number : Nat) : List Event :=
  (s.transcript.filter (·.number == number)).map (·.event)

/-- The tasks that are put aside, to be begun or to get the answer of their import. -/
def held (s : Simulation) : List (Work PublishResult) := s.queued ++ s.importing.map (·.2)

/-- The system stands where the simulation does. The tasks in `hand` are dealt with just now; of the others some are
    held, and the rest have come to their ends. -/
structure Shows (fallible : Call → Prop) (counted : Bool) (callers : List Caller) (hand : List (Work PublishResult))
    (s : Simulation) (u : System) : Prop where
  dutyCounted : s.dutyCounted = counted
  ledger : u.ledger = s.ledger
  number : s.callers = callers.length
  callers_eq : u.attempts.map (·.caller) = callers
  /-- What has happened in an attempt is in the transcript under its number, and nothing else is there. -/
  past : ∀ i, ((u.attempts[i]?).map (·.past)).getD [] = s.eventsOf i
  tasks : ∀ w ∈ hand ++ s.held, u.Has .task w.number w.progress w.past
  apart : ((hand ++ s.held).map (·.number)).Nodup
  reliable : ∀ w ∈ hand ++ s.held, w.script.others.CrashOnlyOn fallible
  latest : ∀ script ∈ s.latest?, script.others.CrashOnlyOn fallible

namespace Shows

theorem length_eq (h : Shows fallible counted callers hand s u) : u.attempts.length = callers.length := by
  rw [← h.callers_eq, List.length_map]

theorem number_lt (h : Shows fallible counted callers hand s u) (hw : w ∈ hand ++ s.held) :
    w.number < callers.length := by
  obtain ⟨a, here, -⟩ := h.tasks w hw
  rw [← h.length_eq]
  exact (List.getElem?_eq_some_iff.mp here).1

theorem past_of_has {i : Nat} {work : Progress PublishResult} {past : List Event}
    (h : Shows fallible counted callers hand s u) (has : u.Has worker i work past) : past = s.eventsOf i := by
  obtain ⟨a, here, -, hpast⟩ := has
  rw [← h.past i, here, ← hpast]
  rfl

/-- Tasks may be put aside and taken in hand. -/
theorem regroup {hand' queued : List (Work PublishResult)} {importing : List (Nat × Work PublishResult)}
    {elapsed : Nat} (h : Shows fallible counted callers hand s u)
    (hperm : (hand' ++ (queued ++ importing.map (·.2))).Perm (hand ++ s.held)) :
    Shows fallible counted callers hand' { s with queued, importing, elapsed } u where
  dutyCounted := h.dutyCounted
  ledger := h.ledger
  number := h.number
  callers_eq := h.callers_eq
  past := h.past
  tasks w hw := h.tasks w (hperm.subset hw)
  apart := ((hperm.map _).nodup_iff).mpr h.apart
  reliable w hw := h.reliable w (hperm.subset hw)
  latest := h.latest

/-- A task may be let go of. -/
theorem drop (h : Shows fallible counted callers (w :: hand) s u) : Shows fallible counted callers hand s u :=
  { h with
    tasks := fun w hw => h.tasks w (List.mem_cons_of_mem _ hw)
    apart := (List.nodup_cons.mp h.apart).2
    reliable := fun w hw => h.reliable w (List.mem_cons_of_mem _ hw) }

/-- A task may be taken in hand that is not there yet. -/
theorem take (h : Shows fallible counted callers hand s u) (has : u.Has .task w.number w.progress w.past)
    (apart : w.number ∉ (hand ++ s.held).map (·.number)) (reliable : w.script.others.CrashOnlyOn fallible) :
    Shows fallible counted callers (w :: hand) s u :=
  { h with
    tasks := List.forall_mem_cons.mpr ⟨has, h.tasks⟩
    apart := List.nodup_cons.mpr ⟨apart, h.apart⟩
    reliable := List.forall_mem_cons.mpr ⟨reliable, h.reliable⟩ }

end Shows

/-! ## Recording -/

/-- The events of `after` are noted under its number. -/
theorem eventsOf_record (before : List Event) (after : Work PublishResult) (i : Nat) :
    (s.record before after).eventsOf i
      = s.eventsOf i ++ if after.number = i then after.past.drop before.length else [] := by
  simp only [eventsOf, record, List.filter_append, List.map_append]
  congr 1
  by_cases hi : after.number = i
  · have hall : ∀ h ∈ (after.past.drop before.length).map (⟨after.number, s.elapsed, ·⟩ : Event → Happening),
        (h.number == i) = true := List.forall_mem_map.mpr fun _ _ => beq_iff_eq.mpr hi
    rw [if_pos hi, List.filter_eq_self.mpr hall, List.map_map]
    exact List.map_id' _
  · have hnone : ∀ h ∈ (after.past.drop before.length).map (⟨after.number, s.elapsed, ·⟩ : Event → Happening),
        ¬ (h.number == i) = true := List.forall_mem_map.mpr fun _ _ heq => hi (beq_iff_eq.mp heq)
    rw [if_neg hi, List.filter_eq_nil_iff.mpr hnone, List.map_nil]

/-- What a worker does shows in its caller if it is the caller. -/
def callersAfter (callers : List Caller) (w : Work PublishResult) : Worker → List Caller
  | .task => callers
  | .caller => callers.set w.number (.acting w.progress)

/-- **What is recorded of some work is what a worker does in the system.** -/
theorem Shows.record {others : Collaborators} {work : Progress PublishResult} {after : Work PublishResult}
    (h : Shows fallible counted callers hand s u) (hothers : others.CrashOnlyOn fallible)
    (has : u.Has worker w.number work w.past) (apart : w.number ∉ (hand ++ s.held).map (·.number))
    (leads : work.Leads others w.past after.progress after.past) (same : after.number = w.number) :
    ∃ v, u.Reaches fallible counted v ∧
      Shows fallible counted (callersAfter callers after worker) hand (s.record w.past after) v ∧
      v.Has worker after.number after.progress after.past := by
  obtain ⟨a, here, working, hpast⟩ := has
  rw [← hpast] at leads
  have start : System.Run (fun _ => others) counted u u := .refl u
  obtain ⟨events, hafter, run⟩ := start.thenWork w.number worker here working leads
  have hi : w.number < u.attempts.length := (List.getElem?_eq_some_iff.mp here).1
  have hevents : after.past.drop w.past.length = events := by
    rw [hafter, ← hpast, List.drop_left]
  have hthere := List.getElem?_set_self (a := a.advance after.progress after.past worker) hi
  have helse {j : Nat} (hj : w.number ≠ j) :
      (u.attempts.set w.number (a.advance after.progress after.past worker))[j]? = u.attempts[j]? :=
    List.getElem?_set_ne hj
  have hlength : (callersAfter callers after worker).length = callers.length := by
    cases worker with
    | task => rfl
    | caller => exact List.length_set
  refine ⟨_, ⟨fun _ => others, fun _ => hothers, run⟩, ?_, ?_⟩
  · refine ⟨h.dutyCounted, ?_, h.number.trans hlength.symm, ?_, ?_, ?_, h.apart, h.reliable, h.latest⟩
    · show events.foldl _ u.ledger = (after.past.drop w.past.length).foldl _ s.ledger
      rw [hevents, h.ledger, h.dutyCounted]
    · show (u.attempts.set w.number _).map _ = _
      rw [List.map_set, h.callers_eq]
      cases worker with
      | task =>
          have hcaller : callers[w.number]? = some a.caller := by
            rw [← h.callers_eq, List.getElem?_map, here]
            rfl
          obtain ⟨hlt, hget⟩ := List.getElem?_eq_some_iff.mp hcaller
          show callers.set w.number a.caller = callers
          rw [← hget, List.set_getElem_self]
      | caller =>
          rw [callersAfter, same]
          rfl
    · intro i
      rw [eventsOf_record, hevents, ← h.past i]
      by_cases hi : after.number = i
      · subst hi
        rw [if_pos rfl, same, hthere, here]
        exact (Attempt.past_advance ..).trans hafter
      · rw [if_neg hi, List.append_nil, helse (same ▸ hi)]
    · intro other hother
      obtain ⟨b, there, hwork, hb⟩ := h.tasks other hother
      refine ⟨b, (helse ?_).trans there, hwork, hb⟩
      rintro heq
      exact apart (heq ▸ List.mem_map_of_mem hother)
  · rw [same]
    exact ⟨_, hthere, Attempt.work?_advance .., Attempt.past_advance ..⟩

/-! ## Running -/

/-- From `start` some run leads to a system that stands where the simulation does. -/
def Follows (fallible : Call → Prop) (counted : Bool) (start : System) (callers : List Caller)
    (hand : List (Work PublishResult)) (s : Simulation) : Prop :=
  ∃ u, start.Reaches fallible counted u ∧ s.Shows fallible counted callers hand u

namespace Follows

variable {start : System} {p : Program PublishResult}

theorem regroup {hand' queued : List (Work PublishResult)} {importing : List (Nat × Work PublishResult)}
    {elapsed : Nat} (h : s.Follows fallible counted start callers hand)
    (hperm : (hand' ++ (queued ++ importing.map (·.2))).Perm (hand ++ s.held)) :
    Follows fallible counted start callers hand' { s with queued, importing, elapsed } := by
  obtain ⟨u, reach, shows⟩ := h
  exact ⟨u, reach, shows.regroup hperm⟩

theorem drop (h : s.Follows fallible counted start callers (w :: hand)) :
    s.Follows fallible counted start callers hand := by
  obtain ⟨u, reach, shows⟩ := h
  exact ⟨u, reach, shows.drop⟩

/-- A task in hand goes on. -/
theorem move {after : Work PublishResult} (h : s.Follows fallible counted start callers (w :: hand))
    (same : after.number = w.number)
    (hmove : (∀ script ∈ s.latest?, script.others.CrashOnlyOn fallible) → w.script.others.CrashOnlyOn fallible →
      after.script.others.CrashOnlyOn fallible ∧ ∃ others : Collaborators, others.CrashOnlyOn fallible ∧
        w.progress.Leads others w.past after.progress after.past) :
    (s.record w.past after).Follows fallible counted start callers (after :: hand) := by
  obtain ⟨u, reach, shows⟩ := h
  obtain ⟨reliable, others, hothers, leads⟩ := hmove shows.latest (shows.reliable w List.mem_cons_self)
  have apart := (List.nodup_cons.mp shows.apart).1
  obtain ⟨v, further, shows', has⟩ :=
    shows.drop.record hothers (shows.tasks w List.mem_cons_self) apart leads same
  exact ⟨v, reach.trans further, shows'.take has (same ▸ apart) reliable⟩

/-- **A task in hand is begun.** -/
theorem begin (h : s.Follows fallible counted start callers (w :: hand)) (ready : w.progress = .ofProgram p) :
    (s.begin w p).1.Follows fallible counted start callers ((s.begin w p).2 :: hand) := by
  refine h.move rfl fun hlatest hscript => ⟨crashOnlyOn_latest hlatest hscript, ?_⟩
  rw [ready]
  exact begin_leads hlatest hscript p

/-- **A task in hand gets the answer of its import and ends.** -/
theorem finish (h : s.Follows fallible counted start callers (w :: hand)) :
    (s.finish w).1.Follows fallible counted start callers ((s.finish w).2 :: hand) :=
  h.move rfl fun hlatest hscript =>
    ⟨hscript, s.others w, crashOnlyOn_others hlatest hscript, w.progress.leads_resume w.past⟩

/-- A task in hand is put among those that wait for their import. -/
theorem hold (h : s.Follows fallible counted start callers (w :: hand)) (due : Nat) :
    (s.hold due w).Follows fallible counted start callers hand := by
  rw [Simulation.hold, List.span_eq_takeWhile_dropWhile]
  refine h.regroup ?_
  rw [List.map_append, List.map_cons, ← List.append_assoc, ← List.append_assoc]
  refine List.perm_middle.trans ?_
  rw [List.append_assoc, List.append_assoc, ← List.map_append, List.takeWhile_append_dropWhile]
  exact List.Perm.refl _

/-- Imports answer that are due, and their tasks end. -/
theorem answer (due : List (Nat × Work PublishResult))
    (h : s.Follows fallible counted start callers (due.map (·.2) ++ hand)) :
    (due.foldl (fun s (due, w) => ({ s with elapsed := due }.finish w).1) s).Follows fallible counted start callers
      hand := by
  induction due generalizing s with
  | nil => exact h
  | cons held due ih =>
      have waiting : Follows fallible counted start callers (held.2 :: (due.map (·.2) ++ hand))
          { s with elapsed := held.1 } := h.regroup (List.Perm.refl _)
      exact ih waiting.finish.drop

/-- **Time passes.** -/
theorem passTo (h : s.Follows fallible counted start callers hand) (time : Nat) :
    (s.passTo time).Follows fallible counted start callers hand := by
  rw [Simulation.passTo, List.span_eq_takeWhile_dropWhile]
  generalize hdue : (s.importing.takeWhile fun held => held.1 ≤ time) = due
  generalize hlater : (s.importing.dropWhile fun held => held.1 ≤ time) = later
  have hsplit : due ++ later = s.importing := by rw [← hdue, ← hlater, List.takeWhile_append_dropWhile]
  have taken : Follows fallible counted start callers (due.map (·.2) ++ hand) { s with importing := later } := by
    refine h.regroup ?_
    rw [held, ← hsplit, List.map_append, List.append_assoc]
    exact (List.perm_append_comm_assoc ..).trans (List.Perm.append_left _ (List.perm_append_comm_assoc ..))
  exact (answer due taken).regroup (List.Perm.refl _)

/-- **A task that was queued is begun.** -/
theorem beginQueued (h : s.Follows fallible counted start callers (w :: hand)) :
    (s.beginQueued w).Follows fallible counted start callers hand := by
  unfold Simulation.beginQueued
  split
  · next c next ready =>
      have begun := h.begin ready (p := .call c next)
      rcases hbegin : s.begin w (.call c next) with ⟨s', w'⟩
      rw [hbegin] at begun
      dsimp only
      split
      · exact begun.hold _
      · exact begun.drop
  · exact h.drop

/-- All tasks are begun that are queued. -/
theorem beginAllQueued (h : s.Follows fallible counted start callers hand) :
    s.beginAllQueued.Follows fallible counted start callers hand := by
  have hall (queued : List (Work PublishResult)) {s : Simulation}
      (h : s.Follows fallible counted start callers (queued ++ hand)) :
      (queued.foldl Simulation.beginQueued s).Follows fallible counted start callers hand := by
    induction queued generalizing s with
    | nil => exact h
    | cons w queued ih => exact ih (beginQueued h)
  have taken : Follows fallible counted start callers (s.queued ++ hand) { s with queued := [] } := by
    refine h.regroup ?_
    rw [held, List.append_assoc]
    exact List.perm_append_comm_assoc ..
  exact hall s.queued taken

/-- **The caller of a task in hand waits for its end.** -/
theorem waitOut (h : s.Follows fallible counted start callers (w :: hand)) :
    (s.waitOut w).1.Follows fallible counted start callers ((s.waitOut w).2 :: hand) := by
  unfold Simulation.waitOut
  split
  · exact (h.beginAllQueued.passTo _).finish
  · exact h

end Follows

end Simulation

end BeaconBroadcast
