import BeaconBroadcast.Proofs.Publish.Following
import BeaconBroadcast.Proofs.Publish.Reference

/-!
# `BeaconBroadcast.Proofs.Publish.Simulation` — what is simulated is a run

A simulation decides when a task goes on and when a caller leaves, and its collaborators change with every caller. A
run of a system leaves the order of the steps open and keeps to one set of collaborators for each attempt. Still
whatever a simulation shows happens in a run: the order is one of those that a run may take, and the collaborators
are spliced from those that each attempt has met.

## Contents
- **Callers.** `Shows.tell` and `Shows.join`: a caller gets to know something, and a caller comes.
- **Publishing.** `Follows.publish`: a request is published in the system when it is published in the simulation.
- **Runs.** `Simulation.Reached` is what requests, rests and a clock that is set come to; `Reached.exists_run` finds
  the run, and `Reached.result_matches_account` carries over what is known of results.
- **Steps by themselves.** `await_eq_complete`: what is awaited by itself runs to its end.
-/

namespace BeaconBroadcast

variable {fallible : Call → Prop} {counted : Bool} {callers : List Caller} {hand : List (Work PublishResult)}
  {s : Simulation} {u : System} {w : Work PublishResult} {p : Program PublishResult}

namespace Simulation

/-! ## Callers -/

/-- A caller who works itself does no more than tell. -/
theorem quiet_of_dispatch_direct {publisher : Publisher} {request : Request}
    (h : publisher.dispatch request = .direct p) : p.CallsOnly fun c => c.isQuiet := by
  obtain ⟨-, milestone, rfl⟩ := Publisher.of_dispatch_direct h
  exact notAttempted_quiet _ _ _

namespace Shows

/-- Nothing else is there to be seen of a caller than where it stands. -/
theorem tell {a : Attempt} (h : Shows fallible counted (callers ++ [.waiting]) hand s u)
    (here : u.attempts[callers.length]? = some a) (c : Caller) :
    Shows fallible counted (callers ++ [c]) hand s
      { u with attempts := u.attempts.set callers.length { a with caller := c } } := by
  have hthere := List.getElem?_set_self (a := { a with caller := c }) (List.getElem?_eq_some_iff.mp here).1
  refine ⟨h.dutyCounted, h.ledger, ?_, ?_, ?_, ?_, h.apart, h.reliable, h.latest⟩
  · rw [h.number, List.length_append, List.length_append]
    rfl
  · show (u.attempts.set _ _).map _ = _
    rw [List.map_set, h.callers_eq, List.set_append_right _ _ (Nat.le_refl _), Nat.sub_self]
    rfl
  · intro i
    rw [← h.past i]
    by_cases hi : callers.length = i
    · subst hi
      rw [hthere, here]
      rfl
    · rw [List.getElem?_set_ne hi]
  · intro w hw
    obtain ⟨b, there, hwork, hpast⟩ := h.tasks w hw
    by_cases hi : callers.length = w.number
    · rw [← hi] at there ⊢
      cases here.symm.trans there
      exact ⟨_, hthere, hwork, hpast⟩
    · exact ⟨b, (List.getElem?_set_ne hi).trans there, hwork, hpast⟩

theorem caller_eq {a : Attempt} {c : Caller} (h : Shows fallible counted (callers ++ [c]) hand s u)
    (here : u.attempts[callers.length]? = some a) : a.caller = c := by
  have hcaller : (callers ++ [c])[callers.length]? = some a.caller := by
    rw [← h.callers_eq, List.getElem?_map, here]
    rfl
  rw [List.getElem?_concat_length] at hcaller
  exact (Option.some.inj hcaller).symm

theorem exists_last {c : Caller} (h : Shows fallible counted (callers ++ [c]) hand s u) :
    ∃ a, u.attempts[callers.length]? = some a := by
  have hi : callers.length < u.attempts.length := by
    rw [h.length_eq, List.length_append]
    exact Nat.lt_succ_self _
  exact ⟨_, List.getElem?_eq_getElem hi⟩

/-- A caller comes with an attempt that has not begun. -/
theorem join {a : Attempt} {script : Script} (h : Shows fallible counted callers hand s u) (begins : a.past = [])
    (reliable : script.others.CrashOnlyOn fallible) :
    Shows fallible counted (callers ++ [a.caller]) hand
      { s with callers := s.callers + 1, latest? := some script, recent := [] } (u.join [a]) := by
  refine ⟨h.dutyCounted, h.ledger, ?_, ?_, ?_, ?_, h.apart, h.reliable, ?_⟩
  · show s.callers + 1 = _
    rw [h.number, List.length_append]
    rfl
  · show (u.attempts ++ [a]).map _ = _
    rw [List.map_append, h.callers_eq]
    rfl
  · intro i
    show (((u.attempts ++ [a])[i]?).map _).getD [] = s.eventsOf i
    rw [← h.past i]
    by_cases hi : i < u.attempts.length
    · rw [List.getElem?_append_left hi]
    · have hle : u.attempts.length ≤ i := Nat.le_of_not_lt hi
      rw [List.getElem?_append_right hle, List.getElem?_eq_none hle]
      cases i - u.attempts.length with
      | zero => exact begins
      | succ k => rfl
  · intro w hw
    obtain ⟨b, there, hwork, hpast⟩ := h.tasks w hw
    exact ⟨b, (List.getElem?_append_left (List.getElem?_eq_some_iff.mp there).1).trans there, hwork, hpast⟩
  · rintro other hother
    cases hother
    exact reliable

end Shows

namespace Follows

variable {start : System} {publisher : Publisher} {request : Request} {name : String} {script : Script}
  {calls : List (Publisher × Request × String)}

/-- **A waiting caller gets to know something, or leaves.** -/
theorem tell {c : Caller} (h : s.Follows fallible counted start (callers ++ [.waiting]) hand)
    (hstep : ∀ {u a}, start.Reaches fallible counted u → s.Shows fallible counted (callers ++ [.waiting]) hand u →
      u.attempts[callers.length]? = some a → a.caller = .waiting →
      a.Step (.willing .standard) none { a with caller := c }) :
    s.Follows fallible counted start (callers ++ [c]) hand := by
  obtain ⟨u, reach, shows⟩ := h
  obtain ⟨a, here⟩ := shows.exists_last
  have step := hstep reach shows here (shows.caller_eq here)
  have further : u.Reaches fallible counted _ :=
    ⟨fun _ => .willing .standard, fun _ => (Collaborators.willing_steady .standard).crashOnlyOn,
      (System.Run.refl u).tail (.attempt here step)⟩
  exact ⟨_, reach.trans further, shows.tell here c⟩

/-- The next caller has a number that nobody has. -/
theorem fresh (h : s.Follows fallible counted start callers hand) :
    s.callers = callers.length ∧ s.eventsOf s.callers = [] ∧ s.callers ∉ (hand ++ s.held).map (·.number) := by
  obtain ⟨u, reach, shows⟩ := h
  refine ⟨shows.number, ?_, ?_⟩
  · rw [← shows.past, List.getElem?_eq_none (Nat.le_of_eq (shows.length_eq.trans shows.number.symm))]
    rfl
  · intro hmem
    obtain ⟨w, hw, hnumber⟩ := List.mem_map.mp hmem
    exact Nat.ne_of_lt (shows.number_lt hw) (hnumber.trans shows.number)

/-- What is known of a task in hand. -/
theorem known (h : s.Follows fallible counted start callers (w :: hand)) :
    w.past = s.eventsOf w.number ∧ w.number ∉ (hand ++ s.held).map (·.number) ∧
      w.script.others.CrashOnlyOn fallible := by
  obtain ⟨u, reach, shows⟩ := h
  refine ⟨shows.past_of_has (shows.tasks w List.mem_cons_self), (List.nodup_cons.mp shows.apart).1, ?_⟩
  exact shows.reliable w List.mem_cons_self

/-- **The last caller works itself.** -/
theorem beginByCaller (h : s.Follows fallible counted start (callers ++ [.acting (.ofProgram p)]) hand)
    (number : w.number = callers.length) (past : w.past = s.eventsOf w.number)
    (apart : w.number ∉ (hand ++ s.held).map (·.number)) (reliable : w.script.others.CrashOnlyOn fallible) :
    (s.begin w p).1.Follows fallible counted start (callers ++ [.acting (s.begin w p).2.progress]) hand := by
  obtain ⟨u, reach, shows⟩ := h
  obtain ⟨others, hothers, leads⟩ := begin_leads shows.latest reliable p
  obtain ⟨a, here⟩ := shows.exists_last
  have has : u.Has .caller w.number (.ofProgram p) w.past := by
    refine ⟨a, by rw [number]; exact here, ?_, ?_⟩
    · simp only [Attempt.work?, shows.caller_eq here]
    · rw [past, ← shows.past, number, here]
      rfl
  obtain ⟨v, further, shows', -⟩ := shows.record hothers has apart leads rfl
  have hcallers : callersAfter (callers ++ [.acting (.ofProgram p)]) (s.begin w p).2 .caller
      = callers ++ [.acting (s.begin w p).2.progress] := by
    show (callers ++ _).set w.number _ = _
    rw [number, List.set_append_right _ _ (Nat.le_refl _), Nat.sub_self]
    rfl
  rw [hcallers] at shows'
  exact ⟨v, reach.trans further, shows'⟩

/-- **A caller makes of the end of its task what a waiting caller makes of it.** -/
theorem conclude (h : s.Follows fallible counted start (callers ++ [.waiting]) (w :: hand))
    (number : w.number = callers.length) (done : w.progress.isDone)
    (asked : ∀ {u a}, start.Reaches fallible counted u → u.attempts[callers.length]? = some a →
      a.request = request ∧ a.name = name) :
    (s.conclude request name w).1.Follows fallible counted start
      (callers ++ [.acting (s.conclude request name w).2]) hand := by
  have hrunning {u : System} {a : Attempt} (shows : s.Shows fallible counted (callers ++ [.waiting]) (w :: hand) u)
      (here : u.attempts[callers.length]? = some a) : a.task? = some w.progress := by
    obtain ⟨b, there, hwork, -⟩ := shows.tasks w List.mem_cons_self
    rw [number] at there
    cases here.symm.trans there
    exact hwork
  cases hprogress : w.progress with
  | ready c next =>
      rw [hprogress] at done
      cases done
  | blocked c next =>
      rw [hprogress] at done
      cases done
  | returned result =>
      simp only [Simulation.conclude, hprogress]
      refine (h.tell fun reach shows here waiting => .deliver waiting ?_).drop
      rw [hrunning shows here, hprogress]
  | crashed crash =>
      simp only [Simulation.conclude, hprogress]
      have told := h.tell (c := .acting (.ofProgram (abort request.block (crash.text name))))
        fun {u a} reach shows here waiting => by
          obtain ⟨hrequest, hname⟩ := asked reach here
          have hcrashed : a.task? = some (.crashed crash) := by rw [hrunning shows here, hprogress]
          rw [← hrequest, ← hname]
          exact .takeOver waiting hcrashed
      obtain ⟨past, apart, reliable⟩ := told.known
      exact told.drop.beginByCaller number past apart reliable

/-- A caller comes with a task. -/
theorem newTask (h : s.Follows fallible counted (.named calls) callers []) (name : String)
    (dispatched : publisher.dispatch request = .task p) (reliable : script.others.CrashOnlyOn fallible) :
    (s.newWork script p).1.Follows fallible counted (.named (calls ++ [(publisher, request, name)]))
      (callers ++ [.waiting]) [(s.newWork script p).2] := by
  obtain ⟨hnumber, -, apart⟩ := h.fresh
  obtain ⟨u, reach, shows⟩ := h
  let a : Attempt := { request, name, task? := some (.ofProgram p), caller := .waiting }
  have hstart : Attempt.start publisher request name = a := by rw [Attempt.start, dispatched]
  have there : (u.join [a]).attempts[s.callers]? = some a := by
    rw [hnumber, ← shows.length_eq]
    exact List.getElem?_concat_length
  have joined := (shows.join (a := a) rfl reliable).take (w := (s.newWork script p).2) ⟨a, there, rfl, rfl⟩ apart
    reliable
  rw [System.named_concat, hstart]
  exact ⟨_, reach.append [a], joined⟩

/-- A caller comes who works itself. -/
theorem newDirect (h : s.Follows fallible counted (.named calls) callers []) (name : String)
    (dispatched : publisher.dispatch request = .direct p) (reliable : script.others.CrashOnlyOn fallible) :
    (s.newWork script p).1.Follows fallible counted (.named (calls ++ [(publisher, request, name)]))
      (callers ++ [.acting (.ofProgram p)]) [] := by
  obtain ⟨u, reach, shows⟩ := h
  let a : Attempt := { request, name, task? := none, caller := .acting (.ofProgram p) }
  have hstart : Attempt.start publisher request name = a := by rw [Attempt.start, dispatched]
  rw [System.named_concat, hstart]
  exact ⟨_, reach.append [a], shows.join (a := a) rfl reliable⟩

/-- The attempt of the last caller is the one that it asked for. -/
theorem asked (h : s.Follows fallible counted (.named calls) callers hand) {u : System} {a : Attempt}
    (reach : (System.named (calls ++ [(publisher, request, name)])).Reaches fallible counted u)
    (here : u.attempts[callers.length]? = some a) : a.request = request ∧ a.name = name := by
  obtain ⟨t, ⟨others, -, run⟩, shows⟩ := h
  obtain ⟨others', -, run'⟩ := reach
  obtain ⟨b, begun, hrequest, hname⟩ := run'.same_request here
  rw [← shows.length_eq, run.length_eq, System.named_concat] at begun
  cases List.getElem?_concat_length.symm.trans begun
  exact ⟨hrequest.trans Attempt.start_request, hname.trans Attempt.start_name⟩

/-- **Work that a caller does itself in the simulation it does in the system.** -/
theorem await (h : s.Follows fallible counted (.named calls) callers []) (name : String)
    (dispatched : publisher.dispatch request = .direct p) (reliable : script.others.CrashOnlyOn fallible) :
    (s.await script p).1.Follows fallible counted (.named (calls ++ [(publisher, request, name)]))
      (callers ++ [.acting (s.await script p).2]) [] := by
  obtain ⟨hnumber, hpast, apart⟩ := h.fresh
  have begun := (h.newDirect name dispatched reliable).beginByCaller (w := (s.newWork script p).2) hnumber hpast.symm
    apart reliable
  have done := begin_isDone (s.newWork script p).1 (s.newWork script p).2 (quiet_of_dispatch_direct dispatched)
  rcases hbegin : (s.newWork script p).1.begin (s.newWork script p).2 p with ⟨s', w'⟩
  rw [hbegin] at begun done
  have hawait : s.await script p = (s', w'.progress) := by
    unfold Simulation.await
    dsimp only
    rw [hbegin, waitOut_of_isDone done]
  rw [hawait]
  exact begun

/-- **A request that is published in the simulation is published in the system.** -/
theorem publish (h : s.Follows fallible counted (.named calls) callers []) (publisher : Publisher) (request : Request)
    (name : String) (reliable : script.others.CrashOnlyOn fallible) :
    (s.publish publisher request name script).1.Follows fallible counted
      (.named (calls ++ [(publisher, request, name)]))
      (callers ++ [(s.publish publisher request name script).2.elim .gone .acting]) [] := by
  unfold Simulation.publish
  cases dispatched : publisher.dispatch request with
  | direct p => exact h.await name dispatched reliable
  | task p =>
      have joined := h.newTask name dispatched reliable
      have number : (s.newWork script p).2.number = callers.length := h.fresh.1
      dsimp only
      split
      · -- the task is put aside before it has begun
        have left := joined.tell (c := .gone) fun _ _ _ waiting => .leave waiting
        refine left.regroup ?_
        rw [List.nil_append, List.append_assoc]
        exact List.perm_middle
      · have begun := joined.beginAllQueued.begin rfl
        have hcases := begin_cases (s.newWork script p).1.beginAllQueued (s.newWork script p).2 p
        have hnumber : ((s.newWork script p).1.beginAllQueued.begin (s.newWork script p).2 p).2.number
            = callers.length := number
        rcases hbegin : (s.newWork script p).1.beginAllQueued.begin (s.newWork script p).2 p with ⟨s', w'⟩
        rw [hbegin] at begun hcases hnumber
        dsimp only
        split
        · have left := begun.tell (c := .gone) fun _ _ _ waiting => .leave waiting
          exact (left.hold _).passTo _
        · exact begun.waitOut.conclude (waitOut_number.trans hnumber) (waitOut_isDone hcases)
            fun reach here => h.asked reach here

/-- Time passes while nobody comes. -/
theorem rest (h : s.Follows fallible counted start callers hand) (time : Nat) :
    (s.rest time).Follows fallible counted start callers hand := by
  unfold Simulation.rest
  split
  · exact h
  · exact h.beginAllQueued.passTo _

/-- The slot clock may be set. -/
theorem setClock (h : s.Follows fallible counted start callers hand) (clock : SlotClock) :
    Follows fallible counted start callers hand { s with clock } := by
  obtain ⟨u, reach, shows⟩ := h
  exact ⟨u, reach, { shows with }⟩

end Follows

/-! ## Runs -/

/-- What a simulation comes to when `calls` are published in turn, while time passes and the slot clock is set in
    between. The `callers` hold what each has got, or have left. A step of a pipeline that is awaited by itself is
    no attempt, and stays out. -/
inductive Reached (fallible : Call → Prop) (counted : Bool) :
    List (Publisher × Request × String) → List Caller → Simulation → Prop
  | start (clock : SlotClock) : Reached fallible counted [] [] { dutyCounted := counted, clock }
  | publish {calls : List (Publisher × Request × String)} {callers : List Caller} {s : Simulation}
      (reached : Reached fallible counted calls callers s) (publisher : Publisher) (request : Request) (name : String)
      {script : Script} (reliable : script.others.CrashOnlyOn fallible) :
      Reached fallible counted (calls ++ [(publisher, request, name)])
        (callers ++ [(s.publish publisher request name script).2.elim .gone .acting])
        (s.publish publisher request name script).1
  | rest {calls : List (Publisher × Request × String)} {callers : List Caller} {s : Simulation}
      (reached : Reached fallible counted calls callers s) (time : Nat) :
      Reached fallible counted calls callers (s.rest time)
  | setClock {calls : List (Publisher × Request × String)} {callers : List Caller} {s : Simulation}
      (reached : Reached fallible counted calls callers s) (clock : SlotClock) :
      Reached fallible counted calls callers { s with clock }

theorem follows_start (clock : SlotClock) :
    Follows fallible counted (.named []) [] [] { dutyCounted := counted, clock } := by
  refine ⟨_, .refl _ (Collaborators.willing_steady .standard).crashOnlyOn _, rfl, rfl, rfl, rfl, fun i => rfl, ?_,
    List.nodup_nil, ?_, ?_⟩
  · exact fun w hw => absurd hw List.not_mem_nil
  · exact fun w hw => absurd hw List.not_mem_nil
  · exact fun script hscript => by cases hscript

variable {calls : List (Publisher × Request × String)}

theorem Reached.follows (h : Reached fallible counted calls callers s) :
    s.Follows fallible counted (.named calls) callers [] := by
  induction h with
  | start clock => exact follows_start clock
  | publish reached publisher request name reliable ih => exact ih.publish publisher request name reliable
  | rest reached time ih => exact ih.rest time
  | setClock reached clock ih => exact ih.setClock clock

/-- **What is simulated is a run.** There are collaborators among whom the attempts come to where the simulation has
    brought them: the same has happened in each, each caller has got the same or has left, and the ledger is the same.
    They break down on no other calls than the scripts do. -/
theorem Reached.exists_run (h : Reached fallible counted calls callers s) :
    ∃ (others : Nat → Collaborators) (u : System), (∀ i, (others i).CrashOnlyOn fallible) ∧
      System.Run others counted (.named calls) u ∧ u.ledger = s.ledger ∧ u.attempts.map (·.caller) = callers ∧
      ∀ i a, u.attempts[i]? = some a → a.past = s.eventsOf i := by
  obtain ⟨u, ⟨others, hothers, run⟩, shows⟩ := h.follows
  refine ⟨others, u, hothers, run, shows.ledger, shows.callers_eq, fun i a here => ?_⟩
  rw [← shows.past i, here]
  rfl

/-- **What a simulation gives a caller is what the account gives**, if the tasks are named by their places and the
    scripts break down only at imports, gossip and the slot clock. -/
theorem Reached.result_matches_account {calls : List (Publisher × Request)}
    (h : Reached (fun c => c.canCrash) counted
      (calls.zipIdx.map fun ((publisher, request), i) => (publisher, request, toString i)) callers s)
    {i : Nat} {publisher : Publisher} {r : Request} (called : calls[i]? = some (publisher, r)) {p : Pipeline}
    (takes : publisher.pipeline? r = some p) {result : PublishResult}
    (got : callers[i]? = some (.acting (.returned result))) :
    ∃ replies, (p.account r (toString i) replies).Matches r.block (s.eventsOf i) (.returned result) := by
  obtain ⟨others, u, dependable, run, -, hcallers, hpast⟩ := h.exists_run
  rw [System.named_zipIdx] at run
  rw [← hcallers, List.getElem?_map, Option.map_eq_some_iff] at got
  obtain ⟨a, here, hcaller⟩ := got
  have hresult : a.result? = some result := by rw [Attempt.result?, hcaller]
  rw [← hpast i a here]
  exact run.result_matches_account dependable here called takes hresult

/-! ## Steps by themselves -/

/-- **What is awaited by itself runs to its end**, whatever else is under way: the caller gets what the program comes to
    when it is run alone, among collaborators who break down on no other calls than the script does. -/
theorem await_eq_complete {α : Type} {script : Script} (reliable : script.others.CrashOnlyOn fallible) (s : Simulation)
    (p : Program α) :
    ∃ (others : Collaborators) (past : List Event), others.CrashOnlyOn fallible ∧
      p.complete others [] = ((s.await script p).2, past) := by
  let fresh := s.newWork script p
  let begun := fresh.1.begin fresh.2 p
  have hlatest : ∀ other ∈ fresh.1.latest?, other.others.CrashOnlyOn fallible := by
    rintro other ⟨⟩
    exact reliable
  obtain ⟨first, hfirst, leads⟩ := begin_leads hlatest (w := fresh.2) reliable p
  obtain ⟨second, hsecond, leads'⟩ := waitOut_leads (s := begun.1) (w := begun.2) hlatest
    (crashOnlyOn_latest hlatest (w := fresh.2) reliable)
  have done := waitOut_isDone (s := begun.1) (begin_cases fresh.1 fresh.2 p)
  have whole := (leads.splice leads').finish_eq
  rw [Progress.finish_of_isDone done, Progress.finish_ofProgram] at whole
  exact ⟨_, _, hfirst.upTo hsecond _, whole.symm⟩

end Simulation

end BeaconBroadcast
