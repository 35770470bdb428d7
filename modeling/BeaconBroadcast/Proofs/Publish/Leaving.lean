import BeaconBroadcast.Proofs.Publish.BlobContract
import BeaconBroadcast.Proofs.Publish.Calls
import BeaconBroadcast.Proofs.Publish.Settled
import BeaconBroadcast.Proofs.Publish.Telemetry

/-!
# `BeaconBroadcast.Proofs.Publish.Leaving` — a caller who leaves changes nothing

A caller waits for a task that does all the work. If it leaves, at whatever moment, the task goes on, and in the
end the import and gossip have been asked for exactly what they would have been asked for had it stayed. Only
where somebody broke down is there a difference at all: then a caller who stayed would have reported it.

## Contents
- **Ends.** `System.Run.thenFinish`: whatever a task has done already, it can run to its end.
- **Effects.** `SameEffects` compares what two attempts leave behind; what a waiting caller adds to its task.
- **Attempts.** `Attempt.OnCourse.sameEffects`: a settled attempt against the work it was to do.
- **Leaving.** `System.leave` and `System.Run.unchanged_by_leaving`, with a caller who leaves during the import.
-/

namespace BeaconBroadcast

open Program

variable {others : Collaborators} {publisher : Publisher} {r : Request} {name : String}

/-! ## Ends -/

section Tasks

variable {others : Nat → Collaborators} {counted : Bool} {s t : System} {i : Nat} {a : Attempt}
  {work : Progress PublishResult}

/-- **Wherever a task stands, it can run to its end** while the other attempts stand still. -/
theorem System.Run.thenFinish (run : Run others counted s t) (i : Nat) (here : t.attempts[i]? = some a)
    (running : a.task? = some work) :
    ∃ u, Run others counted s u ∧ u.attempts[i]? = some
      { a with
        task? := some (work.finish (others i) a.past).1
        past := (work.finish (others i) a.past).2 } := by
  obtain ⟨events, -, hrun⟩ := run.thenWork i .task here running (work.leads_finish a.past)
  exact ⟨_, hrun, List.getElem?_set_self (List.getElem?_eq_some_iff.mp here).1⟩

end Tasks

/-! ## Effects -/

/-- What it means that two attempts come to the same. -/
structure SameEffects (past other : List Event) : Prop where
  /-- The import and gossip are asked for the same, in the same order. -/
  channels : channelCalls past = channelCalls other
  /-- Where nobody breaks down in one of the two, they have everything in common: what was asked and answered, what
      the listeners and the ledger were told, and the lines in the log. -/
  everything : past.any Event.isCrash = false ∨ other.any Event.isCrash = false → past = other

namespace SameEffects

variable {past other third : List Event}

theorem refl (past : List Event) : SameEffects past past := ⟨rfl, fun _ => rfl⟩

theorem symm (h : SameEffects past other) : SameEffects other past :=
  ⟨h.channels.symm, fun hcrash => (h.everything hcrash.symm).symm⟩

theorem trans (h : SameEffects past other) (h' : SameEffects other third) : SameEffects past third := by
  refine ⟨h.channels.trans h'.channels, ?_⟩
  rintro (hpast | hthird)
  · have hsame := h.everything (Or.inl hpast)
    exact hsame.trans (h'.everything (Or.inl (hsame ▸ hpast)))
  · have hsame := h'.everything (Or.inr hthird)
    exact (h.everything (Or.inr (hsame ▸ hthird))).trans hsame

end SameEffects

theorem channelCalls_eq_nil {events : List Event} (h : ∀ e ∈ events, e.call.isQuiet) :
    channelCalls events = [] := by
  apply List.filter_eq_nil_iff.mpr
  intro c hc
  have hquiet : c.isQuiet := h _ (mem_callsIn.mp hc)
  obtain ⟨himport, hgossip⟩ := Call.isQuiet_iff.mp hquiet
  rw [Call.isChannel, himport, hgossip]
  exact Bool.false_ne_true

/-- A caller who reports a task that broke off asks nobody for anything. -/
theorem channelCalls_abort (block : SignedBlock) (cause : String) (past : List Event) :
    channelCalls ((abort block cause).complete others past).2 = channelCalls past := by
  obtain ⟨events, hpast, hstory⟩ := (abort block cause).complete_story others.crashOnlyOn_all past
  have hquiet := hstory.forall_call (notAttempted_quiet (.aborted block.root block.slot cause) block
    (.error (.internal cause)))
  rw [hpast, channelCalls_append, channelCalls_eq_nil hquiet, List.append_nil]

/-- **A waiting caller adds to its task only where that broke off**, and then only the report. -/
theorem Attempt.afterTask_sameEffects (work : Program PublishResult) :
    SameEffects (afterTask others r name (work.complete others [])).2 (work.complete others []).2 := by
  obtain ⟨events, hpast, hstory⟩ := work.complete_story others.crashOnlyOn_all []
  rcases hcomplete : work.complete others [] with ⟨done, past⟩
  rw [hcomplete] at hpast hstory
  cases done with
  | ready c next => exact .refl past
  | blocked c next => exact .refl past
  | returned result => exact .refl past
  | crashed crash =>
      refine ⟨channelCalls_abort .., ?_⟩
      -- the breakdown of the task is in both histories
      have hcrash : past.any Event.isCrash := by
        rw [show past = events from hpast]
        exact hstory.any_isCrash_iff.mpr ⟨crash, rfl⟩
      have hthere : (afterTask others r name (.crashed crash, past)).2.any Event.isCrash := by
        have hbegins : past <+: (afterTask others r name (.crashed crash, past)).2 :=
          prefix_afterTask (.crashed crash, past)
        obtain ⟨more, hmore⟩ := hbegins
        rw [← hmore, List.any_append, hcrash, Bool.true_or]
      rintro (hnone | hnone)
      · cases hthere.symm.trans hnone
      · cases hcrash.symm.trans hnone

/-! ## Attempts -/

/-- An awaited attempt against the work that it was to do. -/
theorem Attempt.awaited_sameEffects (name : String) :
    SameEffects (awaited others publisher r name).2 ((publisher.dispatch r).work.complete others []).2 := by
  cases hdispatch : publisher.dispatch r with
  | task work =>
      rw [awaited_of_task hdispatch]
      exact afterTask_sameEffects work
  | direct work =>
      rw [awaited_of_direct hdispatch]
      exact .refl _

/-- **A settled attempt comes to the same as the work that it was to do**, whoever has waited for it. -/
theorem Attempt.OnCourse.sameEffects {a : Attempt} (h : a.OnCourse others publisher) (settled : a.isSettled) :
    SameEffects a.past ((publisher.dispatch a.request).work.complete others []).2 := by
  rcases h.of_settled settled with ⟨work, hend⟩ | ⟨whole, work, hdispatch, hend⟩
  · have hawaited : SameEffects (awaited others publisher a.request a.name).2 _ := awaited_sameEffects a.name
    rwa [hend] at hawaited
  · rw [hdispatch, Dispatch.work, hend]
    exact .refl _

/-! ## Leaving -/

/-- The caller of attempt `i`, which is `a`, leaves. -/
def System.leave (s : System) (i : Nat) (a : Attempt) : System :=
  { s with attempts := s.attempts.set i { a with caller := .gone } }

variable {calls : List (Publisher × Request)} {others : Nat → Collaborators} {counted : Bool}

/-- Two attempts of one request among the same collaborators come to the same, if both are settled. -/
theorem System.Run.sameEffects {s t : System} (run : Run others counted (.start calls) s)
    (other : Run others counted (.start calls) t) {i : Nat} {a b : Attempt} (here : s.attempts[i]? = some a)
    (there : t.attempts[i]? = some b) (settled : a.isSettled) (settled' : b.isSettled) :
    SameEffects a.past b.past := by
  obtain ⟨publisher, hcall, -, hcourse⟩ := run.onCourse here
  obtain ⟨publisher', hcall', -, hcourse'⟩ := other.onCourse there
  obtain ⟨rfl, hrequest⟩ := Prod.ext_iff.mp (Option.some.inj (hcall.symm.trans hcall'))
  have hsame := hcourse'.sameEffects settled'
  rw [← show a.request = b.request from hrequest] at hsame
  exact (hcourse.sameEffects settled).trans hsame.symm

/-- **A caller who leaves changes nothing.** At whatever moment of a run a waiting caller leaves, its attempt can
    run to an end; and to whatever end it comes, it has asked the import and gossip for just what the awaited
    attempt asks them for, and, if nobody breaks down, has done everything that the awaited attempt does. The same
    goes for the attempt in any other run of the same calls, whether its caller stays or leaves at another moment. -/
theorem System.Run.unchanged_by_leaving {s : System} (run : Run others counted (.start calls) s) {i : Nat}
    {a : Attempt} (here : s.attempts[i]? = some a) (called : calls[i]? = some (publisher, r))
    (waiting : a.caller = .waiting) :
    (∃ t b, Run others counted (s.leave i a) t ∧ t.attempts[i]? = some b ∧ b.isSettled) ∧
    ∀ t b, Run others counted (s.leave i a) t → t.attempts[i]? = some b → b.isSettled →
      SameEffects b.past (Attempt.awaited (others i) publisher r (toString i)).2 ∧
      ∀ u c, Run others counted (.start calls) u → u.attempts[i]? = some c → c.isSettled →
        SameEffects b.past c.past := by
  have left : Run others counted (.start calls) (s.leave i a) := run.thenLeave i here waiting
  have hi : i < s.attempts.length := (List.getElem?_eq_some_iff.mp here).1
  have here_left : (s.leave i a).attempts[i]? = some { a with caller := .gone } := List.getElem?_set_self hi
  refine ⟨?_, ?_⟩
  · obtain ⟨_, -, -, hcourse⟩ := run.onCourse here
    cases hcourse with
    | @working whole work dispatched task caller same_end =>
        obtain ⟨t, hrun, hthere⟩ := (Run.refl (s.leave i a)).thenFinish i here_left task
        exact ⟨t, _, hrun, hthere, Bool.and_eq_true_iff.mpr ⟨work.finish_isDone a.past, rfl⟩⟩
    | acting acts task same_end => cases acts.symm.trans waiting
  · intro t b after there settled
    have whole := left.trans after
    refine ⟨?_, ?_⟩
    · obtain ⟨_, hcall, -, hcourse⟩ := whole.onCourse there
      cases called.symm.trans hcall
      exact (hcourse.sameEffects settled).trans (Attempt.awaited_sameEffects (toString i)).symm
    · intro u c other elsewhere settled'
      exact whole.sameEffects other there elsewhere settled settled'

/-- A caller who leaves while the import is at work. -/
theorem unchanged_by_leaving_during_import :
    ∃ (s t : System) (a b : Attempt),
      System.Run (fun _ => .willing .standard) true (.start [(.single { variant := .plain }, .blank)]) s ∧
      s.attempts[0]? = some a ∧ a.caller = .waiting ∧
      callsIn a.past = [.notify (.importing Request.blank.block.root Request.blank.block.slot 0 .standard),
        .importBlock Request.blank.block .standard] ∧
      System.Run (fun _ => .willing .standard) true (s.leave 0 a) t ∧ t.attempts[0]? = some b ∧ b.isSettled ∧
      SameEffects b.past
        (Attempt.awaited (.willing .standard) (.single { variant := .plain }) .blank (toString 0)).2 := by
  have start : System.Run (fun _ => .willing .standard) true
      (.start [(.single { variant := .plain }, .blank)]) _ := .refl _
  have asked := ((start.thenTask 0 rfl rfl rfl).thenTask 0 rfl rfl rfl).thenTask 0 rfl rfl rfl
  have called : [(Publisher.single { variant := .plain }, Request.blank)][0]? = some (_, _) := rfl
  obtain ⟨⟨t, b, after, there, settled⟩, hsame⟩ := asked.unchanged_by_leaving rfl called rfl
  exact ⟨_, t, _, b, asked, rfl, rfl, rfl, after, there, settled, (hsame t b after there settled).1⟩

end BeaconBroadcast
