import BeaconBroadcast.Publish.Program

/-!
# `BeaconBroadcast.Proofs.Publish.Story` — what a program can leave behind

A program is run against collaborators of which little is known. Its *stories* are all the histories that
some collaborators can make it leave behind, each with the end that it comes to. Facts about every run are
facts about stories, and a story of a sequence falls apart into stories of its parts.

## Contents
- **Stories.** `Program.Story`, where only `fallible` calls crash; `Program.complete_story`: running a
  program to its end tells one of its stories, and where nobody breaks down it comes to a result.
- **Parts.** `Story.of_bind`, `Story.of_pure`, `Story.of_request`: the stories of composed programs.
- **Calls.** `Program.CallsOnly` and `Program.AtMost`: what holds of every call in the program, and how
  often some of them can be made, holds of every story. `Program.Recites` says which calls a program makes
  that does not listen to the answers.
- **Results.** `Program.ReturnsOnly`: what holds of every result in the program holds of every story.
- **Runs.** Running `p >>= f` is running `p` and then `f`; what a whole run leaves behind and comes to.
- **Truth.** `Faithful`: every reply in a history is the one that the collaborators gave.
-/

namespace BeaconBroadcast

variable {α β : Type} {fallible : Call → Prop} {others : Collaborators}

/-! ## Stories -/

/-- `p.Story fallible events end`: `p` can leave `events` behind and come to `end`, where every call may
    be answered in any way and the `fallible` ones may also crash. -/
inductive Program.Story (fallible : Call → Prop) : Program α → List Event → Progress α → Prop
  | returned (a : α) : Story fallible (.pure a) [] (.returned a)
  | crashed {c : Call} (next : c.Answer → Program α) (crash : Crash) (may : fallible c) :
      Story fallible (.call c next) [.issued c, .crashed c crash] (.crashed crash)
  | answered {c : Call} {next : c.Answer → Program α} (a : c.Answer) {events : List Event}
      {done : Progress α} (rest : Story fallible (next a) events done) :
      Story fallible (.call c next) (.issued c :: .answered c a :: events) done

/-- The collaborators crash on `fallible` calls only. -/
def Collaborators.CrashOnlyOn (others : Collaborators) (fallible : Call → Prop) : Prop :=
  ∀ past c, (others past c).isCrash → fallible c

theorem Collaborators.crashOnlyOn_all (others : Collaborators) :
    others.CrashOnlyOn (fun _ => True) := fun _ _ _ => trivial

namespace Program

@[simp] theorem complete_pure (a : α) (past : List Event) :
    (pure a : Program α).complete others past = (.returned a, past) := rfl

theorem complete_call {c : Call} (next : c.Answer → Program α) (past : List Event) :
    (call c next).complete others past =
      match others (past ++ [.issued c]) c with
      | .answer a => (next a).complete others (past ++ [.issued c] ++ [.answered c a])
      | .crash crash => (.crashed crash, past ++ [.issued c] ++ [.crashed c crash]) := by
  rw [complete, execute, if_neg Bool.false_ne_true]
  rfl

/-- **Running a program to its end tells one of its stories.** -/
theorem complete_story (hothers : others.CrashOnlyOn fallible) (p : Program α) (past : List Event) :
    ∃ events, (p.complete others past).2 = past ++ events ∧
      p.Story fallible events (p.complete others past).1 := by
  induction p generalizing past with
  | pure a => exact ⟨[], by simp, .returned a⟩
  | call c next ih =>
      rw [complete_call]
      cases hreply : others (past ++ [.issued c]) c with
      | answer a =>
          obtain ⟨events, hpast, hstory⟩ := ih a (past ++ [.issued c] ++ [.answered c a])
          exact ⟨.issued c :: .answered c a :: events, by rw [hpast]; simp, .answered a hstory⟩
      | crash crash =>
          refine ⟨[.issued c, .crashed c crash], by simp, .crashed next crash ?_⟩
          exact hothers (past ++ [.issued c]) c (by rw [hreply]; rfl)

/-- Where nobody breaks down, a program runs to a result. -/
theorem complete_returned (steady : others.CrashOnlyOn fun _ => False) (p : Program α)
    (past : List Event) : ∃ a, (p.complete others past).1 = .returned a := by
  induction p generalizing past with
  | pure a => exact ⟨a, rfl⟩
  | call c next ih =>
      rw [complete_call]
      cases hreply : others (past ++ [.issued c]) c with
      | answer a => exact ih a _
      | crash crash => exact (steady (past ++ [.issued c]) c (by rw [hreply]; rfl)).elim

/-! ## Parts -/

namespace Story

/-- The story of a program that ends at once. -/
theorem of_pure {a : α} {events : List Event} {done : Progress α}
    (h : Story fallible (pure a : Program α) events done) : events = [] ∧ done = .returned a := by
  cases h
  exact ⟨rfl, rfl⟩

/-- A story never ends before or within a call. -/
theorem isDone {p : Program α} {events : List Event} {done : Progress α}
    (h : Story fallible p events done) : done.isDone := by
  induction h with
  | returned a => rfl
  | crashed next crash may => rfl
  | answered a rest ih => exact ih

/-- **The stories of a sequence.** Either the first part crashes, or it returns and the story of the
    second part follows. -/
theorem of_bind {p : Program α} {f : α → Program β} {events : List Event} {done : Progress β}
    (h : Story fallible (p >>= f) events done) :
    (∃ crash, done = .crashed crash ∧ Story fallible p events (.crashed crash)) ∨
    ∃ a first second, events = first ++ second ∧ Story fallible p first (.returned a) ∧
      Story fallible (f a) second done := by
  induction p generalizing events with
  | pure a => exact Or.inr ⟨a, [], events, rfl, .returned a, h⟩
  | call c next ih =>
      cases h with
      | crashed _ crash may => exact Or.inl ⟨crash, rfl, .crashed next crash may⟩
      | @answered _ _ a events _ rest =>
          rcases ih a rest with ⟨crash, hdone, hfirst⟩ | ⟨b, first, second, rfl, hfirst, hsecond⟩
          · exact Or.inl ⟨crash, hdone, .answered a hfirst⟩
          · exact Or.inr ⟨b, _, second, rfl, .answered a hfirst, hsecond⟩

/-- The story of one call. -/
theorem of_request {c : Call} {events : List Event} {done : Progress c.Answer}
    (h : Story fallible (request c) events done) :
    (∃ crash, fallible c ∧ events = [.issued c, .crashed c crash] ∧ done = .crashed crash) ∨
    ∃ a, events = [.issued c, .answered c a] ∧ done = .returned a := by
  cases h with
  | crashed _ crash may => exact Or.inl ⟨crash, may, rfl, rfl⟩
  | answered a rest =>
      obtain ⟨rfl, rfl⟩ := rest.of_pure
      exact Or.inr ⟨a, rfl, rfl⟩

end Story

/-! ## Calls -/

/-- Every call that the program can make satisfies `P`. -/
def CallsOnly (P : Call → Prop) : Program α → Prop
  | pure _ => True
  | call c next => P c ∧ ∀ a, (next a).CallsOnly P

variable {P : Call → Prop}

theorem callsOnly_pure (a : α) : (Pure.pure a : Program α).CallsOnly P := trivial

theorem callsOnly_request {c : Call} (h : P c) : (request c).CallsOnly P := ⟨h, fun _ => trivial⟩

theorem callsOnly_notify (hP : ∀ notice, P (.notify notice)) (notice : Notice) :
    (notify notice).CallsOnly P := callsOnly_request (hP notice)

theorem callsOnly_bind {p : Program α} {f : α → Program β} (hp : p.CallsOnly P)
    (hf : ∀ a, (f a).CallsOnly P) : (p >>= f).CallsOnly P := by
  induction p with
  | pure a => exact hf a
  | call c next ih => exact ⟨hp.1, fun a => ih a (hp.2 a)⟩

theorem CallsOnly.mono {Q : Call → Prop} {p : Program α} (h : p.CallsOnly P) (hPQ : ∀ c, P c → Q c) :
    p.CallsOnly Q := by
  induction p with
  | pure a => trivial
  | call c next ih => exact ⟨hPQ c h.1, fun a => ih a (h.2 a)⟩

/-- No way through the program makes more than `n` of the calls that `P` counts. -/
def AtMost (P : Call → Bool) : Nat → Program α → Prop
  | _, pure _ => True
  | n, call c next => (P c).toNat ≤ n ∧ ∀ a, (next a).AtMost P (n - (P c).toNat)

variable {counts : Call → Bool}

theorem atMost_request (c : Call) : (request c).AtMost counts 1 :=
  ⟨Bool.toNat_le _, fun _ => trivial⟩

/-- A program whose calls are all uncounted leaves the whole of an allowance. -/
theorem CallsOnly.atMost {p : Program α} (h : p.CallsOnly fun c => counts c = false) (n : Nat) :
    p.AtMost counts n := by
  induction p with
  | pure a => trivial
  | call c next ih =>
      rw [AtMost, h.1]
      exact ⟨Nat.zero_le n, fun a => ih a (h.2 a)⟩

theorem AtMost.mono {m n : Nat} {p : Program α} (h : p.AtMost counts m) (hmn : m ≤ n) :
    p.AtMost counts n := by
  induction p generalizing m n with
  | pure a => trivial
  | call c next ih => exact ⟨Nat.le_trans h.1 hmn, fun a => ih a (h.2 a) (Nat.sub_le_sub_right hmn _)⟩

theorem AtMost.bind {m n : Nat} {p : Program α} {f : α → Program β} (hp : p.AtMost counts m)
    (hf : ∀ a, (f a).AtMost counts n) : (p >>= f).AtMost counts (m + n) := by
  induction p generalizing m with
  | pure a => exact (hf a).mono (Nat.le_add_left n m)
  | call c next ih =>
      refine ⟨Nat.le_trans hp.1 (Nat.le_add_right m n), fun a => ?_⟩
      rw [Nat.sub_add_comm hp.1]
      exact ih a (hp.2 a)

/-- The program makes exactly `calls`, in this order and whatever they are answered with, and ends with
    `a`. -/
def Recites (a : α) : List Call → Program α → Prop
  | calls, pure b => calls = [] ∧ b = a
  | calls, call c next => ∃ rest, calls = c :: rest ∧ ∀ answer, (next answer).Recites a rest

/-! ## Results -/

/-- Every result that the program can end with satisfies `P`. -/
def ReturnsOnly (P : α → Prop) : Program α → Prop
  | pure a => P a
  | call _ next => ∀ answer, (next answer).ReturnsOnly P

theorem ReturnsOnly.bind {P : α → Prop} {Q : β → Prop} {p : Program α} {f : α → Program β}
    (hp : p.ReturnsOnly P) (hf : ∀ a, P a → (f a).ReturnsOnly Q) : (p >>= f).ReturnsOnly Q := by
  induction p with
  | pure a => exact hf a hp
  | call c next ih => exact fun answer => ih answer (hp answer)

/-- What is done first does not matter where every continuation returns what it should. -/
theorem returnsOnly_bind {Q : β → Prop} {p : Program α} {f : α → Program β}
    (hf : ∀ a, (f a).ReturnsOnly Q) : (p >>= f).ReturnsOnly Q := by
  induction p with
  | pure a => exact hf a
  | call c next ih => exact fun answer => ih answer

theorem Story.of_returnsOnly {P : α → Prop} {p : Program α} {events : List Event} {a : α}
    (h : Story fallible p events (.returned a)) (hp : p.ReturnsOnly P) : P a := by
  generalize hdone : Progress.returned a = done at h
  induction h with
  | returned b =>
      cases hdone
      exact hp
  | crashed next crash may => cases hdone
  | answered answer rest ih => exact ih (hp answer) hdone

end Program

/-- The call that an event is about. -/
def Event.call : Event → Call
  | .issued c => c
  | .answered c _ => c
  | .crashed c _ => c

/-- What holds of every call in a program holds of every event in its stories. -/
theorem Program.Story.forall_call {P : Call → Prop} {p : Program α} {events : List Event}
    {done : Progress α} (h : p.Story fallible events done) (hp : p.CallsOnly P) :
    ∀ e ∈ events, P e.call := by
  induction h with
  | returned a => simp
  | crashed next crash may => simpa [Event.call] using hp.1
  | answered a rest ih =>
      intro e he
      rcases List.mem_cons.mp he with rfl | he
      · exact hp.1
      · rcases List.mem_cons.mp he with rfl | he
        · exact hp.1
        · exact ih (hp.2 a) e he

/-- Where more calls may crash there are no fewer stories. -/
theorem Program.Story.mono {fallible' : Call → Prop} {p : Program α} {events : List Event} {done : Progress α}
    (h : p.Story fallible events done) (hmore : ∀ c, fallible c → fallible' c) : p.Story fallible' events done := by
  induction h with
  | returned a => exact .returned a
  | crashed next crash may => exact .crashed next crash (hmore _ may)
  | answered a rest ih => exact .answered a ih

/-- A program that makes no fallible call comes to a result. -/
theorem Program.Story.exists_returned {p : Program α} {events : List Event} {done : Progress α}
    (h : p.Story fallible events done) (hp : p.CallsOnly fun c => ¬ fallible c) : ∃ a, done = .returned a := by
  induction h with
  | returned a => exact ⟨a, rfl⟩
  | crashed next crash may => exact absurd may hp.1
  | answered a rest ih => exact ih (hp.2 a)

/-- The call that an event makes. -/
def Event.issued? : Event → Option Call
  | .issued c => some c
  | _ => none

/-- The calls that were made, oldest first. -/
def callsIn (past : List Event) : List Call := past.filterMap Event.issued?

theorem callsIn_append (first second : List Event) :
    callsIn (first ++ second) = callsIn first ++ callsIn second := List.filterMap_append

theorem mem_callsIn {past : List Event} {c : Call} : c ∈ callsIn past ↔ .issued c ∈ past := by
  rw [callsIn, List.mem_filterMap]
  constructor
  · rintro ⟨e, he, hc⟩
    cases e with
    | issued d =>
        cases hc
        exact he
    | answered d a => cases hc
    | crashed d crash => cases hc
  · exact fun h => ⟨.issued c, h, rfl⟩

/-- A program that recites its calls makes the first of them, and all of them if it returns. -/
theorem Program.Story.of_recites {p : Program α} {a : α} {calls : List Call} {events : List Event}
    {done : Progress α} (h : p.Story fallible events done) (hp : p.Recites a calls) :
    callsIn events <+: calls ∧ ∀ b, done = .returned b → b = a ∧ callsIn events = calls := by
  induction h generalizing calls with
  | returned b =>
      obtain ⟨rfl, rfl⟩ := hp
      refine ⟨List.prefix_refl _, fun c hc => ?_⟩
      cases hc
      exact ⟨rfl, rfl⟩
  | @crashed c next crash may =>
      obtain ⟨rest, rfl, -⟩ := hp
      refine ⟨List.prefix_append [c] rest, fun b hb => ?_⟩
      cases hb
  | @answered c next answer events done story ih =>
      obtain ⟨rest, rfl, hrest⟩ := hp
      obtain ⟨hbegins, hreturned⟩ := ih (hrest answer)
      show c :: callsIn events <+: c :: rest ∧ ∀ b, done = .returned b → b = a ∧
        c :: callsIn events = c :: rest
      refine ⟨List.cons_prefix_cons.mpr ⟨rfl, hbegins⟩, fun b hb => ?_⟩
      obtain ⟨hresult, hcalls⟩ := hreturned b hb
      exact ⟨hresult, by rw [hcalls]⟩

/-- A story keeps within the allowance of its program. -/
theorem Program.Story.count_le {counts : Call → Bool} {n : Nat} {p : Program α} {events : List Event}
    {done : Progress α} (h : p.Story fallible events done) (hp : p.AtMost counts n) :
    (callsIn events).countP counts ≤ n := by
  induction h generalizing n with
  | returned a => exact Nat.zero_le n
  | @crashed c next crash may =>
      show ([c] : List Call).countP counts ≤ n
      rw [List.countP_singleton]
      cases hc : counts c
      · exact Nat.zero_le n
      · simpa [hc] using hp.1
  | @answered c next a events done rest ih =>
      show (c :: callsIn events).countP counts ≤ n
      rw [List.countP_cons]
      have hrest := ih (hp.2 a)
      have hcall := hp.1
      cases hc : counts c
      · simpa [hc] using hrest
      · rw [hc, Bool.toNat_true] at hrest hcall
        simpa using Nat.add_le_of_le_sub hcall hrest

/-! ## Runs -/

variable {past later : List Event}

/-- A program runs to a result or to a crash. -/
theorem Program.complete_cases (p : Program α) (others : Collaborators) (past : List Event) :
    (∃ a later, p.complete others past = (.returned a, later)) ∨
    ∃ crash later, p.complete others past = (.crashed crash, later) := by
  obtain ⟨events, -, hstory⟩ := p.complete_story others.crashOnlyOn_all past
  rcases hend : p.complete others past with ⟨done, later⟩
  rw [hend] at hstory
  cases done with
  | ready c next => exact absurd hstory.isDone Bool.false_ne_true
  | blocked c next => exact absurd hstory.isDone Bool.false_ne_true
  | returned a => exact Or.inl ⟨a, later, rfl⟩
  | crashed crash => exact Or.inr ⟨crash, later, rfl⟩

/-- What follows a part that returned. -/
theorem Program.complete_bind_of_returned {p : Program α} {f : α → Program β} {a : α}
    (h : p.complete others past = (.returned a, later)) :
    (p >>= f).complete others past = (f a).complete others later := by
  induction p generalizing past with
  | pure b =>
      cases h
      rfl
  | call c next ih =>
      show (call c fun answer => next answer >>= f).complete others past = _
      rw [complete_call] at h ⊢
      cases hreply : others (past ++ [.issued c]) c with
      | answer answer =>
          rw [hreply] at h
          exact ih answer h
      | crash crash =>
          rw [hreply] at h
          cases h

/-- Nothing follows a part that crashed. -/
theorem Program.complete_bind_of_crashed {p : Program α} (f : α → Program β) {crash : Crash}
    (h : p.complete others past = (.crashed crash, later)) :
    (p >>= f).complete others past = (.crashed crash, later) := by
  induction p generalizing past with
  | pure b => cases h
  | call c next ih =>
      show (call c fun answer => next answer >>= f).complete others past = _
      rw [complete_call] at h ⊢
      cases hreply : others (past ++ [.issued c]) c with
      | answer answer =>
          rw [hreply] at h
          exact ih answer h
      | crash other =>
          rw [hreply] at h
          cases h
          rfl

/-- What holds of every call in a program holds of all that it leaves behind. -/
theorem Program.forall_call_of_complete {p : Program α} {P : Call → Prop} {done : Progress α} (h : p.CallsOnly P)
    (hcomplete : p.complete others [] = (done, later)) : ∀ e ∈ later, P e.call := by
  obtain ⟨_, hpast, hstory⟩ := p.complete_story others.crashOnlyOn_all []
  rw [hcomplete] at hpast
  cases hpast
  exact hstory.forall_call h

/-- What holds of every result in a program holds of the one that it comes to. -/
theorem Program.of_complete_returned {p : Program α} {P : α → Prop} {a : α} (h : p.ReturnsOnly P)
    (hcomplete : p.complete others past = (.returned a, later)) : P a := by
  obtain ⟨_, -, hstory⟩ := p.complete_story others.crashOnlyOn_all past
  rw [hcomplete] at hstory
  exact hstory.of_returnsOnly h

/-! ## Truth -/

/-- Whether `event` can follow `before` with these collaborators: a reply has to be theirs. -/
def Event.FaithfulTo (others : Collaborators) (before : List Event) : Event → Prop
  | .issued _ => True
  | .answered c a => others before c = .answer a
  | .crashed c crash => others before c = .crash crash

/-- Every reply in a history is the one that the collaborators gave at that point. -/
def Faithful (others : Collaborators) (past : List Event) : Prop :=
  ∀ before event after, past = before ++ event :: after → event.FaithfulTo others before

theorem faithful_nil : Faithful others [] := by
  intro before event after h
  simp at h

theorem Faithful.concat {past : List Event} {event : Event} (h : Faithful others past)
    (hevent : event.FaithfulTo others past) : Faithful others (past ++ [event]) := by
  intro before e after hsplit
  -- either the event looked at is the new one, or it stood in the past before
  rcases List.eq_nil_or_concat after with rfl | ⟨rest, last, rfl⟩
  · obtain ⟨rfl, he⟩ := List.append_inj' hsplit rfl
    rw [← List.head_eq_of_cons_eq he]
    exact hevent
  · rw [List.concat_eq_append, ← List.cons_append, ← List.append_assoc] at hsplit
    exact h before e rest (List.append_inj' hsplit rfl).1

/-- A program that runs to its end tells the truth about its collaborators. -/
theorem Program.complete_faithful (p : Program α) {past : List Event} (h : Faithful others past) :
    Faithful others (p.complete others past).2 := by
  induction p generalizing past with
  | pure a => exact h
  | call c next ih =>
      rw [complete_call]
      have hissued : Faithful others (past ++ [.issued c]) := h.concat trivial
      cases hreply : others (past ++ [.issued c]) c with
      | answer a => exact ih a (hissued.concat hreply)
      | crash crash => exact hissued.concat hreply

end BeaconBroadcast
