import BeaconBroadcast.Proofs.Publish.Tally

/-!
# `BeaconBroadcast.Proofs.Publish.Splicing` — runs among collaborators who change

A run asks its collaborators only for replies to what has happened by then. So where one run ends, another may go on
among other collaborators: the two together are a run among collaborators who change over at that moment.

## Contents
- **Replies.** `Collaborators.upTo` changes over; `Collaborators.AgreeFrom` compares replies over a stretch of a past.
- **Work.** `Progress.Leads.splice`: the steps of some work can be spliced.
- **Runs.** `System.Run.past_prefix`: pasts only grow; `System.Run.congr`: no other replies matter than those that
  were asked for; `System.Run.same_request`: no attempt turns into another.
- **Reaching.** `System.Reaches` says that there are collaborators for a run; `Reaches.trans` splices two runs.
- **More attempts.** `System.Run.append`: attempts that stand still do not matter.
-/

namespace BeaconBroadcast

/-! ## Replies -/

namespace Collaborators

variable {others others' first second : Collaborators} {fallible : Call → Prop}

/-- `first` up to the moment when `n` events have happened, `second` from then on. -/
def upTo (n : Nat) (first second : Collaborators) : Collaborators := fun past c =>
  if past.length < n then first past c else second past c

theorem CrashOnlyOn.upTo (h : first.CrashOnlyOn fallible) (h' : second.CrashOnlyOn fallible) (n : Nat) :
    (upTo n first second).CrashOnlyOn fallible := by
  intro past c hcrash
  unfold Collaborators.upTo at hcrash
  split at hcrash
  · exact h past c hcrash
  · exact h' past c hcrash

/-- They give the same replies while at least `m` and fewer than `n` events have happened. -/
def AgreeFrom (m n : Nat) (others others' : Collaborators) : Prop :=
  ∀ past c, m ≤ past.length → past.length < n → others past c = others' past c

theorem AgreeFrom.mono {m n k l : Nat} (h : AgreeFrom m n others others') (hstart : m ≤ k) (hend : l ≤ n) :
    AgreeFrom k l others others' := by
  intro past c hk hl
  exact h past c (Nat.le_trans hstart hk) (Nat.lt_of_lt_of_le hl hend)

theorem agreeFrom_upTo_left (m n : Nat) : AgreeFrom m n first (upTo n first second) :=
  fun _ _ _ hl => (if_pos hl).symm

theorem agreeFrom_upTo_right (n k : Nat) : AgreeFrom n k second (upTo n first second) :=
  fun _ _ hn _ => (if_neg (Nat.not_lt.mpr hn)).symm

end Collaborators

/-! ## Work -/

namespace Progress

variable {α : Type} {others others' first second : Collaborators} {past later later' : List Event}
  {work between done : Progress α}

theorem step_congr (h : ∀ c, others past c = others' past c) (work : Progress α) :
    work.step others past = work.step others' past := by
  cases work with
  | blocked c next => simp only [step, h]
  | ready c next => rfl
  | returned a => rfl
  | crashed crash => rfl

theorem Leads.congr (leads : work.Leads others past done later)
    (hsame : Collaborators.AgreeFrom past.length later.length others others') :
    work.Leads others' past done later := by
  induction leads with
  | refl => exact .refl
  | @tail before after later event leads step ih =>
      have hlast : later.length < (later ++ [event]).length := by
        rw [List.length_append, List.length_singleton]
        exact Nat.lt_succ_self _
      refine (ih (hsame.mono (Nat.le_refl _) (Nat.le_of_lt hlast))).tail ?_
      rwa [← step_congr fun c => hsame later c leads.past_prefix.length_le hlast]

theorem Leads.trans (leads : work.Leads others past between later) (leads' : between.Leads others later done later') :
    work.Leads others past done later' := by
  induction leads' with
  | refl => exact leads
  | tail leads' step ih => exact ih.tail step

/-- Work may go on among other collaborators. -/
theorem Leads.splice (leads : work.Leads first past between later)
    (leads' : between.Leads second later done later') :
    work.Leads (.upTo later.length first second) past done later' :=
  (leads.congr (Collaborators.agreeFrom_upTo_left _ _)).trans
    (leads'.congr (Collaborators.agreeFrom_upTo_right _ _))

end Progress

/-! ## Runs -/

/-- A step asks for a reply to what has happened before it, and to nothing else. -/
theorem Attempt.Step.congr {others others' : Collaborators} {a b : Attempt} {event? : Option Event}
    (h : a.Step others event? b) (hsame : Collaborators.AgreeFrom a.past.length b.past.length others others') :
    a.Step others' event? b := by
  have hreply {event : Event} (hpast : b.past = a.past ++ [event]) (c : Call) :
      others a.past c = others' a.past c := by
    refine hsame a.past c (Nat.le_refl _) ?_
    rw [hpast, List.length_append, List.length_singleton]
    exact Nat.lt_succ_self _
  cases h with
  | task running step => exact .task running (by rwa [← Progress.step_congr (hreply rfl)])
  | caller acting step => exact .caller acting (by rwa [← Progress.step_congr (hreply rfl)])
  | deliver waiting returned => exact .deliver waiting returned
  | takeOver waiting crashed => exact .takeOver waiting crashed
  | leave waiting => exact .leave waiting

namespace System

variable {others others' : Nat → Collaborators} {counted : Bool} {s t u : System} {i : Nat} {a : Attempt}

theorem Step.past_prefix (h : s.Step others counted t) (here : s.attempts[i]? = some a) :
    ∃ b, t.attempts[i]? = some b ∧ a.past <+: b.past := by
  cases h with
  | @attempt j before after event? before_here step =>
      by_cases hij : j = i
      · subst hij
        cases before_here.symm.trans here
        refine ⟨after, List.getElem?_set_self (List.getElem?_eq_some_iff.mp here).1, ?_⟩
        rw [step.past_eq]
        exact List.prefix_append _ _
      · exact ⟨a, (List.getElem?_set_ne hij).trans here, List.prefix_refl _⟩

/-- What has happened stays. -/
theorem Run.past_prefix (run : Run others counted s t) (here : s.attempts[i]? = some a) :
    ∃ b, t.attempts[i]? = some b ∧ a.past <+: b.past := by
  induction run with
  | refl => exact ⟨a, here, List.prefix_refl _⟩
  | tail run step ih =>
      obtain ⟨b, there, hfirst⟩ := ih
      obtain ⟨c, hend, hsecond⟩ := step.past_prefix there
      exact ⟨c, hend, hfirst.trans hsecond⟩

/-- An attempt has been there all the time. -/
theorem Run.exists_before (run : Run others counted s t) {b : Attempt} (there : t.attempts[i]? = some b) :
    ∃ a, s.attempts[i]? = some a ∧ a.past <+: b.past := by
  have hi : i < s.attempts.length := by
    rw [← run.length_eq]
    exact (List.getElem?_eq_some_iff.mp there).1
  have here := List.getElem?_eq_getElem hi
  obtain ⟨c, hthere, hprefix⟩ := run.past_prefix here
  cases hthere.symm.trans there
  exact ⟨_, here, hprefix⟩

/-- **Only the replies matter that a run asks for.** -/
theorem Run.congr (run : Run others counted s t)
    (hsame : ∀ i a b, s.attempts[i]? = some a → t.attempts[i]? = some b →
      Collaborators.AgreeFrom a.past.length b.past.length (others i) (others' i)) :
    Run others' counted s t := by
  induction run with
  | refl => exact .refl _
  | tail run step ih =>
      refine (ih ?_).tail ?_
      · intro i a b here there
        obtain ⟨c, hend, hprefix⟩ := step.past_prefix there
        exact (hsame i a c here hend).mono (Nat.le_refl _) hprefix.length_le
      · cases step with
        | @attempt i before after event? here step =>
            obtain ⟨a, begun, hprefix⟩ := run.exists_before here
            have hend := List.getElem?_set_self (a := after) (List.getElem?_eq_some_iff.mp here).1
            exact .attempt here (step.congr ((hsame i a after begun hend).mono hprefix.length_le (Nat.le_refl _)))

/-- Nobody asks for anything else on the way. -/
theorem Run.same_request (run : Run others counted s t) {b : Attempt} (there : t.attempts[i]? = some b) :
    ∃ a, s.attempts[i]? = some a ∧ b.request = a.request ∧ b.name = a.name := by
  induction run generalizing b with
  | refl => exact ⟨b, there, rfl, rfl⟩
  | @tail t u run step ih =>
      cases step with
      | @attempt j before after event? here step =>
          by_cases hij : j = i
          · subst hij
            rw [List.getElem?_set_self (List.getElem?_eq_some_iff.mp here).1] at there
            cases there
            obtain ⟨a, begun, hrequest, hname⟩ := ih here
            obtain ⟨hsame, hsame'⟩ := step.same_request
            exact ⟨a, begun, hsame.trans hrequest, hsame'.trans hname⟩
          · rw [List.getElem?_set_ne hij] at there
            exact ih there

/-! ## Reaching -/

/-- Some collaborators who break down on `fallible` calls only can lead from one system to the other. -/
def Reaches (fallible : Call → Prop) (counted : Bool) (s t : System) : Prop :=
  ∃ others : Nat → Collaborators, (∀ i, (others i).CrashOnlyOn fallible) ∧ Run others counted s t

variable {fallible : Call → Prop}

theorem Reaches.refl (others : Collaborators) (hothers : others.CrashOnlyOn fallible) (s : System) :
    Reaches fallible counted s s := ⟨fun _ => others, fun _ => hothers, .refl s⟩

/-- **Runs can be spliced**, whoever the collaborators of each are. -/
theorem Reaches.trans (h : Reaches fallible counted s t) (h' : Reaches fallible counted t u) :
    Reaches fallible counted s u := by
  obtain ⟨first, hfirst, run⟩ := h
  obtain ⟨second, hsecond, run'⟩ := h'
  let change (i : Nat) : Nat := (t.attempts[i]?.map (·.past.length)).getD 0
  have hchange {i : Nat} {b : Attempt} (there : t.attempts[i]? = some b) : change i = b.past.length := by
    simp only [change, there, Option.map_some, Option.getD_some]
  refine ⟨fun i => .upTo (change i) (first i) (second i), fun i => (hfirst i).upTo (hsecond i) _, ?_⟩
  refine (run.congr ?_).trans (run'.congr ?_)
  · intro i a b here there
    rw [hchange there]
    exact Collaborators.agreeFrom_upTo_left _ _
  · intro i b c there hend
    rw [hchange there]
    exact Collaborators.agreeFrom_upTo_right _ _

/-! ## More attempts -/

/-- The system with `more` attempts behind the others. -/
def join (s : System) (more : List Attempt) : System := { s with attempts := s.attempts ++ more }

/-- **Attempts that stand still do not matter.** -/
theorem Run.append (run : Run others counted s t) (more : List Attempt) :
    Run others counted (s.join more) (t.join more) := by
  induction run with
  | refl => exact .refl _
  | @tail t u run step ih =>
      cases step with
      | @attempt i before after event? here step =>
          have hi : i < t.attempts.length := (List.getElem?_eq_some_iff.mp here).1
          have hset : (t.attempts ++ more).set i after = t.attempts.set i after ++ more :=
            List.set_append_left _ _ hi
          simp only [join, ← hset]
          exact ih.tail (.attempt ((List.getElem?_append_left hi).trans here) step)

theorem Reaches.append (h : Reaches fallible counted s t) (more : List Attempt) :
    Reaches fallible counted (s.join more) (t.join more) := by
  obtain ⟨others, hothers, run⟩ := h
  exact ⟨others, hothers, run.append more⟩

end System

end BeaconBroadcast
