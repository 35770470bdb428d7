import BeaconBroadcast.Proofs.Publish.ImportGate
import BeaconBroadcast.Proofs.Publish.Remarks
import BeaconBroadcast.Proofs.Publish.Rewording

/-!
# `BeaconBroadcast.Proofs.Publish.Levels` — the level asked for opens the gate or shuts it, and does nothing else

A caller names the level up to which the import has to vouch for the block. Nobody but the gate reads it: two attempts
that differ in the level alone go the same way as long as the gate lets both through or neither, and where it shuts for
the stronger level only, that attempt ends with the gate's refusal and nothing of it has gone out.

## Contents
- **Levels.** The gate at two levels.
- **Parts.** `Pipeline.ask` comes before the gate, `Pipeline.settle` after it; `Attempt.awaited_settled` takes an
  awaited attempt apart.
- **Other levels.** `Rewording.asking` names another level; both parts put differently.
- **Tellings.** `Collaborators.Hears`: a listener hears what it is told next, since another attempt got through there.
- **Attempts.** `Collaborators.LevelBlind`, what an attempt's result says of its two parts, and `Attempt.GatedByLevel`
  for all that the level decides.
-/

namespace BeaconBroadcast

open Program

variable {others : Collaborators} {publisher : Publisher} {p : Pipeline} {r : Request} {answer : ImportAnswer}
  {level : Level} {past later : List Event} {name : String}

/-! ## Levels -/

theorem Level.le_trans {a b c : Level} (hab : a ≤ b) (hbc : b ≤ c) : a ≤ c := Nat.le_trans hab hbc

theorem Level.lt_of_not_le {a b : Level} (h : ¬ a ≤ b) : b < a := Nat.lt_of_not_le h

namespace ImportAnswer

theorem gate_of_le {imported : ImportedBlock} (enough : level ≤ imported.validatedAt) :
    (ImportAnswer.imported imported).gate level = .imported imported :=
  if_pos (decide_eq_true enough)

theorem gate_of_not_le {imported : ImportedBlock} (short : ¬ level ≤ imported.validatedAt) :
    (ImportAnswer.imported imported).gate level = .refused (.insufficient imported.validatedAt) :=
  if_neg (by rw [Level.satisfies, decide_eq_false short]; exact Bool.false_ne_true)

/-- Only an import can pass the gate. -/
theorem gate_of_isImported_false (h : answer.isImported = false) (level level' : Level) :
    answer.gate level = answer.gate level' := by
  cases answer with
  | imported imported => cases h
  | refused verdict => cases verdict <;> rfl
  | failed reason => rfl

/-- A failure is one at every level. -/
theorem gate_of_failed {reason : ImportFailure} (h : answer.gate level = .failed reason) (level' : Level) :
    answer.gate level' = .failed reason := by
  cases himported : answer.isImported with
  | false => rw [gate_of_isImported_false himported level' level, h]
  | true =>
      cases answer with
      | imported imported =>
          by_cases enough : level ≤ imported.validatedAt
          · cases (gate_of_le enough).symm.trans h
          · cases (gate_of_not_le enough).symm.trans h
      | refused verdict => cases himported
      | failed reason => cases himported

end ImportAnswer

/-! ## Parts -/

namespace Pipeline

/-- What comes before the gate. -/
def ask (p : Pipeline) (r : Request) : Program ImportAnswer :=
  notify (.importing r.block.root r.block.slot r.sidecars.length r.level) >>= fun _ =>
    p.variant.importBlock r.block r.sidecars r.level

/-- The gate, and what comes after it. -/
def settle (p : Pipeline) (r : Request) (answer : ImportAnswer) : Program PublishResult :=
  p.conclude r.block r.sidecars r.level (answer.gate r.level) >>= fun result =>
    report r.block result.outcome >>= fun _ => Pure.pure result

theorem run_eq (p : Pipeline) (r : Request) :
    p.run r.block r.sidecars r.level = p.ask r >>= p.settle r := rfl

/-- What the gate says decides how an attempt ends that is not broken off. -/
theorem settle_returnsOnly (p : Pipeline) (r : Request) (answer : ImportAnswer) :
    (p.settle r answer).ReturnsOnly fun result =>
      match answer.gate r.level with
      | .imported _ => ∃ publication, result = .ok publication
      | .refused verdict => result = .error (.validationFailed r.block.root r.level verdict)
      | .failed reason => result = .error (.importFailed r.block.root reason) := by
  have hreported {P : PublishResult → Prop} {work : Program PublishResult} (h : work.ReturnsOnly P) :
      (work >>= fun result => report r.block result.outcome >>= fun _ => Pure.pure result).ReturnsOnly P :=
    h.bind fun result hresult => returnsOnly_bind fun _ => hresult
  unfold settle
  cases answer.gate r.level with
  | imported imported =>
      refine hreported (returnsOnly_bind fun delivery => ?_)
      exact returnsOnly_bind fun _ => returnsOnly_bind fun _ => ⟨_, rfl⟩
  | refused verdict => exact hreported (returnsOnly_bind fun _ => rfl)
  | failed reason => exact hreported (returnsOnly_bind fun _ => rfl)

end Pipeline

/-- Nothing is offered to gossip before the gate. -/
theorem Pipeline.ask_callsOnly (p : Pipeline) (r : Request) : (p.ask r).CallsOnly fun c => c.isGossip = false :=
  callsOnly_bind (callsOnly_request rfl) fun _ => importBlock_callsOnly p.variant

namespace Attempt

/-- **An awaited attempt of a pipeline with a result of its own** had an answer from the import, and its task returned
    the result. -/
theorem awaited_settled (takes : publisher.pipeline? r = some p) {result : PublishResult}
    (h : awaited others publisher r name = (.returned result, later))
    (kept : ∀ cause, result ≠ .error (.internal cause)) :
    ∃ answer past, (p.ask r).complete others [] = (.returned answer, past) ∧
      (p.settle r answer).complete others past = (.returned result, later) := by
  -- a caller who takes over comes to a result that is not the attempt's own
  have hown {ended : Progress PublishResult × List Event}
      (hended : afterTask others r name ended = (.returned result, later)) : ended = (.returned result, later) := by
    obtain ⟨work, past⟩ := ended
    cases work with
    | crashed crash =>
        exact absurd (Program.of_complete_returned (abort_returnsOnly r.block (crash.text name)) hended) (kept _)
    | ready c next => cases hended
    | blocked c next => cases hended
    | returned other => exact hended
  rw [awaited_of_task (Publisher.dispatch_of_pipeline? takes)] at h
  have hrun := hown h
  rw [Pipeline.run_eq] at hrun
  rcases (p.ask r).complete_cases others [] with ⟨answer, past, hask⟩ | ⟨crash, past, hask⟩
  · rw [Program.complete_bind_of_returned hask] at hrun
    exact ⟨answer, past, hask, hrun⟩
  · rw [Program.complete_bind_of_crashed _ hask] at hrun
    cases hrun

/-- What an attempt comes to whose import answered and whose task returned. -/
theorem awaited_of_settled (takes : publisher.pipeline? r = some p) {result : PublishResult}
    (hask : (p.ask r).complete others [] = (.returned answer, past))
    (hsettle : (p.settle r answer).complete others past = (.returned result, later)) :
    awaited others publisher r name = (.returned result, later) := by
  rw [awaited_of_task (Publisher.dispatch_of_pipeline? takes), Pipeline.run_eq,
    Program.complete_bind_of_returned hask, hsettle]
  rfl

end Attempt

/-! ## Other levels -/

/-- The request with another level. -/
def Request.asking (r : Request) (level : Level) : Request := { r with level }

/-- The notice with another level, if it names one. -/
def Notice.asking (level : Level) : Notice → Notice
  | importing root slot sidecars _ => importing root slot sidecars level
  | notice => notice

/-- The call with another level, if it names one. -/
def Call.asking (level : Level) : Call → Call
  | importBlock block _ => importBlock block level
  | importWithSidecars block sidecars _ => importWithSidecars block sidecars level
  | notify notice => notify (notice.asking level)
  | c => c

/-- The rewording that names another level. -/
def Rewording.asking (level : Level) : Rewording where
  call := Call.asking level
  same_answers c := by cases c <;> rfl

theorem Publisher.pipeline?_asking (publisher : Publisher) (r : Request) (level : Level) :
    publisher.pipeline? (r.asking level) = publisher.pipeline? r := by
  cases publisher <;> rfl

namespace Rewording

/-- No report names a level. -/
theorem asking_keeps_report (level : Level) (c : Call) (h : c.isReport) : (asking level).Keeps c := by
  cases c <;> first | exact ⟨rfl, rfl⟩ | cases h

theorem asking_broadcast (v : Variant) (block : SignedBlock) (sidecars : List BlobSidecar) :
    (asking level).Renders (v.broadcast block sidecars) (v.broadcast block sidecars) := by
  apply Renders.of_callsOnly
  refine (broadcast_isOfBroadcast v block sidecars).mono fun c hc => ⟨rfl, ?_⟩
  cases c with
  | notify notice => cases notice <;> first | rfl | cases hc
  | _ => first | rfl | cases hc

/-- No remark on a delay names a level. -/
theorem asking_keeps_remark (level : Level) (notice : Notice) (h : notice.delay?.isSome) :
    (asking level).Keeps (.notify notice) := by
  cases notice <;> first | exact ⟨rfl, rfl⟩ | cases h

theorem asking_importBlock (v : Variant) (r : Request) :
    (asking level).Renders (v.importBlock r.block r.sidecars r.level) (v.importBlock r.block r.sidecars level) := by
  cases v with
  | plain =>
      simp only [Variant.importBlock]
      split
      · exact .call rfl fun _ => .call rfl fun _ => .pure _
      · exact .call rfl fun _ => .pure _
  | withBlobs limit counted =>
      simp only [Variant.importBlock]
      split
      · exact .call rfl fun _ => .pure _
      · exact .call rfl fun _ => .pure _

/-- What comes before the gate names the level and heeds it not. -/
theorem asking_ask (p : Pipeline) (r : Request) : (asking level).Renders (p.ask r) (p.ask (r.asking level)) :=
  .call rfl fun _ => asking_importBlock p.variant r

/-- What comes after the gate is the same at two levels at which the gate says the same, unless it says no. -/
theorem asking_settle (p : Pipeline) (r : Request) (same : answer.gate level = answer.gate r.level)
    (open_gate : ∀ verdict, answer.gate r.level ≠ .refused verdict) :
    (asking level).Renders (p.settle r answer) (p.settle (r.asking level) answer) := by
  refine .bind ?_ fun result => .bind (.report_same (asking_keeps_report level) ..) fun _ => .pure _
  show Renders _ _ (p.conclude r.block r.sidecars level (answer.gate level))
  rw [same]
  cases hgate : answer.gate r.level with
  | imported imported =>
      refine .bind (asking_broadcast ..) fun delivery => ?_
      refine .bind (.tellDelay_same ⟨rfl, rfl⟩ (asking_keeps_remark level) ..) fun _ => ?_
      refine .bind (.of_callsOnly (callsOnly_request ⟨rfl, ?_⟩)) fun _ => .pure _
      unfold deliveryNotice
      split <;> rfl
  | refused verdict => exact absurd hgate (open_gate verdict)
  | failed reason => exact .bind (.of_callsOnly (callsOnly_request ⟨rfl, rfl⟩)) fun _ => .pure _

end Rewording

/-! ## Tellings -/

/-- Someone who is told things and has nothing to say. -/
inductive Listener
  | duty
  | performance
  | log
deriving DecidableEq

/-- Whether the call tells the listener something. -/
def Call.isTo : Listener → Call → Bool
  | .duty, reportDuty .. => true
  | .performance, reportPerformance .. => true
  | .log, notify _ => true
  | _, _ => false

/-- How often a listener was told something. -/
def toldTo (listener : Listener) (past : List Event) : Nat :=
  (callsIn past).countP (Call.isTo listener)

theorem toldTo_append (listener : Listener) (first second : List Event) :
    toldTo listener (first ++ second) = toldTo listener first + toldTo listener second := by
  rw [toldTo, callsIn_append, List.countP_append, toldTo, toldTo]

theorem toldTo_issued (listener : Listener) (c : Call) :
    toldTo listener [.issued c] = (c.isTo listener).toNat := by
  show [c].countP _ = _
  rw [List.countP_singleton]
  cases c.isTo listener <;> rfl

/-- Listeners are told as often, whatever level is named. -/
theorem toldTo_asking (listener : Listener) (past : List Event) :
    toldTo listener ((Rewording.asking level).past past) = toldTo listener past := by
  have hcalls : ((callsIn past).filter fun c => !(Rewording.asking level).omits c) = callsIn past :=
    List.filter_eq_self.mpr fun _ _ => rfl
  rw [toldTo, Rewording.callsIn_past, hcalls, List.countP_map, toldTo]
  congr 1
  funext c
  cases c <;> cases listener <;> rfl

/-- The listener does not break down when it is told something for the `n`th time. -/
def Collaborators.Hears (others : Collaborators) (listener : Listener) (n : Nat) : Prop :=
  ∀ past c, c.isTo listener → toldTo listener past = n → (others past c).isCrash = false

/-- Whether a listener breaks down depends on how often it was told something, and not on what. -/
def Collaborators.Even (others : Collaborators) : Prop :=
  ∀ listener past past' c c', c.isTo listener → c'.isTo listener →
    toldTo listener past = toldTo listener past' → (others past c).isCrash = (others past' c').isCrash

namespace Program

variable {α β : Type} {listener : Listener}

/-- Whatever way the program goes, it tells the listener something if it comes to a result. -/
def Tells (listener : Listener) : Program α → Prop
  | pure _ => False
  | call c next => c.isTo listener ∨ ∀ a, (next a).Tells listener

theorem Tells.bind {work : Program α} (h : work.Tells listener) (f : α → Program β) :
    (work >>= f).Tells listener := by
  induction work with
  | pure a => exact h.elim
  | call c next ih => exact h.imp id fun hnext a => ih a (hnext a)

theorem tells_bind (work : Program α) {f : α → Program β} (h : ∀ a, (f a).Tells listener) :
    (work >>= f).Tells listener := by
  induction work with
  | pure a => exact h a
  | call c next ih => exact Or.inr ih

/-- **Where one program got through with what it had to tell, any other is heard as well.** -/
theorem Tells.hears {work : Program α} (h : work.Tells listener) (even : others.Even) {a : α}
    (hcomplete : work.complete others past = (.returned a, later)) :
    others.Hears listener (toldTo listener past + 1) := by
  induction work generalizing past with
  | pure b => exact h.elim
  | call c next ih =>
      have hissued := toldTo_append listener past [.issued c]
      rw [toldTo_issued] at hissued
      rw [complete_call] at hcomplete
      cases hreply : others (past ++ [.issued c]) c with
      | crash crash =>
          rw [hreply] at hcomplete
          cases hcomplete
      | answer answer =>
          rw [hreply] at hcomplete
          by_cases hc : c.isTo listener
          · rw [hc, Bool.toNat_true] at hissued
            intro past' c' hc' hcount
            rw [even listener past' (past ++ [.issued c]) c' c hc' hc (hcount.trans hissued.symm), hreply]
            rfl
          · rw [eq_false_of_ne_true hc] at hissued
            have hrest := ih answer (h.resolve_left hc answer) hcomplete
            rw [toldTo_append, hissued] at hrest
            exact hrest

/-- **A program that only tells, and no listener more often than it is heard, comes to a result.** -/
theorem complete_told {work : Program α} (room : Listener → Nat)
    (tells : work.CallsOnly fun c => ∃ listener, c.isTo listener)
    (within : ∀ listener, work.AtMost (Call.isTo listener) (room listener))
    (hears : ∀ listener k, k < room listener → others.Hears listener (toldTo listener past + k + 1)) :
    ∃ a later, work.complete others past = (.returned a, later) := by
  induction work generalizing past room with
  | pure a => exact ⟨a, past, rfl⟩
  | call c next ih =>
      obtain ⟨listener, hc⟩ := tells.1
      have hroom := (within listener).1
      rw [hc, Bool.toNat_true] at hroom
      have hheard := hears listener 0 hroom (past ++ [.issued c]) c hc (by rw [toldTo_append, toldTo_issued, hc]; rfl)
      rw [complete_call]
      cases hreply : others (past ++ [.issued c]) c with
      | crash crash =>
          rw [hreply] at hheard
          cases hheard
      | answer a =>
          -- every listener has so much room left as it was not told anything
          refine ih a _ (tells.2 a) (fun listener => (within listener).2 a) ?_
          intro listener k hk
          have hrest := hears listener ((c.isTo listener).toNat + k) (Nat.add_lt_of_lt_sub' hk)
          rw [← Nat.add_assoc] at hrest
          rw [toldTo_append, toldTo_append, toldTo_issued]
          exact hrest

end Program

namespace Pipeline

/-- What comes after the gate tells the log, duty metrics and performance tracking something. -/
theorem settle_tells (p : Pipeline) (r : Request) (answer : ImportAnswer) (listener : Listener) :
    (p.settle r answer).Tells listener := by
  cases listener with
  | duty => exact tells_bind _ fun result => Or.inl rfl
  | performance => exact tells_bind _ fun result => Or.inr fun _ => Or.inl rfl
  | log =>
      refine Tells.bind ?_ _
      cases answer.gate r.level with
      | imported imported => exact tells_bind _ fun delivery => tells_bind _ fun _ => Or.inl rfl
      | refused verdict => exact Or.inl rfl
      | failed reason => exact Or.inl rfl

/-- The gate's refusal where the listeners hear of it: the attempt ends with it, and nothing more goes out. -/
theorem settle_refused (p : Pipeline) {verdict : Verdict} (hgate : answer.gate r.level = .refused verdict)
    (hears : ∀ listener, others.Hears listener (toldTo listener past + 1)) :
    ∃ events, (p.settle r answer).complete others past
        = (.returned (.error (.validationFailed r.block.root r.level verdict)), past ++ events) ∧
      ∀ e ∈ events, e.call.isGossip = false := by
  have hreturns := settle_returnsOnly p r answer
  have hquiet : (p.settle r answer).CallsOnly fun c => c.isQuiet :=
    callsOnly_reported (fun _ h => h) (conclude_quiet p (by rw [hgate]; nofun))
  rw [hgate] at hreturns
  have hsettle : p.settle r answer = (notify (.publishingSkipped r.block.root r.block.slot verdict) >>= fun _ =>
      report r.block .validationFailed >>= fun _ =>
        Pure.pure (.error (.validationFailed r.block.root r.level verdict))) := by
    unfold settle
    rw [hgate]
    rfl
  obtain ⟨result, later, hcomplete⟩ : ∃ result later,
      (p.settle r answer).complete others past = (.returned result, later) := by
    rw [hsettle]
    refine complete_told (fun _ => 1) ?_ ?_ ?_
    · exact ⟨⟨.log, rfl⟩, fun _ => ⟨⟨.duty, rfl⟩, fun _ => ⟨⟨.performance, rfl⟩, fun _ => trivial⟩⟩⟩
    · intro listener
      cases listener <;> exact ⟨Nat.le_of_ble_eq_true rfl, fun _ => ⟨Nat.le_of_ble_eq_true rfl, fun _ =>
        ⟨Nat.le_of_ble_eq_true rfl, fun _ => trivial⟩⟩⟩
    · intro listener k hk
      rw [Nat.lt_one_iff.mp hk]
      exact hears listener
  obtain ⟨events, hpast, hstory⟩ := (p.settle r answer).complete_story others.crashOnlyOn_all past
  refine ⟨events, ?_, ?_⟩
  · rw [← hpast, hcomplete, Program.of_complete_returned hreturns hcomplete]
  · intro e he
    exact (Call.isQuiet_iff.mp (hstory.forall_call hquiet e he)).2

end Pipeline

/-! ## Attempts -/

/-- Collaborators to whom the level makes no difference: they reply alike where nothing but the level differs, and
    whether a listener breaks down does not depend on what it is told of an attempt, which is for the level to say. -/
structure Collaborators.LevelBlind (others : Collaborators) : Prop where
  alike : ∀ level, (Rewording.asking level).Suits others others
  even : others.Even

theorem Collaborators.LevelBlind.willing (level : Level) : (Collaborators.willing level).LevelBlind := by
  refine ⟨?_, ?_⟩
  · intro level'
    refine ⟨?_, ?_⟩
    · intro past c _
      cases c <;> rfl
    · exact fun past c h => absurd h Bool.false_ne_true
  · intro _ past past' c c' _ _ _
    cases c <;> cases c' <;> rfl

/-- The same was offered to gossip and taken or not, both listeners heard the same, and it counts the same. -/
structure SameTraces (past past' : List Event) : Prop where
  offers : past'.filter (fun e => e.call.isGossip) = past.filter fun e => e.call.isGossip
  reports : past'.filter (fun e => e.call.isReport) = past.filter fun e => e.call.isReport
  counts : ∀ counted ledger, past'.foldl (Ledger.observe counted) ledger = past.foldl (Ledger.observe counted) ledger

/-- Nothing that goes to gossip, to a listener or to the ledger names a level. -/
theorem sameTraces_asking (level : Level) (past : List Event) :
    SameTraces past ((Rewording.asking level).past past) := by
  have hsame {keep : Call → Bool} (hfixed : ∀ c, keep c → c.asking level = c)
      (hkeep : ∀ c, keep (c.asking level) = keep c) :
      ((Rewording.asking level).past past).filter (fun e => keep e.call) = past.filter fun e => keep e.call :=
    Rewording.filter_past_of_keeps hkeep (fun c hc => ⟨rfl, hfixed c hc⟩) past
  refine ⟨hsame ?_ ?_, hsame ?_ ?_, ?_⟩
  · intro c hc
    cases c <;> first | rfl | cases hc
  · intro c
    cases c <;> rfl
  · intro c hc
    cases c <;> first | rfl | cases hc
  · intro c
    cases c <;> rfl
  · intro counted ledger
    have hcounted : ∀ (l : Ledger) (e : Event), e.call.isCounted = false → l.observe counted e = l :=
      Ledger.observe_of_not_isCounted
    rw [← Ledger.foldl_observe_filter hcounted, ← Ledger.foldl_observe_filter hcounted past, hsame]
    · intro c hc
      cases c <;> first | rfl | cases hc
    · intro c
      cases c <;> rfl

/-- What the level decides in the attempts at a request. -/
structure Attempt.GatedByLevel (others : Collaborators) (publisher : Publisher) (r : Request) (name : String) :
    Prop where
  /-- What is published at a level is published at a weaker one, and the same goes out and is told. -/
  weaker : ∀ {strong weak publication past}, weak ≤ strong →
    awaited others publisher (r.asking strong) name = (.returned (.ok publication), past) →
    ∃ past', awaited others publisher (r.asking weak) name = (.returned (.ok publication), past') ∧
      SameTraces past past'
  /-- What is published at a level and not at a stronger one was refused there by the gate, for the import vouched for
      a level between the two, and nothing was offered to gossip. -/
  stronger : ∀ {weak strong publication past}, weak ≤ strong →
    awaited others publisher (r.asking weak) name = (.returned (.ok publication), past) →
    (∀ other, (awaited others publisher (r.asking strong) name).1 ≠ .returned (.ok other)) →
    ∃ reached past', awaited others publisher (r.asking strong) name
        = (.returned (.error (.validationFailed r.block.root strong (.insufficient reached))), past') ∧
      weak ≤ reached ∧ reached < strong ∧ ∀ c ∈ callsIn past', c.isGossip = false
  /-- An import that fails at a level fails at every level. -/
  failed : ∀ {level root reason past} level',
    awaited others publisher (r.asking level) name = (.returned (.error (.importFailed root reason)), past) →
    ∃ past', awaited others publisher (r.asking level') name
      = (.returned (.error (.importFailed root reason)), past')

namespace Attempt

/-- An attempt whose block no pipeline takes comes to no result of its own but that there is none. -/
theorem pipeline?_of_awaited {result : PublishResult}
    (h : awaited others publisher r name = (.returned result, later))
    (supported : ∀ milestone, result ≠ .error (.unsupported milestone)) : ∃ p, publisher.pipeline? r = some p := by
  cases takes : publisher.pipeline? r with
  | some p => exact ⟨p, rfl⟩
  | none =>
      obtain ⟨milestone, hdispatch⟩ := Publisher.work_of_none takes
      have hreturns := Selector.turnAway_returnsOnly r.block milestone
      rw [awaited_of_direct hdispatch] at h
      exact absurd (Program.of_complete_returned hreturns h) (supported milestone)

/-- **Two attempts that the gate treats alike come to the same result**, unless it turns them away. -/
theorem awaited_asking (alike : (Rewording.asking level).Suits others others) (takes : publisher.pipeline? r = some p)
    {result : PublishResult} (hask : (p.ask r).complete others [] = (.returned answer, past))
    (hsettle : (p.settle r answer).complete others past = (.returned result, later))
    (same : answer.gate level = answer.gate r.level) (open_gate : ∀ verdict, answer.gate r.level ≠ .refused verdict) :
    awaited others publisher (r.asking level) name = (.returned result, (Rewording.asking level).past later) := by
  have hask' := (Rewording.asking_ask p r).complete alike []
  have hsettle' := (Rewording.asking_settle p r same open_gate).complete alike past
  rw [hask] at hask'
  rw [hsettle] at hsettle'
  exact awaited_of_settled ((publisher.pipeline?_asking r level).trans takes) hask' hsettle'

/-- What was published, the import vouched for at the level asked for. -/
theorem awaited_imported {publication : Publication}
    (h : awaited others publisher r name = (.returned (.ok publication), later)) :
    ∃ p imported past, publisher.pipeline? r = some p ∧ r.level ≤ imported.validatedAt ∧
      (p.ask r).complete others [] = (.returned (.imported imported), past) ∧
      (p.settle r (.imported imported)).complete others past = (.returned (.ok publication), later) := by
  obtain ⟨p, takes⟩ := pipeline?_of_awaited h nofun
  obtain ⟨answer, past, hask, hsettle⟩ := awaited_settled takes h nofun
  have hresult := Program.of_complete_returned (p.settle_returnsOnly r answer) hsettle
  cases hgate : answer.gate r.level with
  | imported imported =>
      obtain ⟨rfl, enough⟩ := ImportAnswer.of_gate hgate
      exact ⟨p, imported, past, takes, enough, hask, hsettle⟩
  | refused verdict => rw [hgate] at hresult; cases hresult
  | failed reason => rw [hgate] at hresult; cases hresult

/-- What failed at the import, the gate calls a failure. -/
theorem awaited_importFailed {root : Root} {reason : ImportFailure}
    (h : awaited others publisher r name = (.returned (.error (.importFailed root reason)), later)) :
    ∃ p answer past, publisher.pipeline? r = some p ∧ answer.gate r.level = .failed reason ∧
      (p.ask r).complete others [] = (.returned answer, past) ∧
      (p.settle r answer).complete others past = (.returned (.error (.importFailed root reason)), later) := by
  obtain ⟨p, takes⟩ := pipeline?_of_awaited h nofun
  obtain ⟨answer, past, hask, hsettle⟩ := awaited_settled takes h nofun
  have hresult := Program.of_complete_returned (p.settle_returnsOnly r answer) hsettle
  cases hgate : answer.gate r.level with
  | imported imported =>
      rw [hgate] at hresult
      obtain ⟨publication, hok⟩ := hresult
      cases hok
  | refused verdict => rw [hgate] at hresult; cases hresult
  | failed other =>
      rw [hgate] at hresult
      cases hresult
      exact ⟨p, answer, past, takes, hgate, hask, hsettle⟩

/-- **An attempt the gate stops short ends with its refusal, and nothing is offered to gossip**, if the listeners heard
    of the attempt at another level. -/
theorem awaited_short (blind : others.LevelBlind) (takes : publisher.pipeline? r = some p) {result : PublishResult}
    {imported : ImportedBlock} (hask : (p.ask r).complete others [] = (.returned (.imported imported), past))
    (hsettle : (p.settle r (.imported imported)).complete others past = (.returned result, later))
    (short : ¬ level ≤ imported.validatedAt) :
    ∃ later', awaited others publisher (r.asking level) name
        = (.returned (.error (.validationFailed r.block.root level (.insufficient imported.validatedAt))), later') ∧
      ∀ c ∈ callsIn later', c.isGossip = false := by
  have hears (listener : Listener) :
      others.Hears listener (toldTo listener ((Rewording.asking level).past past) + 1) := by
    rw [toldTo_asking]
    exact (p.settle_tells _ _ listener).hears blind.even hsettle
  obtain ⟨events, hrefused, hquiet⟩ := p.settle_refused (r := r.asking level) (ImportAnswer.gate_of_not_le short) hears
  have hask' := (Rewording.asking_ask p r).complete (blind.alike level) []
  rw [hask] at hask'
  refine ⟨_, awaited_of_settled ((publisher.pipeline?_asking r level).trans takes) hask' hrefused, ?_⟩
  intro c hc
  rcases List.mem_append.mp (mem_callsIn.mp hc) with hasked | hsettled
  · exact Program.forall_call_of_complete (p.ask_callsOnly _) hask' _ hasked
  · exact hquiet _ hsettled

/-- **The level asked for opens the gate or shuts it, and does nothing else.** -/
theorem gated_by_level (blind : others.LevelBlind) (publisher : Publisher) (r : Request) (name : String) :
    GatedByLevel others publisher r name := by
  refine ⟨?_, ?_, ?_⟩
  · intro strong weak publication past weaker h
    obtain ⟨p, imported, asked, takes, enough, hask, hsettle⟩ := awaited_imported h
    have hstrong := ImportAnswer.gate_of_le enough
    have hweak := ImportAnswer.gate_of_le (Level.le_trans weaker enough)
    refine ⟨_, ?_, sameTraces_asking weak past⟩
    exact awaited_asking (blind.alike weak) takes hask hsettle (hweak.trans hstrong.symm) (by rw [hstrong]; nofun)
  · intro weak strong publication past weaker h notOk
    obtain ⟨p, imported, asked, takes, enough, hask, hsettle⟩ := awaited_imported h
    by_cases reached : strong ≤ imported.validatedAt
    · have hweak := ImportAnswer.gate_of_le enough
      have hstrong := ImportAnswer.gate_of_le reached
      have hok : awaited others publisher (r.asking strong) name = _ :=
        awaited_asking (blind.alike strong) takes hask hsettle (hstrong.trans hweak.symm) (by rw [hweak]; nofun)
      exact absurd (congrArg Prod.fst hok) (notOk publication)
    · obtain ⟨past', hrefused, hquiet⟩ := awaited_short blind takes hask hsettle reached
      exact ⟨imported.validatedAt, past', hrefused, enough, Level.lt_of_not_le reached, hquiet⟩
  · intro level root reason past level' h
    obtain ⟨p, answer, asked, takes, hgate, hask, hsettle⟩ := awaited_importFailed h
    have hgate' := ImportAnswer.gate_of_failed hgate level'
    exact ⟨_, awaited_asking (blind.alike level') takes hask hsettle (hgate'.trans hgate.symm)
      (by rw [hgate]; nofun)⟩

end Attempt

/-- An import that vouches for the middle level: what is published at the weakest level is refused at the strongest. -/
theorem gated_by_level_when_in_between :
    (Collaborators.willing .consensus).LevelBlind ∧
    Attempt.GatedByLevel (.willing .consensus) (.single { variant := .plain }) .blank "0" ∧
    (Attempt.awaited (.willing .consensus) (.single { variant := .plain }) (Request.blank.asking .gossip) "0").1
      = .returned (.ok
        { root := Request.blank.block.root, slot := Request.blank.block.slot, optimistic := false,
          delivery := { blockTaken := true } }) ∧
    (Attempt.awaited (.willing .consensus) (.single { variant := .plain })
      (Request.blank.asking .consensusAndEquivocation) "0").1
      = .returned (.error (.validationFailed Request.blank.block.root .consensusAndEquivocation
        (.insufficient .consensus))) :=
  ⟨.willing _, Attempt.gated_by_level (.willing _) _ _ _, rfl, rfl⟩

end BeaconBroadcast
