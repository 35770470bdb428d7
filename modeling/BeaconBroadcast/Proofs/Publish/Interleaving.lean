import BeaconBroadcast.Proofs.Publish.BlobContract
import BeaconBroadcast.Proofs.Publish.Settled
import BeaconBroadcast.Proofs.Publish.Tally

/-!
# `BeaconBroadcast.Proofs.Publish.Interleaving` — the order in which attempts move does not matter

Attempts share the ledger and nothing else, and the ledger only adds. So whatever the order in which their
steps come, each attempt gets the result and leaves behind the calls that its own request and its own answers
call for, and the ledger ends with the same counts. The slot clock may be read at quite another time in another
order; that shows in the log alone.

## Contents
- **Answers.** `Answers` are those of the collaborators to one attempt, fixed beforehand; `Collaborators.Follow`.
- **Programs.** `Program.Settles`: what a program comes to and leaves behind, whatever the clock says.
- **Pipelines.** `Publisher.plan` lists what goes to the import and to gossip; `Publisher.work_settles`.
- **Counts.** How many imports and broadcasts there are of one root.
- **Systems.** `System.AgreesWith`, `System.CarriesOut` and `System.Run.independent_of_order`, with two calls for
  one root made in either order.
-/

namespace BeaconBroadcast

open Program

/-! ## Answers -/

/-- Whether the call is neither to the clock nor to the log. -/
def Call.isOwn : Call → Bool
  | readClock => false
  | notify _ => false
  | _ => true

/-- What happened in an attempt at the import, at gossip, at the two listeners and at the ledger. -/
def ownEvents (past : List Event) : List Event := past.filter fun e => e.call.isOwn

/-- What the collaborators answer in one attempt, call by call. They may tell sidecars apart by how many were
    offered before. -/
abbrev Answers : Type := Nat → (c : Call) → c.Answer

/-- The answer to a call after `earlier`. -/
def Answers.after (fixed : Answers) (earlier : List Event) (c : Call) : c.Answer :=
  fixed (sidecarsOffered earlier).length c

/-- The collaborators never break down, and all but the clock and the log answer as fixed beforehand. -/
structure Collaborators.Follow (others : Collaborators) (fixed : Answers) : Prop where
  steady : others.Steady
  own : ∀ past c, c.isOwn → others (past ++ [.issued c]) c = .answer (fixed.after past c)

variable {fixed : Answers} {p : Pipeline} {r : Request} {publisher : Publisher} {earlier later : List Event}

theorem channelCalls_ownEvents (past : List Event) : channelCalls (ownEvents past) = channelCalls past := by
  refine filter_callsIn_filter ?_ past
  intro c hc
  cases c <;> first | rfl | cases hc

theorem sidecarsOffered_ownEvents (past : List Event) :
    sidecarsOffered (ownEvents past) = sidecarsOffered past := by
  rw [sidecarsOffered_eq, sidecarsOffered_eq, channelCalls_ownEvents]

/-- Collaborators who do not break down answer. -/
theorem Collaborators.Steady.answers {others : Collaborators} (steady : others.Steady) (past : List Event)
    (c : Call) : ∃ a, others past c = .answer a := by
  cases hreply : others past c with
  | answer a => exact ⟨a, rfl⟩
  | crash crash => exact (steady past c (by rw [hreply]; rfl)).elim

/-- What was done at the clock and at the log does not bear on the answers. -/
theorem Answers.after_ownEvents (fixed : Answers) (past : List Event) :
    fixed.after (ownEvents past) = fixed.after past := by
  funext c
  rw [after, after, sidecarsOffered_ownEvents]

/-! ## Programs -/

/-- `p.Settles fixed earlier later a`: whatever the clock says, `p` comes to `a`, and what has happened at the
    import, at gossip, at the listeners and at the ledger goes from `earlier` to `later`. -/
inductive Program.Settles {α : Type} (fixed : Answers) : Program α → List Event → List Event → α → Prop
  | pure (earlier : List Event) (a : α) : Settles fixed (.pure a) earlier earlier a
  | own {c : Call} {next : c.Answer → Program α} {earlier later : List Event} {a : α} (own : c.isOwn)
      (rest : Settles fixed (next (fixed.after earlier c)) (earlier ++ exchange c (.ok (fixed.after earlier c)))
        later a) : Settles fixed (.call c next) earlier later a
  | foreign {c : Call} {next : c.Answer → Program α} {earlier later : List Event} {a : α}
      (foreign : c.isOwn = false) (rest : ∀ answer, Settles fixed (next answer) earlier later a) :
      Settles fixed (.call c next) earlier later a

namespace Program.Settles

variable {α β : Type}

theorem bind {p : Program α} {f : α → Program β} {between : List Event} {a : α} {b : β}
    (hp : p.Settles fixed earlier between a) (hf : (f a).Settles fixed between later b) :
    (p >>= f).Settles fixed earlier later b := by
  induction hp with
  | pure between a => exact hf
  | own own rest ih => exact .own own (ih hf)
  | foreign foreign rest ih => exact .foreign foreign fun answer => ih answer hf

/-- A call whose answer is fixed. -/
theorem request (fixed : Answers) (earlier : List Event) {c : Call} (own : c.isOwn) :
    (Program.request c).Settles fixed earlier (earlier ++ exchange c (.ok (fixed.after earlier c)))
      (fixed.after earlier c) :=
  .own own (.pure _ _)

/-- What the clock says does not matter if it makes no difference to what comes after. -/
theorem readClock_bind {next : Millis → Program α} {a : α}
    (h : ∀ now, (next now).Settles fixed earlier later a) :
    (Program.request .readClock >>= next).Settles fixed earlier later a := .foreign rfl h

/-- What is told to the log does not matter. -/
theorem notify_bind {notice : Notice} {next : Unit → Program α} {a : α}
    (h : (next ()).Settles fixed earlier later a) : (notify notice >>= next).Settles fixed earlier later a :=
  .foreign rfl fun _ => h

/-- **Running a settled program among collaborators who follow the answers** comes to what is settled. -/
theorem complete {others : Collaborators} {p : Program α} {a : α} (h : p.Settles fixed earlier later a)
    (follow : others.Follow fixed) {past : List Event} (hpast : ownEvents past = earlier) :
    (p.complete others past).1 = .returned a ∧ ownEvents (p.complete others past).2 = later := by
  induction h generalizing past with
  | pure earlier a => exact ⟨rfl, hpast⟩
  | @own c next earlier later a own rest ih =>
      subst hpast
      rw [fixed.after_ownEvents] at ih
      rw [complete_call, follow.own past c own]
      apply ih
      simp [ownEvents, exchange, Event.replied, Event.call, own]
  | @foreign c next earlier later a foreign rest ih =>
      obtain ⟨answer, hreply⟩ := follow.steady.answers (past ++ [.issued c]) c
      rw [complete_call, hreply]
      apply ih answer
      rw [← hpast]
      simp [ownEvents, Event.call, foreign]

end Program.Settles

/-! ## Pipelines -/

/-- What the import answers to a request. -/
def Variant.importAnswer (fixed : Answers) (r : Request) : Variant → Except ChannelFault ImportAnswer
  | plain => fixed.after [] (.importBlock r.block r.level)
  | withBlobs .. => fixed.after [] (.importWithSidecars r.block r.sidecars r.level)

/-- Whether the import vouches for the block at the level asked for. -/
def Pipeline.vouched (fixed : Answers) (r : Request) (p : Pipeline) : Bool :=
  ((ImportAnswer.ofChannel (p.variant.importAnswer fixed r)).gate r.level).isImported

/-- What a pipeline sends to the import and to gossip. -/
def Pipeline.plan (fixed : Answers) (r : Request) (p : Pipeline) : List Call :=
  if (p.variant.fault? r).isSome then []
  else p.variant.importCall r ::
    if p.vouched fixed r then .gossipBlock r.block :: (p.variant.sidecarsSent r).map .gossipSidecar else []

/-- What goes to the import and to gossip for a request. -/
def Publisher.plan (publisher : Publisher) (r : Request) (fixed : Answers) : List Call :=
  (publisher.pipeline? r).elim [] (Pipeline.plan fixed r)

theorem channelCalls_exchange {c : Call} (reply : Except Crash c.Answer) :
    channelCalls (earlier ++ exchange c reply) = channelCalls earlier ++ [c].filter Call.isChannel := by
  rw [channelCalls_append]
  congr 1
  rw [channelCalls, callsIn_exchange]

/-- The block is offered once. -/
theorem offerBlock_settles (fixed : Answers) (block : SignedBlock) (earlier : List Event) :
    ∃ taken, (offerBlock block).Settles fixed earlier
      (earlier ++ exchange (.gossipBlock block) (.ok (fixed.after earlier (.gossipBlock block)))) taken := by
  have hask : (request (.gossipBlock block)).Settles fixed earlier _ _ := .request fixed earlier rfl
  cases hanswer : fixed.after earlier (.gossipBlock block) with
  | ok taken =>
      rw [hanswer] at hask
      exact ⟨true, hask.bind (.pure _ true)⟩
  | error fault =>
      rw [hanswer] at hask
      exact ⟨false, hask.bind (.notify_bind (.pure _ false))⟩

/-- Every sidecar is offered once, in order. -/
theorem offerSidecars_settles (fixed : Answers) (block : SignedBlock) (sidecars : List BlobSidecar)
    (earlier : List Event) (d : Delivery) :
    ∃ later delivery, (offerSidecars block sidecars d).Settles fixed earlier later delivery ∧
      channelCalls later = channelCalls earlier ++ sidecars.map .gossipSidecar := by
  induction sidecars generalizing earlier d with
  | nil => exact ⟨earlier, d, .pure earlier d, (List.append_nil _).symm⟩
  | cons sidecar sidecars ih =>
      have hask : (request (.gossipSidecar sidecar)).Settles fixed earlier _ _ := .request fixed earlier rfl
      cases hanswer : fixed.after earlier (.gossipSidecar sidecar) with
      | ok taken =>
          rw [hanswer] at hask
          obtain ⟨later, delivery, hrest, hcalls⟩ := ih _ d.take
          refine ⟨later, delivery, hask.bind hrest, ?_⟩
          rw [hcalls, channelCalls_exchange, List.append_assoc]
          rfl
      | error fault =>
          rw [hanswer] at hask
          obtain ⟨later, delivery, hrest, hcalls⟩ := ih _ (d.refuse sidecar.index)
          refine ⟨later, delivery, hask.bind (.notify_bind hrest), ?_⟩
          rw [hcalls, channelCalls_exchange, List.append_assoc]
          rfl

/-- A broadcast offers the block and then its sidecars. -/
theorem broadcast_settles (fixed : Answers) (r : Request) (v : Variant) (earlier : List Event) :
    ∃ later delivery, (v.broadcast r.block r.sidecars).Settles fixed earlier later delivery ∧
      channelCalls later
        = channelCalls earlier ++ .gossipBlock r.block :: (v.sidecarsSent r).map .gossipSidecar := by
  obtain ⟨taken, hblock⟩ := offerBlock_settles fixed r.block earlier
  cases v with
  | plain =>
      refine ⟨_, _, hblock.bind (.pure _ (Delivery.ofBlock taken)), ?_⟩
      rw [channelCalls_exchange]
      rfl
  | withBlobs limit counted =>
      obtain ⟨between, delivery, hsidecars, hcalls⟩ :=
        offerSidecars_settles fixed r.block r.sidecars _ (.ofBlock taken)
      rw [channelCalls_exchange, List.append_assoc] at hcalls
      cases counted with
      | true =>
          -- counting the sidecars goes to no channel
          refine ⟨_, delivery,
            hblock.bind (hsidecars.bind ((Settles.request fixed _ rfl).bind (.pure _ delivery))), ?_⟩
          rw [channelCalls_exchange, hcalls]
          exact List.append_nil _
      | false => exact ⟨between, delivery, hblock.bind (hsidecars.bind (.pure between delivery)), hcalls⟩

/-- The import is asked once, and not at all if the sidecars are not those of the block. -/
theorem importBlock_settles (fixed : Answers) (r : Request) (v : Variant) :
    match v.fault? r with
    | some fault => (v.importBlock r.block r.sidecars r.level).Settles fixed [] []
        (.failed (.invalidSidecars fault.text))
    | none => (v.importBlock r.block r.sidecars r.level).Settles fixed []
        (v.importExchange r (.ok (v.importAnswer fixed r))) (.ofChannel (v.importAnswer fixed r)) := by
  cases v with
  | plain =>
      have hask : (request (.importBlock r.block r.level) >>= fun answer =>
          Pure.pure (ImportAnswer.ofChannel answer)).Settles fixed [] _ _ :=
        (Settles.request fixed [] rfl).bind (.pure _ _)
      simp only [Variant.fault?, Variant.importBlock]
      split
      · exact .notify_bind hask
      · exact hask
  | withBlobs limit counted =>
      simp only [Variant.fault?, Variant.importBlock]
      cases hfault : r.block.sidecarFault? r.sidecars limit with
      | some fault => exact .notify_bind (.pure [] _)
      | none =>
          have hask : (request (.importWithSidecars r.block r.sidecars r.level) >>= fun answer =>
              Pure.pure (ImportAnswer.ofChannel answer)).Settles fixed [] _ _ :=
            (Settles.request fixed [] rfl).bind (.pure _ _)
          exact hask

theorem report_settles (fixed : Answers) (block : SignedBlock) (outcome : Outcome) (earlier : List Event) :
    (report block outcome).Settles fixed earlier (earlier ++ reported block outcome) () := by
  have hduty : (request (.reportDuty block outcome)).Settles fixed earlier _ () := .request fixed earlier rfl
  have hperformance : (request (.reportPerformance block outcome)).Settles fixed
      (earlier ++ exchange (.reportDuty block outcome) (.ok ())) _ () := .request fixed _ rfl
  rw [List.append_assoc] at hperformance
  exact hduty.bind hperformance

/-- A remark on a late broadcast leaves nothing behind but a line in the log. -/
theorem tellDelay_settles (fixed : Answers) (block : SignedBlock) (grid? : Option SlotGrid)
    (earlier : List Event) : (tellDelay block grid?).Settles fixed earlier earlier () := by
  cases grid? with
  | none => exact .pure earlier ()
  | some grid =>
      refine Settles.readClock_bind fun now => ?_
      split
      · exact .foreign rfl fun _ => .pure earlier ()
      · exact .pure earlier ()

/-- A block that was let through is broadcast, and any other goes nowhere. -/
theorem conclude_settles (fixed : Answers) (r : Request) (p : Pipeline) (answer : ImportAnswer)
    (earlier : List Event) :
    ∃ later result, (p.conclude r.block r.sidecars r.level answer).Settles fixed earlier later result ∧
      channelCalls later = channelCalls earlier ++ if answer.isImported then
        .gossipBlock r.block :: (p.variant.sidecarsSent r).map .gossipSidecar else [] := by
  cases answer with
  | imported imported =>
      obtain ⟨later, delivery, hbroadcast, hcalls⟩ := broadcast_settles fixed r p.variant earlier
      exact ⟨later, _, hbroadcast.bind ((tellDelay_settles fixed r.block p.grid? later).bind
        (.notify_bind (.pure later _))), hcalls⟩
  | refused verdict => exact ⟨earlier, _, .notify_bind (.pure earlier _), (List.append_nil _).symm⟩
  | failed reason => exact ⟨earlier, _, .notify_bind (.pure earlier _), (List.append_nil _).symm⟩

/-- **What a pipeline does is settled by the answers**, and it sends what it plans to. -/
theorem run_settles (fixed : Answers) (r : Request) (p : Pipeline) :
    ∃ later result, (p.run r.block r.sidecars r.level).Settles fixed [] later result ∧
      channelCalls later = p.plan fixed r := by
  -- once the import has answered, the attempt is concluded and reported
  have hrest (answer : ImportAnswer) (earlier : List Event) : ∃ later result,
      (p.conclude r.block r.sidecars r.level answer >>= fun result =>
        report r.block result.outcome >>= fun _ => Pure.pure result).Settles fixed earlier later result ∧
      channelCalls later = channelCalls earlier ++ if answer.isImported then
        .gossipBlock r.block :: (p.variant.sidecarsSent r).map .gossipSidecar else [] := by
    obtain ⟨later, result, hconclude, hcalls⟩ := conclude_settles fixed r p answer earlier
    refine ⟨_, result, hconclude.bind ((report_settles fixed r.block result.outcome later).bind
      (.pure _ result)), ?_⟩
    rw [channelCalls_append, channelCalls_reported, List.append_nil, hcalls]
  have himport := importBlock_settles fixed r p.variant
  cases hfault : p.variant.fault? r with
  | some fault =>
      rw [hfault] at himport
      obtain ⟨later, result, hsettles, hcalls⟩ := hrest (.failed (.invalidSidecars fault.text)) []
      refine ⟨later, result, .notify_bind (himport.bind hsettles), ?_⟩
      rw [hcalls, Pipeline.plan, hfault]
      rfl
  | none =>
      rw [hfault] at himport
      obtain ⟨later, result, hsettles, hcalls⟩ :=
        hrest ((ImportAnswer.ofChannel (p.variant.importAnswer fixed r)).gate r.level) _
      refine ⟨later, result, .notify_bind (himport.bind hsettles), ?_⟩
      rw [hcalls, channelCalls_importExchange, Pipeline.plan, hfault]
      rfl

/-- **What an attempt does is settled by its answers**, and it sends what is planned for its request. -/
theorem Publisher.work_settles (publisher : Publisher) (r : Request) (fixed : Answers) :
    ∃ later result, ((publisher.dispatch r).work).Settles fixed [] later result ∧
      channelCalls later = publisher.plan r fixed := by
  cases htakes : publisher.pipeline? r with
  | some p =>
      rw [work_of_pipeline? htakes, plan, htakes]
      exact run_settles fixed r p
  | none =>
      obtain ⟨milestone, hdispatch⟩ := work_of_none htakes
      rw [hdispatch, plan, htakes]
      exact ⟨_, _, .notify_bind ((report_settles fixed r.block .notAttempted []).bind (.pure _ _)), rfl⟩

/-! ## Counts -/

/-- Whether the call hands a block with this root to the import. -/
def Call.imports (root : Root) : Call → Bool
  | importBlock block _ => block.root == root
  | importWithSidecars block _ _ => block.root == root
  | _ => false

/-- Whether the call offers a block with this root to gossip. -/
def Call.broadcasts (root : Root) : Call → Bool
  | gossipBlock block => block.root == root
  | _ => false

/-- Whether a request gets as far as the import: a pipeline takes it, and its sidecars are those of the block. -/
def Publisher.asks (publisher : Publisher) (r : Request) : Bool :=
  (publisher.pipeline? r).any fun p => (p.variant.fault? r).isNone

/-- Whether the import vouches for the block of a request at the level asked for. -/
def Publisher.vouched (publisher : Publisher) (r : Request) (fixed : Answers) : Bool :=
  (publisher.pipeline? r).any (Pipeline.vouched fixed r)

/-- How many of the calls in all the attempts are such. -/
def System.callCount (s : System) (counts : Call → Bool) : Nat := (callsIn s.happened).countP counts

/-- How many of the calls for a root get as far as the import. -/
def askingFor (root : Root) (calls : List (Publisher × Request)) : Nat :=
  calls.countP fun call => call.2.block.root == root && call.1.asks call.2

theorem Variant.imports_importCall (v : Variant) (r : Request) (root : Root) :
    (v.importCall r).imports root = (r.block.root == root) := by
  cases v <;> rfl

theorem Variant.broadcasts_importCall (v : Variant) (r : Request) (root : Root) :
    (v.importCall r).broadcasts root = false := by
  cases v <;> rfl

/-- Sidecars are no imports and no blocks. -/
theorem countP_gossipSidecar {counts : Call → Bool} (h : ∀ sidecar, counts (.gossipSidecar sidecar) = false)
    (sidecars : List BlobSidecar) : (sidecars.map Call.gossipSidecar).countP counts = 0 := by
  rw [List.countP_map, List.countP_eq_zero]
  intro sidecar _
  simp [h]

/-- A pipeline that finds no fault with the sidecars asks the import, and offers the block if that vouches. -/
theorem Pipeline.countP_plan {counts : Call → Bool}
    (sidecars : ∀ sidecar, counts (.gossipSidecar sidecar) = false) (fixed : Answers) (r : Request) (p : Pipeline) :
    (p.plan fixed r).countP counts = if (p.variant.fault? r).isSome then 0
      else (counts (p.variant.importCall r)).toNat +
        (p.vouched fixed r && counts (.gossipBlock r.block)).toNat := by
  have htoNat (b : Bool) : (if b then 1 else 0) = b.toNat := by cases b <;> rfl
  unfold plan
  split
  · rfl
  · rw [List.countP_cons, htoNat, Nat.add_comm]
    congr 1
    cases p.vouched fixed r with
    | false => rfl
    | true => rw [if_pos rfl, List.countP_cons, countP_gossipSidecar sidecars, htoNat, Nat.zero_add, Bool.true_and]

/-- A request that gets as far as the import is imported once. -/
theorem Publisher.countP_imports (publisher : Publisher) (r : Request) (fixed : Answers) (root : Root) :
    (publisher.plan r fixed).countP (Call.imports root)
      = (r.block.root == root && publisher.asks r).toNat := by
  unfold plan asks
  cases publisher.pipeline? r with
  | none => simp
  | some p =>
      rw [Option.elim, Option.any, Pipeline.countP_plan fun _ => rfl]
      cases p.variant.fault? r with
      | some fault => simp
      | none =>
          have hblock : (Call.gossipBlock r.block).imports root = false := rfl
          simp [Variant.imports_importCall, hblock]

/-- A request that gets as far as the import is broadcast once if the import vouches for its block. -/
theorem Publisher.countP_broadcasts (publisher : Publisher) (r : Request) (fixed : Answers) (root : Root) :
    (publisher.plan r fixed).countP (Call.broadcasts root)
      = (r.block.root == root && publisher.asks r && publisher.vouched r fixed).toNat := by
  unfold plan asks vouched
  cases publisher.pipeline? r with
  | none => simp
  | some p =>
      rw [Option.elim, Option.any, Option.any, Pipeline.countP_plan fun _ => rfl]
      cases p.variant.fault? r with
      | some fault => simp
      | none =>
          have hblock : (Call.gossipBlock r.block).broadcasts root = (r.block.root == root) := rfl
          simp [Variant.broadcasts_importCall, hblock, Bool.and_comm]

/-- Calls to the import and to gossip are counted among those. -/
theorem countP_callsIn {counts : Call → Bool} (channel : ∀ c, counts c → c.isChannel) (past : List Event) :
    (callsIn past).countP counts = (channelCalls past).countP counts := by
  rw [channelCalls, List.countP_filter]
  apply List.countP_congr
  intro c _
  rw [Bool.and_eq_true]
  exact ⟨fun h => ⟨h, channel c h⟩, fun h => h.1⟩

/-- Where every attempt makes at most one such call, there are as many of them as attempts that make one. -/
theorem countP_callsIn_flatMap {counts : Call → Bool} {makes : Publisher × Request → Bool}
    {attempts : List Attempt} {calls : List (Publisher × Request)} (length : attempts.length = calls.length)
    (h : ∀ (i : Nat) a call, attempts[i]? = some a → calls[i]? = some call →
      (callsIn a.past).countP counts = (makes call).toNat) :
    (callsIn (attempts.flatMap (·.past))).countP counts = calls.countP makes := by
  induction attempts generalizing calls with
  | nil =>
      rw [List.length_eq_zero_iff.mp length.symm]
      rfl
  | cons a attempts ih =>
      cases calls with
      | nil => cases length
      | cons call calls =>
          have hrest := ih (Nat.succ.inj length) fun i => h (i + 1)
          rw [List.flatMap_cons, callsIn_append, List.countP_append, List.countP_cons, hrest,
            h 0 a call rfl rfl]
          cases makes call <;> simp [Nat.add_comm]

/-! ## Systems -/

/-- The same happened in both attempts but for the clock and the log, and who has stayed has the same result. -/
structure Attempt.AgreesWith (a b : Attempt) : Prop where
  events : ownEvents a.past = ownEvents b.past
  result : ∃ result, (a.caller = .gone ∨ a.result? = some result) ∧ (b.caller = .gone ∨ b.result? = some result)

/-- Attempt by attempt the same happened, and the ledger counts the same. -/
structure System.AgreesWith (s t : System) : Prop where
  length : s.attempts.length = t.attempts.length
  attempts : ∀ (i : Nat) a b, s.attempts[i]? = some a → t.attempts[i]? = some b → a.AgreesWith b
  ledger : s.ledger = t.ledger

/-- The calls are carried out one by one, whatever other calls there are. -/
structure System.CarriesOut (s : System) (calls : List (Publisher × Request)) (fixed : Nat → Answers) : Prop where
  /-- Every attempt sends to the import and to gossip what its own request and its own answers call for. -/
  sends : ∀ (i : Nat) a publisher r, s.attempts[i]? = some a → calls[i]? = some (publisher, r) →
    channelCalls a.past = publisher.plan r (fixed i)
  /-- There are as many imports for a root as calls that get as far as the import. -/
  imports : ∀ root, s.callCount (Call.imports root) = askingFor root calls
  /-- There are as many broadcasts if the import vouches for the block each time. -/
  broadcasts : ∀ root, (∀ (i : Nat) publisher r, calls[i]? = some (publisher, r) → r.block.root = root →
      publisher.asks r → publisher.vouched r (fixed i)) → s.callCount (Call.broadcasts root) = askingFor root calls

variable {calls : List (Publisher × Request)} {others others' : Nat → Collaborators} {counted : Bool}
  {fixed : Nat → Answers} {s t : System}

/-- **A settled attempt has come to what its answers settle**, whatever the others did meanwhile. -/
theorem System.Run.settles (run : Run others counted (.start calls) s) (settled : s.IsSettled) {i : Nat}
    {a : Attempt} (here : s.attempts[i]? = some a) (call : calls[i]? = some (publisher, r))
    (follow : (others i).Follow (fixed i)) {result : PublishResult}
    (settles : (publisher.dispatch r).work.Settles (fixed i) [] later result) :
    ownEvents a.past = later ∧ (a.caller = .gone ∨ a.result? = some result) := by
  obtain ⟨publisher', result', hcall, hend, hresult⟩ :=
    run.complete_of_settled here follow.steady (settled a (List.mem_of_getElem? here))
  cases call.symm.trans hcall
  have hnothing : ownEvents [] = [] := rfl
  obtain ⟨hdone, hpast⟩ := settles.complete follow hnothing
  rw [hend] at hdone hpast
  cases hdone
  exact ⟨hpast, hresult⟩

/-- Idle events are those at the clock and at the log. -/
theorem Ledger.observe_of_not_isOwn (l : Ledger) (e : Event) (h : e.call.isOwn = false) :
    l.observe counted e = l := by
  apply observe_of_not_isCounted
  cases hc : e.call <;> rw [hc] at h <;> first | rfl | cases h

/-- What happened at the clock and at the log does not show in the ledger. -/
theorem System.Run.ledger_eq_own (run : Run others counted (.start calls) s) :
    s.ledger = (s.attempts.map fun a => ownEvents a.past).flatten.foldl (Ledger.observe counted) {} := by
  have hown : s.happened.filter (fun e => e.call.isOwn)
      = (s.attempts.map fun a => ownEvents a.past).flatten := by
    rw [happened, List.filter_flatMap, List.flatMap_def]
    rfl
  rw [run.ledger_eq, ← hown, Ledger.foldl_observe_filter Ledger.observe_of_not_isOwn]

/-- What the attempts send in a run in which all answers were fixed. -/
theorem System.Run.carriesOut (run : Run others counted (.start calls) s) (settled : s.IsSettled)
    (follow : ∀ i, (others i).Follow (fixed i)) : s.CarriesOut calls fixed := by
  have hsends (i : Nat) (a : Attempt) (publisher : Publisher) (r : Request) (here : s.attempts[i]? = some a)
      (call : calls[i]? = some (publisher, r)) : channelCalls a.past = publisher.plan r (fixed i) := by
    obtain ⟨later, result, hsettles, hcalls⟩ := publisher.work_settles r (fixed i)
    obtain ⟨hpast, -⟩ := run.settles settled here call (follow i) hsettles
    rw [← channelCalls_ownEvents, hpast, hcalls]
  have hlength : s.attempts.length = calls.length := by
    rw [run.length_eq]
    simp [start]
  have hcounts {counts : Call → Bool} (channel : ∀ c, counts c → c.isChannel) (i : Nat) (a : Attempt)
      (publisher : Publisher) (r : Request) (here : s.attempts[i]? = some a)
      (call : calls[i]? = some (publisher, r)) :
      (callsIn a.past).countP counts = (publisher.plan r (fixed i)).countP counts := by
    rw [countP_callsIn channel, hsends i a publisher r here call]
  refine ⟨hsends, fun (root : Root) => ?_, fun (root : Root) vouched => ?_⟩
  · refine countP_callsIn_flatMap hlength ?_
    intro i a call here hcall
    obtain ⟨publisher, r⟩ := call
    have himports : ∀ c, Call.imports root c → c.isChannel := by
      intro c hc
      cases c <;> first | rfl | cases hc
    rw [hcounts himports i a publisher r here hcall, publisher.countP_imports]
  · refine countP_callsIn_flatMap hlength ?_
    intro i a call here hcall
    obtain ⟨publisher, r⟩ := call
    have hbroadcasts : ∀ c, Call.broadcasts root c → c.isChannel := by
      intro c hc
      cases c <;> first | rfl | cases hc
    rw [hcounts hbroadcasts i a publisher r here hcall, publisher.countP_broadcasts]
    cases hasking : r.block.root == root && publisher.asks r with
    | false => rfl
    | true =>
        obtain ⟨hroot, hasks⟩ := Bool.and_eq_true_iff.mp hasking
        rw [vouched i publisher r hcall (eq_of_beq hroot) hasks]
        rfl

/-- **The order in which attempts move makes no difference.** Two runs of the same calls with the same answers of
    the import and of gossip, each attempt with its own, agree on every attempt and on the ledger once nothing is
    left to happen; and no attempt is left out, done twice or taken for another. -/
theorem System.Run.independent_of_order (follow : ∀ i, (others i).Follow (fixed i))
    (follow' : ∀ i, (others' i).Follow (fixed i)) (run : Run others counted (.start calls) s)
    (run' : Run others' counted (.start calls) t) (settled : s.IsSettled) (settled' : t.IsSettled) :
    s.AgreesWith t ∧ s.CarriesOut calls fixed ∧ t.CarriesOut calls fixed := by
  have hlength : s.attempts.length = t.attempts.length := run.length_eq.trans run'.length_eq.symm
  have hagrees (i : Nat) (a b : Attempt) (here : s.attempts[i]? = some a) (here' : t.attempts[i]? = some b) :
      a.AgreesWith b := by
    obtain ⟨publisher, hcall, -⟩ := run.onCourse here
    obtain ⟨later, result, hsettles, -⟩ := publisher.work_settles a.request (fixed i)
    obtain ⟨hpast, hresult⟩ := run.settles settled here hcall (follow i) hsettles
    obtain ⟨hpast', hresult'⟩ := run'.settles settled' here' hcall (follow' i) hsettles
    exact ⟨hpast.trans hpast'.symm, result, hresult, hresult'⟩
  have hevents : (s.attempts.map fun a => ownEvents a.past) = t.attempts.map fun a => ownEvents a.past := by
    apply List.ext_getElem (by simp [hlength])
    intro i hi hi'
    rw [List.getElem_map, List.getElem_map]
    exact (hagrees i _ _ (List.getElem?_eq_getElem _) (List.getElem?_eq_getElem _)).events
  have hledger : s.ledger = t.ledger := by rw [run.ledger_eq_own, run'.ledger_eq_own, hevents]
  exact ⟨⟨hlength, hagrees, hledger⟩, run.carriesOut settled follow, run'.carriesOut settled' follow'⟩

/-- Collaborators who answer as fixed, the clock and the log included. -/
def Collaborators.following (fixed : Answers) : Collaborators := fun past c =>
  .answer (fixed.after past.dropLast c)

theorem Collaborators.following_follow (fixed : Answers) : (following fixed).Follow fixed where
  steady := by
    intro past c hcrash
    cases hcrash
  own := by
    intro past c _
    rw [following, List.dropLast_concat]

/-- The import vouches for every block, and gossip answers `taken` to every message. -/
def Answers.imported (taken : Except GossipFault Unit) : Answers := fun _ c =>
  match c with
  | .importBlock block _ | .importWithSidecars block _ _ => .ok (.imported
      { root := block.root, slot := block.slot, validatedAt := .standard, optimistic := false })
  | .gossipBlock _ | .gossipSidecar _ => taken
  | .readClock => 0
  | .reportDuty .. | .reportPerformance .. | .countSidecars .. | .notify _ => ()

/-- The first of two attempts finds no room at gossip. -/
def Answers.firstRefused (i : Nat) : Answers :=
  .imported (if i = 0 then .error .queueFull else .ok ())

/-- Two calls for one root. -/
def callsForOneRoot : List (Publisher × Request) :=
  [(.single { variant := .plain }, .blank), (.single { variant := .plain }, .blank)]

/-- Made one after the other in either order they come to two imports and two broadcasts. -/
theorem independent_of_order_when_repeated :
    ∃ (s t : System),
      System.Run (fun i => .following (.firstRefused i)) true (.start callsForOneRoot) s ∧
      System.Run (fun i => .following (.firstRefused i)) true (.start callsForOneRoot) t ∧
      s.IsSettled ∧ t.IsSettled ∧ s.AgreesWith t ∧
      s.callCount (Call.imports Request.blank.block.root) = 2 ∧
      s.callCount (Call.broadcasts Request.blank.block.root) = 2 := by
  have start : System.Run (fun i => .following (.firstRefused i)) true (.start callsForOneRoot) _ :=
    .refl _
  have follow (i : Nat) := Collaborators.following_follow (Answers.firstRefused i)
  obtain ⟨s₀, run₀, h₀⟩ := start.completeAttempt 0 rfl rfl rfl rfl
  obtain ⟨s, run, hs⟩ := run₀.completeAttempt 1 (by rw [h₀]; rfl) rfl rfl rfl
  obtain ⟨t₁, run₁, h₁⟩ := start.completeAttempt 1 rfl rfl rfl rfl
  obtain ⟨t, run', ht⟩ := run₁.completeAttempt 0 (by rw [h₁]; rfl) rfl rfl rfl
  have settled : s.IsSettled := by
    rw [System.IsSettled, hs, h₀]
    exact List.all_eq_true.mp rfl
  have settled' : t.IsSettled := by
    rw [System.IsSettled, ht, h₁]
    exact List.all_eq_true.mp rfl
  obtain ⟨agrees, carriesOut, -⟩ := run.independent_of_order follow follow run' settled settled'
  have hasking : askingFor Request.blank.block.root callsForOneRoot = 2 := by
    simp [askingFor, callsForOneRoot, Publisher.asks, Publisher.pipeline?, Variant.fault?]
  refine ⟨s, t, run, run', settled, settled', agrees, ?_, ?_⟩
  · rw [carriesOut.imports, hasking]
  · rw [carriesOut.broadcasts, hasking]
    intro i publisher r call _ _
    match i, call with
    | 0, rfl => rfl
    | 1, rfl => rfl

end BeaconBroadcast
