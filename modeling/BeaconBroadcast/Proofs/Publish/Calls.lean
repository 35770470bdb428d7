import BeaconBroadcast.Proofs.Publish.Stages

/-!
# `BeaconBroadcast.Proofs.Publish.Calls` — which calls an attempt makes, and how often

Every part of an attempt has its own kind of call. Only the import step goes to the import and only the
broadcast goes to gossip, each of them once for the block; everything else is quiet.

## Contents
- **Quiet calls.** `Call.isQuiet`, and the parts of an attempt that make no others.
- **Broadcast.** A broadcast offers the block once and sidecars after it; `Call.isOfBroadcast` are all its calls.
- **Import.** An import asks once and offers nothing; `Call.isOfImport` are all its calls.
- **Pipelines.** `run_atMost_import` and `run_atMost_block`.
-/

namespace BeaconBroadcast

open Program

variable {r : Request}

/-! ## Quiet calls -/

/-- Whether the call goes neither to the import nor to gossip. -/
def Call.isQuiet (c : Call) : Bool := !c.isImport && !c.isGossip

theorem Call.isQuiet_iff {c : Call} : c.isQuiet ↔ c.isImport = false ∧ c.isGossip = false := by
  unfold Call.isQuiet
  rw [Bool.and_eq_true, Bool.not_eq_true', Bool.not_eq_true']

/-- What is not offered to gossip at all is no block offered to it. -/
theorem Call.isBlockGossip_of_isGossip {c : Call} (h : c.isGossip = false) : c.isBlockGossip = false := by
  cases c <;> first | rfl | cases h

theorem Call.isBlockGossip_of_isQuiet {c : Call} (h : c.isQuiet) : c.isBlockGossip = false :=
  isBlockGossip_of_isGossip (isQuiet_iff.mp h).2

theorem isQuiet_of_isNotice {c : Call} (h : c.isNotice) : c.isQuiet := by
  cases c <;> first | rfl | cases h

theorem report_quiet (block : SignedBlock) (outcome : Outcome) :
    (report block outcome).CallsOnly fun c => c.isQuiet :=
  callsOnly_bind (callsOnly_request rfl) fun _ => callsOnly_request rfl

/-- Neither a caller whose attempt broke off nor one whose block no pipeline takes does more than tell. -/
theorem notAttempted_quiet (notice : Notice) (block : SignedBlock) (result : PublishResult) :
    (notify notice >>= fun _ => report block .notAttempted >>= fun _ => Pure.pure result).CallsOnly
      fun c => c.isQuiet :=
  callsOnly_bind (callsOnly_request rfl) fun _ =>
    callsOnly_bind (report_quiet block .notAttempted) fun _ => callsOnly_pure result

theorem tellDelay_quiet (block : SignedBlock) (grid? : Option SlotGrid) :
    (tellDelay block grid?).CallsOnly fun c => c.isQuiet := by
  cases grid? with
  | none => exact callsOnly_pure ()
  | some grid =>
      refine callsOnly_bind (callsOnly_request rfl) ?_
      intro now
      split
      · exact callsOnly_request rfl
      · exact callsOnly_pure ()

/-! ## Broadcast -/

/-- Whether the call offers a sidecar to gossip, or goes neither there nor to the import. -/
def Call.isAfterBlock (c : Call) : Bool := !c.isImport && !c.isBlockGossip

theorem Call.isAfterBlock_iff {c : Call} :
    c.isAfterBlock ↔ c.isImport = false ∧ c.isBlockGossip = false := by
  unfold Call.isAfterBlock
  rw [Bool.and_eq_true, Bool.not_eq_true', Bool.not_eq_true']

theorem offerSidecars_callsOnly {P : Call → Prop} (offers : ∀ sidecar, P (.gossipSidecar sidecar))
    (remarks : ∀ index root fault, P (.notify (.sidecarRefused index root fault))) (block : SignedBlock)
    (sidecars : List BlobSidecar) (d : Delivery) : (offerSidecars block sidecars d).CallsOnly P := by
  induction sidecars generalizing d with
  | nil => exact callsOnly_pure d
  | cons sidecar sidecars ih =>
      refine callsOnly_bind (callsOnly_request (offers sidecar)) ?_
      intro answer
      cases answer with
      | ok taken => exact ih d.take
      | error fault => exact callsOnly_bind (callsOnly_request (remarks ..)) fun _ => ih (d.refuse sidecar.index)

/-- A broadcast offers the block and then sidecars at most. -/
theorem broadcast_eq (v : Variant) (block : SignedBlock) (sidecars : List BlobSidecar) :
    ∃ rest : Bool → Program Delivery, v.broadcast block sidecars = offerBlock block >>= rest ∧
      ∀ taken, (rest taken).CallsOnly fun c => c.isAfterBlock := by
  cases v with
  | plain => exact ⟨_, rfl, fun taken => callsOnly_pure _⟩
  | withBlobs limit counted =>
      refine ⟨_, rfl, fun taken => ?_⟩
      refine callsOnly_bind (offerSidecars_callsOnly (fun _ => rfl) (fun _ _ _ => rfl) ..) fun d => ?_
      split
      · exact callsOnly_bind (callsOnly_request rfl) fun _ => callsOnly_pure _
      · exact callsOnly_pure d

/-- The offer of a block says nothing more than what gossip answered. -/
theorem offerBlock_eq (block : SignedBlock) :
    ∃ rest : Except GossipFault Unit → Program Bool,
      offerBlock block = request (.gossipBlock block) >>= rest ∧
      ∀ answer, (rest answer).CallsOnly fun c => c.isQuiet := by
  refine ⟨_, rfl, fun answer => ?_⟩
  cases answer with
  | ok taken => exact callsOnly_pure true
  | error fault => exact callsOnly_bind (callsOnly_request rfl) fun _ => callsOnly_pure _

/-- Whether the call is one that a broadcast makes. -/
def Call.isOfBroadcast : Call → Bool
  | gossipBlock _ => true
  | gossipSidecar _ => true
  | countSidecars .. => true
  | notify (.blockRefused ..) => true
  | notify (.sidecarRefused ..) => true
  | _ => false

theorem Call.isImport_of_isOfBroadcast {c : Call} (h : c.isOfBroadcast) : c.isImport = false := by
  cases c <;> first | rfl | cases h

theorem offerBlock_callsOnly {P : Call → Prop} {block : SignedBlock} (offers : P (.gossipBlock block))
    (remarks : ∀ root slot fault, P (.notify (.blockRefused root slot fault))) : (offerBlock block).CallsOnly P := by
  refine callsOnly_bind (callsOnly_request offers) ?_
  intro answer
  cases answer with
  | ok taken => exact callsOnly_pure true
  | error fault => exact callsOnly_bind (callsOnly_request (remarks ..)) fun _ => callsOnly_pure false

theorem offerBlock_isOfBroadcast (block : SignedBlock) :
    (offerBlock block).CallsOnly fun c => c.isOfBroadcast :=
  offerBlock_callsOnly rfl fun _ _ _ => rfl

theorem broadcast_isOfBroadcast (v : Variant) (block : SignedBlock) (sidecars : List BlobSidecar) :
    (v.broadcast block sidecars).CallsOnly fun c => c.isOfBroadcast := by
  cases v with
  | plain => exact callsOnly_bind (offerBlock_isOfBroadcast block) fun taken => callsOnly_pure _
  | withBlobs limit counted =>
      refine callsOnly_bind (offerBlock_isOfBroadcast block) fun taken => ?_
      refine callsOnly_bind (offerSidecars_callsOnly (fun _ => rfl) (fun _ _ _ => rfl) ..) fun d => ?_
      split
      · exact callsOnly_bind (callsOnly_request rfl) fun _ => callsOnly_pure _
      · exact callsOnly_pure d

theorem broadcast_callsOnly (v : Variant) (block : SignedBlock) (sidecars : List BlobSidecar) :
    (v.broadcast block sidecars).CallsOnly fun c => c.isImport = false :=
  (broadcast_isOfBroadcast v block sidecars).mono fun _ => Call.isImport_of_isOfBroadcast

theorem broadcast_atMost (v : Variant) (block : SignedBlock) (sidecars : List BlobSidecar) :
    (v.broadcast block sidecars).AtMost Call.isBlockGossip 1 := by
  obtain ⟨afterBlock, hbroadcast, hafter⟩ := broadcast_eq v block sidecars
  obtain ⟨remark, hoffer, hremark⟩ := offerBlock_eq block
  have hblock : (offerBlock block).AtMost Call.isBlockGossip (1 + 0) := by
    rw [hoffer]
    apply (atMost_request _).bind
    intro answer
    exact CallsOnly.atMost ((hremark answer).mono fun c hc => Call.isBlockGossip_of_isQuiet hc) 0
  have hrest (taken : Bool) : (afterBlock taken).AtMost Call.isBlockGossip 0 :=
    CallsOnly.atMost ((hafter taken).mono fun c hc => (Call.isAfterBlock_iff.mp hc).2) 0
  rw [hbroadcast]
  exact hblock.bind hrest

/-! ## Import -/

/-- Whether the call is one that an import step makes. -/
def Call.isOfImport : Call → Bool
  | importBlock .. => true
  | importWithSidecars .. => true
  | notify (.sidecarsIgnored ..) => true
  | notify (.sidecarsRejected ..) => true
  | _ => false

theorem Call.isGossip_of_isOfImport {c : Call} (h : c.isOfImport) : c.isGossip = false := by
  cases c <;> first | rfl | cases h

theorem importBlock_isOfImport (v : Variant) :
    (v.importBlock r.block r.sidecars r.level).CallsOnly fun c => c.isOfImport := by
  cases v with
  | plain =>
      simp only [Variant.importBlock]
      split
      · exact callsOnly_bind (callsOnly_request rfl) fun _ =>
          callsOnly_bind (callsOnly_request rfl) fun _ => callsOnly_pure _
      · exact callsOnly_bind (callsOnly_request rfl) fun _ => callsOnly_pure _
  | withBlobs limit counted =>
      simp only [Variant.importBlock]
      split
      · exact callsOnly_bind (callsOnly_request rfl) fun _ => callsOnly_pure _
      · exact callsOnly_bind (callsOnly_request rfl) fun _ => callsOnly_pure _

theorem importBlock_callsOnly (v : Variant) :
    (v.importBlock r.block r.sidecars r.level).CallsOnly fun c => c.isGossip = false :=
  (importBlock_isOfImport v).mono fun _ => Call.isGossip_of_isOfImport

theorem importBlock_atMost (v : Variant) :
    (v.importBlock r.block r.sidecars r.level).AtMost Call.isImport 1 := by
  have hask {c : Call} {f : c.Answer → ImportAnswer} :
      (request c >>= fun a => Pure.pure (f a)).AtMost Call.isImport 1 :=
    AtMost.bind (m := 1) (n := 0) (atMost_request c) fun _ => trivial
  cases v with
  | plain =>
      simp only [Variant.importBlock]
      split
      · exact AtMost.bind (m := 0) (n := 1) ((callsOnly_notify (fun _ => rfl) _).atMost 0) fun _ => hask
      · exact hask
  | withBlobs limit counted =>
      simp only [Variant.importBlock]
      split
      · exact AtMost.bind (m := 1) (n := 0) (atMost_request _) fun _ => trivial
      · exact hask

/-! ## Pipelines -/

/-- What follows a broadcast goes neither to the import nor to gossip. -/
theorem conclude_eq (p : Pipeline) (imported : ImportedBlock) :
    ∃ rest : Delivery → Program PublishResult,
      p.conclude r.block r.sidecars r.level (.imported imported)
        = p.variant.broadcast r.block r.sidecars >>= rest ∧
      ∀ delivery, (rest delivery).CallsOnly fun c => c.isQuiet :=
  ⟨_, rfl, fun _ => callsOnly_bind (tellDelay_quiet ..) fun _ =>
    callsOnly_bind (callsOnly_request rfl) fun _ => callsOnly_pure _⟩

/-- A block that is not let through goes nowhere. -/
theorem conclude_quiet (p : Pipeline) {answer : ImportAnswer} (h : ∀ b, answer ≠ .imported b) :
    (p.conclude r.block r.sidecars r.level answer).CallsOnly fun c => c.isQuiet := by
  cases answer with
  | imported imported => exact absurd rfl (h imported)
  | refused verdict => exact callsOnly_bind (callsOnly_request rfl) fun _ => callsOnly_pure _
  | failed reason => exact callsOnly_bind (callsOnly_request rfl) fun _ => callsOnly_pure _

theorem conclude_callsOnly (p : Pipeline) (answer : ImportAnswer) :
    (p.conclude r.block r.sidecars r.level answer).CallsOnly fun c => c.isImport = false := by
  cases answer with
  | imported imported =>
      obtain ⟨rest, hconclude, hrest⟩ := conclude_eq (r := r) p imported
      have htail (delivery : Delivery) : (rest delivery).CallsOnly fun c => c.isImport = false :=
        (hrest delivery).mono fun c hc => (Call.isQuiet_iff.mp hc).1
      rw [hconclude]
      exact callsOnly_bind (broadcast_callsOnly p.variant r.block r.sidecars) htail
  | refused verdict => exact callsOnly_bind (callsOnly_request rfl) fun _ => callsOnly_pure _
  | failed reason => exact callsOnly_bind (callsOnly_request rfl) fun _ => callsOnly_pure _

theorem conclude_atMost (p : Pipeline) (answer : ImportAnswer) :
    (p.conclude r.block r.sidecars r.level answer).AtMost Call.isBlockGossip 1 := by
  cases answer with
  | imported imported =>
      obtain ⟨rest, hconclude, hrest⟩ := conclude_eq (r := r) p imported
      have htail (delivery : Delivery) : (rest delivery).AtMost Call.isBlockGossip 0 :=
        CallsOnly.atMost ((hrest delivery).mono fun c hc => Call.isBlockGossip_of_isQuiet hc) 0
      rw [hconclude]
      exact (broadcast_atMost p.variant r.block r.sidecars).bind htail
  | refused verdict =>
      exact CallsOnly.atMost (callsOnly_bind (callsOnly_request rfl) fun _ => callsOnly_pure _) 1
  | failed reason =>
      exact CallsOnly.atMost (callsOnly_bind (callsOnly_request rfl) fun _ => callsOnly_pure _) 1

/-- A report adds quiet calls. -/
theorem callsOnly_reported {P : Call → Prop} (hquiet : ∀ c : Call, c.isQuiet → P c)
    {work : Program PublishResult} (h : work.CallsOnly P) :
    (work >>= fun result => report r.block result.outcome >>= fun _ => Pure.pure result).CallsOnly P :=
  callsOnly_bind h fun result =>
    callsOnly_bind ((report_quiet r.block result.outcome).mono hquiet) fun _ => callsOnly_pure result

/-- **A pipeline asks the import at most once.** -/
theorem run_atMost_import (p : Pipeline) :
    (p.run r.block r.sidecars r.level).AtMost Call.isImport 1 := by
  -- the allowance goes to the import; the notice before it and all that follows leave it alone
  refine AtMost.bind (m := 0) (n := 1) ((callsOnly_notify (fun _ => rfl) _).atMost 0) fun _ => ?_
  refine AtMost.bind (m := 1) (n := 0) (importBlock_atMost p.variant) ?_
  intro answer
  refine CallsOnly.atMost (callsOnly_reported ?_ (conclude_callsOnly p (answer.gate r.level))) 0
  intro c hc
  exact (Call.isQuiet_iff.mp hc).1

/-- **A pipeline offers the block to gossip at most once.** -/
theorem run_atMost_block (p : Pipeline) :
    (p.run r.block r.sidecars r.level).AtMost Call.isBlockGossip 1 := by
  -- here it goes to what follows the import
  refine AtMost.bind (m := 0) (n := 1) ((callsOnly_notify (fun _ => rfl) _).atMost 0) fun _ => ?_
  have himport : (p.variant.importBlock r.block r.sidecars r.level).AtMost Call.isBlockGossip 0 :=
    CallsOnly.atMost
      ((importBlock_callsOnly p.variant).mono fun c hc => Call.isBlockGossip_of_isGossip hc) 0
  have hreport (outcome : Outcome) :
      (report r.block outcome).CallsOnly fun c => c.isBlockGossip = false :=
    (report_quiet r.block outcome).mono fun c hc => Call.isBlockGossip_of_isQuiet hc
  refine AtMost.bind (m := 0) (n := 1) himport ?_
  intro answer
  refine AtMost.bind (m := 1) (n := 0) (conclude_atMost p (answer.gate r.level)) ?_
  intro result
  exact CallsOnly.atMost (callsOnly_bind (hreport result.outcome) fun _ => callsOnly_pure result) 0

end BeaconBroadcast
