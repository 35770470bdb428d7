import BeaconBroadcast.Proofs.Publish.SidecarCounts
import BeaconBroadcast.Proofs.Publish.Tally

/-!
# `BeaconBroadcast.Proofs.Publish.Accounting` — a delivery says what gossip answered

A broadcast with blobs goes on whatever gossip answers. The block and every sidecar are offered once, whether or not
the ones before were taken, whether or not the sidecars are those of the block, and no matter how often an index comes
up; the delivery says of each what became of it, and the ledger hears of the same numbers.

## Contents
- **Answers.** `AnsweredSidecar` is a sidecar with what gossip answered to it, and `gossipExchanges` all that passes
  gossip.
- **Deliveries.** `Delivery.AccountsFor`: a delivery says just what gossip answered.
- **Ledgers.** `Ledger.GrownBy`; what a broadcast adds to the ledger.
- **Broadcasts.** `Variant.broadcast_accounts`, with gossip that refuses one index.
-/

namespace BeaconBroadcast

open Program

/-! ## Answers -/

/-- What gossip answers to one message. -/
abbrev GossipAnswer : Type := Except GossipFault Unit

/-- A sidecar that was offered to gossip, with the answer. -/
structure AnsweredSidecar where
  sidecar : BlobSidecar
  answer : GossipAnswer

namespace AnsweredSidecar

def isTaken (s : AnsweredSidecar) : Bool := s.answer.isOk

/-- The offer and the answer. -/
def exchanged (s : AnsweredSidecar) : List Event := exchange (.gossipSidecar s.sidecar) (.ok s.answer)

end AnsweredSidecar

/-- The offers of a block and of sidecars, in this order, each with its answer right behind it. -/
def gossipExchanges (block : SignedBlock) (toBlock : GossipAnswer) (answered : List AnsweredSidecar) : List Event :=
  exchange (.gossipBlock block) (.ok toBlock) ++ answered.flatMap AnsweredSidecar.exchanged

theorem GossipAnswer.isOk_iff (answer : GossipAnswer) : answer.isOk ↔ answer = .ok () := by
  rcases answer with fault | taken
  · exact iff_of_false Bool.false_ne_true nofun
  · exact iff_of_true rfl rfl

namespace GossipReply

theorem isTaken_ok (answer : GossipAnswer) : isTaken (.ok answer) = answer.isOk := by
  cases answer <;> rfl

theorem isRefused_ok (answer : GossipAnswer) : isRefused (.ok answer) = !answer.isOk := by
  cases answer <;> rfl

/-- A reply that is no breakdown is an answer. -/
theorem exists_answer {reply : GossipReply} (h : reply.crash? = none) : ∃ answer, reply = .ok answer := by
  cases reply with
  | error crash => cases h
  | ok answer => exact ⟨answer, rfl⟩

end GossipReply

/-- Where nobody breaks down, each sidecar has its answer. -/
theorem exists_answered {replies : Nat → GossipReply} {sidecars : List BlobSidecar}
    (h : firstCrash? replies sidecars.length = none) :
    ∃ answered : List AnsweredSidecar, answered.map (·.sidecar) = sidecars ∧
      sidecarExchanges replies sidecars = answered.flatMap AnsweredSidecar.exchanged ∧
      ∀ p, sidecarsWhere p replies sidecars = (answered.filter fun s => p (.ok s.answer)).map (·.sidecar) := by
  induction sidecars generalizing replies with
  | nil => exact ⟨[], rfl, rfl, fun p => rfl⟩
  | cons sidecar sidecars ih =>
      rw [List.length_cons, firstCrash?_succ, Option.or_eq_none_iff] at h
      obtain ⟨answered, rfl, hexchanges, hwhere⟩ := ih h.2
      obtain ⟨answer, hreply⟩ := GossipReply.exists_answer h.1
      refine ⟨⟨sidecar, answer⟩ :: answered, rfl, ?_, ?_⟩
      · have hgoes : ¬ (replies 0).crash?.isSome := by simp [h.1]
        rw [sidecarExchanges, if_neg hgoes, hexchanges, hreply]
        rfl
      · intro p
        rw [sidecarsWhere_cons, hwhere, hreply]
        by_cases hp : p (.ok answer)
        · simp [hp]
        · simp [hp]

/-! ## Deliveries -/

/-- What it means that a delivery says just what gossip answered to the block and to each sidecar. -/
structure Delivery.AccountsFor (d : Delivery) (toBlock : GossipAnswer) (answered : List AnsweredSidecar) : Prop where
  blockTaken : d.blockTaken ↔ toBlock = .ok ()
  taken : d.sidecarsTaken = answered.countP (·.isTaken)
  /-- The indices of those that were refused, in order, and as often as each of them was. -/
  refused : d.sidecarsRefused = (answered.filter (!·.isTaken)).map (·.sidecar.index)
  total : d.sidecarsTaken + d.sidecarsRefused.length = answered.length
  isPartial : d.isPartial ↔ toBlock ≠ .ok () ∨ ∃ s ∈ answered, ¬ s.isTaken

/-- **What broadcasts deliver is what gossip answered**, where nobody breaks down. -/
theorem GossipReplies.exists_accountsFor {replies : GossipReplies} {sidecars : List BlobSidecar}
    (h : replies.crash? sidecars.length = none) (block : SignedBlock) :
    ∃ toBlock answered, answered.map AnsweredSidecar.sidecar = sidecars ∧
      replies.exchanges block sidecars = gossipExchanges block toBlock answered ∧
      (replies.delivery sidecars).AccountsFor toBlock answered := by
  obtain ⟨hblock, hsidecars⟩ := Option.or_eq_none_iff.mp h
  obtain ⟨toBlock, hreply⟩ := GossipReply.exists_answer hblock
  obtain ⟨answered, hsame, hexchanges, hwhere⟩ := exists_answered hsidecars
  have htaken : sidecarsWhere GossipReply.isTaken replies.toSidecar sidecars
      = (answered.filter (·.isTaken)).map (·.sidecar) := by
    simp only [hwhere, GossipReply.isTaken_ok, AnsweredSidecar.isTaken]
  have hrefused : sidecarsWhere GossipReply.isRefused replies.toSidecar sidecars
      = (answered.filter (!·.isTaken)).map (·.sidecar) := by
    simp only [hwhere, GossipReply.isRefused_ok, AnsweredSidecar.isTaken]
  refine ⟨toBlock, answered, hsame, ?_, ?_, ?_, ?_, ?_, ?_⟩
  · have hgoes : ¬ replies.toBlock.crash?.isSome := by simp [hblock]
    rw [exchanges, if_neg hgoes, hexchanges, hreply]
    rfl
  · show replies.toBlock.isTaken ↔ toBlock = .ok ()
    rw [hreply, GossipReply.isTaken_ok, GossipAnswer.isOk_iff]
  · show (sidecarsWhere _ _ _).length = _
    rw [htaken, List.length_map, List.countP_eq_length_filter]
  · show (sidecarsWhere _ _ _).map _ = _
    rw [hrefused, List.map_map]
    rfl
  · show (sidecarsWhere _ _ _).length + ((sidecarsWhere _ _ _).map _).length = _
    rw [List.length_map, length_taken_add_refused hsidecars, ← hsame, List.length_map]
  · show (!replies.toBlock.isTaken || !((sidecarsWhere _ _ _).map _).isEmpty) ↔ _
    rw [hrefused, hreply, GossipReply.isTaken_ok, ne_eq, ← GossipAnswer.isOk_iff]
    simp

/-! ## Ledgers -/

namespace Ledger

/-- What a ledger has more than another, around the end of the word, if it has heard of a broadcast and of nothing
    else. -/
structure GrownBy (l : Ledger) (taken refused : Nat) (later : Ledger) : Prop where
  taken : later.sidecarsPublished.toNat = (l.sidecarsPublished.toNat + taken) % UInt64.size
  refused : later.sidecarFailures.toNat = (l.sidecarFailures.toNat + refused) % UInt64.size
  same : later =
    { l with sidecarsPublished := later.sidecarsPublished, sidecarFailures := later.sidecarFailures }

theorem grownBy_countSidecars (l : Ledger) (taken refused : Nat) :
    l.GrownBy taken refused (l.countSidecars taken refused) := by
  refine ⟨?_, ?_, rfl⟩
  · show (l.sidecarsPublished + .ofNat taken).toNat = _
    simp [UInt64.size]
  · show (l.sidecarFailures + .ofNat refused).toNat = _
    simp [UInt64.size]

end Ledger

variable {others : Collaborators} {limit : UInt64} {counted : Bool} {block : SignedBlock}
  {sidecars : List BlobSidecar}

/-- **The ledger hears of what was delivered**, once and at the end, if it hears of sidecars at all. -/
theorem broadcast_ledger {events : List Event} {d : Delivery}
    (h : ((Variant.withBlobs limit counted).broadcast block sidecars).GossipStory events (.returned d))
    (dutyCounted : Bool) (l : Ledger) : events.foldl (Ledger.observe dutyCounted) l
      = if counted then l.countSidecars d.sidecarsTaken d.sidecarsRefused.length else l := by
  obtain ⟨taken, first, rest, rfl, hblock, hrest⟩ := Story.of_bind_returned h
  obtain ⟨delivery, second, last, rfl, hsidecars, hlast⟩ := Story.of_bind_returned hrest
  have hfirst : ∀ e ∈ first, e.call.isCounted = false :=
    hblock.forall_call (P := fun c => c.isCounted = false) (offerBlock_callsOnly rfl fun _ _ _ => rfl)
  have hsecond : ∀ e ∈ second, e.call.isCounted = false :=
    hsidecars.forall_call (P := fun c => c.isCounted = false)
      (offerSidecars_callsOnly (fun _ => rfl) (fun _ _ _ => rfl) block sidecars _)
  rw [List.foldl_append, List.foldl_append, Ledger.foldl_observe_of_not_isCounted hfirst,
    Ledger.foldl_observe_of_not_isCounted hsecond]
  cases counted with
  | false =>
      obtain ⟨rfl, -⟩ := Story.of_pure hlast
      rfl
  | true =>
      obtain ⟨told, nothing, rfl, hnothing⟩ := Program.GossipStory.of_request_bind rfl hlast
      obtain ⟨rfl, hdone⟩ := Story.of_pure hnothing
      cases hdone
      rfl

/-! ## Broadcasts -/

/-- What it means that a broadcast has left `later` behind and come to `d`, where gossip answered `toBlock` to the block
    and each of the `answered` sidecars was answered as it says. -/
structure BroadcastInFull (others : Collaborators) (counted : Bool) (block : SignedBlock)
    (sidecars : List BlobSidecar) (past later : List Event) (toBlock : GossipAnswer)
    (answered : List AnsweredSidecar) (d : Delivery) : Prop where
  /-- The block is offered once and before all else, then every sidecar once and in order. -/
  offers : portEvents later = gossipExchanges block toBlock answered
  sidecars : answered.map (·.sidecar) = sidecars
  /-- The answers are those that gossip gave. -/
  truthful : Faithful others (past ++ later)
  accounts : d.AccountsFor toBlock answered
  /-- The ledger grows by the two numbers and by nothing else, or not at all if it does not hear of sidecars. -/
  ledger : ∀ (dutyCounted : Bool) (l : Ledger), if counted
    then l.GrownBy d.sidecarsTaken d.sidecarsRefused.length (later.foldl (.observe dutyCounted) l)
    else later.foldl (.observe dutyCounted) l = l

/-- **A broadcast with blobs offers everything and accounts for every answer**, whatever gossip answers and whatever the
    sidecars are. -/
theorem Variant.broadcast_accounts (answers : others.GossipAnswers) (limit : UInt64) (counted : Bool)
    (block : SignedBlock) (sidecars : List BlobSidecar) {past : List Event} (truthful : Faithful others past) :
    ∃ later toBlock answered d,
      ((withBlobs limit counted).broadcast block sidecars).complete others past = (.returned d, past ++ later) ∧
      BroadcastInFull others counted block sidecars past later toBlock answered d := by
  obtain ⟨later, hpast, hstory⟩ :=
    ((withBlobs limit counted).broadcast block sidecars).complete_story answers past
  have hfaithful := ((withBlobs limit counted).broadcast block sidecars).complete_faithful truthful
  rw [hpast] at hfaithful
  -- whoever may break down is not asked
  obtain ⟨d, hd⟩ := hstory.exists_returned
    ((broadcast_isOfBroadcast _ block sidecars).mono fun _ => Call.not_isImportOrClock_of_isOfBroadcast)
  rw [hd] at hstory
  obtain ⟨replies, hevents, hdone⟩ :=
    broadcast_story (r := { block, sidecars }) (hstory.mono fun _ => Call.canCrash_of_isImportOrClock)
  obtain ⟨hcrash, rfl⟩ := Progress.eq_none_of_returned hdone
  obtain ⟨toBlock, answered, hsame, hexchanges, haccounts⟩ := GossipReplies.exists_accountsFor hcrash block
  refine ⟨later, toBlock, answered, _, Prod.ext hd hpast, hevents.trans hexchanges, hsame, hfaithful, haccounts, ?_⟩
  intro dutyCounted l
  rw [broadcast_ledger hstory]
  cases counted with
  | false => rfl
  | true => exact l.grownBy_countSidecars _ _

/-- A sidecar that belongs to no block. -/
def BlobSidecar.stray (index : UInt64) : BlobSidecar where
  index := index
  blockRoot := Bytes.zero
  slot := 0
  commitment := Bytes.zero
  proof := Bytes.zero
  blob := []

/-- Sidecars of which two have the same index. -/
def BlobSidecar.strays : List BlobSidecar := [.stray 3, .stray 1, .stray 3]

/-- Gossip refuses the first sidecar and the last, which have the same index, and takes the one between. -/
theorem broadcast_accounts_when_refused :
    (Collaborators.refusing 3).GossipAnswers ∧
    ∃ later toBlock answered d, d.sidecarsTaken = 1 ∧ d.sidecarsRefused = [3, 3] ∧
      ((Variant.withBlobs 6 true).broadcast Request.blank.block BlobSidecar.strays).complete (.refusing 3) []
        = (.returned d, [] ++ later) ∧
      BroadcastInFull (.refusing 3) true Request.blank.block BlobSidecar.strays [] later toBlock answered d := by
  have answers : (Collaborators.refusing 3).GossipAnswers := (Collaborators.refusing_steady 3).crashOnlyOn
  obtain ⟨later, toBlock, answered, d, hends, hfull⟩ :=
    Variant.broadcast_accounts answers 6 true Request.blank.block BlobSidecar.strays faithful_nil
  have hd : d = { blockTaken := true, sidecarsTaken := 1, sidecarsRefused := [3, 3] } := by
    cases hends
    rfl
  subst hd
  exact ⟨answers, later, toBlock, answered, _, rfl, rfl, hends, hfull⟩

end BeaconBroadcast
