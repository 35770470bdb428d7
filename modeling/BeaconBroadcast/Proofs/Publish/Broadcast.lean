import BeaconBroadcast.Proofs.Publish.Stages

/-!
# `BeaconBroadcast.Proofs.Publish.Broadcast` — what a broadcast leaves at gossip

What becomes of each message decides everything about a broadcast: how far it gets, and what is said of it
afterwards.

## Contents
- **Replies.** `GossipReplies` says what becomes of the block and of the sidecar at each position.
- **Reference.** `GossipReplies.exchanges`, `crash?` and `delivery`: the messages that are offered, the first
  breakdown among them, and the account of a broadcast that had none.
- **Lists.** How these unfold along the list of sidecars, and what they come to where nobody breaks down.
- **Stories.** `offerSidecars_story`, `offerBlock_story` and `broadcast_story`.
-/

namespace BeaconBroadcast

open Program

/-! ## Replies -/

/-- What gossip comes to for one message. -/
abbrev GossipReply : Type := Except Crash (Except GossipFault Unit)

namespace GossipReply

/-- Whether gossip took the message. -/
def isTaken : GossipReply → Bool
  | .ok (.ok ()) => true
  | _ => false

/-- Whether gossip answered and did not take the message. -/
def isRefused : GossipReply → Bool
  | .ok (.error _) => true
  | _ => false

def crash? : GossipReply → Option Crash
  | .error crash => some crash
  | .ok _ => none

end GossipReply

/-- What gossip comes to for the messages of one broadcast. -/
structure GossipReplies where
  toBlock : GossipReply
  /-- For the sidecar at each position. -/
  toSidecar : Nat → GossipReply

/-! ## Reference -/

/-- Each sidecar is offered in order, whatever became of the ones before, until somebody breaks down. -/
def sidecarExchanges (replies : Nat → GossipReply) : List BlobSidecar → List Event
  | [] => []
  | sidecar :: sidecars =>
      exchange (.gossipSidecar sidecar) (replies 0) ++
        if (replies 0).crash?.isSome then [] else sidecarExchanges (fun i => replies (i + 1)) sidecars

/-- How the first of `n` messages broke down that did. -/
def firstCrash? (replies : Nat → GossipReply) (n : Nat) : Option Crash :=
  (List.range n).findSome? fun i => (replies i).crash?

/-- The sidecars whose replies satisfy `p`, in order. -/
def sidecarsWhere (p : GossipReply → Bool) (replies : Nat → GossipReply)
    (sidecars : List BlobSidecar) : List BlobSidecar :=
  (sidecars.zipIdx.filter fun entry => p (replies entry.2)).map (·.1)

namespace GossipReplies

/-- The block is offered first, then the sidecars, until somebody breaks down. -/
def exchanges (replies : GossipReplies) (block : SignedBlock) (sidecars : List BlobSidecar) :
    List Event :=
  exchange (.gossipBlock block) replies.toBlock ++
    if replies.toBlock.crash?.isSome then [] else sidecarExchanges replies.toSidecar sidecars

/-- How the broadcast of a block with `n` sidecars breaks down, if it does. -/
def crash? (replies : GossipReplies) (n : Nat) : Option Crash :=
  replies.toBlock.crash?.or (firstCrash? replies.toSidecar n)

/-- Which messages gossip took. -/
def delivery (replies : GossipReplies) (sidecars : List BlobSidecar) : Delivery where
  blockTaken := replies.toBlock.isTaken
  sidecarsTaken := (sidecarsWhere GossipReply.isTaken replies.toSidecar sidecars).length
  sidecarsRefused := (sidecarsWhere GossipReply.isRefused replies.toSidecar sidecars).map (·.index)

end GossipReplies

/-! ## Lists -/

/-- A first reply before others. -/
def replyThen (reply : GossipReply) (rest : Nat → GossipReply) : Nat → GossipReply
  | 0 => reply
  | i + 1 => rest i

theorem firstCrash?_succ (replies : Nat → GossipReply) (n : Nat) :
    firstCrash? replies (n + 1)
      = (replies 0).crash?.or (firstCrash? (fun i => replies (i + 1)) n) := by
  unfold firstCrash?
  rw [List.range_succ_eq_map, List.findSome?_cons, List.findSome?_map]
  cases (replies 0).crash? <;> rfl

@[simp] theorem sidecarsWhere_nil (p : GossipReply → Bool) (replies : Nat → GossipReply) :
    sidecarsWhere p replies [] = [] := rfl

theorem sidecarsWhere_cons (p : GossipReply → Bool) (replies : Nat → GossipReply)
    (sidecar : BlobSidecar) (sidecars : List BlobSidecar) :
    sidecarsWhere p replies (sidecar :: sidecars)
      = (if p (replies 0) then [sidecar] else [])
          ++ sidecarsWhere p (fun i => replies (i + 1)) sidecars := by
  unfold sidecarsWhere
  rw [List.zipIdx_cons, List.zipIdx_succ, List.filter_cons, List.filter_map]
  by_cases h : p (replies 0)
  · rw [if_pos h, if_pos h, List.map_cons, List.map_map]
    rfl
  · rw [if_neg h, if_neg h, List.map_map]
    rfl

theorem sidecarsWhere_sublist (p : GossipReply → Bool) (replies : Nat → GossipReply)
    (sidecars : List BlobSidecar) : (sidecarsWhere p replies sidecars).Sublist sidecars := by
  induction sidecars generalizing replies with
  | nil => exact List.Sublist.refl []
  | cons sidecar sidecars ih =>
      rw [sidecarsWhere_cons]
      by_cases h : p (replies 0)
      · rw [if_pos h]
        exact (ih _).cons_cons sidecar
      · rw [if_neg h, List.nil_append]
        exact (ih _).cons sidecar

/-- A reply that is no breakdown takes the message or refuses it. -/
theorem GossipReply.isRefused_of_crash? {reply : GossipReply} (h : reply.crash? = none) :
    reply.isRefused = !reply.isTaken := by
  rcases reply with crash | fault | taken
  · cases h
  · rfl
  · rfl

/-- Where nobody breaks down, every sidecar is taken or refused. -/
theorem length_taken_add_refused {replies : Nat → GossipReply} {sidecars : List BlobSidecar}
    (h : firstCrash? replies sidecars.length = none) :
    (sidecarsWhere GossipReply.isTaken replies sidecars).length
      + (sidecarsWhere GossipReply.isRefused replies sidecars).length = sidecars.length := by
  induction sidecars generalizing replies with
  | nil => rfl
  | cons sidecar sidecars ih =>
      rw [List.length_cons, firstCrash?_succ, Option.or_eq_none_iff] at h
      have hrest := ih h.2
      rw [sidecarsWhere_cons, sidecarsWhere_cons, GossipReply.isRefused_of_crash? h.1]
      cases (replies 0).isTaken with
      | false => simp; omega
      | true => simp; omega

/-- Where nobody breaks down, every sidecar is offered. -/
theorem callsIn_sidecarExchanges {replies : Nat → GossipReply} {sidecars : List BlobSidecar}
    (h : firstCrash? replies sidecars.length = none) :
    callsIn (sidecarExchanges replies sidecars) = sidecars.map .gossipSidecar := by
  induction sidecars generalizing replies with
  | nil => rfl
  | cons sidecar sidecars ih =>
      rw [List.length_cons, firstCrash?_succ, Option.or_eq_none_iff] at h
      have hgoes : ¬ (replies 0).crash?.isSome := by simp [h.1]
      rw [sidecarExchanges, if_neg hgoes, callsIn_append, callsIn_exchange, ih h.2]
      rfl

/-- Where nobody breaks down, the block is offered and then every sidecar. -/
theorem GossipReplies.callsIn_exchanges {replies : GossipReplies} {block : SignedBlock}
    {sidecars : List BlobSidecar} (h : replies.crash? sidecars.length = none) :
    callsIn (replies.exchanges block sidecars) = .gossipBlock block :: sidecars.map .gossipSidecar := by
  obtain ⟨hblock, hsidecars⟩ := Option.or_eq_none_iff.mp h
  have hgoes : ¬ replies.toBlock.crash?.isSome := by simp [hblock]
  rw [exchanges, if_neg hgoes, callsIn_append, callsIn_exchange, callsIn_sidecarExchanges hsidecars]
  rfl

/-- The delivery with what became of some more sidecars. -/
def Delivery.addSidecars (d : Delivery) (replies : Nat → GossipReply)
    (sidecars : List BlobSidecar) : Delivery :=
  { d with
    sidecarsTaken := d.sidecarsTaken + (sidecarsWhere GossipReply.isTaken replies sidecars).length
    sidecarsRefused :=
      d.sidecarsRefused ++ (sidecarsWhere GossipReply.isRefused replies sidecars).map (·.index) }

namespace Delivery

theorem addSidecars_nil (d : Delivery) (replies : Nat → GossipReply) :
    d.addSidecars replies [] = d := by
  simp [addSidecars]

/-- One sidecar more is taken, or refused, or neither if somebody broke down. -/
theorem addSidecars_cons (d : Delivery) (replies : Nat → GossipReply) (sidecar : BlobSidecar)
    (sidecars : List BlobSidecar) :
    d.addSidecars replies (sidecar :: sidecars)
      = addSidecars
          (match replies 0 with
            | .ok (.ok ()) => d.take
            | .ok (.error _) => d.refuse sidecar.index
            | .error _ => d)
          (fun i => replies (i + 1)) sidecars := by
  unfold addSidecars
  rw [sidecarsWhere_cons, sidecarsWhere_cons]
  rcases hreply : replies 0 with crash | fault | taken
  · simp [GossipReply.isTaken, GossipReply.isRefused]
  · simp [GossipReply.isTaken, GossipReply.isRefused, refuse]
  · simp [GossipReply.isTaken, GossipReply.isRefused, take, Nat.add_assoc, Nat.add_comm]

end Delivery

/-! ## Stories -/

/-- **Every sidecar is offered once and in order**, until somebody breaks down. -/
theorem offerSidecars_story {block : SignedBlock} {sidecars : List BlobSidecar} {d : Delivery}
    {events : List Event} {done : Progress Delivery}
    (h : PortStory (offerSidecars block sidecars d) events done) :
    ∃ replies, portEvents events = sidecarExchanges replies sidecars ∧
      done = .unless (firstCrash? replies sidecars.length) (d.addSidecars replies sidecars) := by
  induction sidecars generalizing d events with
  | nil =>
      obtain ⟨rfl, rfl⟩ := Story.of_pure h
      refine ⟨fun _ => .ok (.ok ()), rfl, ?_⟩
      rw [Delivery.addSidecars_nil]
      rfl
  | cons sidecar sidecars ih =>
      simp only [offerSidecars] at h
      rcases Story.of_bind h with ⟨crash, rfl, hcall⟩ | ⟨answer, first, second, rfl, hcall, hrest⟩
      · obtain ⟨reply | answer, rfl, hdone⟩ := request_story hcall
        · cases hdone
          exact ⟨fun _ => .error crash, rfl, by rw [List.length_cons, firstCrash?_succ]; rfl⟩
        · cases hdone
      · obtain ⟨reply | answer, rfl, hdone⟩ := request_story hcall
        · cases hdone
        cases hdone
        rw [portEvents_append]
        -- whatever the answer, the remaining sidecars are offered next
        cases answer with
        | ok taken =>
            obtain ⟨replies, hevents, rfl⟩ := ih hrest
            refine ⟨replyThen (.ok (.ok ())) replies, by rw [hevents]; rfl, ?_⟩
            rw [List.length_cons, firstCrash?_succ, Delivery.addSidecars_cons]
            rfl
        | error fault =>
            obtain ⟨rest, hsecond, hrest⟩ := of_notify_bind hrest
            obtain ⟨replies, hevents, rfl⟩ := ih hrest
            refine ⟨replyThen (.ok (.error fault)) replies, by rw [hsecond, hevents]; rfl, ?_⟩
            rw [List.length_cons, firstCrash?_succ, Delivery.addSidecars_cons]
            rfl

theorem offerBlock_story {block : SignedBlock} {events : List Event} {done : Progress Bool}
    (h : PortStory (offerBlock block) events done) :
    ∃ reply : GossipReply, portEvents events = exchange (.gossipBlock block) reply ∧
      done = .unless reply.crash? reply.isTaken := by
  simp only [offerBlock] at h
  rcases Story.of_bind h with ⟨crash, rfl, hcall⟩ | ⟨answer, first, second, rfl, hcall, hrest⟩
  · obtain ⟨reply | answer, rfl, hdone⟩ := request_story hcall
    · cases hdone
      exact ⟨.error crash, rfl, rfl⟩
    · cases hdone
  · obtain ⟨reply | answer, rfl, hdone⟩ := request_story hcall
    · cases hdone
    cases hdone
    rw [portEvents_append]
    cases answer with
    | ok taken =>
        obtain ⟨rfl, rfl⟩ := hrest.of_pure
        exact ⟨.ok (.ok ()), rfl, rfl⟩
    | error fault =>
        obtain ⟨rest, hsecond, hrest⟩ := of_notify_bind hrest
        obtain ⟨rfl, rfl⟩ := hrest.of_pure
        exact ⟨.ok (.error fault), by rw [hsecond]; rfl, rfl⟩

/-- The sidecars that go out after the block. -/
def Variant.sidecarsSent (r : Request) : Variant → List BlobSidecar
  | plain => []
  | withBlobs .. => r.sidecars

/-- What follows the offer of the block, where that comes to an offer of `sidecars`. -/
theorem of_offerBlock_bind {block : SignedBlock} {sidecars : List BlobSidecar}
    {next : Bool → Program Delivery} {events : List Event} {done : Progress Delivery}
    (h : PortStory (offerBlock block >>= next) events done)
    (hnext : ∀ {taken rest done}, PortStory (next taken) rest done →
      ∃ replies, portEvents rest = sidecarExchanges replies sidecars ∧
        done = .unless (firstCrash? replies sidecars.length)
          ((Delivery.ofBlock taken).addSidecars replies sidecars)) :
    ∃ replies : GossipReplies, portEvents events = replies.exchanges block sidecars ∧
      done = .unless (replies.crash? sidecars.length) (replies.delivery sidecars) := by
  rcases Story.of_bind h with ⟨crash, rfl, hblock⟩ | ⟨taken, first, second, rfl, hblock, hrest⟩
  · obtain ⟨toBlock | answer, hevents, hdone⟩ := offerBlock_story hblock
    · cases hdone
      exact ⟨⟨.error crash, fun _ => .ok (.ok ())⟩, hevents, rfl⟩
    · cases hdone
  · obtain ⟨toBlock | answer, hfirst, hdone⟩ := offerBlock_story hblock
    · cases hdone
    cases hdone
    -- the block did not break down, so the first breakdown is one of the sidecars
    obtain ⟨toSidecar, hsecond, rfl⟩ := hnext hrest
    refine ⟨⟨.ok answer, toSidecar⟩, by rw [portEvents_append, hfirst, hsecond]; rfl, ?_⟩
    simp only [GossipReplies.crash?, GossipReply.crash?, Option.none_or, Delivery.addSidecars,
      Delivery.ofBlock, Nat.zero_add, List.nil_append, GossipReplies.delivery]

/-- Counting sidecars leaves nothing at the ports. -/
theorem count_story {counted : Bool} {d : Delivery} {events : List Event} {done : Progress Delivery}
    (h : PortStory (if counted then request (.countSidecars d.sidecarsTaken d.sidecarsRefused.length)
      >>= fun _ => Pure.pure d else Pure.pure d) events done) :
    portEvents events = [] ∧ done = .returned d := by
  split at h
  · rcases Story.of_bind h with ⟨crash, rfl, hcount⟩ | ⟨_, first, second, rfl, hcount, hrest⟩
    · obtain ⟨a, -, hdone⟩ := request_story_of_not Bool.false_ne_true hcount
      cases hdone
    · obtain ⟨a, rfl, -⟩ := request_story_of_not Bool.false_ne_true hcount
      obtain ⟨rfl, rfl⟩ := hrest.of_pure
      exact ⟨rfl, rfl⟩
  · obtain ⟨rfl, rfl⟩ := h.of_pure
    exact ⟨rfl, rfl⟩

/-- **A broadcast offers the block first and then its sidecars**, until somebody breaks down. -/
theorem broadcast_story {r : Request} {v : Variant} {events : List Event} {done : Progress Delivery}
    (h : PortStory (v.broadcast r.block r.sidecars) events done) :
    ∃ replies : GossipReplies, portEvents events = replies.exchanges r.block (v.sidecarsSent r) ∧
      done = .unless (replies.crash? (v.sidecarsSent r).length)
        (replies.delivery (v.sidecarsSent r)) := by
  cases v with
  | plain =>
      refine of_offerBlock_bind h fun {taken rest done} hrest => ?_
      obtain ⟨rfl, rfl⟩ := hrest.of_pure
      exact ⟨fun _ => .ok (.ok ()), rfl, by rw [Variant.sidecarsSent, Delivery.addSidecars_nil]; rfl⟩
  | withBlobs limit counted =>
      refine of_offerBlock_bind h fun {taken rest done} hrest => ?_
      rcases hrest.of_bind with ⟨crash, rfl, hoffer⟩ | ⟨d, first, second, rfl, hoffer, hcount⟩
      · exact offerSidecars_story hoffer
      · obtain ⟨replies, hevents, hdone⟩ := offerSidecars_story hoffer
        obtain ⟨hsecond, rfl⟩ := count_story hcount
        exact ⟨replies, by rw [portEvents_append, hevents, hsecond, List.append_nil]; rfl, hdone⟩

end BeaconBroadcast
