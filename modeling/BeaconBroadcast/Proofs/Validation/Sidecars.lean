import BeaconBroadcast.Validation.Sidecars

/-!
# `BeaconBroadcast.Proofs.Validation.Sidecars` — what the sidecar check lets through

The check walks down two lists and stops at the first fault. What it lets through is said without the walk:
the block stays within the limit, and its sidecars are its blobs, one for each commitment and each in its
place. What it reports is said by positions too: the fault at the first sidecar that is out of place, where there
is one for each commitment.

## Contents
- **Specification.** `SignedBlock.MatchedBy`.
- **Check.** `SignedBlock.sidecarFault?_eq_none_iff`: nothing is wrong exactly with the sidecars that match.
- **Indices.** `SignedBlock.MatchedBy.indices`: the sidecars of a block stand in the order of their indices.
- **Faults.** `SignedBlock.FirstFault`, and `SignedBlock.sidecarFault?_eq_some_iff`: that is what is reported.
- **Alternatives.** `SignedBlock.Determines`: but for proofs and blobs a block leaves its sidecars no choice.
- **Exactness.** `SignedBlock.sidecarCheck_exact`, with two sidecars that have changed places.
-/

namespace BeaconBroadcast

/-- All there is to a sidecar but the blob and the proof for it. -/
def BlobSidecar.envelope (sidecar : BlobSidecar) : UInt64 × Root × Slot × Commitment :=
  (sidecar.index, sidecar.blockRoot, sidecar.slot, sidecar.commitment)

namespace SignedBlock

variable {block : SignedBlock} {sidecars other : List BlobSidecar}

/-! ## Specification -/

/-- `sidecar` is the blob at `position` of `block`, where that has `commitment`. -/
structure SidecarAt (block : SignedBlock) (position : Nat) (commitment : Commitment)
    (sidecar : BlobSidecar) : Prop where
  index : sidecar.index.toNat = position
  root : sidecar.blockRoot = block.root
  slot : sidecar.slot = block.slot
  commitment : sidecar.commitment = commitment

/-- `sidecars` are the blobs of `block`, one for each commitment and in their order. -/
structure MatchedBy (block : SignedBlock) (sidecars : List BlobSidecar) : Prop where
  one_each : sidecars.length = block.commitments.length
  in_place : ∀ i commitment sidecar, block.commitments[i]? = some commitment → sidecars[i]? = some sidecar →
    block.SidecarAt i commitment sidecar

/-! ## Check -/

theorem positionFault?_eq_none_iff {position : Nat} {commitment : Commitment} {sidecar : BlobSidecar} :
    block.positionFault? position commitment sidecar = none ↔
      block.SidecarAt position commitment sidecar := by
  unfold positionFault?
  constructor
  · intro h
    -- each test that fails would have been reported
    by_cases hindex : sidecar.index.toNat = position
    · by_cases hroot : sidecar.blockRoot = block.root
      · by_cases hslot : sidecar.slot = block.slot
        · by_cases hcommitment : sidecar.commitment = commitment
          · exact ⟨hindex, hroot, hslot, hcommitment⟩
          · simp [hindex, hroot, hslot, hcommitment] at h
        · simp [hindex, hslot] at h
      · simp [hindex, hroot] at h
    · simp [hindex] at h
  · rintro ⟨hindex, hroot, hslot, hcommitment⟩
    simp [hindex, hroot, hslot, hcommitment]

/-- The walk finds nothing exactly if there is nothing wrong at any position that both lists have. -/
theorem firstFault?_eq_none_iff {position : Nat} {commitments : List Commitment} :
    block.firstFault? position commitments sidecars = none ↔
      ∀ i commitment sidecar, commitments[i]? = some commitment → sidecars[i]? = some sidecar →
        block.SidecarAt (position + i) commitment sidecar := by
  induction commitments generalizing position sidecars with
  | nil => simp [firstFault?]
  | cons commitment commitments ih =>
      cases sidecars with
      | nil => simp [firstFault?]
      | cons sidecar sidecars =>
          rw [firstFault?, Option.or_eq_none_iff, positionFault?_eq_none_iff, ih]
          constructor
          · rintro ⟨hhere, hrest⟩ i c s hc hs
            cases i with
            | zero =>
                cases hc
                cases hs
                exact hhere
            | succ i =>
                rw [Nat.add_comm i, ← Nat.add_assoc]
                exact hrest i c s hc hs
          · intro h
            refine ⟨h 0 commitment sidecar rfl rfl, fun i c s hc hs => ?_⟩
            rw [Nat.add_assoc, Nat.add_comm 1]
            exact h (i + 1) c s hc hs

/-- **Nothing is wrong exactly with the sidecars that match a block within the limit.** -/
theorem sidecarFault?_eq_none_iff {limit : UInt64} :
    block.sidecarFault? sidecars limit = none ↔
      block.commitments.length ≤ limit.toNat ∧ block.MatchedBy sidecars := by
  unfold sidecarFault?
  by_cases hlimit : limit.toNat < block.commitments.length
  · rw [if_pos hlimit]
    refine iff_of_false nofun ?_
    rintro ⟨hwithin, -⟩
    omega
  rw [if_neg hlimit]
  by_cases hcount : block.commitments.length = sidecars.length
  · rw [if_neg (not_not_intro hcount), firstFault?_eq_none_iff]
    simp only [Nat.zero_add]
    exact ⟨fun h => ⟨by omega, hcount.symm, h⟩, fun h => h.2.in_place⟩
  · rw [if_pos hcount]
    refine iff_of_false nofun ?_
    rintro ⟨-, hmatched⟩
    exact hcount hmatched.one_each.symm

/-! ## Indices -/

/-- The sidecar at a position has the index of it. -/
theorem MatchedBy.index_getElem (h : block.MatchedBy sidecars) {i : Nat} (hi : i < sidecars.length) :
    sidecars[i].index.toNat = i := by
  have hcommitment : i < block.commitments.length := h.one_each ▸ hi
  exact (h.in_place i block.commitments[i] sidecars[i] (List.getElem?_eq_getElem hcommitment)
    (List.getElem?_eq_getElem hi)).index

/-- **The sidecars of a block stand in the order of their indices.** -/
theorem MatchedBy.indices (h : block.MatchedBy sidecars) : (sidecars.map (·.index)).Pairwise (· < ·) := by
  rw [List.pairwise_map, List.pairwise_iff_getElem]
  intro i j hi hj hij
  rw [UInt64.lt_iff_toNat_lt, h.index_getElem hi, h.index_getElem hj]
  exact hij

/-! ## Faults -/

/-- What is wrong with a sidecar that is not the blob at `position`: its place comes before its block, and its
    block before its commitment. -/
inductive FaultAt (block : SignedBlock) (position : Nat) (commitment : Commitment) (sidecar : BlobSidecar) :
    SidecarFault → Prop
  | outOfOrder (misplaced : sidecar.index.toNat ≠ position) :
      FaultAt block position commitment sidecar (.outOfOrder position sidecar.index)
  | wrongBlock (placed : sidecar.index.toNat = position)
      (foreign : sidecar.blockRoot ≠ block.root ∨ sidecar.slot ≠ block.slot) :
      FaultAt block position commitment sidecar (.wrongBlock sidecar.index)
  | commitmentMismatch (placed : sidecar.index.toNat = position) (root : sidecar.blockRoot = block.root)
      (slot : sidecar.slot = block.slot) (mismatch : sidecar.commitment ≠ commitment) :
      FaultAt block position commitment sidecar (.commitmentMismatch sidecar.index)

/-- The first thing wrong with `sidecars` as those of `block` where the fork allows `limit` blobs: the number of
    blobs comes before the number of sidecars, and that before the first sidecar that is out of place. -/
inductive FirstFault (block : SignedBlock) (sidecars : List BlobSidecar) (limit : UInt64) : SidecarFault → Prop
  | tooMany (beyond : limit.toNat < block.commitments.length) :
      FirstFault block sidecars limit (.tooMany block.commitments.length limit)
  | countMismatch (within : block.commitments.length ≤ limit.toNat)
      (differ : sidecars.length ≠ block.commitments.length) :
      FirstFault block sidecars limit (.countMismatch block.commitments.length sidecars.length)
  | outOfPlace {position : Nat} {commitment : Commitment} {sidecar : BlobSidecar} {fault : SidecarFault}
      (within : block.commitments.length ≤ limit.toNat) (one_each : sidecars.length = block.commitments.length)
      (before : ∀ i c s, i < position → block.commitments[i]? = some c → sidecars[i]? = some s →
        block.SidecarAt i c s)
      (hcommitment : block.commitments[position]? = some commitment)
      (hsidecar : sidecars[position]? = some sidecar)
      (here : block.FaultAt position commitment sidecar fault) :
      FirstFault block sidecars limit fault

theorem positionFault?_eq_some_iff {position : Nat} {commitment : Commitment} {sidecar : BlobSidecar}
    {fault : SidecarFault} :
    block.positionFault? position commitment sidecar = some fault ↔
      block.FaultAt position commitment sidecar fault := by
  unfold positionFault?
  constructor
  · intro h
    by_cases hindex : sidecar.index.toNat = position
    · by_cases hblock : sidecar.blockRoot ≠ block.root ∨ sidecar.slot ≠ block.slot
      · rw [if_neg (not_not_intro hindex), if_pos hblock] at h
        cases h
        exact .wrongBlock hindex hblock
      · rw [if_neg (not_not_intro hindex), if_neg hblock] at h
        obtain ⟨hroot, hslot⟩ := not_or.mp hblock
        by_cases hcommitment : sidecar.commitment = commitment
        · rw [if_neg (not_not_intro hcommitment)] at h
          cases h
        · rw [if_pos hcommitment] at h
          cases h
          exact .commitmentMismatch hindex (Decidable.not_not.mp hroot) (Decidable.not_not.mp hslot) hcommitment
    · rw [if_pos hindex] at h
      cases h
      exact .outOfOrder hindex
  · intro h
    cases h with
    | outOfOrder misplaced => rw [if_pos misplaced]
    | wrongBlock placed foreign => rw [if_neg (not_not_intro placed), if_pos foreign]
    | commitmentMismatch placed root slot mismatch => simp [placed, root, slot, mismatch]

/-- In a walk that begins at `start` the first fault is found after `steps`. -/
structure FoundAfter (block : SignedBlock) (start : Nat) (commitments : List Commitment)
    (sidecars : List BlobSidecar) (steps : Nat) (fault : SidecarFault) : Prop where
  here : ∃ commitment sidecar, commitments[steps]? = some commitment ∧ sidecars[steps]? = some sidecar ∧
    block.FaultAt (start + steps) commitment sidecar fault
  before : ∀ i c s, i < steps → commitments[i]? = some c → sidecars[i]? = some s → block.SidecarAt (start + i) c s

section Walk

variable {start steps : Nat} {commitment : Commitment} {sidecar : BlobSidecar} {commitments : List Commitment}
  {fault : SidecarFault}

theorem foundAfter_zero_iff :
    block.FoundAfter start (commitment :: commitments) (sidecar :: sidecars) 0 fault ↔
      block.FaultAt start commitment sidecar fault := by
  constructor
  · rintro ⟨⟨c, s, hc, hs, hfault⟩, -⟩
    cases hc
    cases hs
    exact hfault
  · intro h
    exact ⟨⟨commitment, sidecar, rfl, rfl, h⟩, fun i _ _ hi => absurd hi (Nat.not_lt_zero i)⟩

/-- A sidecar in its place in front makes it one more step. -/
theorem foundAfter_succ_iff :
    block.FoundAfter start (commitment :: commitments) (sidecar :: sidecars) (steps + 1) fault ↔
      block.SidecarAt start commitment sidecar ∧
        block.FoundAfter (start + 1) commitments sidecars steps fault := by
  have hshift (i : Nat) : start + 1 + i = start + (i + 1) := by omega
  constructor
  · rintro ⟨hhere, hbefore⟩
    refine ⟨hbefore 0 commitment sidecar (Nat.zero_lt_succ steps) rfl rfl, ?_, fun i c s hi hc hs => ?_⟩
    · rw [hshift]
      exact hhere
    · rw [hshift]
      exact hbefore (i + 1) c s (Nat.succ_lt_succ hi) hc hs
  · rintro ⟨hfirst, hhere, hbefore⟩
    rw [hshift] at hhere
    refine ⟨hhere, fun i c s hi hc hs => ?_⟩
    cases i with
    | zero =>
        cases hc
        cases hs
        exact hfirst
    | succ i =>
        rw [← hshift]
        exact hbefore i c s (Nat.lt_of_succ_lt_succ hi) hc hs

/-- The walk reports the first fault that there is to be found. -/
theorem firstFault?_eq_some_iff : block.firstFault? start commitments sidecars = some fault ↔
    ∃ steps, block.FoundAfter start commitments sidecars steps fault := by
  induction commitments generalizing start sidecars with
  | nil =>
      refine iff_of_false nofun ?_
      rintro ⟨steps, ⟨c, s, hc, -⟩, -⟩
      cases hc
  | cons commitment commitments ih =>
      cases sidecars with
      | nil =>
          refine iff_of_false nofun ?_
          rintro ⟨steps, ⟨c, s, -, hs, -⟩, -⟩
          cases hs
      | cons sidecar sidecars =>
          rw [firstFault?, Option.or_eq_some_iff, positionFault?_eq_some_iff, positionFault?_eq_none_iff, ih]
          constructor
          · rintro (hhere | ⟨hfirst, steps, hfound⟩)
            · exact ⟨0, foundAfter_zero_iff.mpr hhere⟩
            · exact ⟨steps + 1, foundAfter_succ_iff.mpr ⟨hfirst, hfound⟩⟩
          · rintro ⟨steps, hfound⟩
            cases steps with
            | zero => exact Or.inl (foundAfter_zero_iff.mp hfound)
            | succ steps =>
                obtain ⟨hfirst, hlater⟩ := foundAfter_succ_iff.mp hfound
                exact Or.inr ⟨hfirst, steps, hlater⟩

end Walk

/-- **What is reported is the first thing wrong.** -/
theorem sidecarFault?_eq_some_iff {limit : UInt64} {fault : SidecarFault} :
    block.sidecarFault? sidecars limit = some fault ↔ block.FirstFault sidecars limit fault := by
  unfold sidecarFault?
  by_cases hlimit : limit.toNat < block.commitments.length
  · rw [if_pos hlimit]
    constructor
    · intro h
      cases h
      exact .tooMany hlimit
    · intro h
      cases h with
      | tooMany beyond => rfl
      | countMismatch within differ => omega
      | outOfPlace within => omega
  rw [if_neg hlimit]
  by_cases hcount : block.commitments.length = sidecars.length
  · rw [if_neg (not_not_intro hcount), firstFault?_eq_some_iff]
    constructor
    · rintro ⟨position, ⟨commitment, sidecar, hc, hs, hfault⟩, hbefore⟩
      simp only [Nat.zero_add] at hfault hbefore
      exact .outOfPlace (Nat.not_lt.mp hlimit) hcount.symm hbefore hc hs hfault
    · intro h
      cases h with
      | tooMany beyond => exact absurd beyond hlimit
      | countMismatch within differ => exact absurd hcount.symm differ
      | outOfPlace within one_each before hc hs here =>
          refine ⟨_, ⟨_, _, hc, hs, ?_⟩, ?_⟩
          · rw [Nat.zero_add]
            exact here
          · intro i c s
            rw [Nat.zero_add]
            exact before i c s
  · rw [if_pos hcount]
    constructor
    · intro h
      cases h
      exact .countMismatch (Nat.not_lt.mp hlimit) (Ne.symm hcount)
    · intro h
      cases h with
      | tooMany beyond => exact absurd beyond hlimit
      | countMismatch within differ => rfl
      | outOfPlace within one_each => exact absurd one_each.symm hcount

/-! ## Alternatives -/

/-- The place of a sidecar is a matter of its envelope. -/
theorem SidecarAt.of_envelope {position : Nat} {commitment : Commitment} {sidecar twin : BlobSidecar}
    (h : block.SidecarAt position commitment sidecar) (same : twin.envelope = sidecar.envelope) :
    block.SidecarAt position commitment twin := by
  simp only [BlobSidecar.envelope, Prod.mk.injEq] at same
  obtain ⟨hindex, hroot, hslot, hcommitment⟩ := same
  exact ⟨hindex ▸ h.index, hroot.trans h.root, hslot.trans h.slot, hcommitment.trans h.commitment⟩

/-- A place and a commitment leave an envelope no choice. -/
theorem SidecarAt.envelope_eq {position : Nat} {commitment : Commitment} {sidecar twin : BlobSidecar}
    (h : block.SidecarAt position commitment sidecar) (h' : block.SidecarAt position commitment twin) :
    twin.envelope = sidecar.envelope := by
  have hindex : twin.index = sidecar.index := UInt64.toNat_inj.mp (h'.index.trans h.index.symm)
  simp only [BlobSidecar.envelope, Prod.mk.injEq]
  exact ⟨hindex, h'.root.trans h.root.symm, h'.slot.trans h.slot.symm, h'.commitment.trans h.commitment.symm⟩

/-- **Another list matches exactly if it has the same envelopes.** -/
theorem MatchedBy.iff_envelopes (h : block.MatchedBy sidecars) :
    block.MatchedBy other ↔ other.map (·.envelope) = sidecars.map (·.envelope) := by
  constructor
  · intro h'
    have hlength : other.length = sidecars.length := h'.one_each.trans h.one_each.symm
    apply List.ext_getElem
    · simpa using hlength
    · intro i hi hi'
      rw [List.length_map] at hi hi'
      obtain ⟨commitment, hcommitment⟩ : ∃ commitment, block.commitments[i]? = some commitment :=
        ⟨_, List.getElem?_eq_getElem (h.one_each ▸ hi')⟩
      rw [List.getElem_map, List.getElem_map]
      exact (h.in_place i commitment _ hcommitment (List.getElem?_eq_getElem hi')).envelope_eq
        (h'.in_place i commitment _ hcommitment (List.getElem?_eq_getElem hi))
  · intro hsame
    refine ⟨?_, fun i commitment twin hcommitment htwin => ?_⟩
    · have hlength := congrArg List.length hsame
      rw [List.length_map, List.length_map] at hlength
      exact hlength.trans h.one_each
    · have hat := congrArg (·[i]?) hsame
      simp only [List.getElem?_map, htwin, Option.map_some] at hat
      obtain ⟨sidecar, hsidecar, henvelope⟩ := Option.map_eq_some_iff.mp hat.symm
      exact (h.in_place i commitment sidecar hcommitment hsidecar).of_envelope henvelope.symm

/-- **Of all the lists that can be made of the same sidecars only one matches**, whatever the order and whatever is
    left out or repeated. -/
theorem MatchedBy.eq_of_subset (h : block.MatchedBy sidecars) (h' : block.MatchedBy other)
    (drawn : other ⊆ sidecars) : other = sidecars := by
  apply List.ext_getElem (h'.one_each.trans h.one_each.symm)
  intro i hi hi'
  -- the sidecar is one of those of the block, and its index says which
  obtain ⟨j, hj, hsame⟩ := List.getElem_of_mem (drawn (List.getElem_mem hi))
  have hindex : j = i := by rw [← h.index_getElem hj, hsame, h'.index_getElem hi]
  subst hindex
  exact hsame.symm

/-- Every sidecar is one of the block's own. -/
theorem MatchedBy.own (h : block.MatchedBy sidecars) {sidecar : BlobSidecar} (mem : sidecar ∈ sidecars) :
    sidecar.blockRoot = block.root ∧ sidecar.slot = block.slot ∧
      block.commitments[sidecar.index.toNat]? = some sidecar.commitment := by
  obtain ⟨i, hi, rfl⟩ := List.getElem_of_mem mem
  have hcommitment : i < block.commitments.length := h.one_each ▸ hi
  obtain ⟨hindex, hroot, hslot, hsame⟩ := h.in_place i block.commitments[i] sidecars[i]
    (List.getElem?_eq_getElem hcommitment) (List.getElem?_eq_getElem hi)
  refine ⟨hroot, hslot, ?_⟩
  rw [hindex, hsame]
  exact List.getElem?_eq_getElem hcommitment

/-! ## Exactness -/

/-- `block` leaves `sidecars`, which are accepted for it, no choice but that of blobs and proofs. -/
structure Determines (block : SignedBlock) (sidecars : List BlobSidecar) : Prop where
  /-- Another list is accepted exactly if it differs in blobs and proofs alone. -/
  alternatives : ∀ other limit, block.sidecarFault? other limit = none ↔
    block.commitments.length ≤ limit.toNat ∧ other.map (·.envelope) = sidecars.map (·.envelope)
  /-- No other list of the same sidecars is accepted, in another order, with some left out or some repeated. -/
  rearranged : ∀ other limit, other ⊆ sidecars → block.sidecarFault? other limit = none → other = sidecars
  /-- No sidecar of another block is accepted, and none without its commitment. -/
  own : ∀ sidecar ∈ sidecars, sidecar.blockRoot = block.root ∧ sidecar.slot = block.slot ∧
    block.commitments[sidecar.index.toNat]? = some sidecar.commitment

theorem MatchedBy.determines (h : block.MatchedBy sidecars) : block.Determines sidecars := by
  refine ⟨fun other limit => ?_, fun other limit drawn haccepted => ?_, fun sidecar mem => h.own mem⟩
  · rw [sidecarFault?_eq_none_iff, h.iff_envelopes]
  · exact h.eq_of_subset (sidecarFault?_eq_none_iff.mp haccepted).2 drawn

/-- **The check accepts exactly a block's own sidecars, and of any others it reports the first thing wrong.** -/
theorem sidecarCheck_exact (block : SignedBlock) (sidecars : List BlobSidecar) (limit : UInt64) :
    (block.sidecarFault? sidecars limit = none ↔
      block.commitments.length ≤ limit.toNat ∧ block.MatchedBy sidecars) ∧
    (block.sidecarFault? sidecars limit = none → block.Determines sidecars) ∧
    (∀ fault, block.sidecarFault? sidecars limit = some fault ↔ block.FirstFault sidecars limit fault) := by
  refine ⟨sidecarFault?_eq_none_iff, fun haccepted => ?_, fun fault => sidecarFault?_eq_some_iff⟩
  exact (sidecarFault?_eq_none_iff.mp haccepted).2.determines

/-- A sidecar for the commitment at `position`, with an empty blob. -/
def emptySidecar (block : SignedBlock) (position : Nat) (commitment : Commitment) : BlobSidecar where
  index := .ofNat position
  blockRoot := block.root
  slot := block.slot
  commitment
  proof := Bytes.zero
  blob := []

/-- A block of two blobs, which are the same. -/
def twins : SignedBlock := .ofMessage { commitments := [Bytes.zero, Bytes.zero] } Bytes.zero

/-- The sidecars of two blobs are accepted in their order. In the other order they are not, though no sidecar is
    foreign and none is missing. -/
theorem sidecarCheck_exact_when_swapped :
    twins.sidecarFault? [twins.emptySidecar 0 Bytes.zero, twins.emptySidecar 1 Bytes.zero] 6 = none ∧
    twins.Determines [twins.emptySidecar 0 Bytes.zero, twins.emptySidecar 1 Bytes.zero] ∧
    twins.sidecarFault? [twins.emptySidecar 1 Bytes.zero, twins.emptySidecar 0 Bytes.zero] 6
      = some (.outOfOrder 0 1) := by
  obtain ⟨haccepts, hdetermines, -⟩ :=
    sidecarCheck_exact twins [twins.emptySidecar 0 Bytes.zero, twins.emptySidecar 1 Bytes.zero] 6
  obtain ⟨-, -, hreports⟩ :=
    sidecarCheck_exact twins [twins.emptySidecar 1 Bytes.zero, twins.emptySidecar 0 Bytes.zero] 6
  have hmatched : twins.MatchedBy [twins.emptySidecar 0 Bytes.zero, twins.emptySidecar 1 Bytes.zero] := by
    refine ⟨rfl, fun i commitment sidecar hcommitment hsidecar => ?_⟩
    match i with
    | 0 =>
        cases hcommitment
        cases hsidecar
        exact ⟨rfl, rfl, rfl, rfl⟩
    | 1 =>
        cases hcommitment
        cases hsidecar
        exact ⟨rfl, rfl, rfl, rfl⟩
    | i + 2 => cases hsidecar
  have haccepted := haccepts.mpr ⟨by decide, hmatched⟩
  refine ⟨haccepted, hdetermines haccepted, (hreports _).mpr ?_⟩
  exact .outOfPlace (by decide) rfl (fun i _ _ hi => absurd hi (Nat.not_lt_zero i)) rfl rfl
    (.outOfOrder (by decide))

end SignedBlock

end BeaconBroadcast
