import BeaconBroadcast.Proofs.Json.Members
import BeaconBroadcast.Wire.Settings

/-!
# `BeaconBroadcast.Proofs.Wire.ByName` — blocks, sidecars and schedules are read by name

An object that stands for a block, a message, a sidecar, a schedule or a fork is read field by field, whatever the
order of its members, their spelling and the strangers among them. What is wrong with the names is told before what is
missing.

## Contents
- **Records.** `DecodesByName`, and `decodesByName_of_layout` for every record none of whose fields may be left out.
- **Kinds.** `Wire.objects_decode_by_name`, with a fork whose fields are named twice.
-/

namespace BeaconBroadcast

open Json

/-! ## Records -/

/-- The objects of a record are decoded by the names of their members, each of which is well formed and, if it is for a
    field, reads on its own. -/
structure DecodesByName {α T : Type} (ofJson : Decoder T) (l : Layout α) (build : α → T) : Prop where
  /-- Where every field is named once, in whatever order, the record is made of what the members are read as. -/
  complete : ∀ {ms text}, (Value.object ms true).SpelledAs text → l.Admits ms → (l.fieldsIn ms).Perm l.names →
    ∃ fields, l.Assembles ms fields ∧ decode ofJson text = .ok (build fields)
  /-- Where no field is named twice and some are not named, the first of these in order of declaration is missing. -/
  missing : ∀ {ms text name}, (Value.object ms true).SpelledAs text → l.Admits ms → (l.fieldsIn ms).Nodup →
    l.names.find? (fun name => name ∉ namesIn ms) = some name →
    decode ofJson text = .error (.missingField name)
  /-- Where fields are named more than once, it is the one whose second member comes first. -/
  duplicate : ∀ {ms text before name after}, (Value.object ms true).SpelledAs text → l.Admits ms →
    l.fieldsIn ms = before ++ name :: after → before.Nodup → name ∈ before →
    decode ofJson text = .error (.duplicateField name)

/-- **A record none of whose fields may be left out is decoded by name.** -/
theorem decodesByName_of_layout {α T : Type} {ofJson : Decoder T} {l : Layout α} {build : α → T}
    (reads : ∀ v, ofJson v = (l.decoder v).map build) (distinct : l.names.Nodup) (needed : l.required = l.names) :
    DecodesByName ofJson l build := by
  have hobject {ms : List (Quoted × Value)} {text : String} (h : (Value.object ms true).SpelledAs text) :
      decode ofJson text = (l.ofMembers ms true).map build := by
    rw [decode_of_spelledAs ofJson h, reads]
    rfl
  refine ⟨?_, ?_, ?_⟩
  · intro ms text spelled admits once
    obtain ⟨fields, hfields, hassembles⟩ := Layout.ofMembers_complete distinct admits once
    exact ⟨fields, hassembles, by rw [hobject spelled, hfields]; rfl⟩
  · intro ms text name spelled admits once missing
    rw [← needed] at missing
    rw [hobject spelled, Layout.ofMembers_missing distinct admits once missing]
    rfl
  · intro ms text before name after spelled admits named once again
    rw [hobject spelled, Layout.ofMembers_again distinct admits named once again]
    rfl

/-! ## Kinds -/

namespace Wire

/-- **Blocks, messages, sidecars, schedules and forks are decoded by the names of their members.** -/
theorem objects_decode_by_name :
    DecodesByName SignedBlock.ofJson SignedBlock.layout
      (fun (message, signature, ()) => .ofMessage message signature) ∧
    DecodesByName BeaconBlock.ofJson BeaconBlock.layout
      (fun (slot, proposerIndex, parentRoot, stateRoot, bodyRoot, commitments, ()) =>
        { slot, proposerIndex, parentRoot, stateRoot, bodyRoot, commitments }) ∧
    DecodesByName BlobSidecar.ofJson BlobSidecar.layout
      (fun (index, blockRoot, slot, commitment, proof, blob, ()) =>
        { index, blockRoot, slot, commitment, proof, blob }) ∧
    DecodesByName ForkSchedule.ofJson ForkSchedule.layout
      (fun (slotsPerEpoch, forks, ()) => { slotsPerEpoch, forks }) ∧
    DecodesByName Fork.ofJson Fork.layout (fun (milestone, epoch, ()) => { milestone, epoch }) := by
  refine ⟨?_, ?_, ?_, ?_, ?_⟩
  · exact decodesByName_of_layout SignedBlock.ofJson_eq (by decide) rfl
  · exact decodesByName_of_layout BeaconBlock.ofJson_eq (by decide) rfl
  · exact decodesByName_of_layout BlobSidecar.ofJson_eq (by decide) rfl
  · exact decodesByName_of_layout ForkSchedule.ofJson_eq (by decide) rfl
  · exact decodesByName_of_layout Fork.ofJson_eq (by decide) rfl

/-- A fork whose fields are both named twice, with a stranger among them: the milestone is named again first. -/
theorem objects_decode_by_name_when_repeated :
    decode Fork.ofJson (Value.record [("epoch", .natural 3), ("milestone", .name "deneb"), ("note", .natural 1),
      ("milestone", .name "electra"), ("epoch", .natural 4)]).text = .error (.duplicateField "milestone") := by
  have hwritten : (Value.record [("epoch", .natural 3), ("milestone", .name "deneb"), ("note", .natural 1),
      ("milestone", .name "electra"), ("epoch", .natural 4)]).CanBeWritten := by
    have hdeneb : (Value.name "deneb").CanBeWritten := Value.canBeWritten_name (by decide)
    have helectra : (Value.name "electra").CanBeWritten := Value.canBeWritten_name (by decide)
    apply Value.canBeWritten_record
    simp only [List.forall_mem_cons, Value.canBeWritten_natural, hdeneb, helectra, and_true]
    exact ⟨by decide, by decide, by decide, by decide, by decide, by simp⟩
  refine objects_decode_by_name.2.2.2.2.duplicate (Value.spelledAs_text hwritten) ?_
    (show _ = ["epoch", "milestone"] ++ "milestone" :: ["epoch"] by decide) (by decide) (by decide)
  simp only [Layout.Admits, List.map_cons, List.map_nil, List.forall_mem_cons]
  exact ⟨⟨"epoch", rfl, rfl⟩, ⟨"milestone", rfl, rfl⟩, ⟨"note", rfl, rfl⟩, ⟨"milestone", rfl, rfl⟩,
    ⟨"epoch", rfl, rfl⟩, by simp⟩

end Wire

end BeaconBroadcast
