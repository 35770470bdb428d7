import BeaconBroadcast.Proofs.Json.Records
import BeaconBroadcast.Wire.Chain
import BeaconBroadcast.Wire.Validation

/-!
# `BeaconBroadcast.Proofs.Wire.RoundTrip` — whatever is written as a document is read back

Encoding and decoding are held against each other tree by tree, from the leaves up: what a decoder makes of the
tree that is written for a value is that value, and the tree can be written down. Reading the text gives the tree
back, so decoding the text gives the value back.

## Contents
- **Mirrors.** `Mirrors` for trees, `RoundTrips` for texts; `Mirrors.roundTrips`.
- **Leaves.** Words, bytes, lists and names.
- **Records.** Blocks, sidecars and verdicts.
- **The format.** `Wire.format_roundTrips`.
-/

namespace BeaconBroadcast

open Json

/-! ## Mirrors -/

/-- What is written for a value can be written down, and is decoded as the value. -/
structure Json.Mirrors {α : Type} (toJson : α → Value) (ofJson : Decoder α) : Prop where
  canBeWritten : ∀ a, (toJson a).CanBeWritten
  decoded : ∀ a, ofJson (toJson a) = .ok a

/-- Decoding the text that is written for a value gives the value back. -/
def Json.RoundTrips {α : Type} (toJson : α → Value) (ofJson : Decoder α) : Prop :=
  ∀ a, decode ofJson (toJson a).text = .ok a

/-- **What is mirrored by its tree is mirrored by its text.** -/
theorem Json.Mirrors.roundTrips {α : Type} {toJson : α → Value} {ofJson : Decoder α}
    (h : Mirrors toJson ofJson) : RoundTrips toJson ofJson := by
  intro a
  rw [decode, Document.read_text (h.canBeWritten a)]
  show (ofJson (toJson a) >>= fun a => _) = _
  rw [h.decoded a]
  rfl

/-! ## Leaves -/

namespace Wire

theorem mirrors_word : Mirrors word Decoder.word where
  canBeWritten w := Value.canBeWritten_natural w.toNat
  decoded w := by
    rw [word, Decoder.word, Decoder.below, if_pos w.toNat_lt]
    show Except.ok (UInt64.ofNat w.toNat) = _
    rw [UInt64.ofNat_toNat]

theorem mirrors_byte : Mirrors (fun b : UInt8 => .natural b.toNat) Decoder.byte where
  canBeWritten b := Value.canBeWritten_natural b.toNat
  decoded b := by
    rw [Decoder.byte, Decoder.below, if_pos b.toNat_lt]
    show Except.ok (UInt8.ofNat b.toNat) = _
    rw [UInt8.ofNat_toNat]

/-- Lists are mirrored if their items are. -/
theorem mirrors_list {α : Type} {toJson : α → Value} {ofJson : Decoder α} (h : Mirrors toJson ofJson) :
    Mirrors (fun as => .list (as.map toJson)) (Decoder.list ofJson) where
  canBeWritten as := by
    apply Value.canBeWritten_list
    intro v hv
    obtain ⟨a, -, rfl⟩ := List.mem_map.mp hv
    exact h.canBeWritten a
  decoded as := by
    have hitems : (as.map toJson).mapM ofJson = .ok as := by
      have hcomp : ofJson ∘ toJson = fun a => (Pure.pure a : Except DecodeError α) := funext h.decoded
      rw [List.mapM_map, hcomp, List.mapM_pure, List.map_id']
      rfl
    rw [Value.list, Decoder.list, hitems]
    rfl

theorem mirrors_byteList : Mirrors byteList (Decoder.list Decoder.byte) := mirrors_list mirrors_byte

theorem ofBytes_toList {n : Nat} (b : Bytes n) : Decoder.ofBytes n b.toList = .ok b := by
  have hlist : Bytes.ofList? (n := n) b.toList = some b := by
    rw [Bytes.ofList?, dif_pos b.length_toList]
    rfl
  rw [Decoder.ofBytes, hlist]

theorem mirrors_bytes (n : Nat) : Mirrors (bytes (n := n)) (Decoder.bytes n) where
  canBeWritten b := mirrors_byteList.canBeWritten b.toList
  decoded b := by
    rw [bytes, Decoder.bytes, mirrors_byteList.decoded b.toList]
    exact ofBytes_toList b

/-- Byte strings are written as arrays also where they may be read off strings. -/
theorem mirrors_byteString (n : Nat) : Mirrors (bytes (n := n)) (Decoder.byteString n) where
  canBeWritten := (mirrors_bytes n).canBeWritten
  decoded := (mirrors_bytes n).decoded

/-- An alternative that stands as a bare name. -/
theorem choice_name {α : Type} {alternatives : List (String × (Option Value → Except DecodeError α))}
    {text : String} {alternative : Option Value → Except DecodeError α} (plain : Quoted.IsPlain text)
    (known : alternatives.lookup text = some alternative) :
    Decoder.choice alternatives (.name text) = alternative none := by
  simp only [Decoder.choice, Value.name, Decoder.textOf, Quoted.text?_ofPlain plain, bind, Except.bind, known]

/-- An alternative that stands with what it carries. -/
theorem choice_record {α : Type} {alternatives : List (String × (Option Value → Except DecodeError α))}
    {text : String} {alternative : Option Value → Except DecodeError α} (plain : Quoted.IsPlain text)
    (known : alternatives.lookup text = some alternative) (v : Value) :
    Decoder.choice alternatives (.record [(text, v)]) = alternative (some v) := by
  simp only [Decoder.choice, Value.record, List.map_cons, List.map_nil, Decoder.textOf,
    Quoted.text?_ofPlain plain, bind, Except.bind, known]
  cases alternative (some v) <;> rfl

/-- Names that are told apart are mirrored. -/
theorem mirrors_names {α : Type} {all : List α} {name : α → String} (complete : ∀ a, a ∈ all)
    (plain : ∀ a, Quoted.IsPlain (name a)) (distinct : ∀ a b, name a = name b → a = b) :
    Mirrors (fun a => .name (name a)) (.choice (all.map fun a => (name a, Decoder.plain a))) where
  canBeWritten a := Value.canBeWritten_name (plain a)
  decoded a := by
    have hlookup (as : List α) (ha : a ∈ as) :
        (as.map fun a => (name a, Decoder.plain a)).lookup (name a) = some (Decoder.plain a) := by
      induction as with
      | nil => cases ha
      | cons b as ih =>
          rw [List.map_cons, List.lookup_cons]
          cases hb : name a == name b with
          | true =>
              cases distinct a b (eq_of_beq hb)
              rfl
          | false =>
              rcases List.mem_cons.mp ha with rfl | ha
              · rw [beq_self_eq_true] at hb
                cases hb
              · exact ih ha
    rw [choice_name (plain a) (hlookup all (complete a))]
    rfl

theorem mirrors_milestone : Mirrors Milestone.toJson Milestone.ofJson :=
  mirrors_names (by intro m; cases m <;> decide) (by intro m; cases m <;> decide)
    (by intro m n; cases m <;> cases n <;> decide)

theorem mirrors_level : Mirrors Level.toJson Level.ofJson :=
  mirrors_names (by intro l; cases l <;> decide) (by intro l; cases l <;> decide)
    (by intro l m; cases l <;> cases m <;> decide)

/-! ## Records -/

/-- What is written for a part of a record is the member of its field. -/
theorem writes_part {α β : Type} {toJson : α → Value} {ofJson : Decoder α} {name : String} {fallback : Option α}
    {rest : Layout β} {ms : List (String × Value)} {b : β} (plain : Quoted.IsPlain name)
    (part : Mirrors toJson ofJson) (a : α) (others : rest.Writes ms b) :
    (Layout.field name ofJson fallback rest).Writes ((name, toJson a) :: ms) (a, b) :=
  .field plain (part.canBeWritten a) (part.decoded a) others

theorem writes_reached (reached : Level) :
    Verdict.reachedLayout.Writes [("reached", reached.toJson)] (reached, ()) :=
  writes_part (by decide) mirrors_level reached .done

theorem mirrors_verdict : Mirrors Verdict.toJson Verdict.ofJson where
  canBeWritten verdict := by
    cases verdict with
    | insufficient reached =>
        have hreached := (writes_reached reached).canBeWritten (Layout.strangers_nil _)
        apply Value.canBeWritten_record
        exact List.forall_mem_singleton.mpr ⟨show Quoted.IsPlain "InsufficientLevel" by decide, hreached⟩
    | success => exact Value.canBeWritten_name (by decide)
    | gossipFailure => exact Value.canBeWritten_name (by decide)
    | consensusFailure => exact Value.canBeWritten_name (by decide)
    | equivocation => exact Value.canBeWritten_name (by decide)
  decoded verdict := by
    cases verdict with
    | insufficient reached =>
        have hreached := (writes_reached reached).decoded (by decide) (Layout.strangers_nil _)
        rw [Verdict.toJson, Verdict.ofJson, choice_record (by decide) rfl]
        show (Verdict.reachedLayout.decoder (.record [("reached", reached.toJson)]) >>= fun r => _) = _
        rw [← List.append_nil [("reached", reached.toJson)], hreached]
        rfl
    | success =>
        rw [Verdict.toJson, Verdict.ofJson, choice_name (by decide) rfl]
        rfl
    | gossipFailure =>
        rw [Verdict.toJson, Verdict.ofJson, choice_name (by decide) rfl]
        rfl
    | consensusFailure =>
        rw [Verdict.toJson, Verdict.ofJson, choice_name (by decide) rfl]
        rfl
    | equivocation =>
        rw [Verdict.toJson, Verdict.ofJson, choice_name (by decide) rfl]
        rfl

theorem writes_beaconBlock (b : BeaconBlock) :
    BeaconBlock.layout.Writes [("slot", word b.slot), ("proposer_index", word b.proposerIndex),
      ("parent_root", bytes b.parentRoot), ("state_root", bytes b.stateRoot), ("body_root", bytes b.bodyRoot),
      ("blob_kzg_commitments", .list (b.commitments.map bytes))]
      (b.slot, b.proposerIndex, b.parentRoot, b.stateRoot, b.bodyRoot, b.commitments, ()) :=
  writes_part (by decide) mirrors_word _ <| writes_part (by decide) mirrors_word _ <|
  writes_part (by decide) (mirrors_bytes 32) _ <| writes_part (by decide) (mirrors_bytes 32) _ <|
  writes_part (by decide) (mirrors_bytes 32) _ <|
  writes_part (by decide) (mirrors_list (mirrors_byteString 48)) _ .done

theorem mirrors_beaconBlock : Mirrors BeaconBlock.toJson BeaconBlock.ofJson where
  canBeWritten b := (writes_beaconBlock b).canBeWritten (Layout.strangers_nil _)
  decoded b := by
    have hread := (writes_beaconBlock b).decoded (by decide) (Layout.strangers_nil _)
    rw [List.append_nil] at hread
    rw [BeaconBlock.ofJson, BeaconBlock.toJson, hread]
    rfl

theorem writes_blobSidecar (s : BlobSidecar) :
    BlobSidecar.layout.Writes [("index", word s.index), ("block_root", bytes s.blockRoot), ("slot", word s.slot),
      ("kzg_commitment", bytes s.commitment), ("kzg_proof", bytes s.proof), ("blob", byteList s.blob)]
      (s.index, s.blockRoot, s.slot, s.commitment, s.proof, s.blob, ()) :=
  writes_part (by decide) mirrors_word _ <| writes_part (by decide) (mirrors_bytes 32) _ <|
  writes_part (by decide) mirrors_word _ <| writes_part (by decide) (mirrors_byteString 48) _ <|
  writes_part (by decide) (mirrors_byteString 48) _ <| writes_part (by decide) mirrors_byteList _ .done

theorem mirrors_blobSidecar : Mirrors BlobSidecar.toJson BlobSidecar.ofJson where
  canBeWritten s := (writes_blobSidecar s).canBeWritten (Layout.strangers_nil _)
  decoded s := by
    have hread := (writes_blobSidecar s).decoded (by decide) (Layout.strangers_nil _)
    rw [List.append_nil] at hread
    rw [BlobSidecar.ofJson, BlobSidecar.toJson, hread]
    rfl

theorem writes_signedBlock (b : SignedBlock) :
    SignedBlock.layout.Writes [("message", b.message.toJson), ("signature", bytes b.signature)]
      (b.message, b.signature, ()) :=
  writes_part (by decide) mirrors_beaconBlock _ <| writes_part (by decide) (mirrors_byteString 96) _ .done

/-- The root that is written is a member that no field asks for. -/
theorem root_stranger (b : SignedBlock) : SignedBlock.layout.Strangers [("root", bytes b.root)] :=
  List.forall_mem_singleton.mpr
    ⟨show "root" ∉ SignedBlock.layout.names by decide, show Quoted.IsPlain "root" by decide,
      (mirrors_bytes 32).canBeWritten b.root⟩

theorem mirrors_signedBlock : Mirrors SignedBlock.toJson SignedBlock.ofJson where
  canBeWritten b := (writes_signedBlock b).canBeWritten (root_stranger b)
  decoded b := by
    have hread : SignedBlock.layout.decoder b.toJson = .ok (b.message, b.signature, ()) :=
      (writes_signedBlock b).decoded (by decide) (root_stranger b)
    -- the root that comes back is that of the message, and so is that of the block
    have hsame : SignedBlock.ofMessage b.message b.signature = b :=
      SignedBlock.ext_message_signature rfl rfl
    rw [SignedBlock.ofJson, hread]
    show Except.ok (SignedBlock.ofMessage b.message b.signature) = _
    rw [hsame]

/-! ## The format -/

/-- **Whatever is written is read back as what it was**: words up to the largest, byte strings, blocks with the
    roots of their messages, sidecars with blobs of any length, and names. -/
theorem format_roundTrips :
    RoundTrips SignedBlock.toJson SignedBlock.ofJson ∧
    RoundTrips BeaconBlock.toJson BeaconBlock.ofJson ∧
    RoundTrips BlobSidecar.toJson BlobSidecar.ofJson ∧
    RoundTrips (fun commitment : Commitment => bytes commitment) (Decoder.byteString 48) ∧
    RoundTrips (fun proof : Proof => bytes proof) (Decoder.byteString 48) ∧
    RoundTrips Level.toJson Level.ofJson ∧
    RoundTrips Milestone.toJson Milestone.ofJson ∧
    RoundTrips Verdict.toJson Verdict.ofJson ∧
    RoundTrips word Decoder.word :=
  ⟨mirrors_signedBlock.roundTrips, mirrors_beaconBlock.roundTrips, mirrors_blobSidecar.roundTrips,
    (mirrors_byteString 48).roundTrips, (mirrors_byteString 48).roundTrips, mirrors_level.roundTrips,
    mirrors_milestone.roundTrips, mirrors_verdict.roundTrips, mirrors_word.roundTrips⟩

end Wire

end BeaconBroadcast
