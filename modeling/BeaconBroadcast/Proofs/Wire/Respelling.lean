import BeaconBroadcast.Proofs.Json.Respelling
import BeaconBroadcast.Proofs.Wire.RoundTrip
import BeaconBroadcast.Wire.Settings

/-!
# `BeaconBroadcast.Proofs.Wire.Respelling` — records without names, byte strings in quotes

Blocks, messages, sidecars, schedules and forks may be spelled as arrays of their fields, and commitments, proofs and
signatures as strings of as many bytes. Neither makes a difference to what is decoded. An array with a field too few or
too many is refused, and so is a string with a byte too few or too many, wherever it stands.

## Contents
- **Records.** `SpelledEitherWay`, and `spelledEitherWay_of_layout` for every record whose fields are all needed.
- **Byte strings.** `SpelledInQuotes`, and `spelledInQuotes_of_readsAt` for every place at which a byte string stands.
- **Places.** Where the commitments, proofs and signatures stand.
- **Kinds.** `Wire.Respells` and `Wire.respells`, with a fork and a signature that are spelled in two ways.
-/

namespace BeaconBroadcast

open Json

/-! ## Records -/

/-- A record may be spelled as an object or as an array. -/
structure SpelledEitherWay {α T : Type} (ofJson : Decoder T) (l : Layout α) (build : α → T) : Prop where
  /-- Items that are read as the fields in order make up the record, and so do members with the same values. -/
  alike : ∀ {vs fields ms}, l.Reads vs fields → l.Labels ms vs →
    ofJson (.array vs true) = .ok (build fields) ∧ ofJson (.object ms true) = .ok (build fields)
  /-- No other number of items makes up a record. -/
  counted : ∀ {vs closed}, vs.length ≠ l.names.length → ∃ fault, ofJson (.array vs closed) = .error fault

/-- **A record none of whose fields may be left out is spelled either way.** -/
theorem spelledEitherWay_of_layout {α T : Type} {ofJson : Decoder T} {l : Layout α} {build : α → T}
    (reads : ∀ v, ofJson v = (l.decoder v).map build) (distinct : l.names.Nodup) (needed : l.required = l.names) :
    SpelledEitherWay ofJson l build := by
  refine ⟨?_, ?_⟩
  · intro vs fields ms hreads labels
    rw [reads, reads]
    show (l.ofItems true vs).map build = _ ∧ (l.ofMembers ms true).map build = _
    rw [hreads.ofItems, hreads.ofMembers distinct labels]
    exact ⟨rfl, rfl⟩
  · intro vs closed hlength
    have hrefused : ∃ fault, l.ofItems closed vs = .error fault := by
      rcases Nat.lt_or_gt_of_ne hlength with hshort | hlong
      · exact Layout.ofItems_of_lt_length needed hshort closed
      · exact Layout.ofItems_of_length_lt hlong closed
    obtain ⟨fault, hfault⟩ := hrefused
    refine ⟨fault, ?_⟩
    rw [reads]
    show (l.ofItems closed vs).map build = _
    rw [hfault]
    rfl

/-! ## Byte strings -/

/-- At this place in a document a byte string of `n` may be spelled as a string. -/
structure SpelledInQuotes {T : Type} (ofJson : Decoder T) (n : Nat) (place : Value → Value) : Prop where
  /-- A string stands for the array of its bytes. -/
  alike : ∀ s, ofJson (place (.string s)) = ofJson (place (Wire.byteList s.bytes))
  /-- A string of another number of bytes may not stand there. -/
  counted : ∀ s, s.bytes.length ≠ n → ∃ fault, ofJson (place (.string s)) = .error fault

namespace Wire

variable {n : Nat} {s : Quoted} {b : Bytes n}

theorem ofBytes_eq_ok_iff {listed : List UInt8} : Decoder.ofBytes n listed = .ok b ↔ b.toList = listed := by
  constructor
  · intro h
    rw [Decoder.ofBytes, Bytes.ofList?] at h
    by_cases hlength : listed.length = n
    · rw [dif_pos hlength] at h
      cases h
      rfl
    · rw [dif_neg hlength] at h
      cases h
  · rintro rfl
    exact ofBytes_toList b

theorem byteString_string_iff : Decoder.byteString n (.string s) = .ok b ↔ b.toList = s.bytes := ofBytes_eq_ok_iff

/-- **A string is a byte string just if it has the right number of bytes.** -/
theorem exists_byteString_string_iff : (∃ b, Decoder.byteString n (.string s) = .ok b) ↔ s.bytes.length = n := by
  constructor
  · rintro ⟨b, hb⟩
    rw [← byteString_string_iff.mp hb, b.length_toList]
  · intro hlength
    exact ⟨⟨s.bytes.toArray, by simpa using hlength⟩, byteString_string_iff.mpr rfl⟩

/-- **A string is decoded as the array of its bytes is**, also where both are refused. -/
theorem byteString_string (n : Nat) (s : Quoted) :
    Decoder.byteString n (.string s) = Decoder.byteString n (byteList s.bytes) := by
  show _ = Decoder.list Decoder.byte (byteList s.bytes) >>= Decoder.ofBytes n
  rw [mirrors_byteList.decoded]
  rfl

end Wire

/-- **Where a byte string stands, it may be spelled as a string.** -/
theorem spelledInQuotes_of_readsAt {T : Type} {ofJson : Decoder T} {n : Nat} {place : Value → Value}
    (h : ofJson.ReadsAt place (Decoder.byteString n)) : SpelledInQuotes ofJson n place where
  alike s := h.alike (Wire.byteString_string n s)
  counted s hlength := by
    cases hdecoded : Decoder.byteString n (.string s) with
    | ok b => exact absurd (Wire.exists_byteString_string_iff.mp ⟨b, hdecoded⟩) hlength
    | error fault => exact h.refused hdecoded

/-! ## Places -/

section

variable {place : Value → Value}

/-- A message decodes each commitment by itself. -/
theorem BeaconBlock.readsAt_commitment (h : layout.Place "blob_kzg_commitments" place) (before after : List Value)
    (closed : Bool) :
    ofJson.ReadsAt (place ∘ fun v => .array (before ++ v :: after) closed) (Decoder.byteString 48) := by
  have hfield : layout.Has "blob_kzg_commitments" (Decoder.list (Decoder.byteString 48)) :=
    .later (by decide) <| .later (by decide) <| .later (by decide) <| .later (by decide) <| .later (by decide) .here
  exact ((hfield.readsAt (by decide) h).map ofJson_eq).within (Decoder.readsAt_item _ before after closed)

/-- A block decodes its message by itself. -/
theorem SignedBlock.readsAt_message (h : layout.Place "message" place) : ofJson.ReadsAt place BeaconBlock.ofJson := by
  have hfield : layout.Has "message" BeaconBlock.ofJson := .here
  exact (hfield.readsAt (by decide) h).map ofJson_eq

/-- A block decodes its signature by itself. -/
theorem SignedBlock.readsAt_signature (h : layout.Place "signature" place) :
    ofJson.ReadsAt place (Decoder.byteString 96) := by
  have hfield : layout.Has "signature" (Decoder.byteString 96) := .later (by decide) .here
  exact (hfield.readsAt (by decide) h).map ofJson_eq

/-- A sidecar decodes its commitment by itself. -/
theorem BlobSidecar.readsAt_commitment (h : layout.Place "kzg_commitment" place) :
    ofJson.ReadsAt place (Decoder.byteString 48) := by
  have hfield : layout.Has "kzg_commitment" (Decoder.byteString 48) :=
    .later (by decide) <| .later (by decide) <| .later (by decide) .here
  exact (hfield.readsAt (by decide) h).map ofJson_eq

/-- A sidecar decodes its proof by itself. -/
theorem BlobSidecar.readsAt_proof (h : layout.Place "kzg_proof" place) :
    ofJson.ReadsAt place (Decoder.byteString 48) := by
  have hfield : layout.Has "kzg_proof" (Decoder.byteString 48) :=
    .later (by decide) <| .later (by decide) <| .later (by decide) <| .later (by decide) .here
  exact (hfield.readsAt (by decide) h).map ofJson_eq

end

/-! ## Kinds -/

/-- What may be spelled in more than one way, and in no other. -/
structure Wire.Respells : Prop where
  /-- A document is read as the tree that it spells, so that the rest can be said of trees. -/
  documents : ∀ {α : Type} (decoder : Decoder α) {v text}, v.SpelledAs text → decode decoder text = decoder v
  signedBlock : SpelledEitherWay SignedBlock.ofJson SignedBlock.layout
    fun (message, signature, ()) => .ofMessage message signature
  beaconBlock : SpelledEitherWay BeaconBlock.ofJson BeaconBlock.layout
    fun (slot, proposerIndex, parentRoot, stateRoot, bodyRoot, commitments, ()) =>
      { slot, proposerIndex, parentRoot, stateRoot, bodyRoot, commitments }
  blobSidecar : SpelledEitherWay BlobSidecar.ofJson BlobSidecar.layout
    fun (index, blockRoot, slot, commitment, proof, blob, ()) => { index, blockRoot, slot, commitment, proof, blob }
  forkSchedule : SpelledEitherWay ForkSchedule.ofJson ForkSchedule.layout
    fun (slotsPerEpoch, forks, ()) => { slotsPerEpoch, forks }
  fork : SpelledEitherWay Fork.ofJson Fork.layout fun (milestone, epoch, ()) => { milestone, epoch }
  /-- What is written for a block has its root as well, and without the names it is no block. -/
  written : ∀ {b : SignedBlock} {ms closed}, b.toJson = .object ms closed →
    SignedBlock.ofJson (.array (ms.map (·.2)) closed) = .error .malformed
  /-- A string that has a text has the bytes of the text in UTF-8. One that escapes half a surrogate pair has no text;
      the half counts as three bytes. -/
  utf8 : ∀ {s : Quoted} {text}, s.text? = some text → s.bytes.toByteArray = text.toUTF8
  /-- A string is a byte string just if it has as many bytes, and then it is the string of its bytes. -/
  byteString : ∀ n s, ((∃ b, Decoder.byteString n (.string s) = .ok b) ↔ s.bytes.length = n) ∧
    ∀ b, Decoder.byteString n (.string s) = .ok b ↔ b.toList = s.bytes
  /-- A byte string by itself, such as a commitment or a proof. -/
  alone : ∀ n, SpelledInQuotes (Decoder.byteString n) n id
  /-- A commitment in a message. -/
  commitment : ∀ {place}, BeaconBlock.layout.Place "blob_kzg_commitments" place → ∀ before after closed,
    SpelledInQuotes BeaconBlock.ofJson 48 (place ∘ fun v => .array (before ++ v :: after) closed)
  /-- A commitment in the message of a block. -/
  commitment_within : ∀ {outer place}, SignedBlock.layout.Place "message" outer →
    BeaconBlock.layout.Place "blob_kzg_commitments" place → ∀ before after closed,
    SpelledInQuotes SignedBlock.ofJson 48 (outer ∘ place ∘ fun v => .array (before ++ v :: after) closed)
  /-- The signature of a block. -/
  signature : ∀ {place}, SignedBlock.layout.Place "signature" place → SpelledInQuotes SignedBlock.ofJson 96 place
  /-- The commitment of a sidecar. -/
  sidecar_commitment : ∀ {place}, BlobSidecar.layout.Place "kzg_commitment" place →
    SpelledInQuotes BlobSidecar.ofJson 48 place
  /-- The proof of a sidecar. -/
  sidecar_proof : ∀ {place}, BlobSidecar.layout.Place "kzg_proof" place → SpelledInQuotes BlobSidecar.ofJson 48 place

namespace Wire

/-- What is written for a block is no block without its names. -/
theorem ofJson_of_written {b : SignedBlock} {ms : List (Quoted × Value)} {closed : Bool}
    (h : b.toJson = .object ms closed) : SignedBlock.ofJson (.array (ms.map (·.2)) closed) = .error .malformed := by
  have hreads : SignedBlock.layout.Reads [b.message.toJson, bytes b.signature] (b.message, b.signature, ()) :=
    .field (mirrors_beaconBlock.decoded b.message) (.field ((mirrors_byteString 96).decoded b.signature) .done)
  cases h
  rw [SignedBlock.ofJson_eq]
  -- there is no field for the root
  show (SignedBlock.layout.ofItems true ([b.message.toJson, bytes b.signature] ++ [bytes b.root])).map _ = _
  rw [hreads.ofItems_more]
  rfl

/-- **Records may be spelled with or without names, and byte strings with or without quotes.** -/
theorem respells : Respells where
  documents := decode_of_spelledAs
  signedBlock := spelledEitherWay_of_layout SignedBlock.ofJson_eq (by decide) rfl
  beaconBlock := spelledEitherWay_of_layout BeaconBlock.ofJson_eq (by decide) rfl
  blobSidecar := spelledEitherWay_of_layout BlobSidecar.ofJson_eq (by decide) rfl
  forkSchedule := spelledEitherWay_of_layout ForkSchedule.ofJson_eq (by decide) rfl
  fork := spelledEitherWay_of_layout Fork.ofJson_eq (by decide) rfl
  written := ofJson_of_written
  utf8 := Quoted.toByteArray_bytes
  byteString n s := ⟨exists_byteString_string_iff, fun _ => byteString_string_iff⟩
  alone n := spelledInQuotes_of_readsAt (Decoder.readsAt_self _)
  commitment hplace before after closed :=
    spelledInQuotes_of_readsAt (BeaconBlock.readsAt_commitment hplace before after closed)
  commitment_within houter hplace before after closed :=
    spelledInQuotes_of_readsAt
      ((SignedBlock.readsAt_message houter).within (BeaconBlock.readsAt_commitment hplace before after closed))
  signature hplace := spelledInQuotes_of_readsAt (SignedBlock.readsAt_signature hplace)
  sidecar_commitment hplace := spelledInQuotes_of_readsAt (BlobSidecar.readsAt_commitment hplace)
  sidecar_proof hplace := spelledInQuotes_of_readsAt (BlobSidecar.readsAt_proof hplace)

/-- A string of ninety-six bytes: an escaped pair of halves, an escaped character, and characters of one byte and of
    three. -/
def mixedQuoted : Quoted :=
  [.unit 0xD83D, .unit 0xDE00, .escaped '\n', .plain 'a'] ++ List.replicate 30 (.plain '€')

/-- A fork that is spelled as an array and as an object with its members the other way round, and a signature that is
    spelled as a string. -/
theorem respells_when_mixed :
    decode Fork.ofJson (Value.list [.name "deneb", .natural 3]).text = .ok ⟨.deneb, 3⟩ ∧
    decode Fork.ofJson (Value.record [("epoch", .natural 3), ("milestone", .name "deneb")]).text = .ok ⟨.deneb, 3⟩ ∧
    (∃ fault, decode Fork.ofJson (Value.list [.name "deneb"]).text = .error fault) ∧
    (∃ b, Decoder.byteString 96 (.string mixedQuoted) = .ok b) ∧
    mixedQuoted.bytes.toByteArray = (String.ofList (['😀', '\n', 'a'] ++ List.replicate 30 '€')).toUTF8 := by
  have hdeneb : (Value.name "deneb").CanBeWritten := Value.canBeWritten_name (by decide)
  have hepoch : (Value.natural 3).CanBeWritten := Value.canBeWritten_natural 3
  have hlist : (Value.list [.name "deneb", .natural 3]).CanBeWritten :=
    Value.canBeWritten_list (by simp [hdeneb, hepoch])
  have hrecord : (Value.record [("epoch", .natural 3), ("milestone", .name "deneb")]).CanBeWritten := by
    apply Value.canBeWritten_record
    simp only [List.forall_mem_cons, hdeneb, hepoch, and_true]
    exact ⟨by decide, by decide, by simp⟩
  have hshort : (Value.list [.name "deneb"]).CanBeWritten := Value.canBeWritten_list (by simp [hdeneb])
  have hreads : Fork.layout.Reads [.name "deneb", .natural 3] (.deneb, 3, ()) := .field rfl (.field rfl .done)
  have hlabels : Fork.layout.Labels
      [(Quoted.ofPlain "epoch", .natural 3), (Quoted.ofPlain "milestone", .name "deneb")]
      [.name "deneb", .natural 3] := List.Perm.swap _ _ _
  obtain ⟨harray, hobject⟩ := respells.fork.alike hreads hlabels
  refine ⟨?_, ?_, ?_, ?_, ?_⟩
  · rw [respells.documents _ (Value.spelledAs_text hlist)]
    exact harray
  · rw [respells.documents _ (Value.spelledAs_text hrecord)]
    exact hobject
  · rw [respells.documents _ (Value.spelledAs_text hshort)]
    exact respells.fork.counted (by decide)
  · exact (respells.byteString 96 mixedQuoted).1.mpr (by decide)
  · exact respells.utf8 (by decide)

end Wire

end BeaconBroadcast
