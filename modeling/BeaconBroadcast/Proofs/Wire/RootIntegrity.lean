import BeaconBroadcast.Proofs.Wire.RoundTrip

/-!
# `BeaconBroadcast.Proofs.Wire.RootIntegrity` — a decoded block has the root of its own message

Whoever sends a block may claim any root for it, once, more than once or not at all. The claim is stepped over:
the root is the digest of the message that was decoded, and no claim changes what comes of a document, be it a
block or the first fault in it.

## Contents
- **Claims.** `withoutRoot`: the members of a document but for those called "root".
- **Documents.** `SignedBlock.decode_of_spelled`, `SignedBlock.rootIntegrity`, with a block that is sent with two
  roots neither of which is its own.
-/

namespace BeaconBroadcast

open Json

/-! ## Claims -/

/-- The members that claim no root. -/
def withoutRoot (ms : List (Quoted × Value)) : List (Quoted × Value) :=
  ms.filter fun m => m.1.text? ≠ some "root"

/-! ## Documents -/

namespace SignedBlock

/-- The block that these members are. -/
def ofMembers (ms : List (Quoted × Value)) : Except DecodeError SignedBlock := ofJson (.object ms true)

/-- A well-formed document that is an object is decoded by its members. -/
theorem decode_of_spelled {ms : List (Quoted × Value)} {text : String}
    (h : (Value.object ms true).SpelledAs text) : decode ofJson text = ofMembers ms :=
  decode_of_spelledAs ofJson h

/-- **Members that claim a root may be left out.** -/
theorem ofMembers_withoutRoot {ms : List (Quoted × Value)} (sound : (Value.object ms true).isSound) :
    ofMembers (withoutRoot ms) = ofMembers ms := by
  have hstranger : "root" ∉ layout.names := by decide
  have hmembers : ∀ m ∈ ms, m.2.isSound := Value.isSound_of_mem_members (Bool.and_eq_true_iff.mp sound).1
  have hsame : layout.ofMembers (withoutRoot ms) true = layout.ofMembers ms true :=
    Layout.ofMembers_filter hstranger hmembers true
  show (layout.ofMembers (withoutRoot ms) true >>= fun r => _) = (layout.ofMembers ms true >>= fun r => _)
  rw [hsame]

/-- A decoded block has its message from the field of that name. -/
theorem message_of_ofJson {v : Value} {b : SignedBlock} (h : ofJson v = .ok b) :
    ∃ w, v.FirstField "message" w ∧ BeaconBlock.ofJson w = .ok b.message := by
  obtain ⟨⟨message, signature, ⟨⟩⟩, hfields, hblock⟩ := of_bind_eq_ok h
  cases hblock
  exact Layout.decoder_first hfields

/-- **A decoded block has the root of its own message, and no root that is claimed makes a difference.** -/
theorem rootIntegrity :
    (∀ (text : String) (b : SignedBlock), decode ofJson text = .ok b →
      ∃ v, (Document.read text).value.FirstField "message" v ∧ BeaconBlock.ofJson v = .ok b.message ∧
        b.root = Sha256.digest b.message.messageBytes) ∧
    (∀ (ms ms' : List (Quoted × Value)) (text text' : String), (Value.object ms true).SpelledAs text →
      (Value.object ms' true).SpelledAs text' → withoutRoot ms = withoutRoot ms' →
      decode ofJson text = decode ofJson text') := by
  constructor
  · intro text b h
    obtain ⟨b', hvalue, htrailing⟩ := of_bind_eq_ok h
    have hsame : b' = b := by
      split at htrailing
      · cases htrailing
      · cases htrailing
        rfl
    subst hsame
    obtain ⟨v, hfield, hmessage⟩ := message_of_ofJson hvalue
    exact ⟨v, hfield, hmessage, b'.root_eq⟩
  · intro ms ms' text text' h h' hsame
    rw [decode_of_spelled h, decode_of_spelled h', ← ofMembers_withoutRoot (Value.isSound_of_spelled h),
      ← ofMembers_withoutRoot (Value.isSound_of_spelled h'), hsame]

/-- The document of a block that is sent with two roots, neither of which is one. -/
def misattributed (b : SignedBlock) : Value :=
  .record [("root", .null), ("message", b.message.toJson), ("signature", Wire.bytes b.signature),
    ("root", .list [])]

theorem canBeWritten_misattributed (b : SignedBlock) : b.misattributed.CanBeWritten := by
  have hnull : Value.null.CanBeWritten := List.forall_mem_singleton.mpr ⟨_, .null⟩
  have hempty : (Value.list []).CanBeWritten := Value.canBeWritten_list (by simp)
  have hmessage := Wire.mirrors_beaconBlock.canBeWritten b.message
  have hsignature := (Wire.mirrors_bytes 96).canBeWritten b.signature
  apply Value.canBeWritten_record
  simp only [List.forall_mem_cons, hnull, hempty, hmessage, hsignature, and_true]
  exact ⟨by decide, by decide, by decide, by decide, by simp⟩

/-- A block with one commitment, under a signature of zeros. -/
def sentOn : SignedBlock := ofMessage { slot := 5, commitments := [Bytes.zero] } Bytes.zero

/-- The block that comes of it is the one that was sent. -/
theorem rootIntegrity_when_misattributed :
    decode ofJson sentOn.misattributed.text = .ok sentOn ∧
      ∃ v, (Document.read sentOn.misattributed.text).value.FirstField "message" v ∧
        BeaconBlock.ofJson v = .ok { slot := 5, commitments := [Bytes.zero] } ∧
        sentOn.root = Sha256.digest ({ slot := 5, commitments := [Bytes.zero] } : BeaconBlock).messageBytes := by
  have hown := Wire.mirrors_signedBlock.roundTrips sentOn
  have hsame := rootIntegrity.2 _ _ _ _ (Value.spelledAs_text (canBeWritten_misattributed sentOn))
    (Value.spelledAs_text (Wire.mirrors_signedBlock.canBeWritten sentOn)) rfl
  exact ⟨hsame.trans hown, rootIntegrity.1 _ _ (hsame.trans hown)⟩

end SignedBlock

end BeaconBroadcast
