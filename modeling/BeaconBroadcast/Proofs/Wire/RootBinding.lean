import BeaconBroadcast.Proofs.Wire.RootIntegrity
import Mathlib.Algebra.GroupWithZero.Nat

/-!
# `BeaconBroadcast.Proofs.Wire.RootBinding` — a root stands for one message

The bytes that a root is the digest of are the fields of the message one after the other: words and roots, which have
a fixed width, and a list of commitments behind their number. They can be taken apart again in one way only, so two
blocks with the same root have the same message, or their messages are a collision of the digest.

## Contents
- **Words.** `littleEndian_inj`: digits determine a number that they are enough for.
- **Strings.** What begins with a string of a fixed width can be split in one way.
- **Messages.** `BeaconBlock.messageBytes_injective` and `BeaconBlock.messageBytes_append_inj`: the bytes determine
  the message, even where others follow them.
- **Blocks.** `SignedBlock.Made`, `Sha256.Collision` and `SignedBlock.root_binds`, with a message that
  is signed twice.
-/

namespace BeaconBroadcast

/-! ## Words -/

theorem littleEndian_inj {k m n : Nat} (hm : m < 256 ^ k) (hn : n < 256 ^ k)
    (h : littleEndian k m = littleEndian k n) : m = n := by
  induction k generalizing m n with
  | zero =>
      rw [Nat.pow_zero] at hm hn
      omega
  | succ k ih =>
      rw [littleEndian, littleEndian, List.cons.injEq] at h
      obtain ⟨hlow, hhigh⟩ := h
      rw [Nat.pow_succ] at hm hn
      have hdiv : m / 256 = n / 256 := ih (by omega) (by omega) hhigh
      have hmod : m % 256 = n % 256 := by
        have hbyte := congrArg UInt8.toNat hlow
        rwa [UInt8.toNat_ofNat', UInt8.toNat_ofNat'] at hbyte
      omega

/-! ## Strings -/

section Strings

variable {r r' : List UInt8}

theorem word_append_inj {a b : UInt64} (h : littleEndian 8 a.toNat ++ r = littleEndian 8 b.toNat ++ r') :
    a = b ∧ r = r' := by
  obtain ⟨hword, hrest⟩ := List.append_inj h (by rw [length_littleEndian, length_littleEndian])
  exact ⟨UInt64.toNat_inj.mp (littleEndian_inj a.toNat_lt b.toNat_lt hword), hrest⟩

theorem bytes_append_inj {n : Nat} {a b : Bytes n} (h : a.toList ++ r = b.toList ++ r') : a = b ∧ r = r' := by
  obtain ⟨hbytes, hrest⟩ := List.append_inj h (by rw [Vector.length_toList, Vector.length_toList])
  exact ⟨Vector.toList_inj.mp hbytes, hrest⟩

/-- Of two lists of strings that are equally long and of one width, the bytes determine the strings. -/
theorem flatMap_append_inj {n : Nat} {as bs : List (Bytes n)} (same : as.length = bs.length)
    (h : as.flatMap (·.toList) ++ r = bs.flatMap (·.toList) ++ r') : as = bs ∧ r = r' := by
  induction as generalizing bs with
  | nil =>
      cases bs with
      | nil => exact ⟨rfl, h⟩
      | cons b bs => cases same
  | cons a as ih =>
      cases bs with
      | nil => cases same
      | cons b bs =>
          rw [List.flatMap_cons, List.flatMap_cons, List.append_assoc, List.append_assoc] at h
          obtain ⟨hfirst, hrest⟩ := bytes_append_inj h
          obtain ⟨hothers, hend⟩ := ih (Nat.succ.inj same) hrest
          exact ⟨by rw [hfirst, hothers], hend⟩

theorem length_flatMap_toList {n : Nat} (bs : List (Bytes n)) :
    (bs.flatMap (·.toList)).length = n * bs.length := by
  induction bs with
  | nil => rfl
  | cons b bs ih => rw [List.flatMap_cons, List.length_append, Vector.length_toList, ih, List.length_cons,
      Nat.mul_succ, Nat.add_comm]

end Strings

/-! ## Messages -/

namespace BeaconBlock

variable {b b' : BeaconBlock} {r r' : List UInt8}

/-- But for the commitments the messages are the same, and the bytes that are left are those of the commitments. -/
structure SameHead (b b' : BeaconBlock) (r r' : List UInt8) : Prop where
  slot : b.slot = b'.slot
  proposerIndex : b.proposerIndex = b'.proposerIndex
  parentRoot : b.parentRoot = b'.parentRoot
  stateRoot : b.stateRoot = b'.stateRoot
  bodyRoot : b.bodyRoot = b'.bodyRoot
  count : littleEndian 8 b.commitments.length = littleEndian 8 b'.commitments.length
  rest : b.commitments.flatMap (·.toList) ++ r = b'.commitments.flatMap (·.toList) ++ r'

/-- The fields of a fixed width are split off one after the other. -/
theorem sameHead_of_append (h : b.messageBytes ++ r = b'.messageBytes ++ r') : SameHead b b' r r' := by
  simp only [messageBytes, List.append_assoc] at h
  obtain ⟨hslot, h⟩ := word_append_inj h
  obtain ⟨hproposer, h⟩ := word_append_inj h
  obtain ⟨hparent, h⟩ := bytes_append_inj h
  obtain ⟨hstate, h⟩ := bytes_append_inj h
  obtain ⟨hbody, h⟩ := bytes_append_inj h
  obtain ⟨hcount, hrest⟩ := List.append_inj h (by rw [length_littleEndian, length_littleEndian])
  exact ⟨hslot, hproposer, hparent, hstate, hbody, hcount, hrest⟩

/-- With equally many commitments, they are the same too. -/
theorem SameHead.eq (h : SameHead b b' r r') (same : b.commitments.length = b'.commitments.length) :
    b = b' ∧ r = r' := by
  obtain ⟨hslot, hproposer, hparent, hstate, hbody, -, hrest⟩ := h
  obtain ⟨hcommitments, hend⟩ := flatMap_append_inj same hrest
  cases b
  cases b'
  simp only at hslot hproposer hparent hstate hbody hcommitments
  subst hslot hproposer hparent hstate hbody hcommitments
  exact ⟨rfl, hend⟩

/-- **The bytes of a message determine it**, however many commitments it has. -/
theorem messageBytes_injective : Function.Injective messageBytes := by
  intro b b' h
  have hhead : SameHead b b' [] [] := sameHead_of_append (by rw [h])
  -- the bytes that are left tell how many commitments there are
  have hlength := congrArg List.length hhead.rest
  simp only [List.append_nil, length_flatMap_toList] at hlength
  exact (hhead.eq (by omega)).1

/-- **The bytes of a message tell where it ends**, as long as its commitments can be counted in a word. -/
theorem messageBytes_append_inj (counted : b.commitments.length < 2 ^ 64)
    (counted' : b'.commitments.length < 2 ^ 64) (h : b.messageBytes ++ r = b'.messageBytes ++ r') :
    b = b' ∧ r = r' := by
  have hhead := sameHead_of_append h
  have hbound : 256 ^ 8 = 2 ^ 64 := by decide
  exact hhead.eq (littleEndian_inj (hbound ▸ counted) (hbound ▸ counted') hhead.count)

end BeaconBlock

/-! ## Blocks -/

/-- Two strings that are different and have the same digest. -/
structure Sha256.Collision (x y : List UInt8) : Prop where
  differ : x ≠ y
  same : digest x = digest y

namespace SignedBlock

open Json

/-- The ways in which a signed block comes about. -/
inductive Made : SignedBlock → Prop
  | signed (message : BeaconBlock) (signature : Signature) : Made (ofMessage message signature)
  | decoded {text : String} {b : SignedBlock} (h : decode ofJson text = .ok b) : Made b

/-- What is decoded is put together from a message and a signature. -/
theorem eq_ofMessage_of_decode {text : String} {b : SignedBlock} (h : decode ofJson text = .ok b) :
    b = ofMessage b.message b.signature := by
  obtain ⟨⟨message, signature, ⟨⟩⟩, -, hblock⟩ := of_bind_eq_ok (of_decode_eq_ok h)
  cases hblock
  rfl

/-- **However a block comes about, its root is the digest of the bytes of its message.** -/
theorem Made.root_eq_digest {b : SignedBlock} (h : b.Made) : b.root = Sha256.digest b.message.messageBytes := by
  cases h with
  | signed message signature => rfl
  | decoded h =>
      rw [eq_ofMessage_of_decode h]
      rfl

/-- **A root stands for one message.** The bytes that it is the digest of determine the message, and tell where it
    ends, so two blocks with the same root have the same message or their messages are a collision. -/
theorem root_binds :
    Function.Injective BeaconBlock.messageBytes ∧
    (∀ (b b' : BeaconBlock) (r r' : List UInt8), b.commitments.length < 2 ^ 64 → b'.commitments.length < 2 ^ 64 →
      b.messageBytes ++ r = b'.messageBytes ++ r' → b = b' ∧ r = r') ∧
    (∀ a b : SignedBlock, a.Made → b.Made → a.root = b.root →
      a.message = b.message ∨ Sha256.Collision a.message.messageBytes b.message.messageBytes) := by
  refine ⟨BeaconBlock.messageBytes_injective, ?_, ?_⟩
  · intro b b' r r' counted counted' h
    exact BeaconBlock.messageBytes_append_inj counted counted' h
  · intro a b ha hb hroot
    by_cases hbytes : a.message.messageBytes = b.message.messageBytes
    · exact Or.inl (BeaconBlock.messageBytes_injective hbytes)
    · refine Or.inr ⟨hbytes, ?_⟩
      rw [← ha.root_eq_digest, ← hb.root_eq_digest]
      exact hroot

/-- The message of `sentOn` under another signature. -/
def keptBack : SignedBlock := ofMessage { slot := 5, commitments := [Bytes.zero] } (Vector.replicate 96 1)

/-- A message is signed twice, and one of the two blocks is sent on as a document. What is sent is not the message
    without its commitment, with the bytes of the commitment behind it. -/
theorem root_binds_when_signed_twice :
    decode ofJson sentOn.toJson.text = .ok sentOn ∧ sentOn.root = keptBack.root ∧
    (sentOn.message = keptBack.message ∨
      Sha256.Collision sentOn.message.messageBytes keptBack.message.messageBytes) ∧
    ({ slot := 5 } : BeaconBlock).messageBytes ++ (Bytes.zero : Commitment).toList
      ≠ sentOn.message.messageBytes ++ [] := by
  have hdecoded : decode ofJson sentOn.toJson.text = .ok sentOn := Wire.mirrors_signedBlock.roundTrips sentOn
  obtain ⟨-, hdelimited, hbinds⟩ := root_binds
  refine ⟨hdecoded, rfl, hbinds sentOn keptBack (.decoded hdecoded) (.signed _ _) rfl, fun h => ?_⟩
  obtain ⟨hmessage, -⟩ := hdelimited _ _ _ _ (by decide) (by decide) h
  cases hmessage

end SignedBlock

end BeaconBroadcast
