import BeaconBroadcast.Json.Document
import BeaconBroadcast.Bytes

/-!
# `BeaconBroadcast.Json.Decoder` — from trees to values of the domain

A decoder goes through a tree from left to right and stops at the first fault.

## Contents
- **Faults.** `DecodeError` and its words.
- **Decoders.** `word`, `byte`, `list`, `bytes` and `byteString`, and `choice` for names.
- **Documents.** `decode` decodes a whole text, and refuses what follows a good value.
-/

namespace BeaconBroadcast.Json

/-- What is wrong with a document. -/
inductive DecodeError
  /-- It is no document, or something of another kind stands where a value is needed. -/
  | malformed
  | missingField (name : String)
  | duplicateField (name : String)
  | unknownVariant (found : String) (expected : List String)
deriving DecidableEq

/-- The fault in words; of a malformed document there is nothing more to say. -/
def DecodeError.text : DecodeError → String
  | malformed => "malformed document"
  | missingField name => "missing field `" ++ name ++ "`"
  | duplicateField name => "duplicate field `" ++ name ++ "`"
  | unknownVariant found expected =>
      "unknown variant `" ++ found ++ "`, expected one of "
        ++ String.intercalate ", " (expected.map fun name => "`" ++ name ++ "`")

/-- Makes a value of a tree, or says what is wrong with it first. -/
abbrev Decoder (α : Type) : Type := Value → Except DecodeError α

namespace Decoder

/-- A whole number below `bound`, written with digits alone. -/
def below (bound : Nat) : Decoder Nat
  | .natural n => if n < bound then .ok n else .error .malformed
  | _ => .error .malformed

/-- A 64-bit word. -/
def word : Decoder UInt64 := fun v => (below UInt64.size v).map UInt64.ofNat

/-- A byte. -/
def byte : Decoder UInt8 := fun v => (below 256 v).map UInt8.ofNat

/-- Nothing but `null`. -/
def null : Decoder Unit
  | .null => .ok ()
  | _ => .error .malformed

/-- The items of an array, in order. -/
def list {α : Type} (item : Decoder α) : Decoder (List α)
  | .array items closed => do
      let decoded ← items.mapM item
      if closed then .ok decoded else .error .malformed
  | _ => .error .malformed

/-- Exactly `n` bytes. -/
def ofBytes (n : Nat) (listed : List UInt8) : Except DecodeError (Bytes n) :=
  match Bytes.ofList? listed with
  | some b => .ok b
  | none => .error .malformed

/-- An array of exactly `n` bytes. -/
def bytes (n : Nat) : Decoder (Bytes n) := fun v => list byte v >>= ofBytes n

/-- An array of exactly `n` bytes, or a string of that many. -/
def byteString (n : Nat) : Decoder (Bytes n)
  | .string s => ofBytes n s.bytes
  | v => bytes n v

/-- The text of a string. -/
def textOf (s : Quoted) : Except DecodeError String :=
  match s.text? with
  | some t => .ok t
  | none => .error .malformed

/-- One of several alternatives: a name, or an object whose only member is a name and what the
    alternative carries. An alternative decodes what it carries, and is told `none` if it stands as a
    bare name. -/
def choice {α : Type} (alternatives : List (String × (Option Value → Except DecodeError α))) :
    Decoder α :=
  let find (s : Quoted) : Except DecodeError (Option Value → Except DecodeError α) := do
    let name ← textOf s
    match alternatives.lookup name with
    | some alternative => .ok alternative
    | none => .error (.unknownVariant name (alternatives.map (·.1)))
  fun
    | .string s => do (← find s) none
    | .object ((key, v) :: others) closed => do
        let a ← (← find key) (some v)
        if others.isEmpty && closed then .ok a else .error .malformed
    | _ => .error .malformed

/-- An alternative that carries nothing: a bare name, or a name with `null`. -/
def plain {α : Type} (a : α) : Option Value → Except DecodeError α
  | none => .ok a
  | some v => (null v).map fun _ => a

/-- An alternative that carries what `payload` decodes, and may not stand as a bare name. -/
def carrying {α : Type} (payload : Decoder α) : Option Value → Except DecodeError α
  | none => .error .malformed
  | some v => payload v

end Decoder

/-- Decodes a whole text. -/
def decode {α : Type} (decoder : Decoder α) (text : String) : Except DecodeError α := do
  let document := Document.read text
  let a ← decoder document.value
  if document.hasTrailing then .error .malformed else .ok a

end BeaconBroadcast.Json
