import BeaconBroadcast.Json.Decoder

/-!
# `BeaconBroadcast.Json.Layout` — records

A layout lists the fields of a record in their order of declaration. It decodes an object, with the
members in any order, or an array with one item for each field.

## Contents
- **Layouts.** `Layout α` describes records whose fields together are an `α`.
- **Objects.** `Layout.Draft` holds the fields found so far; `put` takes one member, `finish` wants the
  fields that are still missing.
- **Arrays.** `Layout.ofItems`.
- **Records.** `Layout.decoder`.

In an object a second member for a field is refused before its value is looked at, a member that no
field asks for is stepped over if its syntax is sound, and only at the end is a field found missing.
-/

namespace BeaconBroadcast.Json

/-- The fields of a record, in order. A field with a fallback may be left out. -/
inductive Layout : Type → Type 1
  | done : Layout Unit
  | field {α β : Type} (name : String) (value : Decoder α) (fallback : Option α) (rest : Layout β) :
      Layout (α × β)

namespace Layout

/-- A field that has to be there. -/
abbrev need {α β : Type} (name : String) (value : Decoder α) (rest : Layout β) : Layout (α × β) :=
  .field name value none rest

/-- A field that may be left out. -/
abbrev may {α β : Type} (name : String) (value : Decoder α) (fallback : α) (rest : Layout β) :
    Layout (α × β) :=
  .field name value (some fallback) rest

/-- The names of the fields, in order. -/
def names : {α : Type} → Layout α → List String
  | _, done => []
  | _, field name _ _ rest => name :: rest.names

/-- The fields found so far. -/
def Draft : {α : Type} → Layout α → Type
  | _, done => Unit
  | _, @field α _ _ _ _ rest => Option α × rest.Draft

/-- No field found. -/
def blank : {α : Type} → (l : Layout α) → l.Draft
  | _, done => ()
  | _, field _ _ _ rest => (none, rest.blank)

/-- Takes the member `name` with value `v`; `none` if no field has that name. -/
def put (name : String) (v : Value) :
    {α : Type} → (l : Layout α) → l.Draft → Option (Except DecodeError l.Draft)
  | _, done => fun _ => none
  | _, field own value _ rest => fun (found, others) =>
      if own = name then
        if found.isSome then some (.error (.duplicateField own))
        else some ((value v).map fun a => (some a, others))
      else (put name v rest others).map fun r => r.map fun others => (found, others)

/-- The record, where fields that were not found have their fallback. -/
def finish : {α : Type} → (l : Layout α) → l.Draft → Except DecodeError α
  | _, done => fun _ => .ok ()
  | _, field name _ fallback rest => fun (found, others) =>
      match found.or fallback with
      | some a => (finish rest others).map fun b => (a, b)
      | none => .error (.missingField name)

/-- Takes one member of an object. -/
def takeMember {α : Type} (l : Layout α) (draft : l.Draft) (member : Quoted × Value) :
    Except DecodeError l.Draft := do
  let name ← Decoder.textOf member.1
  match l.put name member.2 draft with
  | some r => r
  | none => if member.2.isSound then .ok draft else .error .malformed

/-- The record with these members. -/
def ofMembers {α : Type} (l : Layout α) (members : List (Quoted × Value)) (closed : Bool) :
    Except DecodeError α := do
  let draft ← members.foldlM l.takeMember l.blank
  if closed then l.finish draft else .error .malformed

/-- The record with these items, one for each field; fields at the end may be left out if they have a
    fallback. -/
def ofItems (closed : Bool) : {α : Type} → Layout α → List Value → Except DecodeError α
  | _, done, [] => if closed then .ok () else .error .malformed
  | _, done, _ :: _ => .error .malformed
  | _, field _ _ fallback rest, [] =>
      match fallback with
      | some a => (ofItems closed rest []).map fun b => (a, b)
      | none => .error .malformed
  | _, field _ value _ rest, v :: vs => do
      let a ← value v
      (ofItems closed rest vs).map fun b => (a, b)

/-- Decodes a record. -/
def decoder {α : Type} (l : Layout α) : Decoder α
  | .object members closed => l.ofMembers members closed
  | .array items closed => l.ofItems closed items
  | _ => .error .malformed

end Layout

end BeaconBroadcast.Json
