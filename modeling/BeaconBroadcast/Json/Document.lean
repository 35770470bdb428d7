import BeaconBroadcast.Json.Token
import BeaconBroadcast.Json.Value

/-!
# `BeaconBroadcast.Json.Document` — reading a tree off tokens

Tokens are taken one by one with a stack of the arrays and objects that are still open. Where a token
does not fit, the tree is finished as it stands.

## Contents
- **Open containers.** `Frame`, and `Frame.abandon` which finishes a tree that cannot go on.
- **Reading.** `valueDue`, `valuePlaced` and `keyDue`, one for each thing that may come next.
- **Documents.** `Document.read`.
-/

namespace BeaconBroadcast.Json

/-- An array or an object that is still open; what it holds is kept latest first. -/
inductive Frame
  | array (items : List Value)
  /-- The value of `key` is being read. -/
  | object (members : List (Quoted × Value)) (key : Quoted)

/-- The tree around `v` when nothing more can be read: every container around it is left open. -/
def Frame.abandon : List Frame → Value → Value
  | [], v => v
  | .array items :: stack, v => abandon stack (.array (v :: items).reverse false)
  | .object members key :: stack, v => abandon stack (.object ((key, v) :: members).reverse false)

mutual

/-- A value has to come. The second part is what follows the whole tree. -/
def valueDue (stack : List Frame) : List Token → Value × List Token
  | .null :: ts => valuePlaced stack .null ts
  | .bool b :: ts => valuePlaced stack (.bool b) ts
  | .natural n :: ts => valuePlaced stack (.natural n) ts
  | .numeral written :: ts => valuePlaced stack (.numeral written) ts
  | .string s :: ts => valuePlaced stack (.string s) ts
  | .openArray :: .closeArray :: ts => valuePlaced stack (.array [] true) ts
  | .openArray :: ts => valueDue (.array [] :: stack) ts
  | .openObject :: .closeObject :: ts => valuePlaced stack (.object [] true) ts
  | .openObject :: ts => keyDue stack [] ts
  | _ => (Frame.abandon stack .broken, [])

/-- The value `v` is complete: the innermost container goes on or is closed. -/
def valuePlaced : List Frame → Value → List Token → Value × List Token
  | [], v, ts => (v, ts)
  | .array items :: stack, v, .comma :: ts => valueDue (.array (v :: items) :: stack) ts
  | .array items :: stack, v, .closeArray :: ts =>
      valuePlaced stack (.array (v :: items).reverse true) ts
  | .array items :: stack, v, _ => (Frame.abandon stack (.array (v :: items).reverse false), [])
  | .object members key :: stack, v, .comma :: ts => keyDue stack ((key, v) :: members) ts
  | .object members key :: stack, v, .closeObject :: ts =>
      valuePlaced stack (.object ((key, v) :: members).reverse true) ts
  | .object members key :: stack, v, _ =>
      (Frame.abandon stack (.object ((key, v) :: members).reverse false), [])

/-- A key has to come, in an object that holds `members` (latest first). -/
def keyDue (stack : List Frame) (members : List (Quoted × Value)) : List Token → Value × List Token
  | .string key :: .colon :: ts => valueDue (.object members key :: stack) ts
  | .string key :: _ =>
      (Frame.abandon stack (.object ((key, .broken) :: members).reverse false), [])
  | _ => (Frame.abandon stack (.object members.reverse false), [])

end

/-- A document: its tree, and whether anything follows it. -/
structure Document where
  value : Value
  hasTrailing : Bool

/-- Reads a document as far as it goes. -/
def Document.read (text : String) : Document :=
  let (value, rest) := valueDue [] (Token.scan text.toList)
  { value, hasTrailing := !rest.isEmpty }

end BeaconBroadcast.Json
