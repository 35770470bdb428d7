import BeaconBroadcast.Json.Quoted

/-!
# `BeaconBroadcast.Json.Value` — documents as trees

A tree holds a document as far as it could be read. Where reading failed there is a `broken` value, and
every array and object around that place is not closed; so a reader of the tree that goes from left to
right meets faults in the order in which they stand in the document.

## Contents
- **Trees.** `Value`.
- **Soundness.** `Value.isSound` says that a tree has no fault of syntax anywhere.
- **Printing.** `Value.print` writes a tree without blanks.
-/

namespace BeaconBroadcast.Json

/-- A document, as far as it could be read. -/
inductive Value
  | null
  | bool (b : Bool)
  /-- A number written with digits alone. -/
  | natural (n : Nat)
  /-- A number with a sign, a fraction or an exponent. -/
  | numeral (written : List Char)
  | string (s : Quoted)
  /-- The items in order; `closed` if the closing bracket was found behind them. -/
  | array (items : List Value) (closed : Bool)
  /-- The members in order; `closed` if the closing brace was found behind them. -/
  | object (members : List (Quoted × Value)) (closed : Bool)
  /-- No value could be read here. -/
  | broken

namespace Value

mutual

/-- Whether the tree has no fault of syntax. Strings may hold lone surrogates. -/
def isSound : Value → Bool
  | string s => s.isSound
  | array items closed => allSound items && closed
  | object members closed => allSoundMembers members && closed
  | broken => false
  | _ => true

/-- Whether every item is sound. -/
def allSound : List Value → Bool
  | [] => true
  | v :: vs => v.isSound && allSound vs

/-- Whether every key and every member's value is sound. -/
def allSoundMembers : List (Quoted × Value) → Bool
  | [] => true
  | (k, v) :: ms => k.isSound && v.isSound && allSoundMembers ms

end

end Value

/-! ## Printing -/

/-- One hexadecimal digit, in lower case. -/
def hexDigit (n : Nat) : Char := Nat.digitChar (n % 16)

/-- The letter that stands for `c` behind a backslash. -/
def letterOf : Char → Char
  | '\x08' => 'b'
  | '\x0c' => 'f'
  | '\n' => 'n'
  | '\r' => 'r'
  | '\t' => 't'
  | c => c

/-- A piece as it stands in a document. -/
def Piece.print : Piece → List Char
  | plain c => [c]
  | escaped c => ['\\', letterOf c]
  | unit u =>
      ['\\', 'u', hexDigit (u.toNat / 0x1000), hexDigit (u.toNat / 0x100), hexDigit (u.toNat / 0x10),
        hexDigit u.toNat]

/-- A string with its quotes. -/
def Quoted.print (s : Quoted) : List Char := '"' :: s.flatMap Piece.print ++ ['"']

namespace Value

mutual

/-- The tree as a document without blanks. -/
def print : Value → List Char
  | null => ['n', 'u', 'l', 'l']
  | bool true => ['t', 'r', 'u', 'e']
  | bool false => ['f', 'a', 'l', 's', 'e']
  | natural n => Nat.toDigits 10 n
  | numeral written => written
  | string s => Quoted.print s
  | array items closed => '[' :: printItems items ++ if closed then [']'] else []
  | object members closed => '\x7b' :: printMembers members ++ if closed then ['\x7d'] else []
  | broken => []

/-- The items with commas between them. -/
def printItems : List Value → List Char
  | [] => []
  | v :: vs =>
      match vs with
      | [] => v.print
      | _ => v.print ++ ',' :: printItems vs

/-- The members with commas between them. -/
def printMembers : List (Quoted × Value) → List Char
  | [] => []
  | (k, v) :: ms =>
      match ms with
      | [] => Quoted.print k ++ ':' :: v.print
      | _ => Quoted.print k ++ ':' :: v.print ++ ',' :: printMembers ms

end

/-- The tree as a text without blanks. -/
def text (v : Value) : String := String.ofList v.print

/-- An object with plain names. -/
def record (members : List (String × Value)) : Value :=
  object (members.map fun (name, v) => (Quoted.ofPlain name, v)) true

/-- An array. -/
def list (items : List Value) : Value := array items true

/-- A string without quotes, backslashes and control characters. -/
def name (text : String) : Value := string (Quoted.ofPlain text)

end Value

end BeaconBroadcast.Json
