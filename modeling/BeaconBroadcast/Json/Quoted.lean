/-!
# `BeaconBroadcast.Json.Quoted` — strings as they stand in a document

What stands between two quotes is kept piece by piece, because a string has three readings: as text, as
bytes, and as something to step over.

## Contents
- **Pieces.** `Piece` and `Quoted`; `Quoted.read` takes them off the front of a text.
- **Code points.** `Quoted.codePoints` joins escaped surrogate pairs and leaves lone halves alone.
- **Readings.** `text?` refuses raw control characters and lone halves; `bytes` takes everything, a lone
  half as three bytes; `isSound` refuses raw control characters only.
-/

namespace BeaconBroadcast.Json

/-- One piece of a quoted string. -/
inductive Piece
  /-- A character that stands for itself. -/
  | plain (c : Char)
  /-- A backslash and a letter, for `c`. -/
  | escaped (c : Char)
  /-- A backslash, `u` and four hexadecimal digits. -/
  | unit (u : UInt16)
deriving DecidableEq

/-- What stands between two quotes. -/
abbrev Quoted : Type := List Piece

/-- The value of a hexadecimal digit of either case. -/
def hexDigit? (c : Char) : Option Nat :=
  if '0' ≤ c ∧ c ≤ '9' then some (c.toNat - '0'.toNat)
  else if 'a' ≤ c ∧ c ≤ 'f' then some (c.toNat - 'a'.toNat + 10)
  else if 'A' ≤ c ∧ c ≤ 'F' then some (c.toNat - 'A'.toNat + 10)
  else none

/-- The 16-bit unit that four digits spell. -/
def unit? (a b c d : Char) : Option UInt16 := do
  let a ← hexDigit? a
  let b ← hexDigit? b
  let c ← hexDigit? c
  let d ← hexDigit? d
  return UInt16.ofNat (((a * 16 + b) * 16 + c) * 16 + d)

/-- The character that a letter stands for behind a backslash. -/
def escape? : Char → Option Char
  | '"' => some '"'
  | '\\' => some '\\'
  | '/' => some '/'
  | 'b' => some '\x08'
  | 'f' => some '\x0c'
  | 'n' => some '\n'
  | 'r' => some '\r'
  | 't' => some '\t'
  | _ => none

namespace Quoted

/-- Reads up to the closing quote, onto the pieces already `read` (latest first). The second part is
    what follows the quote. -/
def readOnto (read : List Piece) : List Char → Option (Quoted × List Char)
  | [] => none
  | '"' :: rest => some (read.reverse, rest)
  | '\\' :: 'u' :: a :: b :: c :: d :: rest =>
      match unit? a b c d with
      | some u => readOnto (.unit u :: read) rest
      | none => none
  | '\\' :: letter :: rest =>
      match escape? letter with
      | some c => readOnto (.escaped c :: read) rest
      | none => none
  | c :: rest => readOnto (.plain c :: read) rest

/-- Reads up to the closing quote, from behind the opening one. -/
def read : List Char → Option (Quoted × List Char) := readOnto []

/-- What `readOnto` leaves is shorter than what it was given. -/
theorem length_of_readOnto {pieces : List Piece} {s : List Char} {q : Quoted} {rest : List Char}
    (h : readOnto pieces s = some (q, rest)) : rest.length < s.length := by
  fun_induction readOnto pieces s with
  | case1 => cases h
  | case2 pieces rest' => simp_all
  | case3 pieces a b c d rest' u hu ih =>
      have := ih h
      simp only [List.length_cons]
      omega
  | case4 => cases h
  | case5 pieces letter rest' hne c hc ih =>
      have := ih h
      simp only [List.length_cons]
      omega
  | case6 => cases h
  | case7 pieces c rest' h1 h2 h3 ih =>
      have := ih h
      simp only [List.length_cons]
      omega

theorem length_of_read {s : List Char} {q : Quoted} {rest : List Char}
    (h : read s = some (q, rest)) : rest.length < s.length := length_of_readOnto h

end Quoted

/-! ## Code points -/

/-- Whether the unit opens a surrogate pair. -/
def isLeading (u : UInt16) : Bool := decide (0xD800 ≤ u ∧ u ≤ 0xDBFF)

/-- Whether the unit closes a surrogate pair. -/
def isTrailing (u : UInt16) : Bool := decide (0xDC00 ≤ u ∧ u ≤ 0xDFFF)

/-- The code point of a surrogate pair. -/
def joinPair (leading trailing : UInt16) : Nat :=
  (leading.toNat - 0xD800) * 0x400 + (trailing.toNat - 0xDC00) + 0x10000

/-- The bytes of a code point in the four forms of UTF-8; a lone surrogate takes three like its
    neighbours. -/
def codePointBytes (n : Nat) : List UInt8 :=
  if n < 0x80 then [UInt8.ofNat n]
  else if n < 0x800 then [UInt8.ofNat (0xC0 + n / 0x40), UInt8.ofNat (0x80 + n % 0x40)]
  else if n < 0x10000 then
    [UInt8.ofNat (0xE0 + n / 0x1000), UInt8.ofNat (0x80 + n / 0x40 % 0x40),
      UInt8.ofNat (0x80 + n % 0x40)]
  else
    [UInt8.ofNat (0xF0 + n / 0x40000), UInt8.ofNat (0x80 + n / 0x1000 % 0x40),
      UInt8.ofNat (0x80 + n / 0x40 % 0x40), UInt8.ofNat (0x80 + n % 0x40)]

namespace Quoted

/-- The code points the string spells. Two escaped halves that stand together are one code point. -/
def codePoints : Quoted → List Nat
  | [] => []
  | .plain c :: rest => c.toNat :: codePoints rest
  | .escaped c :: rest => c.toNat :: codePoints rest
  | .unit u :: .unit v :: rest =>
      if isLeading u && isTrailing v then joinPair u v :: codePoints rest
      else u.toNat :: codePoints (.unit v :: rest)
  | .unit u :: rest => u.toNat :: codePoints rest

/-- Whether no control character stands for itself. -/
def isSound (s : Quoted) : Bool :=
  s.all fun
    | .plain c => decide (0x20 ≤ c.toNat)
    | _ => true

/-- The character with this code point, if there is one. -/
def char? (n : Nat) : Option Char := if h : n.isValidChar then some (Char.ofNatAux n h) else none

/-- The string as text: no raw control characters, no lone surrogates. -/
def text? (s : Quoted) : Option String :=
  if s.isSound then (s.codePoints.mapM char?).map String.ofList else none

/-- The string as bytes, whatever it holds. -/
def bytes (s : Quoted) : List UInt8 := s.codePoints.flatMap codePointBytes

/-- A text without quotes, backslashes and control characters, as it stands in a document. -/
def ofPlain (text : String) : Quoted := text.toList.map .plain

end Quoted

end BeaconBroadcast.Json
