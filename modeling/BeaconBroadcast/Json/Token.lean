import BeaconBroadcast.Json.Quoted

/-!
# `BeaconBroadcast.Json.Token` — the words of a document

A document is cut into tokens from left to right, blanks left out. Where no token begins the cutting
stops at `junk`, so that what stands before it can still be read.

## Contents
- **Numerals.** `numeral?` reads a run of number characters, whole numbers apart from all others.
- **Tokens.** `Token.next` takes one off the front of a text, `Token.scan` all of them.
-/

namespace BeaconBroadcast.Json

/-- A word of a document. -/
inductive Token
  | openArray
  | closeArray
  | openObject
  | closeObject
  | comma
  | colon
  | null
  | bool (b : Bool)
  /-- A number written with digits alone. -/
  | natural (n : Nat)
  /-- A number with a sign, a fraction or an exponent. -/
  | numeral (written : List Char)
  | string (s : Quoted)
  /-- Something that begins no token. -/
  | junk
deriving DecidableEq

/-! ## Numerals -/

/-- What follows the whole part of a number: a zero, or digits that begin with another. -/
def afterWhole? : List Char → Option (List Char)
  | '0' :: rest => some rest
  | c :: rest => if c.isDigit then some (rest.dropWhile Char.isDigit) else none
  | [] => none

/-- What follows at least one digit. -/
def afterDigits? : List Char → Option (List Char)
  | c :: rest => if c.isDigit then some (rest.dropWhile Char.isDigit) else none
  | [] => none

/-- What follows a fraction, if there is one. -/
def afterFraction? : List Char → Option (List Char)
  | '.' :: rest => afterDigits? rest
  | s => some s

/-- What follows an exponent, if there is one. -/
def afterExponent? : List Char → Option (List Char)
  | c :: rest =>
      if c = 'e' ∨ c = 'E' then
        match rest with
        | sign :: digits => if sign = '+' ∨ sign = '-' then afterDigits? digits else afterDigits? rest
        | [] => none
      else some (c :: rest)
  | [] => some []

/-- Whether `s` is a number without a sign. -/
def isUnsigned (s : List Char) : Bool :=
  ((afterWhole? s).bind afterFraction?).bind afterExponent? == some []

/-- The number that digits spell. -/
def naturalOf (digits : List Char) : Nat :=
  digits.foldl (fun n c => 10 * n + (c.toNat - '0'.toNat)) 0

/-- The token of a run of number characters. -/
def numeral? (s : List Char) : Option Token :=
  match s with
  | '-' :: rest => if isUnsigned rest then some (.numeral s) else none
  | _ =>
      if isUnsigned s then
        if s.all Char.isDigit then some (.natural (naturalOf s)) else some (.numeral s)
      else none

/-- Whether `c` can stand in a number. -/
def isNumberChar (c : Char) : Bool := c.isDigit || c ∈ ['-', '+', '.', 'e', 'E']

/-! ## Tokens -/

/-- Whether `c` may stand between tokens. -/
def isBlank (c : Char) : Bool := c ∈ [' ', '\t', '\n', '\r']

/-- The token that a single character is. -/
def punctuation? : Char → Option Token
  | '[' => some .openArray
  | ']' => some .closeArray
  | '\x7b' => some .openObject
  | '\x7d' => some .closeObject
  | ',' => some .comma
  | ':' => some .colon
  | _ => none

/-- The literal name at the front of a text, and what follows it. -/
def literal? : List Char → Option (Token × List Char)
  | 'n' :: 'u' :: 'l' :: 'l' :: rest => some (.null, rest)
  | 't' :: 'r' :: 'u' :: 'e' :: rest => some (.bool true, rest)
  | 'f' :: 'a' :: 'l' :: 's' :: 'e' :: rest => some (.bool false, rest)
  | _ => none

namespace Token

/-- The token that begins with `c`, and what follows it. -/
def next (c : Char) (rest : List Char) : Option (Token × List Char) :=
  match punctuation? c with
  | some t => some (t, rest)
  | none =>
      if c = '"' then (Quoted.read rest).map fun (s, rest) => (.string s, rest)
      else if c.isDigit ∨ c = '-' then
        (numeral? (c :: rest.takeWhile isNumberChar)).map fun t => (t, rest.dropWhile isNumberChar)
      else literal? (c :: rest)

theorem length_of_literal? {s : List Char} {t : Token} {rest : List Char}
    (h : literal? s = some (t, rest)) : rest.length < s.length := by
  unfold literal? at h
  split at h <;> simp_all <;> omega

/-- A token takes at least its first character. -/
theorem length_of_next {c : Char} {s : List Char} {t : Token} {rest : List Char}
    (h : next c s = some (t, rest)) : rest.length ≤ s.length := by
  unfold next at h
  split at h
  · simp_all
  · split at h
    · obtain ⟨⟨q, r⟩, hq, he⟩ := Option.map_eq_some_iff.mp h
      have := Quoted.length_of_read hq
      obtain rfl : r = rest := congrArg Prod.snd he
      omega
    · split at h
      · obtain ⟨t', -, he⟩ := Option.map_eq_some_iff.mp h
        obtain rfl : s.dropWhile isNumberChar = rest := congrArg Prod.snd he
        exact (List.dropWhile_suffix _).length_le
      · have := length_of_literal? h
        simp only [List.length_cons] at this
        omega

/-- Cuts a text into tokens, onto those already `read` (latest first). -/
def scanOnto (read : List Token) : List Char → List Token
  | [] => read.reverse
  | c :: rest =>
      if isBlank c then scanOnto read rest
      else
        match _h : next c rest with
        | some (t, rest') => scanOnto (t :: read) rest'
        | none => (junk :: read).reverse
termination_by s => s.length
decreasing_by
  · simp
  · have := length_of_next _h
    simp only [List.length_cons]
    omega

/-- Cuts a text into tokens. -/
def scan (s : List Char) : List Token := scanOnto [] s

end Token

end BeaconBroadcast.Json
