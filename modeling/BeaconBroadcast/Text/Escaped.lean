import BeaconBroadcast.Text.Unprintable

/-!
# `BeaconBroadcast.Text.Escaped` — foreign text inside a message

Text that comes from elsewhere is put between double quotes, with everything escaped that would not
show or would be taken for the end of the text.

## Contents
- **Characters.** `escapeChar` names five characters by a letter or a digit, doubles up the quote and the
  backslash, and spells what does not show by its code point.
- **Texts.** `escaped`.
-/

namespace BeaconBroadcast.Text

/-- A number in lower-case hexadecimal, without leading zeros. -/
def hexNumber (n : Nat) : List Char := Nat.toDigits 16 n

/-- A character as it stands between double quotes. -/
def escapeChar (c : Char) : List Char :=
  if c = '\x00' then ['\\', '0']
  else if c = '\t' then ['\\', 't']
  else if c = '\n' then ['\\', 'n']
  else if c = '\r' then ['\\', 'r']
  else if c = '"' then ['\\', '"']
  else if c = '\\' then ['\\', '\\']
  else if isUnprintable c.toNat then ['\\', 'u', '\x7b'] ++ hexNumber c.toNat ++ ['\x7d']
  else [c]

/-- A text between double quotes. -/
def escaped (text : String) : String :=
  String.ofList ('"' :: text.toList.flatMap escapeChar ++ ['"'])

end BeaconBroadcast.Text
