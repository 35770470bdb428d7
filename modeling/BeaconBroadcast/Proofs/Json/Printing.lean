import BeaconBroadcast.Proofs.Json.Reading

/-!
# `BeaconBroadcast.Proofs.Json.Printing` — what is written is read back

Every tree that can be written at all is spelled by the text that is written for it, so reading gives the tree
back: whole numbers of any size, strings with any escapes, arrays and objects however deep.

## Contents
- **Tokens.** `isWhole_toDigits`, `unit?_hexDigit`; `Quoted.print_of_canBeWritten`.
- **Trees.** `Value.CanBeWritten`; `Value.spelledAs_text` and `Document.read_text`.
- **Building blocks.** Which of the trees that records are made of can be written.
-/

namespace BeaconBroadcast.Json

/-! ## Tokens -/

theorem digitChar_ne_zero {d : Nat} (hd : d < 10) (h : d ≠ 0) : d.digitChar ≠ '0' := by
  have hall : ∀ d < 10, d ≠ 0 → Nat.digitChar d ≠ '0' := by decide
  exact hall d hd h

/-- The first digit of a number is zero only if the number is. -/
theorem toDigits_eq_cons (n : Nat) (h : n ≠ 0) : ∃ c cs, Nat.toDigits 10 n = c :: cs ∧ c ≠ '0' := by
  induction n using Nat.strongRecOn with
  | ind n ih =>
      by_cases hn : n < 10
      · exact ⟨_, [], Nat.toDigits_of_lt_base hn, digitChar_ne_zero hn h⟩
      · obtain ⟨c, cs, hdigits, hc⟩ := ih (n / 10) (by omega) (by omega)
        rw [Nat.toDigits_of_base_le (by omega) (by omega), hdigits]
        exact ⟨c, _, rfl, hc⟩

/-- **The decimal digits of a number are a whole number.** -/
theorem isWhole_toDigits (n : Nat) : IsWhole (Nat.toDigits 10 n) := by
  have hdigits : ∀ c ∈ Nat.toDigits 10 n, c.isDigit :=
    fun c hc => Nat.isDigit_of_mem_toDigits (by omega) (by omega) hc
  by_cases h : n = 0
  · subst h
    exact .zero
  · obtain ⟨c, cs, hcons, hc⟩ := toDigits_eq_cons n h
    rw [hcons] at hdigits ⊢
    obtain ⟨hfirst, hrest⟩ := List.forall_mem_cons.mp hdigits
    exact .digits hfirst hc hrest

theorem hexDigit?_hexDigit (n : Nat) : hexDigit? (hexDigit n) = some (n % 16) := by
  have hall : ∀ d < 16, hexDigit? (Nat.digitChar d) = some d := by decide
  exact hall (n % 16) (Nat.mod_lt n (by omega))

/-- A unit is read off its four digits. -/
theorem unit?_hexDigit (u : UInt16) :
    unit? (hexDigit (u.toNat / 0x1000)) (hexDigit (u.toNat / 0x100)) (hexDigit (u.toNat / 0x10))
      (hexDigit u.toNat) = some u := by
  have hsum : ((u.toNat / 0x1000 % 16 * 16 + u.toNat / 0x100 % 16) * 16 + u.toNat / 0x10 % 16) * 16
      + u.toNat % 16 = u.toNat := by
    have hu := u.toNat_lt
    omega
  simp only [unit?, hexDigit?_hexDigit, Option.bind_eq_bind, Option.bind_some, Option.pure_def, hsum,
    UInt16.ofNat_toNat]

/-- The characters that can be escaped are so by their letters. -/
theorem escape?_letterOf {letter c : Char} (h : escape? letter = some c) : escape? (letterOf c) = some c := by
  unfold escape? at h
  split at h <;> cases h <;> rfl

/-- A piece that can be written is written so. -/
theorem Piece.SpelledAs.print {piece : Piece} {cs : List Char} (h : piece.SpelledAs cs) :
    piece.SpelledAs piece.print := by
  cases h with
  | plain printable not_quote not_backslash => exact .plain printable not_quote not_backslash
  | escaped stands => exact .escaped (escape?_letterOf stands)
  | unit digits => exact .unit (unit?_hexDigit _)

theorem Quoted.SpelledAs.print {s : Quoted} {cs : List Char} (h : s.SpelledAs cs) :
    s.SpelledAs (s.flatMap Piece.print) := by
  induction h with
  | nil => exact .nil
  | cons first _ ih => exact .cons first.print ih

/-- A string that can be written is written so. -/
theorem Quoted.print_of_canBeWritten {s : Quoted} (h : Token.CanBeWritten (.string s)) :
    Token.SpelledAs (.string s) s.print := by
  obtain ⟨cs, h⟩ := h
  cases h with
  | punctuation stands => cases Token.isMark_of_punctuation? stands
  | string quoted => exact .string quoted.print

/-- A number that is not written with digits alone is kept as it is. -/
theorem Token.numeral_of_canBeWritten {written : List Char} (h : CanBeWritten (.numeral written)) :
    SpelledAs (.numeral written) written := by
  obtain ⟨cs, h⟩ := h
  cases h with
  | punctuation stands => cases Token.isMark_of_punctuation? stands
  | numeral number => exact .numeral number

theorem Token.natural_spelledAs (n : Nat) : SpelledAs (.natural n) (Nat.toDigits 10 n) := by
  have h := SpelledAs.natural (isWhole_toDigits n)
  rwa [Nat.ofDigitChars_toDigits (by omega) (by omega)] at h

/-! ## Trees -/

/-- A character that is a token of its own stands before the rest. -/
theorem Spelled.punctuation {c : Char} {t : Token} {ts : List Token} {cs : List Char}
    (stands : punctuation? c = some t) (ends : t.EndsBefore cs) (rest : Spelled ts cs) :
    Spelled (t :: ts) (c :: cs) := .token (.punctuation stands) ends rest

namespace Value

/-- Whether there is a way to write the tree. -/
def CanBeWritten (v : Value) : Prop := ∀ t ∈ v.tokens, t.CanBeWritten

/-- What is printed of items behind others. -/
def printMoreItems : List Value → List Char
  | [] => []
  | v :: vs => ',' :: (v.print ++ printMoreItems vs)

/-- What is printed of members behind others. -/
def printMoreMembers : List (Quoted × Value) → List Char
  | [] => []
  | (k, v) :: ms => ',' :: (k.print ++ ':' :: (v.print ++ printMoreMembers ms))

theorem printItems_cons (v : Value) (vs : List Value) :
    printItems (v :: vs) = v.print ++ printMoreItems vs := by
  induction vs generalizing v with
  | nil => simp [printItems, printMoreItems]
  | cons w vs ih =>
      show v.print ++ ',' :: printItems (w :: vs) = _
      rw [ih, printMoreItems]

theorem printMembers_cons (k : Quoted) (v : Value) (ms : List (Quoted × Value)) :
    printMembers ((k, v) :: ms) = k.print ++ ':' :: (v.print ++ printMoreMembers ms) := by
  induction ms generalizing k v with
  | nil => simp [printMembers, printMoreMembers]
  | cons m ms ih =>
      show k.print ++ ':' :: v.print ++ ',' :: printMembers (m :: ms) = _
      rw [ih, printMoreMembers, List.append_assoc, List.cons_append]

/-- Any token can end before a text that does not begin like a number. -/
def Separate (cs : List Char) : Prop := ∀ t : Token, t.EndsBefore cs

theorem separate_cons {c : Char} (h : isNumberChar c = false) (cs : List Char) : Separate (c :: cs) := by
  intro t
  cases t <;> first | exact h | trivial

theorem separate_nil : Separate [] := by
  intro t
  cases t <;> trivial

/-- What is printed behind an item begins with a comma or is what comes after. -/
theorem separate_moreItems {cs : List Char} (vs : List Value) (h : Separate cs) :
    Separate (printMoreItems vs ++ cs) := by
  cases vs with
  | nil => exact h
  | cons v vs => exact separate_cons rfl _

theorem separate_moreMembers {cs : List Char} (ms : List (Quoted × Value)) (h : Separate cs) :
    Separate (printMoreMembers ms ++ cs) := by
  cases ms with
  | nil => exact h
  | cons m ms => exact separate_cons rfl _

mutual

/-- **A tree that can be written is spelled by what is printed for it**, in front of anything that does not
    begin like a number. -/
theorem spelled_print {ts : List Token} {cs : List Char} (rest : Spelled ts cs) (separate : Separate cs) :
    (v : Value) → v.CanBeWritten → Spelled (v.tokens ++ ts) (v.print ++ cs)
  | null, _ => .token .null trivial rest
  | bool true, _ => .token .true trivial rest
  | bool false, _ => .token .false trivial rest
  | natural n, _ => .token (Token.natural_spelledAs n) (separate _) rest
  | numeral written, h =>
      .token (Token.numeral_of_canBeWritten (h _ List.mem_cons_self)) (separate _) rest
  | string s, h => .token (Quoted.print_of_canBeWritten (h _ List.mem_cons_self)) trivial rest
  | array [] closed, h => by
      simp only [CanBeWritten, tokens, List.forall_mem_cons] at h
      have hclosed : closed := closed_of_canBeWritten h.2.1
      subst hclosed
      exact .punctuation rfl trivial (.punctuation rfl trivial rest)
  | array (v :: vs) closed, h => by
      simp only [CanBeWritten, tokens, List.forall_mem_cons, List.forall_mem_append] at h
      obtain ⟨-, ⟨hv, hvs⟩, hclosed, -⟩ := h
      have hclosed : closed := closed_of_canBeWritten hclosed
      subst hclosed
      have hend : Spelled (.closeArray :: ts) (']' :: cs) := .punctuation rfl trivial rest
      have hmore := spelled_printMoreItems hend (separate_cons rfl cs) vs hvs
      have hitems := spelled_print hmore (separate_moreItems vs (separate_cons rfl cs)) v hv
      have hwhole : Spelled _ ('[' :: _) := .punctuation rfl trivial hitems
      simpa [tokens, print, printItems_cons, ending] using hwhole
  | object [] closed, h => by
      simp only [CanBeWritten, tokens, List.forall_mem_cons] at h
      have hclosed : closed := closed_of_canBeWritten h.2.1
      subst hclosed
      exact .punctuation rfl trivial (.punctuation rfl trivial rest)
  | object ((k, v) :: ms) closed, h => by
      simp only [CanBeWritten, tokens, List.forall_mem_cons, List.forall_mem_append] at h
      obtain ⟨-, hk, -, ⟨hv, hms⟩, hclosed, -⟩ := h
      have hclosed : closed := closed_of_canBeWritten hclosed
      subst hclosed
      have hend : Spelled (.closeObject :: ts) ('\x7d' :: cs) := .punctuation rfl trivial rest
      have hmore := spelled_printMoreMembers hend (separate_cons rfl cs) ms hms
      have hvalue := spelled_print hmore (separate_moreMembers ms (separate_cons rfl cs)) v hv
      have hcolon : Spelled _ (':' :: _) := .punctuation rfl trivial hvalue
      have hkey := Spelled.token (Quoted.print_of_canBeWritten hk) trivial hcolon
      have hwhole : Spelled _ ('\x7b' :: _) := .punctuation rfl trivial hkey
      simpa [tokens, print, printMembers_cons, ending] using hwhole
  | broken, h => absurd (h _ List.mem_cons_self) Token.not_canBeWritten_junk

theorem spelled_printMoreItems {ts : List Token} {cs : List Char} (rest : Spelled ts cs)
    (separate : Separate cs) : (vs : List Value) → (∀ t ∈ moreItems vs, t.CanBeWritten) →
    Spelled (moreItems vs ++ ts) (printMoreItems vs ++ cs)
  | [], _ => rest
  | v :: vs, h => by
      simp only [moreItems, List.forall_mem_cons, List.forall_mem_append] at h
      obtain ⟨-, hv, hvs⟩ := h
      have hmore := spelled_printMoreItems rest separate vs hvs
      have hitems := spelled_print hmore (separate_moreItems vs separate) v hv
      have hwhole : Spelled _ (',' :: _) := .punctuation rfl trivial hitems
      simpa [moreItems, printMoreItems] using hwhole

theorem spelled_printMoreMembers {ts : List Token} {cs : List Char} (rest : Spelled ts cs)
    (separate : Separate cs) : (ms : List (Quoted × Value)) → (∀ t ∈ moreMembers ms, t.CanBeWritten) →
    Spelled (moreMembers ms ++ ts) (printMoreMembers ms ++ cs)
  | [], _ => rest
  | (k, v) :: ms, h => by
      simp only [moreMembers, List.forall_mem_cons, List.forall_mem_append] at h
      obtain ⟨-, hk, -, hv, hms⟩ := h
      have hmore := spelled_printMoreMembers rest separate ms hms
      have hvalue := spelled_print hmore (separate_moreMembers ms separate) v hv
      have hcolon : Spelled _ (':' :: _) := .punctuation rfl trivial hvalue
      have hkey := Spelled.token (Quoted.print_of_canBeWritten hk) trivial hcolon
      have hwhole : Spelled _ (',' :: _) := .punctuation rfl trivial hkey
      simpa [moreMembers, printMoreMembers] using hwhole

end

/-- **A tree that can be written is spelled by its text.** -/
theorem spelledAs_text {v : Value} (h : v.CanBeWritten) : v.SpelledAs v.text := by
  have hprint := spelled_print .nil separate_nil v h
  rw [List.append_nil, List.append_nil] at hprint
  simpa [SpelledAs, text] using hprint

end Value

/-- **What is written is read back.** -/
theorem Document.read_text {v : Value} (h : v.CanBeWritten) :
    read v.text = { value := v, hasTrailing := false } := read_of_spelled (Value.spelledAs_text h)

end BeaconBroadcast.Json
