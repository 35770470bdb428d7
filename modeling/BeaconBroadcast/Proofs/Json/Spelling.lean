import BeaconBroadcast.Json.Token

/-!
# `BeaconBroadcast.Proofs.Json.Spelling` — how the words of a document may be written

The grammar of documents, word by word, and without a reader: which runs of characters are a number, a string
or a name, and how words stand one after the other with blanks between them. Cutting a text into tokens gives
back the words that it spells.

## Contents
- **Strings.** `Piece.SpelledAs`, `Quoted.SpelledAs`; `Quoted.read_of_spelled`.
- **Numbers.** `IsWhole`, `IsFraction`, `IsExponent`; `numeral?_of_isWhole` and `numeral?_of_isNumeral`.
- **Tokens.** `Token.SpelledAs` and `Token.next_of_spelled`.
- **Texts.** `Spelled` and `Token.scan_of_spelled`.
-/

namespace BeaconBroadcast.Json

/-! ## Strings -/

/-- How a piece of a string may be written. -/
inductive Piece.SpelledAs : Piece → List Char → Prop
  /-- Any character but quotes, backslashes and control characters stands for itself. -/
  | plain {c : Char} (printable : 0x20 ≤ c.toNat) (not_quote : c ≠ '"') (not_backslash : c ≠ '\\') :
      SpelledAs (.plain c) [c]
  | escaped {letter c : Char} (stands : escape? letter = some c) : SpelledAs (.escaped c) ['\\', letter]
  | unit {a b c d : Char} {u : UInt16} (digits : unit? a b c d = some u) :
      SpelledAs (.unit u) ['\\', 'u', a, b, c, d]

/-- How a string may be written between its quotes. -/
inductive Quoted.SpelledAs : Quoted → List Char → Prop
  | nil : SpelledAs [] []
  | cons {piece : Piece} {s : Quoted} {cs ds : List Char} (first : piece.SpelledAs cs)
      (rest : SpelledAs s ds) : SpelledAs (piece :: s) (cs ++ ds)

/-- A piece is taken off the front as it is spelled. -/
theorem Quoted.readOnto_piece {piece : Piece} {cs : List Char} (h : piece.SpelledAs cs) (read : List Piece)
    (rest : List Char) : readOnto read (cs ++ rest) = readOnto (piece :: read) rest := by
  cases h with
  | @plain c printable not_quote not_backslash =>
      simp only [List.singleton_append]
      rw [readOnto]
      · exact not_quote
      · intro a b c d rest hc
        exact absurd hc not_backslash
      · intro letter rest hc
        exact absurd hc not_backslash
  | @escaped letter c stands =>
      have hletter : letter ≠ 'u' := by
        rintro rfl
        cases stands
      simp only [List.cons_append, List.nil_append]
      rw [readOnto]
      · simp only [stands]
      · intro a b c d rest hu
        exact absurd hu hletter
  | unit digits =>
      simp only [List.cons_append, List.nil_append]
      rw [readOnto]
      simp only [digits]

theorem Quoted.readOnto_of_spelled {s : Quoted} {cs : List Char} (h : s.SpelledAs cs) (read : List Piece)
    (rest : List Char) : readOnto read (cs ++ '"' :: rest) = some (read.reverse ++ s, rest) := by
  induction h generalizing read with
  | nil => rw [List.nil_append, readOnto, List.append_nil]
  | cons first _ ih =>
      rw [List.append_assoc, readOnto_piece first, ih, List.reverse_cons, List.append_assoc,
        List.singleton_append]

/-- **A spelled string is read up to its closing quote.** -/
theorem Quoted.read_of_spelled {s : Quoted} {cs : List Char} (h : s.SpelledAs cs) (rest : List Char) :
    read (cs ++ '"' :: rest) = some (s, rest) := readOnto_of_spelled h [] rest

/-- No spelled string has a raw control character in it. -/
theorem Quoted.isSound_of_spelled {s : Quoted} {cs : List Char} (h : s.SpelledAs cs) : s.isSound := by
  induction h with
  | nil => rfl
  | @cons piece s cs ds first _ ih =>
      have hpiece : Quoted.isSound [piece] := by
        cases first with
        | plain printable _ _ => simp [isSound, printable]
        | escaped stands => rfl
        | unit digits => rfl
      simp only [isSound, List.all_cons, List.all_nil, Bool.and_true, Bool.and_eq_true] at hpiece ih ⊢
      exact ⟨hpiece, ih⟩

/-! ## Numbers -/

/-- Some digits. -/
def IsDigits (cs : List Char) : Prop := cs ≠ [] ∧ ∀ c ∈ cs, c.isDigit

/-- A whole number: a zero, or digits that begin with another. -/
inductive IsWhole : List Char → Prop
  | zero : IsWhole ['0']
  | digits {c : Char} {cs : List Char} (first : c.isDigit) (nonzero : c ≠ '0') (rest : ∀ c ∈ cs, c.isDigit) :
      IsWhole (c :: cs)

/-- The fraction of a number, if it has one. -/
inductive IsFraction : List Char → Prop
  | none : IsFraction []
  | digits {cs : List Char} (digits : IsDigits cs) : IsFraction ('.' :: cs)

/-- The exponent of a number, if it has one. -/
inductive IsExponent : List Char → Prop
  | none : IsExponent []
  | bare {e : Char} {cs : List Char} (letter : e = 'e' ∨ e = 'E') (digits : IsDigits cs) : IsExponent (e :: cs)
  | signed {e sign : Char} {cs : List Char} (letter : e = 'e' ∨ e = 'E') (sign_eq : sign = '+' ∨ sign = '-')
      (digits : IsDigits cs) : IsExponent (e :: sign :: cs)

/-- A number without a sign. -/
inductive IsMagnitude : List Char → Prop
  | parts {whole fraction exponent : List Char} (whole_ok : IsWhole whole) (fraction_ok : IsFraction fraction)
      (exponent_ok : IsExponent exponent) : IsMagnitude (whole ++ fraction ++ exponent)

/-- A number that is not written with digits alone. -/
inductive IsNumeral : List Char → Prop
  | negative {cs : List Char} (magnitude : IsMagnitude cs) : IsNumeral ('-' :: cs)
  | positive {cs : List Char} (magnitude : IsMagnitude cs) (other : ∃ c ∈ cs, c.isDigit = false) : IsNumeral cs

/-- What follows does not begin with a digit. -/
def NoDigitFirst : List Char → Prop
  | [] => True
  | c :: _ => c.isDigit = false

theorem dropWhile_digits {cs rest : List Char} (h : ∀ c ∈ cs, c.isDigit) (hrest : NoDigitFirst rest) :
    (cs ++ rest).dropWhile Char.isDigit = rest := by
  rw [List.dropWhile_append_of_pos h]
  cases rest with
  | nil => rfl
  | cons c rest => exact List.dropWhile_cons_of_neg (by rw [hrest]; exact Bool.false_ne_true)

theorem afterDigits?_of_isDigits {cs rest : List Char} (h : IsDigits cs) (hrest : NoDigitFirst rest) :
    afterDigits? (cs ++ rest) = some rest := by
  obtain ⟨hne, hdigits⟩ := h
  cases cs with
  | nil => exact absurd rfl hne
  | cons c cs =>
      obtain ⟨hc, hcs⟩ := List.forall_mem_cons.mp hdigits
      simp only [List.cons_append, afterDigits?, hc, if_true, dropWhile_digits hcs hrest]

theorem afterWhole?_of_isWhole {cs rest : List Char} (h : IsWhole cs) (hrest : NoDigitFirst rest) :
    afterWhole? (cs ++ rest) = some rest := by
  cases h with
  | zero => rfl
  | @digits c cs first nonzero digits =>
      rw [List.cons_append, afterWhole?]
      · rw [if_pos first, dropWhile_digits digits hrest]
      · exact nonzero

theorem noDigitFirst_of_isExponent {cs : List Char} (h : IsExponent cs) : NoDigitFirst cs := by
  cases h with
  | none => trivial
  | bare letter digits => rcases letter with rfl | rfl <;> rfl
  | signed letter sign_eq digits => rcases letter with rfl | rfl <;> rfl

theorem noDigitFirst_of_isFraction {cs rest : List Char} (h : IsFraction cs) (hrest : NoDigitFirst rest) :
    NoDigitFirst (cs ++ rest) := by
  cases h with
  | none => exact hrest
  | digits digits => rfl

theorem afterFraction?_of_isFraction {cs rest : List Char} (h : IsFraction cs) (hrest : IsExponent rest) :
    afterFraction? (cs ++ rest) = some rest := by
  cases h with
  | none =>
      rw [List.nil_append]
      cases hrest with
      | none => rfl
      | bare letter digits => rcases letter with rfl | rfl <;> rfl
      | signed letter sign_eq digits => rcases letter with rfl | rfl <;> rfl
  | digits digits =>
      rw [List.cons_append, afterFraction?]
      exact afterDigits?_of_isDigits digits (noDigitFirst_of_isExponent hrest)

theorem afterExponent?_of_isExponent {cs : List Char} (h : IsExponent cs) : afterExponent? cs = some [] := by
  have hall {cs : List Char} (digits : IsDigits cs) : afterDigits? cs = some [] := by
    rw [← List.append_nil cs]
    exact afterDigits?_of_isDigits digits trivial
  cases h with
  | none => rfl
  | @bare e cs letter digits =>
      -- a digit is no sign
      obtain ⟨hne, hdigits⟩ := digits
      cases cs with
      | nil => exact absurd rfl hne
      | cons c cs =>
          have hc : ¬ (c = '+' ∨ c = '-') := by
            rintro (rfl | rfl)
            · exact absurd (hdigits _ List.mem_cons_self) (by decide)
            · exact absurd (hdigits _ List.mem_cons_self) (by decide)
          simp only [afterExponent?, if_pos letter, if_neg hc]
          exact hall ⟨hne, hdigits⟩
  | signed letter sign_eq digits =>
      simp only [afterExponent?, if_pos letter, if_pos sign_eq]
      exact hall digits

/-- Numbers without a sign are recognised. -/
theorem isUnsigned_of_isMagnitude {cs : List Char} (h : IsMagnitude cs) : isUnsigned cs := by
  obtain ⟨whole, fraction, exponent⟩ := h
  have hrest := noDigitFirst_of_isFraction fraction (noDigitFirst_of_isExponent exponent)
  simp only [isUnsigned, List.append_assoc, afterWhole?_of_isWhole whole hrest, Option.bind_some,
    afterFraction?_of_isFraction fraction exponent, afterExponent?_of_isExponent exponent, beq_self_eq_true]

theorem IsWhole.isMagnitude {cs : List Char} (h : IsWhole cs) : IsMagnitude cs := by
  have hparts : IsMagnitude (cs ++ [] ++ []) := .parts h .none .none
  rwa [List.append_nil, List.append_nil] at hparts

theorem IsWhole.all_isDigit {cs : List Char} (h : IsWhole cs) : ∀ c ∈ cs, c.isDigit := by
  cases h with
  | zero => exact List.forall_mem_singleton.mpr rfl
  | digits first nonzero rest => exact List.forall_mem_cons.mpr ⟨first, rest⟩

/-- A number begins with a digit. -/
theorem IsMagnitude.first {cs : List Char} (h : IsMagnitude cs) :
    ∃ c rest, cs = c :: rest ∧ c.isDigit := by
  obtain ⟨whole, fraction, exponent⟩ := h
  cases whole with
  | zero => exact ⟨'0', _, rfl, rfl⟩
  | digits first nonzero rest => exact ⟨_, _, rfl, first⟩

theorem not_digit_minus {c : Char} (h : c.isDigit) : c ≠ '-' := by
  rintro rfl
  exact absurd h (by decide)

/-- **A whole number is the token of its value.** -/
theorem numeral?_of_isWhole {cs : List Char} (h : IsWhole cs) :
    numeral? cs = some (.natural (Nat.ofDigitChars 10 cs 0)) := by
  obtain ⟨c, rest, rfl, hc⟩ := h.isMagnitude.first
  have hall : (c :: rest).all Char.isDigit := List.all_eq_true.mpr h.all_isDigit
  rw [numeral?]
  · rw [if_pos (isUnsigned_of_isMagnitude h.isMagnitude), if_pos hall]
    rfl
  · intro rest' heq
    exact not_digit_minus hc (List.cons.inj heq).1

/-- **Any other number is kept as it is written.** -/
theorem numeral?_of_isNumeral {cs : List Char} (h : IsNumeral cs) : numeral? cs = some (.numeral cs) := by
  cases h with
  | negative magnitude =>
      rw [numeral?, if_pos (isUnsigned_of_isMagnitude magnitude)]
  | positive magnitude other =>
      obtain ⟨c, rest, rfl, hc⟩ := magnitude.first
      have hother : ¬ (c :: rest).all Char.isDigit := by
        intro hall
        obtain ⟨d, hd, hdigit⟩ := other
        rw [List.all_eq_true.mp hall d hd] at hdigit
        cases hdigit
      rw [numeral?]
      · rw [if_pos (isUnsigned_of_isMagnitude magnitude), if_neg hother]
      · intro rest' heq
        exact not_digit_minus hc (List.cons.inj heq).1

theorem isNumberChar_of_isDigit {c : Char} (h : c.isDigit) : isNumberChar c := by
  rw [isNumberChar, h, Bool.true_or]

theorem IsMagnitude.all_isNumberChar {cs : List Char} (h : IsMagnitude cs) : ∀ c ∈ cs, isNumberChar c := by
  have hdigits {cs : List Char} (digits : IsDigits cs) : ∀ c ∈ cs, isNumberChar c :=
    fun c hc => isNumberChar_of_isDigit (digits.2 c hc)
  obtain ⟨whole, fraction, exponent⟩ := h
  refine List.forall_mem_append.mpr ⟨List.forall_mem_append.mpr ⟨?_, ?_⟩, ?_⟩
  · exact fun c hc => isNumberChar_of_isDigit (whole.all_isDigit c hc)
  · cases fraction with
    | none => simp
    | digits digits => exact List.forall_mem_cons.mpr ⟨rfl, hdigits digits⟩
  · cases exponent with
    | none => simp
    | bare letter digits =>
        refine List.forall_mem_cons.mpr ⟨?_, hdigits digits⟩
        rcases letter with rfl | rfl <;> rfl
    | signed letter sign_eq digits =>
        refine List.forall_mem_cons.mpr ⟨?_, List.forall_mem_cons.mpr ⟨?_, hdigits digits⟩⟩
        · rcases letter with rfl | rfl <;> rfl
        · rcases sign_eq with rfl | rfl <;> rfl

theorem IsNumeral.all_isNumberChar {cs : List Char} (h : IsNumeral cs) : ∀ c ∈ cs, isNumberChar c := by
  cases h with
  | negative magnitude => exact List.forall_mem_cons.mpr ⟨rfl, magnitude.all_isNumberChar⟩
  | positive magnitude other => exact magnitude.all_isNumberChar

theorem IsNumeral.first {cs : List Char} (h : IsNumeral cs) :
    ∃ c rest, cs = c :: rest ∧ (c.isDigit ∨ c = '-') := by
  cases h with
  | negative magnitude => exact ⟨_, _, rfl, Or.inr rfl⟩
  | positive magnitude other =>
      obtain ⟨c, rest, rfl, hc⟩ := magnitude.first
      exact ⟨c, rest, rfl, Or.inl hc⟩

/-! ## Tokens -/

namespace Token

/-- How a token may be written. -/
inductive SpelledAs : Token → List Char → Prop
  | punctuation {c : Char} {t : Token} (stands : punctuation? c = some t) : SpelledAs t [c]
  | null : SpelledAs .null ['n', 'u', 'l', 'l']
  | true : SpelledAs (.bool true) ['t', 'r', 'u', 'e']
  | false : SpelledAs (.bool false) ['f', 'a', 'l', 's', 'e']
  | natural {cs : List Char} (whole : IsWhole cs) : SpelledAs (.natural (Nat.ofDigitChars 10 cs 0)) cs
  | numeral {cs : List Char} (number : IsNumeral cs) : SpelledAs (.numeral cs) cs
  | string {s : Quoted} {cs : List Char} (quoted : s.SpelledAs cs) :
      SpelledAs (.string s) ('"' :: (cs ++ ['"']))

/-- Whether a token can end before `rest`: a number goes on as far as it can. -/
def EndsBefore : Token → List Char → Prop
  | natural _, c :: _ => isNumberChar c = false
  | numeral _, c :: _ => isNumberChar c = false
  | _, _ => True

/-- Whether the token is a single character. -/
def isMark : Token → Bool
  | openArray => true
  | closeArray => true
  | openObject => true
  | closeObject => true
  | comma => true
  | colon => true
  | _ => false

theorem isMark_of_punctuation? {c : Char} {t : Token} (h : punctuation? c = some t) : t.isMark := by
  unfold punctuation? at h
  split at h <;> cases h <;> rfl

theorem punctuation?_not_blank {c : Char} {t : Token} (h : punctuation? c = some t) : isBlank c = false := by
  unfold punctuation? at h
  split at h <;> first | rfl | cases h

/-- A number is taken off the front whole. -/
theorem next_of_number {c : Char} {cs rest : List Char} {t : Token} (first : c.isDigit ∨ c = '-')
    (number : ∀ d ∈ c :: cs, isNumberChar d) (ends : ∀ d ∈ rest.head?, isNumberChar d = false)
    (reads : numeral? (c :: cs) = some t) : next c (cs ++ rest) = some (t, rest) := by
  have hpunctuation : punctuation? c = none := by
    unfold punctuation?
    split <;> first | rfl | (rcases first with h | h <;> exact absurd h (by decide))
  have hquote : c ≠ '"' := by
    rintro rfl
    rcases first with h | h <;> exact absurd h (by decide)
  have hcs : ∀ d ∈ cs, isNumberChar d := fun d hd => number d (List.mem_cons_of_mem c hd)
  have htake : (cs ++ rest).takeWhile isNumberChar = cs := by
    rw [List.takeWhile_append_of_pos hcs]
    cases rest with
    | nil => exact List.append_nil cs
    | cons d rest =>
        rw [List.takeWhile_cons_of_neg (by rw [ends d rfl]; exact Bool.false_ne_true), List.append_nil]
  have hdrop : (cs ++ rest).dropWhile isNumberChar = rest := by
    rw [List.dropWhile_append_of_pos hcs]
    cases rest with
    | nil => rfl
    | cons d rest => exact List.dropWhile_cons_of_neg (by rw [ends d rfl]; exact Bool.false_ne_true)
  simp only [next, hpunctuation, if_neg hquote, if_pos first, htake, hdrop, reads, Option.map_some]

theorem not_blank_of_number {c : Char} (h : c.isDigit ∨ c = '-') : isBlank c = false := by
  cases hblank : isBlank c with
  | false => rfl
  | true =>
      have hmem : c = ' ' ∨ c = '\t' ∨ c = '\n' ∨ c = '\r' := by simpa [isBlank] using hblank
      rcases hmem with rfl | rfl | rfl | rfl <;> rcases h with h | h <;> exact absurd h (by decide)

/-- **A spelled token is taken off the front.** -/
theorem next_of_spelled {t : Token} {cs rest : List Char} (h : t.SpelledAs cs) (ends : t.EndsBefore rest) :
    ∃ c tail, cs ++ rest = c :: tail ∧ isBlank c = false ∧ next c tail = some (t, rest) := by
  cases h with
  | @punctuation c t stands =>
      refine ⟨c, rest, rfl, punctuation?_not_blank stands, ?_⟩
      simp only [next, stands]
  | null => exact ⟨'n', _, rfl, rfl, rfl⟩
  | true => exact ⟨'t', _, rfl, rfl, rfl⟩
  | false => exact ⟨'f', _, rfl, rfl, rfl⟩
  | natural whole =>
      obtain ⟨c, tail, rfl, hc⟩ := whole.isMagnitude.first
      refine ⟨c, tail ++ rest, rfl, not_blank_of_number (Or.inl hc), ?_⟩
      refine next_of_number (Or.inl hc) whole.isMagnitude.all_isNumberChar ?_ (numeral?_of_isWhole whole)
      cases rest with
      | nil => simp
      | cons d rest => simpa [EndsBefore] using ends
  | numeral number =>
      obtain ⟨c, tail, rfl, hc⟩ := number.first
      refine ⟨c, tail ++ rest, rfl, not_blank_of_number hc, ?_⟩
      refine next_of_number hc number.all_isNumberChar ?_ (numeral?_of_isNumeral number)
      cases rest with
      | nil => simp
      | cons d rest => simpa [EndsBefore] using ends
  | @string s cs quoted =>
      refine ⟨'"', cs ++ '"' :: rest, by simp, rfl, ?_⟩
      show (Quoted.read (cs ++ '"' :: rest)).map _ = _
      rw [Quoted.read_of_spelled quoted, Option.map_some]

end Token

/-! ## Texts -/

/-- How tokens may be written one after the other, with blanks anywhere between them. -/
inductive Spelled : List Token → List Char → Prop
  | nil : Spelled [] []
  | blank {ts : List Token} {c : Char} {cs : List Char} (blank : isBlank c) (rest : Spelled ts cs) :
      Spelled ts (c :: cs)
  | token {t : Token} {ts : List Token} {cs rest : List Char} (first : t.SpelledAs cs)
      (ends : t.EndsBefore rest) (others : Spelled ts rest) : Spelled (t :: ts) (cs ++ rest)

/-- **Cutting a text gives the tokens that it spells**, after those that were read before. -/
theorem Token.scanOnto_of_spelled {ts : List Token} {cs : List Char} (h : Spelled ts cs) (read : List Token) :
    scanOnto read cs = read.reverse ++ ts := by
  induction h generalizing read with
  | nil => rw [scanOnto, List.append_nil]
  | blank blank rest ih => rw [scanOnto, if_pos blank, ih]
  | @token t ts cs rest first ends others ih =>
      obtain ⟨c, tail, htext, hblank, hnext⟩ := next_of_spelled first ends
      rw [htext, scanOnto, if_neg (by rw [hblank]; exact Bool.false_ne_true)]
      split
      · next t' rest' hnext' =>
          cases hnext.symm.trans hnext'
          rw [ih, List.reverse_cons, List.append_assoc, List.singleton_append]
      · next hnext' => cases hnext.symm.trans hnext'

theorem Token.scan_of_spelled {ts : List Token} {cs : List Char} (h : Spelled ts cs) : scan cs = ts :=
  scanOnto_of_spelled h []

end BeaconBroadcast.Json
