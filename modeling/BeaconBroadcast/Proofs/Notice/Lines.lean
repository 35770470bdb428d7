import BeaconBroadcast.Notice

/-!
# `BeaconBroadcast.Proofs.Notice.Lines` — the line tells the remark

What is told to the log is written as a line: a severity and a text. A text on a late broadcast holds the root in
hexadecimal digits, of which there is a fixed number, and the slot and the milliseconds in decimal digits, each up to
what is no digit. So it can be read back, and no other notice is written in the same way.

## Contents
- **Numbers.** `digits_append_inj` and `hex_append_inj`: where a number ends in a text.
- **Blocks.** `Notice.blockStart_append_inj`: a block by root and slot is read back from a text that begins with it.
- **Lines.** `LogLine`, `LogLine.tooLate` and `LogLine.delayed`, and `LogLine.TellsDelay` for either;
  `Notice.line_eq_tooLate_iff` and `Notice.line_eq_delayed_iff`: what the lines on late broadcasts are written for.
-/

namespace BeaconBroadcast

/-! ## Numbers -/

/-- Decimal digits up to what is no digit determine a number and what follows it. -/
theorem digits_append_inj {m n : Nat} {c d : Char} {rest rest' : List Char} (hc : ¬ c.isDigit) (hd : ¬ d.isDigit)
    (h : Nat.toDigits 10 m ++ c :: rest = Nat.toDigits 10 n ++ d :: rest') : m = n ∧ c :: rest = d :: rest' := by
  have hends {k : Nat} {e : Char} {tail : List Char} (he : ¬ e.isDigit) :
      (Nat.toDigits 10 k ++ e :: tail).takeWhile Char.isDigit = Nat.toDigits 10 k := by
    rw [List.takeWhile_append_of_pos fun _ => Nat.isDigit_of_mem_toDigits (by decide) (by decide),
      List.takeWhile_cons_of_neg he, List.append_nil]
  have hdigits : Nat.toDigits 10 m = Nat.toDigits 10 n := by
    rw [← hends hc, h, hends hd]
  refine ⟨?_, List.append_cancel_left (hdigits ▸ h)⟩
  rw [← Nat.ofDigitChars_ten_toDigits (n := m), hdigits, Nat.ofDigitChars_ten_toDigits]

theorem hexByte_injective {a b : UInt8} (h : hexByte a = hexByte b) : a = b := by
  have hdigit : ∀ m n : Fin 16, Nat.digitChar m.val = Nat.digitChar n.val → m = n := by decide
  obtain ⟨hhigh, hlow, -⟩ := List.cons.inj h |>.imp_right List.cons.inj
  have ha := a.toNat_lt
  have hb := b.toNat_lt
  have hhigh := hdigit ⟨a.toNat / 16, by omega⟩ ⟨b.toNat / 16, by omega⟩ hhigh
  have hlow := hdigit ⟨a.toNat % 16, by omega⟩ ⟨b.toNat % 16, by omega⟩ hlow
  have hdiv : a.toNat / 16 = b.toNat / 16 := congrArg Fin.val hhigh
  have hmod : a.toNat % 16 = b.toNat % 16 := congrArg Fin.val hlow
  exact UInt8.toNat_inj.mp (by omega)

theorem length_flatMap_hexByte (bytes : List UInt8) : (bytes.flatMap hexByte).length = 2 * bytes.length := by
  induction bytes with
  | nil => rfl
  | cons byte bytes ih =>
      rw [List.flatMap_cons, List.length_append, ih, List.length_cons]
      show 2 + _ = _
      omega

/-- The digits of as many bytes determine the bytes. -/
theorem flatMap_hexByte_inj {bytes bytes' : List UInt8} (same : bytes.length = bytes'.length)
    (h : bytes.flatMap hexByte = bytes'.flatMap hexByte) : bytes = bytes' := by
  induction bytes generalizing bytes' with
  | nil => exact (List.length_eq_zero_iff.mp same.symm).symm
  | cons byte bytes ih =>
      cases bytes' with
      | nil => cases same
      | cons byte' bytes' =>
          obtain ⟨hbyte, hbytes⟩ := List.append_inj h rfl
          rw [hexByte_injective hbyte, ih (Nat.succ.inj same) hbytes]

/-- Byte strings of one length have as many digits each, so the digits determine a string and what follows it. -/
theorem hex_append_inj {n : Nat} {a b : Bytes n} {rest rest' : List Char}
    (h : a.hex.toList ++ rest = b.hex.toList ++ rest') : a = b ∧ rest = rest' := by
  unfold Bytes.hex at h
  rw [String.toList_ofList, String.toList_ofList] at h
  have hsame : a.toList.length = b.toList.length := by rw [Vector.length_toList, Vector.length_toList]
  obtain ⟨hdigits, hrest⟩ := List.append_inj h (by rw [length_flatMap_hexByte, length_flatMap_hexByte, hsame])
  exact ⟨Vector.toList_inj.mp (flatMap_hexByte_inj hsame hdigits), hrest⟩

theorem toList_word (w : UInt64) : (toString w).toList = Nat.toDigits 10 w.toNat := Nat.toList_repr

theorem toList_string (s : String) : (toString s).toList = s.toList := rfl

/-! ## Blocks -/

namespace Notice

/-- The start of a line about a block. -/
def blockStart (root : Root) (slot : Slot) : List Char :=
  "[qc-17] ".toList ++ ("Block ".toList ++ (root.hex.toList ++ (" slot ".toList ++ Nat.toDigits 10 slot.toNat)))

/-- **A block by root and slot is read back** from a line that begins with it. -/
theorem blockStart_append_inj {root root' : Root} {slot slot' : Slot} {rest rest' : List Char}
    (h : blockStart root slot ++ ' ' :: rest = blockStart root' slot' ++ ' ' :: rest') :
    root = root' ∧ slot = slot' ∧ rest = rest' := by
  unfold blockStart at h
  simp only [List.append_assoc] at h
  obtain ⟨hroot, h⟩ := hex_append_inj (List.append_cancel_left (List.append_cancel_left h))
  obtain ⟨hslot, h⟩ := digits_append_inj (by decide) (by decide) (List.append_cancel_left h)
  exact ⟨hroot, UInt64.toNat_inj.mp hslot, List.tail_eq_of_cons_eq h⟩

theorem toList_text (n : Notice) : n.text.toList = "[qc-17] ".toList ++ n.body.toList := by
  rw [text, String.toList_append]
  rfl

theorem toList_blockText (root : Root) (slot : Slot) :
    (blockText root slot).toList = root.hex.toList ++ (" slot ".toList ++ Nat.toDigits 10 slot.toNat) := by
  unfold blockText
  rw [String.toList_append, String.toList_append, toList_word, List.append_assoc]
  rfl

/-- A line with a body about a block. -/
theorem toList_text_of_block {n : Notice} {root : Root} {slot : Slot} {rest : List Char}
    (h : n.body.toList = "Block ".toList ++ ((blockText root slot).toList ++ rest)) :
    n.text.toList = blockStart root slot ++ rest := by
  rw [toList_text, h, toList_blockText]
  unfold blockStart
  simp only [List.append_assoc]

end Notice

/-! ## Lines -/

/-- A line of the log. -/
structure LogLine where
  severity : Severity
  text : String
deriving DecidableEq

/-- The line that a notice is written as. -/
def Notice.line (n : Notice) : LogLine where
  severity := n.severity
  text := n.text

namespace LogLine

variable {severity : Severity} {what fate : String} {root root' : Root} {slot slot' : Slot} {offset offset' : Millis}

/-- A line about how far into its slot a block was broadcast, and what will become of it. -/
def ofDelay (severity : Severity) (what fate : String) (root : Root) (slot : Slot) (offset : Millis) : LogLine where
  severity := severity
  text := "[qc-17] Block " ++ root.hex ++ " slot " ++ toString slot ++ " " ++ what ++ " (" ++ toString offset
    ++ "ms into slot); block " ++ fate

/-- The error about a block that was broadcast after attestations were due. -/
def tooLate : Root → Slot → Millis → LogLine := ofDelay .error "was broadcast too late" "likely to be orphaned"

/-- The warning about a block that was broadcast after half the time until then. -/
def delayed : Root → Slot → Millis → LogLine := ofDelay .warn "broadcast was delayed" "may be orphaned"

/-- The line is one on a late broadcast, and tells how far into its slot that was. -/
inductive TellsDelay : LogLine → Millis → Prop
  | tooLate (root : Root) (slot : Slot) (offset : Millis) : TellsDelay (tooLate root slot offset) offset
  | delayed (root : Root) (slot : Slot) (offset : Millis) : TellsDelay (delayed root slot offset) offset

theorem toList_ofDelay : (ofDelay severity what fate root slot offset).text.toList =
    Notice.blockStart root slot ++ ' ' :: (what.toList ++ (" (".toList ++ (Nat.toDigits 10 offset.toNat ++
      ("ms into slot); block ".toList ++ fate.toList)))) := by
  unfold ofDelay Notice.blockStart
  simp only [String.toList_append, List.append_assoc]
  rw [toList_word slot, toList_word offset]
  rfl

/-- Block and milliseconds are read back from such a line. -/
theorem ofDelay_inj (h : ofDelay severity what fate root slot offset = ofDelay severity what fate root' slot' offset') :
    root = root' ∧ slot = slot' ∧ offset = offset' := by
  have htext := congrArg (fun line => line.text.toList) h
  simp only [toList_ofDelay] at htext
  obtain ⟨hroot, hslot, hrest⟩ := Notice.blockStart_append_inj htext
  have hmillis := List.append_cancel_left (List.append_cancel_left hrest)
  obtain ⟨hoffset, -⟩ := digits_append_inj (by decide) (by decide) hmillis
  exact ⟨hroot, hslot, UInt64.toNat_inj.mp hoffset⟩

end LogLine

namespace Notice

variable {n : Notice} {severity : Severity} {what fate : String} {root : Root} {slot : Slot} {offset : Millis}

/-- What does not begin with a block is not written as a line about a delay. -/
theorem line_ne_ofDelay (h : n.body.toList.head? ≠ some 'B') :
    n.line ≠ .ofDelay severity what fate root slot offset := by
  intro hline
  have htext : n.text.toList = (LogLine.ofDelay severity what fate root slot offset).text.toList :=
    congrArg (fun line => line.text.toList) hline
  have hbody := ((toList_text n).symm.trans htext).trans LogLine.toList_ofDelay
  unfold blockStart at hbody
  rw [List.append_assoc, List.append_assoc] at hbody
  rw [List.append_cancel_left hbody] at h
  exact h rfl

/-- Nor is what says something else of the block. -/
theorem line_ne_ofDelay_of_block {c : Char} {rest : List Char} {root' : Root} {slot' : Slot}
    (h : n.body.toList = "Block ".toList ++ ((blockText root slot).toList ++ ' ' :: rest))
    (begins : what.toList.head? = some c) (other : rest.head? ≠ some c) :
    n.line ≠ .ofDelay severity what fate root' slot' offset := by
  intro hline
  have htext : n.text.toList = (LogLine.ofDelay severity what fate root' slot' offset).text.toList :=
    congrArg (fun line => line.text.toList) hline
  have hstart := ((toList_text_of_block h).symm.trans htext).trans LogLine.toList_ofDelay
  obtain ⟨-, -, hrest⟩ := blockStart_append_inj hstart
  rw [hrest, List.head?_append, begins] at other
  exact other rfl

/-- What goes on like a line about a delay is written as one. -/
theorem line_eq_ofDelay (h : n.body.toList = "Block ".toList ++ ((blockText root slot).toList ++ ' ' :: (what.toList ++
      (" (".toList ++ (Nat.toDigits 10 offset.toNat ++ ("ms into slot); block ".toList ++ fate.toList)))))) :
    n.line = .ofDelay n.severity what fate root slot offset := by
  have htext : n.text = (LogLine.ofDelay n.severity what fate root slot offset).text :=
    String.toList_inj.mp ((toList_text_of_block h).trans LogLine.toList_ofDelay.symm)
  rw [line, htext]
  rfl

theorem line_tooLate (root : Root) (slot : Slot) (offset : Millis) :
    (broadcastTooLate root slot offset).line = .tooLate root slot offset := by
  apply line_eq_ofDelay
  unfold body
  simp only [String.toList_append, List.append_assoc, toList_string, toList_word]
  -- literals are taken as lists of characters, since computing these takes long
  repeat rw [String.toList_ofList]
  rfl

theorem line_delayed (root : Root) (slot : Slot) (offset : Millis) :
    (broadcastDelayed root slot offset).line = .delayed root slot offset := by
  apply line_eq_ofDelay
  unfold body
  simp only [String.toList_append, List.append_assoc, toList_string, toList_word]
  repeat rw [String.toList_ofList]
  rfl

/-- Of the errors only the one about a late broadcast begins with a block. -/
theorem error_cases (h : n.severity = .error) :
    (∃ root slot offset, n = .broadcastTooLate root slot offset) ∨ n.body.toList.head? ≠ some 'B' := by
  cases n with
  | broadcastTooLate root slot offset => exact Or.inl ⟨root, slot, offset, rfl⟩
  | blockRefused | sidecarRefused | importFailed | aborted =>
      right
      unfold body
      simp only [String.toList_append]
      exact nofun
  | _ => cases h

/-- Of the warnings three begin with a block, and the one about a late broadcast goes on as no other. -/
theorem warning_cases (h : n.severity = .warn) :
    (∃ root slot offset, n = .broadcastDelayed root slot offset) ∨ n.body.toList.head? ≠ some 'B' ∨
      ∃ root slot rest, n.body.toList = "Block ".toList ++ ((blockText root slot).toList ++ ' ' :: rest) ∧
        rest.head? ≠ some 'b' := by
  cases n with
  | broadcastDelayed root slot offset => exact Or.inl ⟨root, slot, offset, rfl⟩
  | sidecarsIgnored | sidecarsRejected | noPublisher =>
      right
      left
      unfold body
      simp only [String.toList_append]
      exact nofun
  | partlyBroadcast root slot | publishingSkipped root slot =>
      refine Or.inr (Or.inr ⟨root, slot, ?_⟩)
      unfold body
      simp only [String.toList_append, List.append_assoc, toList_string]
      rw [String.toList_ofList (l := ' ' :: _)]
      exact ⟨_, rfl, nofun⟩
  | _ => cases h

/-- **The error is written for nothing but a broadcast that is too late.** -/
theorem line_eq_tooLate_iff : n.line = .tooLate root slot offset ↔ n = .broadcastTooLate root slot offset := by
  constructor
  · intro h
    rcases error_cases (congrArg LogLine.severity h) with ⟨root', slot', offset', rfl⟩ | hother
    · rw [line_tooLate] at h
      obtain ⟨rfl, rfl, rfl⟩ := LogLine.ofDelay_inj h
      rfl
    · exact absurd h (line_ne_ofDelay hother)
  · rintro rfl
    exact line_tooLate root slot offset

/-- **The warning is written for nothing but a broadcast that is delayed.** -/
theorem line_eq_delayed_iff : n.line = .delayed root slot offset ↔ n = .broadcastDelayed root slot offset := by
  constructor
  · intro h
    rcases warning_cases (congrArg LogLine.severity h) with
      ⟨root', slot', offset', rfl⟩ | hother | ⟨root', slot', rest, hblock, hother⟩
    · rw [line_delayed] at h
      obtain ⟨rfl, rfl, rfl⟩ := LogLine.ofDelay_inj h
      rfl
    · exact absurd h (line_ne_ofDelay hother)
    · exact absurd h (line_ne_ofDelay_of_block hblock rfl hother)
  · rintro rfl
    exact line_delayed root slot offset

end Notice

end BeaconBroadcast
