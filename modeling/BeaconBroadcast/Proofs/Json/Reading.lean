import BeaconBroadcast.Json.Document
import BeaconBroadcast.Proofs.Json.Spelling

/-!
# `BeaconBroadcast.Proofs.Json.Reading` — a document is read as the tree that it spells

A tree is written as its tokens, in any spelling and with any blanks between them. What is not closed and what
is broken cannot be written at all. Whoever reads the text gets the tree back, and nothing is left over.

## Contents
- **Tokens.** `Value.tokens` and `Value.SpelledAs`; `Value.isSound_of_spelled`.
- **Reading.** `valueDue_tokens`: the tokens of a tree are read as the tree, whatever is open around it.
- **Documents.** `Document.read_of_spelled`.
-/

namespace BeaconBroadcast.Json

/-! ## Tokens -/

namespace Value

/-- The end of an array or an object. What is left open has an end that cannot be written. -/
def ending (t : Token) (closed : Bool) : Token := if closed then t else .junk

mutual

/-- The tree as tokens. -/
def tokens : Value → List Token
  | null => [.null]
  | bool b => [.bool b]
  | natural n => [.natural n]
  | numeral written => [.numeral written]
  | string s => [.string s]
  | array [] closed => [.openArray, ending .closeArray closed]
  | array (v :: vs) closed => .openArray :: (v.tokens ++ moreItems vs ++ [ending .closeArray closed])
  | object [] closed => [.openObject, ending .closeObject closed]
  | object ((k, v) :: ms) closed =>
      .openObject :: .string k :: .colon :: (v.tokens ++ moreMembers ms ++ [ending .closeObject closed])
  | broken => [.junk]

/-- Items that follow others, each behind a comma. -/
def moreItems : List Value → List Token
  | [] => []
  | v :: vs => .comma :: (v.tokens ++ moreItems vs)

/-- Members that follow others, each behind a comma. -/
def moreMembers : List (Quoted × Value) → List Token
  | [] => []
  | (k, v) :: ms => .comma :: .string k :: .colon :: (v.tokens ++ moreMembers ms)

end

/-- Whether `text` is a way to write the tree. -/
def SpelledAs (v : Value) (text : String) : Prop := Spelled v.tokens text.toList

end Value

/-- Whether there is a way to write the token. -/
def Token.CanBeWritten (t : Token) : Prop := ∃ cs, t.SpelledAs cs

theorem Token.not_canBeWritten_junk : ¬ CanBeWritten .junk := by
  rintro ⟨cs, h⟩
  cases h with
  | punctuation stands => cases Token.isMark_of_punctuation? stands

theorem Token.isSound_of_canBeWritten {s : Quoted} (h : CanBeWritten (.string s)) : s.isSound := by
  obtain ⟨cs, h⟩ := h
  cases h with
  | punctuation stands => cases Token.isMark_of_punctuation? stands
  | string quoted => exact Quoted.isSound_of_spelled quoted

/-- A text is made of tokens that can be written. -/
theorem Spelled.canBeWritten {ts : List Token} {cs : List Char} (h : Spelled ts cs) :
    ∀ t ∈ ts, t.CanBeWritten := by
  induction h with
  | nil => simp
  | blank blank rest ih => exact ih
  | token first ends others ih => exact List.forall_mem_cons.mpr ⟨⟨_, first⟩, ih⟩

namespace Value

/-- The end of a container that can be written is there. -/
theorem closed_of_canBeWritten {t : Token} {closed : Bool} (h : (ending t closed).CanBeWritten) : closed := by
  cases closed with
  | true => rfl
  | false => exact absurd h Token.not_canBeWritten_junk

mutual

/-- **What can be written is sound.** -/
theorem isSound_of_tokens : (v : Value) → (∀ t ∈ v.tokens, t.CanBeWritten) → v.isSound
  | null, _ => rfl
  | bool _, _ => rfl
  | natural _, _ => rfl
  | numeral _, _ => rfl
  | string s, h => Token.isSound_of_canBeWritten (h _ List.mem_cons_self)
  | array [] closed, h => by
      simp only [tokens, List.forall_mem_cons] at h
      obtain ⟨-, hclosed, -⟩ := h
      exact closed_of_canBeWritten hclosed
  | array (v :: vs) closed, h => by
      simp only [tokens, List.forall_mem_cons, List.forall_mem_append] at h
      obtain ⟨-, ⟨hv, hvs⟩, hclosed, -⟩ := h
      rw [isSound, allSound, isSound_of_tokens v hv, allSound_of_tokens vs hvs, closed_of_canBeWritten hclosed]
      rfl
  | object [] closed, h => by
      simp only [tokens, List.forall_mem_cons] at h
      obtain ⟨-, hclosed, -⟩ := h
      exact closed_of_canBeWritten hclosed
  | object ((k, v) :: ms) closed, h => by
      simp only [tokens, List.forall_mem_cons, List.forall_mem_append] at h
      obtain ⟨-, hk, -, ⟨hv, hms⟩, hclosed, -⟩ := h
      rw [isSound, allSoundMembers, Token.isSound_of_canBeWritten hk, isSound_of_tokens v hv,
        allSoundMembers_of_tokens ms hms, closed_of_canBeWritten hclosed]
      rfl
  | broken, h => absurd (h _ List.mem_cons_self) Token.not_canBeWritten_junk

theorem allSound_of_tokens : (vs : List Value) → (∀ t ∈ moreItems vs, t.CanBeWritten) → allSound vs
  | [], _ => rfl
  | v :: vs, h => by
      simp only [moreItems, List.forall_mem_cons, List.forall_mem_append] at h
      obtain ⟨-, hv, hvs⟩ := h
      rw [allSound, isSound_of_tokens v hv, allSound_of_tokens vs hvs]
      rfl

theorem allSoundMembers_of_tokens :
    (ms : List (Quoted × Value)) → (∀ t ∈ moreMembers ms, t.CanBeWritten) → allSoundMembers ms
  | [], _ => rfl
  | (k, v) :: ms, h => by
      simp only [moreMembers, List.forall_mem_cons, List.forall_mem_append] at h
      obtain ⟨-, hk, -, hv, hms⟩ := h
      rw [allSoundMembers, Token.isSound_of_canBeWritten hk, isSound_of_tokens v hv,
        allSoundMembers_of_tokens ms hms]
      rfl

end

theorem isSound_of_spelled {v : Value} {text : String} (h : v.SpelledAs text) : v.isSound :=
  isSound_of_tokens v (Spelled.canBeWritten h)

/-! ## Reading -/

/-- Whatever a tree begins with, it is not the end of an array. -/
theorem valueDue_openArray (v : Value) (stack : List Frame) (ts : List Token) :
    valueDue stack (.openArray :: (v.tokens ++ ts)) = valueDue (.array [] :: stack) (v.tokens ++ ts) := by
  match v with
  | null | bool _ | natural _ | numeral _ | string _ | broken => rfl
  | array [] _ | array (_ :: _) _ | object [] _ | object ((_, _) :: _) _ => rfl

mutual

/-- **The tokens of a sound tree are read as the tree**, whatever is open around it. -/
theorem valueDue_tokens (stack : List Frame) (ts : List Token) : (v : Value) → v.isSound →
    valueDue stack (v.tokens ++ ts) = valuePlaced stack v ts
  | null, _ => rfl
  | bool _, _ => rfl
  | natural _, _ => rfl
  | numeral _, _ => rfl
  | string _, _ => rfl
  | array [] closed, h => by
      have hclosed : closed := h
      subst hclosed
      rfl
  | array (v :: vs) closed, h => by
      simp only [isSound, allSound, Bool.and_eq_true] at h
      obtain ⟨⟨hv, hvs⟩, hclosed⟩ := h
      subst hclosed
      simp only [tokens, List.cons_append, List.append_assoc]
      rw [valueDue_openArray, valueDue_tokens _ _ v hv]
      exact valuePlaced_items stack [] v ts vs hvs
  | object [] closed, h => by
      have hclosed : closed := h
      subst hclosed
      rfl
  | object ((k, v) :: ms) closed, h => by
      simp only [isSound, allSoundMembers, Bool.and_eq_true] at h
      obtain ⟨⟨⟨-, hv⟩, hms⟩, hclosed⟩ := h
      subst hclosed
      simp only [tokens, List.cons_append, List.append_assoc, valueDue, keyDue]
      rw [valueDue_tokens _ _ v hv]
      exact valuePlaced_members stack [] k v ts ms hms
  | broken, h => by cases h

theorem valuePlaced_items (stack : List Frame) (before : List Value) (v : Value) (ts : List Token) :
    (vs : List Value) → allSound vs →
    valuePlaced (.array before :: stack) v (moreItems vs ++ .closeArray :: ts)
      = valuePlaced stack (.array (before.reverse ++ v :: vs) true) ts
  | [], _ => by
      rw [moreItems, List.nil_append, valuePlaced, List.reverse_cons]
  | w :: vs, h => by
      obtain ⟨hw, hvs⟩ := Bool.and_eq_true_iff.mp h
      simp only [moreItems, List.cons_append, List.append_assoc, valuePlaced]
      rw [valueDue_tokens _ _ w hw, valuePlaced_items stack (v :: before) w ts vs hvs, List.reverse_cons,
        List.append_assoc, List.singleton_append]

theorem valuePlaced_members (stack : List Frame) (before : List (Quoted × Value)) (k : Quoted) (v : Value)
    (ts : List Token) : (ms : List (Quoted × Value)) → allSoundMembers ms →
    valuePlaced (.object before k :: stack) v (moreMembers ms ++ .closeObject :: ts)
      = valuePlaced stack (.object (before.reverse ++ (k, v) :: ms) true) ts
  | [], _ => by
      rw [moreMembers, List.nil_append, valuePlaced, List.reverse_cons]
  | (l, w) :: ms, h => by
      simp only [allSoundMembers, Bool.and_eq_true] at h
      obtain ⟨⟨-, hw⟩, hms⟩ := h
      simp only [moreMembers, List.cons_append, List.append_assoc, valuePlaced, keyDue]
      rw [valueDue_tokens _ _ w hw, valuePlaced_members stack ((k, v) :: before) l w ts ms hms,
        List.reverse_cons, List.append_assoc, List.singleton_append]

end

end Value

/-! ## Documents -/

/-- **A text that spells a tree is read as that tree**, and nothing is left over. -/
theorem Document.read_of_spelled {v : Value} {text : String} (h : v.SpelledAs text) :
    read text = { value := v, hasTrailing := false } := by
  have hread := Value.valueDue_tokens [] [] v (Value.isSound_of_spelled h)
  rw [List.append_nil] at hread
  simp only [read, Token.scan_of_spelled h, hread, valuePlaced, List.isEmpty_nil, Bool.not_true]

end BeaconBroadcast.Json
