import BeaconBroadcast.Json.Layout
import BeaconBroadcast.Proofs.Json.Printing

/-!
# `BeaconBroadcast.Proofs.Json.Records` — records as objects

A record is written as an object with its fields in order, and this is one of the objects that it is read from.
Members that no field asks for make no difference wherever they stand, as long as their syntax is sound.

## Contents
- **Results.** What a good result came of; `decode_of_spelledAs`: a text is decoded as its tree.
- **Names.** `Quoted.IsPlain`: texts that stand for themselves between quotes.
- **Writing.** Names, lists and records can be written if their parts can.
- **Members.** `Layout.takeMember_field`: what is no member of the first field is left to the others.
- **Strangers.** `Layout.ofMembers_filter`: members that no field asks for may be left out.
- **Records.** `Layout.Writes`, with `Layout.Writes.canBeWritten` and `Layout.Writes.decoded`.
- **Origins.** `Layout.decoder_first`: where the value of the first field comes from.
-/

namespace BeaconBroadcast.Json

/-! ## Results -/

theorem of_map_eq_ok {ε α β : Type} {x : Except ε α} {f : α → β} {b : β} (h : x.map f = .ok b) :
    ∃ a, x = .ok a ∧ f a = b := by
  cases x with
  | error e => cases h
  | ok a =>
      cases h
      exact ⟨a, rfl, rfl⟩

theorem of_bind_eq_ok {ε α β : Type} {x : Except ε α} {f : α → Except ε β} {b : β}
    (h : x >>= f = .ok b) : ∃ a, x = .ok a ∧ f a = .ok b := by
  cases x with
  | error e => cases h
  | ok a => exact ⟨a, rfl, h⟩

/-- What a text is decoded as is what its tree is decoded as. -/
theorem of_decode_eq_ok {α : Type} {decoder : Decoder α} {text : String} {a : α}
    (h : decode decoder text = .ok a) : decoder (Document.read text).value = .ok a := by
  obtain ⟨b, hvalue, htrailing⟩ := of_bind_eq_ok h
  split at htrailing
  · cases htrailing
  · cases htrailing
    exact hvalue

/-- **A text is decoded as the tree that it spells**, whatever the spelling. -/
theorem decode_of_spelledAs {α : Type} (decoder : Decoder α) {v : Value} {text : String} (h : v.SpelledAs text) :
    decode decoder text = decoder v := by
  rw [decode, Document.read_of_spelled h]
  show (decoder v >>= fun a => .ok a) = _
  cases decoder v <;> rfl

/-! ## Names -/

/-- Whether the text stands for itself between quotes. -/
def Quoted.IsPlain (text : String) : Prop :=
  ∀ c ∈ text.toList, 0x20 ≤ c.toNat ∧ c ≠ '"' ∧ c ≠ '\\'

instance (text : String) : Decidable (Quoted.IsPlain text) := List.decidableBAll _ text.toList

theorem Quoted.spelledAs_map_plain {cs : List Char}
    (h : ∀ c ∈ cs, 0x20 ≤ c.toNat ∧ c ≠ '"' ∧ c ≠ '\\') : SpelledAs (cs.map .plain) cs := by
  induction cs with
  | nil => exact .nil
  | cons c cs ih =>
      obtain ⟨⟨printable, not_quote, not_backslash⟩, hcs⟩ := List.forall_mem_cons.mp h
      exact .cons (.plain printable not_quote not_backslash) (ih hcs)

theorem Quoted.canBeWritten_ofPlain {text : String} (h : IsPlain text) :
    Token.CanBeWritten (.string (ofPlain text)) := ⟨_, .string (spelledAs_map_plain h)⟩

theorem Quoted.codePoints_map_plain (cs : List Char) :
    codePoints (cs.map .plain) = cs.map Char.toNat := by
  induction cs with
  | nil => rfl
  | cons c cs ih => rw [List.map_cons, codePoints, ih, List.map_cons]

theorem Quoted.char?_toNat (c : Char) : char? c.toNat = some c := by
  have h : c.toNat.isValidChar := c.valid
  rw [char?, dif_pos h]
  rfl

/-- **A plain text is read as itself.** -/
theorem Quoted.text?_ofPlain {text : String} (h : IsPlain text) : (ofPlain text).text? = some text := by
  have hsound : (ofPlain text).isSound := isSound_of_spelled (spelledAs_map_plain h)
  have hchars : (fun c : Char => char? c.toNat) = some := funext char?_toNat
  rw [text?, if_pos hsound, ofPlain, codePoints_map_plain, List.mapM_map]
  show ((text.toList.mapM fun c : Char => char? c.toNat).map String.ofList) = _
  rw [hchars]
  show ((text.toList.mapM fun c : Char => (Pure.pure c : Option Char)).map String.ofList) = _
  rw [List.mapM_pure, List.map_id']
  show some (String.ofList text.toList) = _
  rw [String.ofList_toList]

/-- The values of sound members are sound. -/
theorem Value.isSound_of_mem_members {ms : List (Quoted × Value)} (h : allSoundMembers ms) :
    ∀ m ∈ ms, m.2.isSound := by
  induction ms with
  | nil => simp
  | cons m ms ih =>
      obtain ⟨k, v⟩ := m
      simp only [allSoundMembers, Bool.and_eq_true] at h
      exact List.forall_mem_cons.mpr ⟨h.1.2, ih h.2⟩

/-! ## Writing -/

theorem Token.canBeWritten_comma : CanBeWritten .comma := ⟨[','], .punctuation rfl⟩

theorem Token.canBeWritten_colon : CanBeWritten .colon := ⟨[':'], .punctuation rfl⟩

namespace Value

theorem canBeWritten_natural (n : Nat) : (natural n).CanBeWritten := by
  simp only [CanBeWritten, tokens, List.forall_mem_singleton]
  exact ⟨_, Token.natural_spelledAs n⟩

theorem canBeWritten_name {text : String} (h : Quoted.IsPlain text) : (name text).CanBeWritten := by
  simp only [CanBeWritten, name, tokens, List.forall_mem_singleton]
  exact Quoted.canBeWritten_ofPlain h

theorem canBeWritten_moreItems {vs : List Value} (h : ∀ v ∈ vs, v.CanBeWritten) :
    ∀ t ∈ moreItems vs, t.CanBeWritten := by
  induction vs with
  | nil => simp [moreItems]
  | cons v vs ih =>
      obtain ⟨hv, hvs⟩ := List.forall_mem_cons.mp h
      simp only [moreItems, List.forall_mem_cons, List.forall_mem_append]
      exact ⟨Token.canBeWritten_comma, hv, ih hvs⟩

theorem canBeWritten_list {vs : List Value} (h : ∀ v ∈ vs, v.CanBeWritten) : (list vs).CanBeWritten := by
  have hopen : Token.CanBeWritten .openArray := ⟨['['], .punctuation rfl⟩
  have hclose : Token.CanBeWritten .closeArray := ⟨[']'], .punctuation rfl⟩
  cases vs with
  | nil => exact List.forall_mem_cons.mpr ⟨hopen, List.forall_mem_singleton.mpr hclose⟩
  | cons v vs =>
      obtain ⟨hv, hvs⟩ := List.forall_mem_cons.mp h
      simp only [CanBeWritten, list, tokens, List.forall_mem_cons, List.forall_mem_append]
      exact ⟨hopen, ⟨hv, canBeWritten_moreItems hvs⟩, hclose, by simp⟩

theorem canBeWritten_moreMembers {ms : List (String × Value)}
    (h : ∀ m ∈ ms, Quoted.IsPlain m.1 ∧ m.2.CanBeWritten) :
    ∀ t ∈ moreMembers (ms.map fun m => (Quoted.ofPlain m.1, m.2)), t.CanBeWritten := by
  induction ms with
  | nil => simp [moreMembers]
  | cons m ms ih =>
      obtain ⟨⟨hname, hv⟩, hms⟩ := List.forall_mem_cons.mp h
      simp only [List.map_cons, moreMembers, List.forall_mem_cons, List.forall_mem_append]
      exact ⟨Token.canBeWritten_comma, Quoted.canBeWritten_ofPlain hname, Token.canBeWritten_colon, hv, ih hms⟩

/-- **A record can be written if its names are plain and its values can be written.** -/
theorem canBeWritten_record {ms : List (String × Value)}
    (h : ∀ m ∈ ms, Quoted.IsPlain m.1 ∧ m.2.CanBeWritten) : (record ms).CanBeWritten := by
  have hopen : Token.CanBeWritten .openObject := ⟨['\x7b'], .punctuation rfl⟩
  have hclose : Token.CanBeWritten .closeObject := ⟨['\x7d'], .punctuation rfl⟩
  cases ms with
  | nil => exact List.forall_mem_cons.mpr ⟨hopen, List.forall_mem_singleton.mpr hclose⟩
  | cons m ms =>
      obtain ⟨⟨hname, hv⟩, hms⟩ := List.forall_mem_cons.mp h
      simp only [CanBeWritten, record, List.map_cons, tokens, List.forall_mem_cons, List.forall_mem_append]
      exact ⟨hopen, Quoted.canBeWritten_ofPlain hname, Token.canBeWritten_colon,
        ⟨hv, canBeWritten_moreMembers hms⟩, hclose, by simp⟩

end Value

namespace Layout

variable {α β : Type}

/-! ## Members -/

section

variable {own name : String} {value : Decoder α} {fallback : Option α} {rest : Layout β}

/-- What was found of the first field, and of the others. -/
def draft (found : Option α) (others : rest.Draft) : (field own value fallback rest).Draft := (found, others)

theorem blank_field : (field own value fallback rest).blank = draft none rest.blank := rfl

theorem finish_field (a : α) (others : rest.Draft) :
    (field own value fallback rest).finish (draft (some a) others) = (rest.finish others).map fun b => (a, b) := rfl

/-- The first field takes its member. -/
theorem put_field_self (v : Value) (others : rest.Draft) :
    (field own value fallback rest).put own v (draft none others)
      = some ((value v).map fun a => draft (some a) others) := by
  simp only [put, draft, if_true]
  rfl

/-- What is no member of the first field is put to the others. -/
theorem put_field_of_ne (h : own ≠ name) (v : Value) (found : Option α) (others : rest.Draft) :
    (field own value fallback rest).put name v (draft found others)
      = (rest.put name v others).map fun r => r.map (draft found) := by
  simp only [put, draft, if_neg h]
  rfl

end

/-- No field takes a member of a name that is not among its own. -/
theorem put_eq_none {l : Layout α} {name : String} (stranger : name ∉ l.names) (v : Value) (d : l.Draft) :
    l.put name v d = none := by
  induction l with
  | done => rfl
  | field own value fallback rest ih =>
      obtain ⟨hown, hrest⟩ := not_or.mp fun h => stranger (List.mem_cons.mpr h)
      obtain ⟨found, others⟩ := d
      show (field own value fallback rest).put name v (draft found others) = none
      rw [put_field_of_ne (Ne.symm hown), ih hrest]
      rfl

/-- What a member of this name does. -/
theorem takeMember_named {l : Layout α} {m : Quoted × Value} {name : String} (named : m.1.text? = some name)
    (d : l.Draft) :
    l.takeMember d m = match l.put name m.2 d with
      | some r => r
      | none => if m.2.isSound then .ok d else .error .malformed := by
  rw [takeMember, Decoder.textOf, named]
  rfl

/-- A member whose name is no text is refused. -/
theorem takeMember_nameless {l : Layout α} {m : Quoted × Value} (nameless : m.1.text? = none) (d : l.Draft) :
    l.takeMember d m = .error .malformed := by
  rw [takeMember, Decoder.textOf, nameless]
  rfl

/-- **A sound member that no field asks for is stepped over.** -/
theorem takeMember_stranger {l : Layout α} {m : Quoted × Value} {name : String} (named : m.1.text? = some name)
    (stranger : name ∉ l.names) (sound : m.2.isSound) (d : l.Draft) : l.takeMember d m = .ok d := by
  rw [takeMember_named named, put_eq_none stranger]
  exact if_pos sound

section

variable {own : String} {value : Decoder α} {fallback : Option α} {rest : Layout β}

/-- What is no member of the first field is left to the others. -/
theorem takeMember_field {m : Quoted × Value} (h : m.1.text? ≠ some own) (found : Option α)
    (others : rest.Draft) :
    (field own value fallback rest).takeMember (draft found others) m
      = (rest.takeMember others m).map (draft found) := by
  cases hname : m.1.text? with
  | none =>
      rw [takeMember_nameless hname, takeMember_nameless hname]
      rfl
  | some name =>
      have hown : own ≠ name := by
        rintro rfl
        exact h hname
      rw [takeMember_named hname, takeMember_named hname, put_field_of_ne hown]
      cases rest.put name m.2 others with
      | some r => rfl
      | none =>
          cases m.2.isSound with
          | true => rfl
          | false => rfl

theorem foldlM_takeMember_field {ms : List (Quoted × Value)} (h : ∀ m ∈ ms, m.1.text? ≠ some own)
    (found : Option α) (others : rest.Draft) :
    ms.foldlM (field own value fallback rest).takeMember (draft found others)
      = (ms.foldlM rest.takeMember others).map (draft found) := by
  induction ms generalizing others with
  | nil => rfl
  | cons m ms ih =>
      obtain ⟨hm, hms⟩ := List.forall_mem_cons.mp h
      rw [List.foldlM_cons, List.foldlM_cons, takeMember_field hm]
      cases rest.takeMember others m with
      | error e => rfl
      | ok others' => exact ih hms others'

end

/-! ## Strangers -/

/-- Steps that change nothing may be left out. -/
theorem foldlM_filter_of_idle {σ ε γ : Type} {f : σ → γ → Except ε σ} {keep : γ → Bool} {xs : List γ}
    (idle : ∀ x ∈ xs, keep x = false → ∀ s, f s x = .ok s) (s : σ) :
    (xs.filter keep).foldlM f s = xs.foldlM f s := by
  induction xs generalizing s with
  | nil => rfl
  | cons x xs ih =>
      obtain ⟨hx, hxs⟩ := List.forall_mem_cons.mp idle
      cases hkeep : keep x with
      | true =>
          rw [List.filter_cons_of_pos hkeep, List.foldlM_cons, List.foldlM_cons]
          cases f s x with
          | error e => rfl
          | ok s' => exact ih hxs s'
      | false =>
          rw [List.filter_cons_of_neg (by rw [hkeep]; exact Bool.false_ne_true), List.foldlM_cons, hx hkeep s]
          exact ih hxs s

/-- **Members of a name that no field asks for may be left out**, wherever they stand and however many they are,
    also where the record cannot be read. -/
theorem ofMembers_filter {l : Layout α} {name : String} (stranger : name ∉ l.names)
    {ms : List (Quoted × Value)} (sound : ∀ m ∈ ms, m.2.isSound) (closed : Bool) :
    l.ofMembers (ms.filter fun m => m.1.text? ≠ some name) closed = l.ofMembers ms closed := by
  unfold ofMembers
  rw [foldlM_filter_of_idle]
  intro m hm hkeep d
  have hnamed : m.1.text? = some name := by simpa using hkeep
  exact takeMember_stranger hnamed stranger (sound m hm) d

/-! ## Records -/

/-- The members are the fields of a record in order, with what is written for its parts. -/
inductive Writes : {α : Type} → Layout α → List (String × Value) → α → Prop
  | done : Writes .done [] ()
  | field {α β : Type} {name : String} {value : Decoder α} {fallback : Option α} {rest : Layout β} {v : Value}
      {a : α} {ms : List (String × Value)} {b : β} (plain : Quoted.IsPlain name) (written : v.CanBeWritten)
      (reads : value v = .ok a) (others : Writes rest ms b) :
      Writes (.field name value fallback rest) ((name, v) :: ms) (a, b)

/-- The members bear the names of the fields, and can be written. -/
theorem Writes.parts {l : Layout α} {ms : List (String × Value)} {a : α} (h : l.Writes ms a) :
    ∀ m ∈ ms, m.1 ∈ l.names ∧ Quoted.IsPlain m.1 ∧ m.2.CanBeWritten := by
  induction h with
  | done => simp
  | field plain written reads others ih =>
      refine List.forall_mem_cons.mpr ⟨⟨List.mem_cons_self, plain, written⟩, ?_⟩
      intro m hm
      obtain ⟨hname, hm⟩ := ih m hm
      exact ⟨List.mem_cons_of_mem _ hname, hm⟩

/-- A record with its members as they stand in an object. -/
theorem record_eq (ms : List (String × Value)) :
    Value.record ms = .object (ms.map fun m => (Quoted.ofPlain m.1, m.2)) true := rfl

/-- Every field takes its member, and none is left to be found. -/
theorem Writes.foldlM {l : Layout α} {ms : List (String × Value)} {a : α} (h : l.Writes ms a)
    (distinct : l.names.Nodup) :
    ∃ d, (ms.map fun m => (Quoted.ofPlain m.1, m.2)).foldlM l.takeMember l.blank = .ok d ∧
      l.finish d = .ok a := by
  induction h with
  | done => exact ⟨(), rfl, rfl⟩
  | @field α β name value fallback rest v a ms b plain written reads others ih =>
      obtain ⟨hname, hrest⟩ := List.nodup_cons.mp distinct
      obtain ⟨d, hd, hfinish⟩ := ih hrest
      have hothers : ∀ m ∈ ms.map fun m => (Quoted.ofPlain m.1, m.2), m.1.text? ≠ some name := by
        intro m hm htext
        obtain ⟨other, hother, rfl⟩ := List.mem_map.mp hm
        obtain ⟨hnamed, hplain, -⟩ := others.parts other hother
        cases (Quoted.text?_ofPlain hplain).symm.trans htext
        exact hname hnamed
      refine ⟨draft (some a) d, ?_, ?_⟩
      · rw [List.map_cons, List.foldlM_cons, blank_field, takeMember_named (Quoted.text?_ofPlain plain),
          put_field_self, reads]
        show List.foldlM _ (draft (some a) rest.blank) _ = _
        rw [foldlM_takeMember_field hothers, hd]
        rfl
      · rw [finish_field, hfinish]
        rfl

/-- What can stand behind the fields of a record and is stepped over. -/
def Strangers (l : Layout α) (ms : List (String × Value)) : Prop :=
  ∀ m ∈ ms, m.1 ∉ l.names ∧ Quoted.IsPlain m.1 ∧ m.2.CanBeWritten

theorem strangers_nil (l : Layout α) : l.Strangers [] := by
  intro m hm
  cases hm

variable {l : Layout α} {ms strangers : List (String × Value)} {a : α}

/-- **A record can be written**, strangers and all. -/
theorem Writes.canBeWritten (h : l.Writes ms a) (hstrangers : l.Strangers strangers) :
    (Value.record (ms ++ strangers)).CanBeWritten := by
  apply Value.canBeWritten_record
  intro m hm
  rcases List.mem_append.mp hm with hm | hm
  · exact (h.parts m hm).2
  · exact (hstrangers m hm).2

/-- **What is written for a record is read as the record**, and what stands behind it is stepped over. -/
theorem Writes.decoded (h : l.Writes ms a) (distinct : l.names.Nodup) (hstrangers : l.Strangers strangers) :
    l.decoder (.record (ms ++ strangers)) = .ok a := by
  obtain ⟨d, hd, hfinish⟩ := h.foldlM distinct
  have hidle : (strangers.map fun m => (Quoted.ofPlain m.1, m.2)).foldlM l.takeMember d = .ok d := by
    induction strangers with
    | nil => rfl
    | cons m strangers ih =>
        obtain ⟨⟨hname, hplain, hm⟩, hothers⟩ := List.forall_mem_cons.mp hstrangers
        have hsound : m.2.isSound := Value.isSound_of_tokens m.2 hm
        rw [List.map_cons, List.foldlM_cons, takeMember_stranger (Quoted.text?_ofPlain hplain) hname hsound]
        exact ih hothers
  rw [record_eq, List.map_append]
  show l.ofMembers _ true = _
  rw [ofMembers, List.foldlM_append, hd]
  show List.foldlM l.takeMember d _ >>= l.finish = _
  rw [hidle]
  exact hfinish

/-! ## Origins -/

section

variable {own : String} {value : Decoder α} {rest : Layout β}

/-- A second member for the first field is refused. -/
theorem put_field_taken {fallback : Option α} (v : Value) (a : α) (others : rest.Draft) :
    (field own value fallback rest).put own v (draft (some a) others) = some (.error (.duplicateField own)) := by
  simp only [put, draft, if_true, Option.isSome_some]

/-- A member leaves the first field as it was, or is decoded for it. -/
theorem takeMember_origin {fallback : Option α} {m : Quoted × Value} {found : Option α} {others : rest.Draft}
    {d : (field own value fallback rest).Draft}
    (h : (field own value fallback rest).takeMember (draft found others) m = .ok d) :
    (∃ others', d = draft found others') ∨
      m.1.text? = some own ∧ ∃ a others', value m.2 = .ok a ∧ d = draft (some a) others' := by
  by_cases hname : m.1.text? = some own
  · refine Or.inr ⟨hname, ?_⟩
    rw [takeMember_named hname] at h
    cases found with
    | some a =>
        rw [put_field_taken] at h
        cases h
    | none =>
        rw [put_field_self] at h
        obtain ⟨a, hvalue, rfl⟩ := of_map_eq_ok h
        exact ⟨a, others, hvalue, rfl⟩
  · rw [takeMember_field hname] at h
    obtain ⟨others', -, rfl⟩ := of_map_eq_ok h
    exact Or.inl ⟨others', rfl⟩

theorem foldlM_origin {fallback : Option α} {ms : List (Quoted × Value)} {found : Option α}
    {others : rest.Draft} {d : (field own value fallback rest).Draft}
    (h : ms.foldlM (field own value fallback rest).takeMember (draft found others) = .ok d) :
    (∃ others', d = draft found others') ∨
      ∃ m ∈ ms, m.1.text? = some own ∧ ∃ a others', value m.2 = .ok a ∧ d = draft (some a) others' := by
  induction ms generalizing found others with
  | nil =>
      cases h
      exact Or.inl ⟨others, rfl⟩
  | cons m ms ih =>
      rw [List.foldlM_cons] at h
      obtain ⟨d', hm, h⟩ := of_bind_eq_ok h
      rcases takeMember_origin hm with ⟨others', rfl⟩ | ⟨hname, a, others', hvalue, rfl⟩
      · rcases ih h with hsame | ⟨m', hm', hlater⟩
        · exact Or.inl hsame
        · exact Or.inr ⟨m', List.mem_cons_of_mem m hm', hlater⟩
      · rcases ih h with ⟨others'', rfl⟩ | ⟨m', hm', hlater⟩
        · exact Or.inr ⟨m, List.mem_cons_self, hname, a, others'', hvalue, rfl⟩
        · exact Or.inr ⟨m', List.mem_cons_of_mem m hm', hlater⟩

end

end Layout

/-- Where the first field of a record may stand, in an object or in an array. -/
inductive Value.FirstField (name : String) : Value → Value → Prop
  | member {ms : List (Quoted × Value)} {closed : Bool} {key : Quoted} {v : Value}
      (named : key.text? = some name) (mem : (key, v) ∈ ms) : FirstField name (.object ms closed) v
  | item {v : Value} {vs : List Value} {closed : Bool} : FirstField name (.array (v :: vs) closed) v

/-- **The first field of a record is decoded from where it stands.** -/
theorem Layout.decoder_first {α β : Type} {own : String} {value : Decoder α} {rest : Layout β} {v : Value}
    {a : α} {b : β} (h : (need own value rest).decoder v = .ok (a, b)) :
    ∃ w, v.FirstField own w ∧ value w = .ok a := by
  cases v with
  | object ms closed =>
      obtain ⟨d, hfold, h⟩ := of_bind_eq_ok h
      cases closed with
      | false => cases h
      | true =>
          rcases foldlM_origin hfold with ⟨others, rfl⟩ | ⟨⟨key, w⟩, hm, hname, a', others, hvalue, rfl⟩
          · cases h
          · obtain ⟨b', -, hpair⟩ := of_map_eq_ok h
            cases hpair
            exact ⟨w, .member hname hm, hvalue⟩
  | array vs closed =>
      cases vs with
      | nil => cases h
      | cons w vs =>
          obtain ⟨a', hvalue, h⟩ := of_bind_eq_ok h
          obtain ⟨b', -, hpair⟩ := of_map_eq_ok h
          cases hpair
          exact ⟨w, .item, hvalue⟩
  | null => cases h
  | bool b => cases h
  | natural n => cases h
  | numeral written => cases h
  | string s => cases h
  | broken => cases h

end BeaconBroadcast.Json
