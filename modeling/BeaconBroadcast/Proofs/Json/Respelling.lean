import BeaconBroadcast.Proofs.Json.Members

/-!
# `BeaconBroadcast.Proofs.Json.Respelling` — one value, several spellings

A document may say the same in more than one way: a record as an object or as an array, a byte string as a string or as
an array of numbers. A decoder goes a way of its own for each of them. Whoever decodes the whole sees of a part only
what the part is decoded as, so that at any place in a document one spelling may stand for the other.

## Contents
- **Strings as bytes.** `Quoted.toByteArray_bytes`: a text stands for its bytes in UTF-8.
- **Items and members.** `Layout.Reads`: items that read as the fields in order; `Layout.Labels`: members that give each
  field its item. Both make up the same record, and no other number of items makes up one.
- **Places.** `Decoder.ReadsAt`: what stands at a place is decoded by itself; it holds of items, of the fields of a
  record, and of places within places.
-/

namespace BeaconBroadcast.Json

/-! ## Strings as bytes -/

namespace Quoted

variable {s : Quoted} {text : String}

theorem eq_toNat_of_char? {n : Nat} {c : Char} (h : char? n = some c) : n = c.toNat := by
  by_cases hvalid : n.isValidChar
  · rw [char?, dif_pos hvalid] at h
    cases h
    rfl
  · rw [char?, dif_neg hvalid] at h
    cases h

/-- The bytes of a character are those that it has in UTF-8. -/
theorem codePointBytes_toNat (c : Char) : codePointBytes c.toNat = String.utf8EncodeChar c := by
  have hvalid : c.toNat < 0x110000 := by
    rcases c.valid with h | ⟨-, h⟩
    · exact Nat.lt_trans h (by decide)
    · exact h
  show codePointBytes c.toNat = _
  unfold codePointBytes String.utf8EncodeChar
  show _ = if c.toNat ≤ 127 then _ else if c.toNat ≤ 2047 then _ else if c.toNat ≤ 65535 then _ else _
  by_cases hone : c.toNat < 0x80
  · rw [if_pos hone, if_pos (Nat.le_of_lt_succ hone)]
    rfl
  rw [if_neg hone, if_neg fun h => hone (Nat.lt_succ_of_le h)]
  by_cases htwo : c.toNat < 0x800
  · have hfirst : c.toNat / 64 % 32 = c.toNat / 64 := Nat.mod_eq_of_lt (by omega)
    rw [if_pos htwo, if_pos (Nat.le_of_lt_succ htwo)]
    show _ = [UInt8.ofNat (c.toNat / 64 % 32 + 192), UInt8.ofNat (c.toNat % 64 + 128)]
    rw [hfirst, Nat.add_comm, Nat.add_comm 0x80]
  rw [if_neg htwo, if_neg fun h => htwo (Nat.lt_succ_of_le h)]
  by_cases hthree : c.toNat < 0x10000
  · have hfirst : c.toNat / 4096 % 16 = c.toNat / 4096 := Nat.mod_eq_of_lt (by omega)
    rw [if_pos hthree, if_pos (Nat.le_of_lt_succ hthree)]
    show _ = [UInt8.ofNat (c.toNat / 4096 % 16 + 224), UInt8.ofNat (c.toNat / 64 % 64 + 128),
      UInt8.ofNat (c.toNat % 64 + 128)]
    rw [hfirst, Nat.add_comm, Nat.add_comm 0x80, Nat.add_comm 0x80]
  · have hfirst : c.toNat / 262144 % 8 = c.toNat / 262144 := Nat.mod_eq_of_lt (by omega)
    rw [if_neg hthree, if_neg fun h => hthree (Nat.lt_succ_of_le h)]
    show _ = [UInt8.ofNat (c.toNat / 262144 % 8 + 240), UInt8.ofNat (c.toNat / 4096 % 64 + 128),
      UInt8.ofNat (c.toNat / 64 % 64 + 128), UInt8.ofNat (c.toNat % 64 + 128)]
    rw [hfirst, Nat.add_comm, Nat.add_comm 0x80, Nat.add_comm 0x80, Nat.add_comm 0x80]

theorem eq_map_toNat_of_mapM {ns : List Nat} {cs : List Char} (h : ns.mapM char? = some cs) :
    ns = cs.map Char.toNat := by
  induction ns generalizing cs with
  | nil =>
      cases h
      rfl
  | cons n ns ih =>
      rw [List.mapM_cons] at h
      obtain ⟨c, hc, h⟩ := Option.bind_eq_some_iff.mp h
      obtain ⟨rest, hrest, h⟩ := Option.bind_eq_some_iff.mp h
      cases h
      rw [List.map_cons, ← ih hrest, ← eq_toNat_of_char? hc]

/-- What has a text has the code points of its characters. -/
theorem codePoints_of_text? (h : s.text? = some text) : s.codePoints = text.toList.map Char.toNat := by
  unfold text? at h
  split at h
  · obtain ⟨cs, hcs, rfl⟩ := Option.map_eq_some_iff.mp h
    rw [String.toList_ofList]
    exact eq_map_toNat_of_mapM hcs
  · cases h

/-- **A string that has a text has the bytes of the text in UTF-8**, however its characters are written. -/
theorem toByteArray_bytes (h : s.text? = some text) : s.bytes.toByteArray = text.toUTF8 := by
  have hbytes : s.bytes = text.toList.flatMap String.utf8EncodeChar := by
    rw [bytes, codePoints_of_text? h, List.flatMap_map]
    exact congrArg (text.toList.flatMap ·) (funext codePointBytes_toNat)
  rw [hbytes, String.toUTF8_eq_toByteArray]
  exact String.utf8Encode_toList

end Quoted

/-! ## Items and members -/

namespace Layout

variable {α β : Type} {l : Layout α} {ms : List (Quoted × Value)} {vs : List Value} {fields : α} {name : String}
  {v : Value}

/-- The items are read, one for each field in order, as the parts of a record. -/
inductive Reads : {α : Type} → Layout α → List Value → α → Prop
  | done : Reads .done [] ()
  | field {α β : Type} {name : String} {value : Decoder α} {fallback : Option α} {rest : Layout β} {v : Value}
      {a : α} {vs : List Value} {b : β} (reads : value v = .ok a) (others : Reads rest vs b) :
      Reads (.field name value fallback rest) (v :: vs) (a, b)

/-- The members are the items, each under the name of its field, in any order. -/
def Labels (l : Layout α) (ms : List (Quoted × Value)) (vs : List Value) : Prop :=
  (ms.map fun m => (m.1.text?, m.2)).Perm ((l.names.zip vs).map fun item => (some item.1, item.2))

namespace Reads

theorem length_eq (h : l.Reads vs fields) : vs.length = l.names.length := by
  induction h with
  | done => rfl
  | field reads others ih => exact congrArg Nat.succ ih

/-- **Items that are read as the fields make up the record.** -/
theorem ofItems (h : l.Reads vs fields) : l.ofItems true vs = .ok fields := by
  induction h with
  | done => rfl
  | @field α β name value fallback rest v a vs b reads others ih =>
      rw [Layout.ofItems, reads]
      show (Layout.ofItems true rest vs).map _ = _
      rw [ih]
      rfl

/-- With more items behind them they do not. -/
theorem ofItems_more (h : l.Reads vs fields) (v : Value) (more : List Value) (closed : Bool) :
    l.ofItems closed (vs ++ v :: more) = .error .malformed := by
  induction h with
  | done => rfl
  | @field α β name value fallback rest w a vs b reads others ih =>
      rw [List.cons_append, Layout.ofItems, reads]
      show (Layout.ofItems closed rest (vs ++ v :: more)).map _ = _
      rw [ih]
      rfl

/-- Each item is read by the field that it is for. -/
theorem probe (h : l.Reads vs fields) (distinct : l.names.Nodup) (item : (name, v) ∈ l.names.zip vs) :
    l.probe name v = .ok () := by
  induction h with
  | done => cases item
  | @field α β own value fallback rest w a vs b reads others ih =>
      obtain ⟨hown, hdistinct⟩ := List.nodup_cons.mp distinct
      rcases List.mem_cons.mp item with hsame | hlater
      · cases hsame
        rw [Layout.probe, if_pos rfl, reads]
        rfl
      · have hne : own ≠ name := by
          rintro rfl
          exact hown (List.of_mem_zip hlater).1
        rw [Layout.probe, if_neg hne]
        exact ih hdistinct hlater

end Reads

namespace Labels

theorem spreads (h : l.Labels ms vs) : l.Spreads ms vs := by
  intro name _ v
  have hmem := h.mem_iff (a := (some name, v))
  simpa using hmem

theorem admits (h : l.Labels ms vs) (reads : l.Reads vs fields) (distinct : l.names.Nodup) : l.Admits ms := by
  intro m hm
  obtain ⟨⟨name, v⟩, hitem, heq⟩ := List.mem_map.mp (h.mem_iff.mp (List.mem_map_of_mem hm))
  obtain ⟨hname, rfl⟩ := Prod.mk.inj heq
  exact ⟨name, hname.symm, reads.probe distinct hitem⟩

/-- With an item for each field every field is named once. -/
theorem fieldsIn_perm (h : l.Labels ms vs) (fits : l.names.length ≤ vs.length) : (l.fieldsIn ms).Perm l.names := by
  have hnames : (namesIn ms).Perm l.names := by
    have hperm := h.filterMap Prod.fst
    rw [List.filterMap_map, List.filterMap_map] at hperm
    have hzip : (l.names.zip vs).filterMap (fun item => some item.1) = l.names := by
      rw [List.filterMap_eq_map']
      exact List.map_fst_zip fits
    rw [← hzip]
    exact hperm
  have hfields := hnames.filter fun name => name ∈ l.names
  rwa [List.filter_eq_self.mpr fun name hname => decide_eq_true hname] at hfields

end Labels

/-- **So do members with the same values**, each under the name of its field. -/
theorem Reads.ofMembers (h : l.Reads vs fields) (distinct : l.names.Nodup) (labels : l.Labels ms vs) :
    l.ofMembers ms true = .ok fields := by
  have hcomplete := labels.fieldsIn_perm (Nat.le_of_eq h.length_eq.symm)
  obtain ⟨fields', hmembers, hassembles⟩ := ofMembers_complete distinct (labels.admits h distinct) hcomplete
  have hitems := hassembles.ofItems distinct labels.spreads (Nat.le_of_eq h.length_eq)
  cases h.ofItems.symm.trans hitems
  exact hmembers

theorem required_sublist (l : Layout α) : l.required.Sublist l.names := by
  induction l with
  | done => exact List.Sublist.slnil
  | field own value fallback rest ih =>
      cases fallback with
      | none => exact ih.cons_cons own
      | some a => exact ih.cons own

/-- What is refused behind the first item is refused with it. -/
theorem ofItems_cons_refused {value : Decoder α} {fallback : Option α} {rest : Layout β} {closed : Bool}
    (h : ∃ fault, rest.ofItems closed vs = .error fault) (v : Value) :
    ∃ fault, (field name value fallback rest).ofItems closed (v :: vs) = .error fault := by
  rw [Layout.ofItems]
  cases value v with
  | error fault => exact ⟨fault, rfl⟩
  | ok a =>
      obtain ⟨fault, hfault⟩ := h
      refine ⟨fault, ?_⟩
      show (Layout.ofItems closed rest vs).map _ = _
      rw [hfault]
      rfl

/-- **Fewer items than there are fields are refused**, if no field may be left out. -/
theorem ofItems_of_lt_length (needed : l.required = l.names) (h : vs.length < l.names.length) (closed : Bool) :
    ∃ fault, l.ofItems closed vs = .error fault := by
  induction l generalizing vs with
  | done => cases h
  | field own value fallback rest ih =>
      cases fallback with
      | some a =>
          have hneeded : rest.required = own :: rest.names := needed
          have hle := (required_sublist rest).length_le
          rw [hneeded, List.length_cons] at hle
          omega
      | none =>
          cases vs with
          | nil => exact ⟨.malformed, rfl⟩
          | cons v vs => exact ofItems_cons_refused (ih (List.tail_eq_of_cons_eq needed) (Nat.lt_of_succ_lt_succ h)) v

end Layout

/-! ## Places -/

namespace Decoder

variable {α β γ : Type} {whole : Decoder α} {part : Decoder β} {leaf : Decoder γ} {place place' : Value → Value}

/-- What stands at a place is decoded by itself: values that are decoded alike may stand for each other there, and where
    one stands that is refused the whole is refused. -/
structure ReadsAt (whole : Decoder α) (place : Value → Value) (part : Decoder β) : Prop where
  alike : ∀ {v w}, part v = part w → whole (place v) = whole (place w)
  refused : ∀ {v fault}, part v = .error fault → ∃ fault', whole (place v) = .error fault'

theorem readsAt_self (whole : Decoder α) : whole.ReadsAt id whole where
  alike same := same
  refused refused := ⟨_, refused⟩

/-- **A place within a place is a place.** -/
theorem ReadsAt.within (outer : whole.ReadsAt place part) (inner : part.ReadsAt place' leaf) :
    whole.ReadsAt (place ∘ place') leaf where
  alike same := outer.alike (inner.alike same)
  refused refused := by
    obtain ⟨fault, hfault⟩ := inner.refused refused
    exact outer.refused hfault

/-- What is made of a result afterwards makes no difference. -/
theorem ReadsAt.map {made : Decoder γ} {build : α → γ} (h : whole.ReadsAt place part)
    (reads : ∀ v, made v = (whole v).map build) : made.ReadsAt place part where
  alike same := by rw [reads, reads, h.alike same]
  refused refused := by
    obtain ⟨fault, hfault⟩ := h.refused refused
    exact ⟨fault, by rw [reads, hfault]; rfl⟩

/-- The items of a list are decoded by themselves. -/
theorem readsAt_item (item : Decoder α) (before after : List Value) (closed : Bool) :
    (list item).ReadsAt (fun v => .array (before ++ v :: after) closed) item where
  alike {v w} same := by
    have hitems : (before ++ v :: after).mapM item = (before ++ w :: after).mapM item := by
      rw [List.mapM_append, List.mapM_append, List.mapM_cons, List.mapM_cons, same]
    show ((before ++ v :: after).mapM item >>= _) = _
    rw [hitems]
    rfl
  refused {v fault} refused := by
    show ∃ fault', ((before ++ v :: after).mapM item >>= _) = .error fault'
    rw [List.mapM_append, List.mapM_cons, refused]
    cases before.mapM item with
    | error earlier => exact ⟨earlier, rfl⟩
    | ok items => exact ⟨fault, rfl⟩

end Decoder

namespace Layout

variable {α β : Type} {l : Layout α} {name : String} {value : Decoder β}

/-- The record has a field of this name that is read so. -/
inductive Has (name : String) (value : Decoder β) : {α : Type} → Layout α → Prop
  | here {γ : Type} {fallback : Option β} {rest : Layout γ} : Has name value (.field name value fallback rest)
  | later {γ δ : Type} {own : String} {first : Decoder γ} {fallback : Option γ} {rest : Layout δ} (other : own ≠ name)
      (rest_has : Has name value rest) : Has name value (.field own first fallback rest)

/-- Where the value of a field may stand in a record, whatever stands around it: in an object under the name, in an
    array at the place of the field. -/
inductive Place (l : Layout α) (name : String) : (Value → Value) → Prop
  | member {key : Quoted} (named : key.text? = some name) (before after : List (Quoted × Value)) (closed : Bool) :
      Place l name fun v => .object (before ++ (key, v) :: after) closed
  | item (before after : List Value) (counted : l.names[before.length]? = some name) (closed : Bool) :
      Place l name fun v => .array (before ++ v :: after) closed

namespace Has

/-- A field decodes its member by itself, whatever was found of it before. -/
theorem readsAt_member (h : l.Has name value) {key : Quoted} (named : key.text? = some name) (d : l.Draft) :
    Decoder.ReadsAt (fun v => l.takeMember d (key, v)) id value := by
  induction h with
  | @here γ fallback rest =>
      obtain ⟨found, others, rfl⟩ := exists_draft d
      cases found with
      | some a =>
          have hagain (v : Value) : (field name value fallback rest).takeMember (draft (some a) others) (key, v)
              = .error (.duplicateField name) := takeMember_again named a others
          exact ⟨fun _ => (hagain _).trans (hagain _).symm, fun _ => ⟨_, hagain _⟩⟩
      | none => exact (Decoder.readsAt_self value).map fun v => takeMember_self named others
  | later other _ ih =>
      obtain ⟨found, others, rfl⟩ := exists_draft d
      have hne : key.text? ≠ some _ := fun hown => other (Option.some.inj (hown.symm.trans named))
      exact (ih others).map fun v => takeMember_field hne found others

/-- A field decodes its item by itself. -/
theorem readsAt_item (h : l.Has name value) (distinct : l.names.Nodup) (before after : List Value)
    (counted : l.names[before.length]? = some name) (closed : Bool) :
    Decoder.ReadsAt l.decoder (fun v => .array (before ++ v :: after) closed) value := by
  induction h generalizing before with
  | @here γ fallback rest =>
      obtain ⟨hown, -⟩ := List.nodup_cons.mp distinct
      cases before with
      | nil =>
          refine ⟨?_, ?_⟩
          · intro v w same
            show Layout.ofItems closed _ (v :: after) = Layout.ofItems closed _ (w :: after)
            rw [Layout.ofItems, Layout.ofItems, same]
          · intro v fault refused
            show ∃ fault', Layout.ofItems closed _ (v :: after) = .error fault'
            exact ⟨fault, by rw [Layout.ofItems, refused]; rfl⟩
      | cons b before =>
          have hlater : rest.names[before.length]? = some name := counted
          exact absurd (List.mem_of_getElem? hlater) hown
  | @later γ δ own first fallback rest other _ ih =>
      obtain ⟨-, hdistinct⟩ := List.nodup_cons.mp distinct
      cases before with
      | nil => exact absurd (Option.some.inj counted) other
      | cons b before =>
          have hrest := ih hdistinct before counted
          refine ⟨?_, fun refused => ofItems_cons_refused (hrest.refused refused) b⟩
          intro v w same
          have hsame : rest.ofItems closed (before ++ v :: after) = rest.ofItems closed (before ++ w :: after) :=
            hrest.alike same
          show Layout.ofItems closed _ (b :: (before ++ v :: after))
            = Layout.ofItems closed _ (b :: (before ++ w :: after))
          rw [Layout.ofItems, Layout.ofItems, hsame]

/-- **The fields of a record are decoded by themselves**, wherever they stand. -/
theorem readsAt (h : l.Has name value) (distinct : l.names.Nodup) {place : Value → Value}
    (hplace : l.Place name place) : Decoder.ReadsAt l.decoder place value := by
  cases hplace with
  | item before after counted closed => exact h.readsAt_item distinct before after counted closed
  | @member key named before after closed =>
      refine ⟨?_, ?_⟩
      · intro v w same
        have htake : (fun d => l.takeMember d (key, v)) = fun d => l.takeMember d (key, w) :=
          funext fun d => (h.readsAt_member named d).alike same
        show l.ofMembers _ closed = l.ofMembers _ closed
        simp only [ofMembers, List.foldlM_append, List.foldlM_cons, fun d => congrFun htake d]
      · intro v fault refused
        show ∃ fault', l.ofMembers _ closed = .error fault'
        cases hbefore : before.foldlM l.takeMember l.blank with
        | error earlier =>
            refine ⟨earlier, ?_⟩
            rw [ofMembers, List.foldlM_append, hbefore]
            rfl
        | ok d =>
            obtain ⟨fault', hfault⟩ := (h.readsAt_member named d).refused refused
            exact ⟨fault', ofMembers_refused hbefore hfault⟩

end Has

end Layout

end BeaconBroadcast.Json
