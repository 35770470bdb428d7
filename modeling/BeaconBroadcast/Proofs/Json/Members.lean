import BeaconBroadcast.Proofs.Json.Records
import Mathlib.Data.List.Induction

/-!
# `BeaconBroadcast.Proofs.Json.Members` — a record is read by the names of its members

Where every member would be read on its own, it makes no difference in which order the members stand and what strangers
stand between them: the record has for each field what the member of that name is read as. If there is a fault it is in
the names, and then the first one counts: the field whose second member comes first, or else the first field that has
no member.

## Contents
- **Names.** `namesIn` and `Layout.fieldsIn` list what the members are for; `Layout.probe` is what comes of one member
  by itself, `Layout.Admits` says that nothing is wrong with any.
- **Drafts.** `Layout.Found`: what stands in a draft after some members; `Found.take` for one more.
- **Records.** `Layout.Assembles`, and what comes of the members of an object in each case.
- **Items.** Arrays that spread the same values over the fields.
-/

namespace BeaconBroadcast.Json

/-! ## Names -/

/-- The names of the members, in order. -/
def namesIn (ms : List (Quoted × Value)) : List String := ms.filterMap fun m => m.1.text?

theorem mem_namesIn {ms : List (Quoted × Value)} {name : String} :
    name ∈ namesIn ms ↔ ∃ m ∈ ms, m.1.text? = some name := List.mem_filterMap

theorem namesIn_append (first second : List (Quoted × Value)) :
    namesIn (first ++ second) = namesIn first ++ namesIn second := List.filterMap_append

theorem namesIn_singleton {m : Quoted × Value} {name : String} (named : m.1.text? = some name) :
    namesIn [m] = [name] := List.filterMap_cons_some named

namespace Layout

variable {α β : Type} {l : Layout α} {ms : List (Quoted × Value)} {m : Quoted × Value} {name : String}

/-- The fields that the members are for, in the order of the members. -/
def fieldsIn (l : Layout α) (ms : List (Quoted × Value)) : List String :=
  (namesIn ms).filter fun name => name ∈ l.names

theorem mem_fieldsIn : name ∈ l.fieldsIn ms ↔ name ∈ namesIn ms ∧ name ∈ l.names := by
  rw [fieldsIn, List.mem_filter, decide_eq_true_iff]

theorem fieldsIn_append (first second : List (Quoted × Value)) :
    l.fieldsIn (first ++ second) = l.fieldsIn first ++ l.fieldsIn second := by
  rw [fieldsIn, namesIn_append, List.filter_append, fieldsIn, fieldsIn]

theorem fieldsIn_singleton (named : m.1.text? = some name) (field : name ∈ l.names) : l.fieldsIn [m] = [name] := by
  rw [fieldsIn, namesIn_singleton named]
  exact List.filter_cons_of_pos (decide_eq_true field)

/-- Where a field is named among the members. -/
theorem exists_of_fieldsIn {before after : List String} (h : l.fieldsIn ms = before ++ name :: after) :
    ∃ ms₁ m ms₂, ms = ms₁ ++ m :: ms₂ ∧ m.1.text? = some name ∧ name ∈ l.names ∧ l.fieldsIn ms₁ = before := by
  obtain ⟨names₁, names₂, hnames, hbefore, hrest⟩ := List.filter_eq_append_iff.mp h
  obtain ⟨skipped, names₃, rfl, hskipped, hfield, -⟩ := List.filter_eq_cons_iff.mp hrest
  rw [← List.append_assoc] at hnames
  obtain ⟨ms₁, rest, rfl, hms₁, hms⟩ := List.filterMap_eq_append_iff.mp hnames
  obtain ⟨idle, m, ms₂, rfl, hidle, hm, -⟩ := List.filterMap_eq_cons_iff.mp hms
  refine ⟨ms₁ ++ idle, m, ms₂, by rw [List.append_assoc], hm, of_decide_eq_true hfield, ?_⟩
  have hnone : namesIn idle = [] := List.filterMap_eq_nil_iff.mpr hidle
  have hnames₁ : namesIn ms₁ = names₁ ++ skipped := hms₁
  rw [fieldsIn_append, fieldsIn, hnames₁, fieldsIn, hnone, List.filter_append, hbefore,
    List.filter_eq_nil_iff.mpr hskipped, List.filter_nil, List.append_nil, List.append_nil]

/-- No two members are for one field. -/
theorem eq_of_once {m' : Quoted × Value} (once : (l.fieldsIn ms).Nodup) (field : name ∈ l.names) (hm : m ∈ ms)
    (hm' : m' ∈ ms) (named : m.1.text? = some name) (named' : m'.1.text? = some name) : m = m' := by
  induction ms with
  | nil => cases hm
  | cons first ms ih =>
      rw [← List.singleton_append, fieldsIn_append, List.nodup_append] at once
      obtain ⟨-, honce, hdisjoint⟩ := once
      have hlater {other : Quoted × Value} (hother : other ∈ ms) (hnamed : other.1.text? = some name) :
          first.1.text? ≠ some name := by
        intro hfirst
        rw [fieldsIn_singleton hfirst field] at hdisjoint
        have hmem : name ∈ l.fieldsIn ms := mem_fieldsIn.mpr ⟨mem_namesIn.mpr ⟨other, hother, hnamed⟩, field⟩
        exact hdisjoint name (List.mem_singleton_self name) name hmem rfl
      rcases List.mem_cons.mp hm with rfl | hrest
      · rcases List.mem_cons.mp hm' with rfl | hrest'
        · rfl
        · exact absurd named (hlater hrest' named')
      · rcases List.mem_cons.mp hm' with rfl | hrest'
        · exact absurd named' (hlater hrest named)
        · exact ih honce hrest hrest'

/-- What comes of a member by itself: a field reads its value, and a stranger's value has to be sound. -/
def probe (name : String) (v : Value) : {α : Type} → Layout α → Except DecodeError Unit
  | _, done => if v.isSound then .ok () else .error .malformed
  | _, field own value _ rest => if own = name then (value v).map fun _ => () else probe name v rest

/-- Every member has a name and nothing is wrong with it by itself. -/
def Admits (l : Layout α) (ms : List (Quoted × Value)) : Prop :=
  ∀ m ∈ ms, ∃ name, m.1.text? = some name ∧ l.probe name m.2 = .ok ()

/-! ## Drafts -/

/-- What was found of one field among the members. -/
def Holds (ms : List (Quoted × Value)) (name : String) (value : Decoder α) : Option α → Prop
  | some a => ∃ m ∈ ms, m.1.text? = some name ∧ value m.2 = .ok a
  | none => name ∉ namesIn ms

/-- The draft has what there is of each field among the members. -/
def Found (ms : List (Quoted × Value)) : {α : Type} → (l : Layout α) → l.Draft → Prop
  | _, done => fun _ => True
  | _, field name value _ rest => fun (found, others) => Holds ms name value found ∧ Found ms rest others

theorem found_blank (l : Layout α) : l.Found [] l.blank := by
  induction l with
  | done => trivial
  | field name value fallback rest ih => exact ⟨List.not_mem_nil, ih⟩

theorem Holds.concat {own : String} {value : Decoder α} {found : Option α} (h : Holds ms own value found)
    (named : m.1.text? = some name) (other : own ≠ name) : Holds (ms ++ [m]) own value found := by
  cases found with
  | some a =>
      obtain ⟨m', hm', hname, hvalue⟩ := h
      exact ⟨m', List.mem_append_left _ hm', hname, hvalue⟩
  | none =>
      show own ∉ namesIn (ms ++ [m])
      rw [namesIn_append, namesIn_singleton named, List.mem_append, List.mem_singleton]
      exact not_or.mpr ⟨h, other⟩

/-- A stranger changes nothing. -/
theorem Found.concat {d : l.Draft} (h : l.Found ms d) (named : m.1.text? = some name) (stranger : name ∉ l.names) :
    l.Found (ms ++ [m]) d := by
  induction l with
  | done => trivial
  | field own value fallback rest ih =>
      obtain ⟨hown, hrest⟩ := not_or.mp fun hmem => stranger (List.mem_cons.mpr hmem)
      exact ⟨h.1.concat named (Ne.symm hown), ih h.2 hrest⟩

section

variable {own : String} {value : Decoder α} {fallback : Option α} {rest : Layout β}

theorem exists_draft (d : (field own value fallback rest).Draft) : ∃ found others, d = draft found others :=
  ⟨d.1, d.2, rfl⟩

theorem finish_fallback (a : α) (others : rest.Draft) :
    (field own value (some a) rest).finish (draft none others) = (rest.finish others).map fun b => (a, b) := rfl

theorem finish_absent (others : rest.Draft) :
    (field own value none rest).finish (draft none others) = .error (.missingField own) := rfl

/-- The first member for the first field is read. -/
theorem takeMember_self (named : m.1.text? = some own) (others : rest.Draft) :
    (field own value fallback rest).takeMember (draft none others) m
      = (value m.2).map fun a => draft (some a) others := by
  rw [takeMember_named named, put_field_self]

/-- A second one is refused. -/
theorem takeMember_again (named : m.1.text? = some own) (a : α) (others : rest.Draft) :
    (field own value fallback rest).takeMember (draft (some a) others) m = .error (.duplicateField own) := by
  rw [takeMember_named named, put_field_taken]

end

/-- **One more member that is not a field's second** comes to what it comes to by itself, and if there is nothing wrong
    with it, it is found from then on. -/
theorem Found.take {d : l.Draft} (h : l.Found ms d) (distinct : l.names.Nodup) (named : m.1.text? = some name)
    (first : name ∈ l.names → name ∉ namesIn ms) :
    ∃ d', l.takeMember d m = (l.probe name m.2).map (fun _ => d') ∧
      (l.probe name m.2 = .ok () → l.Found (ms ++ [m]) d') := by
  induction l with
  | done =>
      refine ⟨d, ?_, fun _ => trivial⟩
      rw [takeMember_named named, probe]
      cases hsound : m.2.isSound <;> rfl
  | field own value fallback rest ih =>
      obtain ⟨found, others, rfl⟩ := exists_draft d
      obtain ⟨hown, hdistinct⟩ := List.nodup_cons.mp distinct
      by_cases hname : own = name
      · subst hname
        -- the field has not been found before
        cases found with
        | some a =>
            obtain ⟨m', hm', hnamed', -⟩ := h.1
            exact absurd (mem_namesIn.mpr ⟨m', hm', hnamed'⟩) (first List.mem_cons_self)
        | none =>
            rw [takeMember_self named, probe, if_pos rfl]
            cases hvalue : value m.2 with
            | error fault => exact ⟨draft none others, rfl, fun h => by cases h⟩
            | ok a =>
                refine ⟨draft (some a) others, rfl, fun _ => ⟨?_, h.2.concat named hown⟩⟩
                exact ⟨m, List.mem_append_right ms (List.mem_singleton_self m), named, hvalue⟩
      · obtain ⟨others', htake, hothers⟩ := ih h.2 hdistinct (fun hmem => first (List.mem_cons_of_mem _ hmem))
        have hne : m.1.text? ≠ some own := fun hown => hname (Option.some.inj (hown.symm.trans named))
        refine ⟨draft found others', ?_, ?_⟩
        · rw [takeMember_field hne, htake, probe, if_neg hname]
          cases rest.probe name m.2 <;> rfl
        · rw [probe, if_neg hname]
          exact fun hprobe => ⟨h.1.concat named hname, hothers hprobe⟩

/-- **A field's second member is refused**, whatever its value. -/
theorem Found.again {d : l.Draft} (h : l.Found ms d) (named : m.1.text? = some name) (field : name ∈ l.names)
    (taken : name ∈ namesIn ms) : l.takeMember d m = .error (.duplicateField name) := by
  induction l with
  | done => cases field
  | field own value fallback rest ih =>
      obtain ⟨found, others, rfl⟩ := exists_draft d
      by_cases hname : own = name
      · subst hname
        cases found with
        | some a => exact takeMember_again named a others
        | none => exact absurd taken h.1
      · have hne : m.1.text? ≠ some own := fun hown => hname (Option.some.inj (hown.symm.trans named))
        rw [takeMember_field hne, ih h.2 ((List.mem_cons.mp field).resolve_left (Ne.symm hname))]
        rfl

/-- **Members that are admitted, none of them a field's second, are all found.** -/
theorem foldlM_found (distinct : l.names.Nodup) (admits : l.Admits ms) (once : (l.fieldsIn ms).Nodup) :
    ∃ d, ms.foldlM l.takeMember l.blank = .ok d ∧ l.Found ms d := by
  induction ms using List.reverseRecOn with
  | nil => exact ⟨l.blank, rfl, found_blank l⟩
  | append_singleton ms m ih =>
      obtain ⟨hms, hm⟩ := List.forall_mem_append.mp admits
      obtain ⟨name, named, hprobe⟩ := hm m (List.mem_singleton_self m)
      rw [fieldsIn_append, List.nodup_append] at once
      obtain ⟨honce, -, hdisjoint⟩ := once
      obtain ⟨d, hfold, hfound⟩ := ih hms honce
      have hfirst (field : name ∈ l.names) (taken : name ∈ namesIn ms) : False := by
        rw [fieldsIn_singleton named field] at hdisjoint
        exact hdisjoint name (mem_fieldsIn.mpr ⟨taken, field⟩) name (List.mem_singleton_self name) rfl
      obtain ⟨d', htake, hfound'⟩ := hfound.take distinct named hfirst
      refine ⟨d', ?_, hfound' hprobe⟩
      rw [List.foldlM_append, hfold]
      show List.foldlM l.takeMember d [m] = _
      rw [List.foldlM_cons, htake, hprobe]
      rfl

/-! ## Records -/

/-- The names of the fields that may not be left out, in order. -/
def required : {α : Type} → Layout α → List String
  | _, done => []
  | _, field name _ fallback rest => if fallback.isNone then name :: rest.required else rest.required

theorem mem_names_of_mem_required (h : name ∈ l.required) : name ∈ l.names := by
  induction l with
  | done => cases h
  | field own value fallback rest ih =>
      rw [required] at h
      split at h
      · rcases List.mem_cons.mp h with rfl | hrest
        · exact List.mem_cons_self
        · exact List.mem_cons_of_mem own (ih hrest)
      · exact List.mem_cons_of_mem own (ih h)

/-- What a field has: what its member is read as, or its fallback if it has no member. -/
def Gives (ms : List (Quoted × Value)) (name : String) (value : Decoder α) (fallback : Option α) (a : α) : Prop :=
  (∃ m ∈ ms, m.1.text? = some name ∧ value m.2 = .ok a) ∨ name ∉ namesIn ms ∧ fallback = some a

/-- What is given for a field is what its member is read as. -/
theorem Gives.read {value : Decoder β} {fallback : Option β} {b : β} (h : Gives ms name value fallback b)
    (once : (l.fieldsIn ms).Nodup) (field : name ∈ l.names) (hm : m ∈ ms) (named : m.1.text? = some name) :
    value m.2 = .ok b := by
  rcases h with ⟨m', hm', named', hvalue⟩ | ⟨habsent, -⟩
  · rwa [eq_of_once once field hm hm' named named']
  · exact absurd (mem_namesIn.mpr ⟨m, hm, named⟩) habsent

/-- Every field of the record has what the members give for it. -/
def Assembles (ms : List (Quoted × Value)) : {α : Type} → Layout α → α → Prop
  | _, done => fun _ => True
  | _, field name value fallback rest => fun (a, b) => Gives ms name value fallback a ∧ Assembles ms rest b

/-- Where no member is missing the record is there. -/
theorem Found.finish {d : l.Draft} (h : l.Found ms d) (complete : ∀ name ∈ l.required, name ∈ namesIn ms) :
    ∃ a, l.finish d = .ok a ∧ l.Assembles ms a := by
  induction l with
  | done => exact ⟨(), rfl, trivial⟩
  | field own value fallback rest ih =>
      obtain ⟨found, others, rfl⟩ := exists_draft d
      rw [required] at complete
      cases found with
      | some a =>
          have hrest : ∀ name ∈ rest.required, name ∈ namesIn ms := by
            intro name hname
            refine complete name ?_
            split
            · exact List.mem_cons_of_mem own hname
            · exact hname
          obtain ⟨b, hb, hassembles⟩ := ih h.2 hrest
          exact ⟨(a, b), by rw [finish_field, hb]; rfl, Or.inl h.1, hassembles⟩
      | none =>
          cases fallback with
          | none => exact absurd (complete own List.mem_cons_self) h.1
          | some a =>
              obtain ⟨b, hb, hassembles⟩ := ih h.2 complete
              exact ⟨(a, b), by rw [finish_fallback, hb]; rfl, Or.inr ⟨h.1, rfl⟩, hassembles⟩

/-- Where one is missing the first of them is named. -/
theorem Found.finish_missing {d : l.Draft} (h : l.Found ms d)
    (missing : l.required.find? (fun name => name ∉ namesIn ms) = some name) :
    l.finish d = .error (.missingField name) := by
  induction l with
  | done => cases missing
  | field own value fallback rest ih =>
      obtain ⟨found, others, rfl⟩ := exists_draft d
      rw [required] at missing
      cases found with
      | some a =>
          have htaken : own ∈ namesIn ms := by
            obtain ⟨m, hm, hnamed, -⟩ := h.1
            exact mem_namesIn.mpr ⟨m, hm, hnamed⟩
          have hrest : rest.required.find? (fun name => name ∉ namesIn ms) = some name := by
            split at missing
            · rwa [List.find?_cons_of_neg (by simpa using htaken)] at missing
            · exact missing
          rw [finish_field, ih h.2 hrest]
          rfl
      | none =>
          cases fallback with
          | none =>
              have habsent : own ∉ namesIn ms := h.1
              have hfirst : (own :: rest.required).find? (fun name => name ∉ namesIn ms) = some own :=
                List.find?_cons_of_pos (decide_eq_true habsent)
              cases hfirst.symm.trans missing
              exact finish_absent ..
          | some a =>
              rw [finish_fallback, ih h.2 missing]
              rfl

/-- **Members that are admitted make up the record**, if none is a field's second and no field is missing. -/
theorem ofMembers_assembles (distinct : l.names.Nodup) (admits : l.Admits ms) (once : (l.fieldsIn ms).Nodup)
    (complete : ∀ name ∈ l.required, name ∈ namesIn ms) : ∃ a, l.ofMembers ms true = .ok a ∧ l.Assembles ms a := by
  obtain ⟨d, hfold, hfound⟩ := foldlM_found distinct admits once
  rw [ofMembers, hfold]
  exact hfound.finish complete

/-- **Members that name every field once make up the record**, whatever their order. -/
theorem ofMembers_complete (distinct : l.names.Nodup) (admits : l.Admits ms)
    (once : (l.fieldsIn ms).Perm l.names) : ∃ a, l.ofMembers ms true = .ok a ∧ l.Assembles ms a := by
  apply ofMembers_assembles distinct admits (once.nodup_iff.mpr distinct)
  intro name hname
  exact (mem_fieldsIn.mp (once.mem_iff.mpr (mem_names_of_mem_required hname))).1

/-- **Where fields are missing the first of them is named**, if no member is a field's second. -/
theorem ofMembers_missing (distinct : l.names.Nodup) (admits : l.Admits ms) (once : (l.fieldsIn ms).Nodup)
    (missing : l.required.find? (fun name => name ∉ namesIn ms) = some name) :
    l.ofMembers ms true = .error (.missingField name) := by
  obtain ⟨d, hfold, hfound⟩ := foldlM_found distinct admits once
  rw [ofMembers, hfold]
  exact hfound.finish_missing missing

/-- What follows a member that is refused does not matter. -/
theorem ofMembers_refused {before after : List (Quoted × Value)} {closed : Bool} {fault : DecodeError} {d : l.Draft}
    (hfold : before.foldlM l.takeMember l.blank = .ok d) (hrefused : l.takeMember d m = .error fault) :
    l.ofMembers (before ++ m :: after) closed = .error fault := by
  rw [ofMembers, List.foldlM_append, hfold]
  show (List.foldlM l.takeMember d (m :: after) >>= _) = _
  rw [List.foldlM_cons, hrefused]
  rfl

/-- **Where fields have more than one member, the one whose second member comes first is named.** -/
theorem ofMembers_again (distinct : l.names.Nodup) (admits : l.Admits ms) {before after : List String}
    (named : l.fieldsIn ms = before ++ name :: after) (once : before.Nodup) (again : name ∈ before) {closed : Bool} :
    l.ofMembers ms closed = .error (.duplicateField name) := by
  obtain ⟨ms₁, m, ms₂, rfl, hname, hfield, rfl⟩ := exists_of_fieldsIn named
  obtain ⟨d, hfold, hfound⟩ := foldlM_found distinct (List.forall_mem_append.mp admits).1 once
  exact ofMembers_refused hfold (hfound.again hname hfield (mem_fieldsIn.mp again).1)

/-- **The first member with something wrong with it says what is wrong with the record.** -/
theorem ofMembers_faulty (distinct : l.names.Nodup) {before after : List (Quoted × Value)} (admits : l.Admits before)
    (once : (l.fieldsIn before).Nodup) (named : m.1.text? = some name) (first : name ∉ namesIn before)
    {fault : DecodeError} (faulty : l.probe name m.2 = .error fault) {closed : Bool} :
    l.ofMembers (before ++ m :: after) closed = .error fault := by
  obtain ⟨d, hfold, hfound⟩ := foldlM_found distinct admits once
  obtain ⟨d', htake, -⟩ := hfound.take distinct named fun _ => first
  rw [faulty] at htake
  exact ofMembers_refused hfold htake

/-! ## Items -/

/-- The members give the fields, in order, what the items give them, and nothing to the fields beyond. -/
def Spreads (l : Layout α) (ms : List (Quoted × Value)) (vs : List Value) : Prop :=
  ∀ name ∈ l.names, ∀ v, (∃ m ∈ ms, m.1.text? = some name ∧ m.2 = v) ↔ (name, v) ∈ l.names.zip vs

/-- The items behind the first spread over the fields behind the first. -/
theorem Spreads.rest {own : String} {value : Decoder α} {fallback : Option α} {rest : Layout β} {vs : List Value}
    (h : (field own value fallback rest).Spreads ms vs) (distinct : own ∉ rest.names) : rest.Spreads ms vs.tail := by
  intro name hname v
  rw [h name (List.mem_cons_of_mem own hname) v]
  cases vs with
  | nil => rw [List.zip_nil_right, List.tail_nil, List.zip_nil_right]
  | cons w vs =>
      have hne : (name, v) ≠ (own, w) := by
        rintro ⟨⟩
        exact distinct hname
      show (name, v) ∈ (own, w) :: rest.names.zip vs ↔ _
      rw [List.mem_cons, or_iff_right hne]
      rfl

/-- **The items of an array make up the record that members with the same values make up.** -/
theorem Assembles.ofItems {a : α} {vs : List Value} (h : l.Assembles ms a) (distinct : l.names.Nodup)
    (spreads : l.Spreads ms vs) (fits : vs.length ≤ l.names.length) : l.ofItems true vs = .ok a := by
  induction l generalizing vs with
  | done =>
      cases List.length_eq_zero_iff.mp (Nat.le_zero.mp fits)
      rfl
  | field own value fallback rest ih =>
      obtain ⟨a, b⟩ := a
      obtain ⟨hgives, hassembles⟩ := h
      obtain ⟨hown, hdistinct⟩ := List.nodup_cons.mp distinct
      have hspreads := spreads.rest hown
      have hitem := spreads own List.mem_cons_self
      cases vs with
      | nil =>
          rcases hgives with ⟨m, hm, hnamed, -⟩ | ⟨-, rfl⟩
          · cases (hitem m.2).mp ⟨m, hm, hnamed, rfl⟩
          · have hrest : Layout.ofItems true rest [] = .ok b := ih hassembles hdistinct hspreads (Nat.zero_le _)
            rw [Layout.ofItems, hrest]
            rfl
      | cons v vs =>
          obtain ⟨m', hm', hnamed', -⟩ := (hitem v).mpr List.mem_cons_self
          rcases hgives with ⟨m, hm, hnamed, hvalue⟩ | ⟨habsent, -⟩
          · have hv : m.2 = v := by
              rcases List.mem_cons.mp ((hitem m.2).mp ⟨m, hm, hnamed, rfl⟩) with hsame | hlater
              · exact congrArg Prod.snd hsame
              · exact absurd (List.of_mem_zip hlater).1 hown
            have hrest : Layout.ofItems true rest vs = .ok b :=
              ih hassembles hdistinct hspreads (Nat.le_of_succ_le_succ fits)
            rw [Layout.ofItems, ← hv, hvalue]
            show (Layout.ofItems true rest vs).map _ = _
            rw [hrest]
            rfl
          · exact absurd (mem_namesIn.mpr ⟨m', hm', hnamed'⟩) habsent

/-- **More items than there are fields are refused.** -/
theorem ofItems_of_length_lt {vs : List Value} (h : l.names.length < vs.length) (closed : Bool) :
    ∃ fault, l.ofItems closed vs = .error fault := by
  induction l generalizing vs with
  | done =>
      cases vs with
      | nil => exact absurd h (Nat.lt_irrefl 0)
      | cons v vs => exact ⟨.malformed, rfl⟩
  | field own value fallback rest ih =>
      cases vs with
      | nil => exact absurd h (Nat.not_lt_zero _)
      | cons v vs =>
          rw [Layout.ofItems]
          cases value v with
          | error fault => exact ⟨fault, rfl⟩
          | ok a =>
              obtain ⟨fault, hfault⟩ := ih (Nat.lt_of_succ_lt_succ h)
              refine ⟨fault, ?_⟩
              show (Layout.ofItems closed rest vs).map _ = _
              rw [hfault]
              rfl

end Layout

end BeaconBroadcast.Json
