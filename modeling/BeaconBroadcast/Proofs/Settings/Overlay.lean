import BeaconBroadcast.Proofs.Json.Members
import BeaconBroadcast.Wire.Settings

/-!
# `BeaconBroadcast.Proofs.Settings.Overlay` — settings are laid over their defaults

A document says what is different from the defaults and nothing else. Each field that it gives takes the place of its
default, each that it leaves out stays; so do the fields of the timeliness settings within, by themselves. A schedule
has no defaults to be laid over: it is given whole or not at all.

## Contents
- **Overlays.** `TimelinessSettings.OverlaidBy` and `Settings.OverlaidBy`; `OverlaysDefaults` for objects and arrays,
  and `overlaysDefaults_of_layout` for every record all of whose fields may be left out.
- **Parts.** What a given timeliness and a given schedule come to.
- **Settings.** `Settings.ReadAsOverlay` and `Settings.read_as_overlay`.
-/

namespace BeaconBroadcast

open Json

/-! ## Overlays -/

/-- The timeliness settings are the default ones, but for what the members give. -/
structure TimelinessSettings.OverlaidBy (ms : List (Quoted × Value)) (s : TimelinessSettings) : Prop where
  intervalsPerSlot : Layout.Gives ms "intervals_per_slot" Decoder.word
    (some ({} : TimelinessSettings).intervalsPerSlot) s.intervalsPerSlot
  retentionSlots : Layout.Gives ms "retention_slots" Decoder.word
    (some ({} : TimelinessSettings).retentionSlots) s.retentionSlots
  maxTrackedBlocks : Layout.Gives ms "max_tracked_blocks" Decoder.word
    (some ({} : TimelinessSettings).maxTrackedBlocks) s.maxTrackedBlocks

/-- The settings are the default ones, but for what the members give. -/
structure Settings.OverlaidBy (ms : List (Quoted × Value)) (s : Settings) : Prop where
  forkSchedule : Layout.Gives ms "fork_schedule" ForkSchedule.ofJson
    (some ({} : Settings).forkSchedule) s.forkSchedule
  maxBlobs : Layout.Gives ms "max_blobs_per_block" Decoder.word (some ({} : Settings).maxBlobs) s.maxBlobs
  maxBlobsElectra : Layout.Gives ms "max_blobs_per_block_electra" Decoder.word
    (some ({} : Settings).maxBlobsElectra) s.maxBlobsElectra
  timeliness : Layout.Gives ms "timeliness" TimelinessSettings.ofJson
    (some ({} : Settings).timeliness) s.timeliness

/-- A record is read as its defaults overlaid by what is given, in an object or in an array. -/
structure OverlaysDefaults {α T : Type} (ofJson : Decoder T) (l : Layout α)
    (IsOverlay : List (Quoted × Value) → T → Prop) : Prop where
  /-- Members in any order, strangers among them, none of them a field's second. -/
  object : ∀ {ms}, l.Admits ms → (l.fieldsIn ms).Nodup → ∃ s, ofJson (.object ms true) = .ok s ∧ IsOverlay ms s
  /-- Items for as many fields from the first one on. -/
  array : ∀ {ms vs}, l.Admits ms → (l.fieldsIn ms).Nodup → l.Spreads ms vs → vs.length ≤ l.names.length →
    ofJson (.array vs true) = ofJson (.object ms true)
  /-- More items than fields. -/
  longer : ∀ {vs}, l.names.length < vs.length → ∃ fault, ofJson (.array vs true) = .error fault

/-- **A record all of whose fields may be left out is read as an overlay.** -/
theorem overlaysDefaults_of_layout {α T : Type} {ofJson : Decoder T} {l : Layout α} (build : α → T)
    {IsOverlay : List (Quoted × Value) → T → Prop} (reads : ∀ v, ofJson v = (l.decoder v).map build)
    (distinct : l.names.Nodup) (optional : l.required = [])
    (overlays : ∀ {ms fields}, l.Assembles ms fields → IsOverlay ms (build fields)) :
    OverlaysDefaults ofJson l IsOverlay := by
  have hobject {ms : List (Quoted × Value)} (admits : l.Admits ms) (once : (l.fieldsIn ms).Nodup) :
      ∃ fields, ofJson (.object ms true) = .ok (build fields) ∧ l.Assembles ms fields := by
    obtain ⟨fields, hfields, hassembles⟩ :=
      Layout.ofMembers_assembles distinct admits once (by rw [optional]; exact fun _ h => by cases h)
    refine ⟨fields, ?_, hassembles⟩
    rw [reads]
    show (l.ofMembers ms true).map build = _
    rw [hfields]
    rfl
  refine ⟨?_, ?_, ?_⟩
  · intro ms admits once
    obtain ⟨fields, hread, hassembles⟩ := hobject admits once
    exact ⟨build fields, hread, overlays hassembles⟩
  · intro ms vs admits once spreads fits
    obtain ⟨fields, hread, hassembles⟩ := hobject admits once
    rw [hread, reads]
    show (l.ofItems true vs).map build = _
    rw [hassembles.ofItems distinct spreads fits]
    rfl
  · intro vs long
    obtain ⟨fault, hfault⟩ := Layout.ofItems_of_length_lt long true
    refine ⟨fault, ?_⟩
    rw [reads]
    show (l.ofItems true vs).map build = _
    rw [hfault]
    rfl

theorem TimelinessSettings.overlaysDefaults : OverlaysDefaults ofJson layout OverlaidBy := by
  refine overlaysDefaults_of_layout _ ofJson_eq (by decide) rfl ?_
  rintro ms fields ⟨hintervals, hretention, hmax, -⟩
  exact ⟨hintervals, hretention, hmax⟩

theorem Settings.overlaysDefaults : OverlaysDefaults ofJson layout OverlaidBy := by
  refine overlaysDefaults_of_layout _ ofJson_eq (by decide) rfl ?_
  rintro ms fields ⟨hschedule, hmax, helectra, htimeliness, -⟩
  exact ⟨hschedule, hmax, helectra, htimeliness⟩

/-! ## Parts -/

namespace Settings

variable {ms ms' : List (Quoted × Value)} {key : Quoted}

/-- A timeliness object within settings is laid over the default timeliness, and nothing else in the document counts. -/
theorem timeliness_overlaid (admits : layout.Admits ms) (once : (layout.fieldsIn ms).Nodup)
    (given : (key, .object ms' true) ∈ ms) (named : key.text? = some "timeliness")
    (admits' : TimelinessSettings.layout.Admits ms') (once' : (TimelinessSettings.layout.fieldsIn ms').Nodup) :
    ∃ s, ofJson (.object ms true) = .ok s ∧ s.OverlaidBy ms ∧ s.timeliness.OverlaidBy ms' := by
  obtain ⟨s, hread, hoverlaid⟩ := overlaysDefaults.object admits once
  obtain ⟨t, hread', hoverlaid'⟩ := TimelinessSettings.overlaysDefaults.object admits' once'
  have htimeliness := Layout.Gives.read hoverlaid.timeliness once (by decide) given named
  cases htimeliness.symm.trans hread'
  exact ⟨s, hread, hoverlaid, hoverlaid'⟩

/-- A schedule within settings takes the place of the whole default schedule. -/
theorem schedule_replaced (admits : layout.Admits ms) (once : (layout.fieldsIn ms).Nodup)
    (given : (key, .object ms' true) ∈ ms) (named : key.text? = some "fork_schedule")
    (admits' : ForkSchedule.layout.Admits ms')
    (complete : (ForkSchedule.layout.fieldsIn ms').Perm ForkSchedule.layout.names) :
    ∃ s, ofJson (.object ms true) = .ok s ∧ s.OverlaidBy ms ∧
      ForkSchedule.layout.Assembles ms' (s.forkSchedule.slotsPerEpoch, s.forkSchedule.forks, ()) := by
  obtain ⟨s, hread, hoverlaid⟩ := overlaysDefaults.object admits once
  obtain ⟨⟨slotsPerEpoch, forks, ⟨⟩⟩, hfields, hassembles⟩ :=
    Layout.ofMembers_complete (by decide) admits' complete
  have hschedule := Layout.Gives.read hoverlaid.forkSchedule once (by decide) given named
  have hread' : ForkSchedule.ofJson (.object ms' true) = .ok { slotsPerEpoch, forks } := by
    rw [ForkSchedule.ofJson_eq]
    show (ForkSchedule.layout.ofMembers ms' true).map _ = _
    rw [hfields]
    rfl
  refine ⟨s, hread, hoverlaid, ?_⟩
  rw [Except.ok.inj (hschedule.symm.trans hread')]
  exact hassembles

/-- The first field that a schedule within settings lacks is missing, whatever follows the schedule. -/
theorem schedule_lacking {before after : List (Quoted × Value)} {name : String} (admits : layout.Admits before)
    (once : (layout.fieldsIn before).Nodup) (named : key.text? = some "fork_schedule")
    (first : "fork_schedule" ∉ namesIn before) (admits' : ForkSchedule.layout.Admits ms')
    (once' : (ForkSchedule.layout.fieldsIn ms').Nodup)
    (missing : ForkSchedule.layout.names.find? (fun name => name ∉ namesIn ms') = some name) :
    ofJson (.object (before ++ (key, .object ms' true) :: after) true) = .error (.missingField name) := by
  have hfaulty : layout.probe "fork_schedule" (.object ms' true) = .error (.missingField name) := by
    show (ForkSchedule.ofJson (.object ms' true)).map _ = _
    rw [ForkSchedule.ofJson_eq]
    show ((ForkSchedule.layout.ofMembers ms' true).map _).map _ = _
    rw [Layout.ofMembers_missing (by decide) admits' once' missing]
    rfl
  show (layout.ofMembers _ true >>= _) = _
  rw [Layout.ofMembers_faulty (by decide) admits once named first hfaulty]
  rfl

end Settings

/-! ## Settings -/

/-- What settings are read as. -/
structure Settings.ReadAsOverlay : Prop where
  /-- A document is read as the tree that it spells, so that the rest can be said of trees. -/
  documents : ∀ {v text}, v.SpelledAs text → decode ofJson text = ofJson v
  /-- Settings are laid over the default settings. -/
  settings : OverlaysDefaults ofJson layout OverlaidBy
  /-- Timeliness settings are laid over the default timeliness settings. -/
  timeliness : OverlaysDefaults TimelinessSettings.ofJson TimelinessSettings.layout TimelinessSettings.OverlaidBy
  /-- A timeliness object within settings is laid over the default timeliness settings. -/
  timeliness_within : ∀ {ms key ms'}, layout.Admits ms → (layout.fieldsIn ms).Nodup → (key, .object ms' true) ∈ ms →
    key.text? = some "timeliness" → TimelinessSettings.layout.Admits ms' →
    (TimelinessSettings.layout.fieldsIn ms').Nodup →
    ∃ s, ofJson (.object ms true) = .ok s ∧ s.OverlaidBy ms ∧ s.timeliness.OverlaidBy ms'
  /-- A schedule within settings that has both its fields takes the place of the default schedule. -/
  schedule_within : ∀ {ms key ms'}, layout.Admits ms → (layout.fieldsIn ms).Nodup → (key, .object ms' true) ∈ ms →
    key.text? = some "fork_schedule" → ForkSchedule.layout.Admits ms' →
    (ForkSchedule.layout.fieldsIn ms').Perm ForkSchedule.layout.names →
    ∃ s, ofJson (.object ms true) = .ok s ∧ s.OverlaidBy ms ∧
      ForkSchedule.layout.Assembles ms' (s.forkSchedule.slotsPerEpoch, s.forkSchedule.forks, ())
  /-- The first field that it lacks is missing, whatever comes after it. -/
  schedule_lacking : ∀ {before key ms' after name}, layout.Admits before → (layout.fieldsIn before).Nodup →
    key.text? = some "fork_schedule" → "fork_schedule" ∉ namesIn before → ForkSchedule.layout.Admits ms' →
    (ForkSchedule.layout.fieldsIn ms').Nodup →
    ForkSchedule.layout.names.find? (fun name => name ∉ namesIn ms') = some name →
    ofJson (.object (before ++ (key, .object ms' true) :: after) true) = .error (.missingField name)

/-- **Settings are read as what they give, laid over their defaults.** -/
theorem Settings.read_as_overlay : ReadAsOverlay where
  documents := decode_of_spelledAs ofJson
  settings := overlaysDefaults
  timeliness := TimelinessSettings.overlaysDefaults
  timeliness_within := timeliness_overlaid
  schedule_within := schedule_replaced
  schedule_lacking := schedule_lacking

/-- Settings that give a timeliness with one field, behind a stranger; it could stand in an array as well. -/
theorem Settings.read_as_overlay_when_partial :
    (∃ s, decode ofJson (Value.record [("note", .natural 1),
        ("timeliness", .record [("intervals_per_slot", .natural 2)])]).text = .ok s ∧
      s.timeliness.OverlaidBy [(Quoted.ofPlain "intervals_per_slot", .natural 2)]) ∧
    TimelinessSettings.ofJson (.list [.natural 2])
      = TimelinessSettings.ofJson (.record [("intervals_per_slot", .natural 2)]) := by
  have hwritten : (Value.record [("note", .natural 1),
      ("timeliness", .record [("intervals_per_slot", .natural 2)])]).CanBeWritten := by
    have hinner : (Value.record [("intervals_per_slot", .natural 2)]).CanBeWritten :=
      Value.canBeWritten_record (List.forall_mem_singleton.mpr ⟨by decide, Value.canBeWritten_natural 2⟩)
    apply Value.canBeWritten_record
    simp only [List.forall_mem_cons, Value.canBeWritten_natural, hinner, and_true]
    exact ⟨by decide, by decide, by simp⟩
  have hadmits : TimelinessSettings.layout.Admits [(Quoted.ofPlain "intervals_per_slot", .natural 2)] :=
    List.forall_mem_singleton.mpr ⟨"intervals_per_slot", rfl, rfl⟩
  have houter : layout.Admits [(Quoted.ofPlain "note", .natural 1),
      (Quoted.ofPlain "timeliness", .record [("intervals_per_slot", .natural 2)])] :=
    List.forall_mem_cons.mpr ⟨⟨"note", rfl, rfl⟩, List.forall_mem_singleton.mpr ⟨"timeliness", rfl, rfl⟩⟩
  constructor
  · obtain ⟨s, hread, -, hinner⟩ := read_as_overlay.timeliness_within houter (by decide)
      (List.mem_cons_of_mem _ (List.mem_singleton_self _)) rfl hadmits (by decide)
    exact ⟨s, (read_as_overlay.documents (Value.spelledAs_text hwritten)).trans hread, hinner⟩
  · refine read_as_overlay.timeliness.array hadmits (by decide) ?_ (by decide)
    intro name _ v
    constructor
    · rintro ⟨m, hm, hnamed, rfl⟩
      cases List.mem_singleton.mp hm
      have hname : some "intervals_per_slot" = some name := hnamed
      cases hname
      exact List.mem_cons_self
    · intro h
      cases List.mem_singleton.mp h
      exact ⟨_, List.mem_singleton_self _, rfl, rfl⟩

end BeaconBroadcast
