import BeaconBroadcast.Proofs.Publish.Rewording

/-!
# `BeaconBroadcast.Proofs.Publish.Bloblessness` — a block without blobs takes the same way on every fork

A pipeline of a fork with blobs can be given a block that has none. It then does what a pipeline without blobs does: it
imports by another call, and where sidecars are counted it counts none of them; the rest is the same, call by call and
line by line.

## Contents
- **Imports.** `Rewording.alone` puts an import with sidecars as one of the block alone, and leaves out counting none.
- **Parts.** Each part of an attempt with blobs, put as the part without.
- **Attempts.** `SameButForImport`, and `Attempt.variants_agree`.
-/

namespace BeaconBroadcast

open Program

variable {others others' : Collaborators} {block : SignedBlock} {limit : UInt64} {counted : Bool} {level : Level}

/-! ## Imports -/

/-- The call, where an import with sidecars is one of the block alone. -/
def Call.alone : Call → Call
  | importWithSidecars block _ level => importBlock block level
  | c => c

/-- Whether the call counts sidecars, and there are none. -/
def Call.countsNone : Call → Bool
  | countSidecars taken refused => taken == 0 && refused == 0
  | _ => false

/-- Whether the call goes neither to the import nor to the sidecar counters. -/
def Call.isElsewhere : Call → Bool
  | importBlock .. => false
  | importWithSidecars .. => false
  | countSidecars .. => false
  | _ => true

namespace Rewording

/-- The rewording that imports the block alone and does not count where there is nothing to count. -/
def alone : Rewording where
  call := Call.alone
  same_answers c := by cases c <;> rfl
  omits := Call.countsNone

theorem alone_keeps_notice (notice : Notice) : alone.Keeps (.notify notice) := ⟨rfl, rfl⟩

theorem alone_keeps_report (c : Call) (h : c.isReport) : alone.Keeps c := by
  cases c <;> first | exact ⟨rfl, rfl⟩ | cases h

theorem alone_notify (notice : Notice) : alone.Renders (notify notice) (notify notice) :=
  .of_callsOnly (callsOnly_request ⟨rfl, rfl⟩)

/-! ## Parts -/

/-- Without commitments and sidecars nothing can be wrong with the sidecars. -/
theorem sidecarFault?_of_blobless (blobless : block.commitments = []) : block.sidecarFault? [] limit = none := by
  simp [SignedBlock.sidecarFault?, SignedBlock.firstFault?, blobless]

theorem alone_importBlock (blobless : block.commitments = []) :
    alone.Renders (Variant.importBlock block [] level (.withBlobs limit counted))
      (Variant.importBlock block [] level .plain) := by
  simp only [Variant.importBlock, sidecarFault?_of_blobless blobless]
  exact .call rfl fun _ => .pure _

/-- A broadcast without sidecars offers the block, and if it counts, it counts none. -/
theorem alone_broadcast :
    alone.Renders (Variant.broadcast block [] (.withBlobs limit counted)) (Variant.broadcast block [] .plain) := by
  refine .bind (.of_callsOnly (offerBlock_callsOnly ⟨rfl, rfl⟩ fun _ _ _ => ⟨rfl, rfl⟩)) fun taken => ?_
  cases counted with
  | false => exact .pure _
  | true => exact .aside rfl fun _ => .pure _

theorem alone_conclude {grid? : Option SlotGrid} (answer : ImportAnswer) :
    alone.Renders (Pipeline.conclude { variant := .withBlobs limit counted, grid? } block [] level answer)
      (Pipeline.conclude { variant := .plain, grid? } block [] level answer) := by
  cases answer with
  | imported imported =>
      refine .bind alone_broadcast fun delivery => ?_
      refine .bind (.tellDelay_same ⟨rfl, rfl⟩ (fun notice _ => alone_keeps_notice notice) ..) fun _ => ?_
      exact .bind (alone_notify _) fun _ => .pure _
  | refused verdict => exact .bind (alone_notify _) fun _ => .pure _
  | failed reason => exact .bind (alone_notify _) fun _ => .pure _

theorem alone_run (blobless : block.commitments = []) {grid? : Option SlotGrid} :
    alone.Renders (Pipeline.run { variant := .withBlobs limit counted, grid? } block [] level)
      (Pipeline.run { variant := .plain, grid? } block [] level) := by
  refine .bind (alone_notify _) fun _ => .bind (alone_importBlock blobless) fun answer => ?_
  exact .bind (alone_conclude _) fun result => .bind (.report_same alone_keeps_report ..) fun _ => .pure _

end Rewording

/-! ## Attempts -/

/-- The ends of two attempts, the second of which imported the block alone: all else is the same. -/
structure SameButForImport (blobs plain : Progress PublishResult × List Event) : Prop where
  result : plain.1 = blobs.1
  /-- The same happened in the same order, but that the import was asked by the other call and none were counted. -/
  history : plain.2 = Rewording.alone.past blobs.2
  /-- In particular the same happened at gossip, at the listeners, at the slot clock and in the log. -/
  elsewhere : plain.2.filter (fun e => e.call.isElsewhere) = blobs.2.filter fun e => e.call.isElsewhere
  /-- The counters of any ledger are moved alike. -/
  counts : ∀ dutyCounted ledger,
    plain.2.foldl (Ledger.observe dutyCounted) ledger = blobs.2.foldl (Ledger.observe dutyCounted) ledger

/-- Counting none leaves the counters where they are. -/
theorem Ledger.observe_of_countsNone (dutyCounted : Bool) (l : Ledger) {e : Event} (h : e.call.countsNone) :
    l.observe dutyCounted e = l := by
  have hsame : l.countSidecars 0 0 = l := by
    simp [countSidecars]
  cases e with
  | answered c a =>
      cases c with
      | countSidecars taken refused =>
          obtain ⟨htaken, hrefused⟩ := Bool.and_eq_true_iff.mp h
          cases eq_of_beq htaken
          cases eq_of_beq hrefused
          exact hsame
      | _ => cases h
  | _ => rfl

/-- Whether the ledger hears of the call and counts something. -/
def Call.countsSome (c : Call) : Bool := c.isCounted && !c.countsNone

/-- What happens at the other end of an attempt that imports the block alone. -/
theorem sameButForImport_alone (ended : Progress PublishResult × List Event) :
    SameButForImport ended (Rewording.alone.ending ended) := by
  refine ⟨rfl, rfl, ?_, ?_⟩
  · refine Rewording.filter_past_of_keeps ?_ ?_ ended.2
    · intro c
      cases c <;> rfl
    · intro c hc
      cases c <;> first | exact ⟨rfl, rfl⟩ | cases hc
  · intro dutyCounted ledger
    have hidle (l : Ledger) (e : Event) (h : e.call.countsSome = false) : l.observe dutyCounted e = l := by
      rcases Bool.and_eq_false_iff.mp h with hcounted | hnone
      · exact Ledger.observe_of_not_isCounted l e hcounted
      · exact Ledger.observe_of_countsNone dutyCounted l (by rwa [Bool.not_eq_false'] at hnone)
    rw [← Ledger.foldl_observe_filter hidle, ← Ledger.foldl_observe_filter hidle ended.2]
    refine congrArg _ (Rewording.filter_past_of_keeps ?_ ?_ ended.2)
    · intro c
      cases c <;> rfl
    · intro c hc
      cases c with
      | countSidecars taken refused =>
          have hsome := (Bool.and_eq_true_iff.mp hc).2
          rw [Bool.not_eq_true'] at hsome
          exact ⟨hsome, rfl⟩
      | _ => first | exact ⟨rfl, rfl⟩ | cases hc

/-- **A block without blobs takes the same way on every fork**, where both calls to the import are replied to alike. -/
theorem Attempt.variants_agree (blobless : block.commitments = []) (suits : Rewording.alone.Suits others others')
    (limit : UInt64) (counted : Bool) (grid? : Option SlotGrid) (level : Level) (name : String) :
    SameButForImport
      (awaited others (.single { variant := .withBlobs limit counted, grid? }) { block, sidecars := [], level } name)
      (awaited others' (.single { variant := .plain, grid? }) { block, sidecars := [], level } name) := by
  have hgives_up (cause : String) : Rewording.alone.Renders (abort block cause) (abort block cause) :=
    .abort_same Rewording.alone_keeps_report (Rewording.alone_keeps_notice _)
  have hended : awaited others' (.single { variant := .plain, grid? }) { block, sidecars := [], level } name
      = Rewording.alone.ending (awaited others (.single { variant := .withBlobs limit counted, grid? })
        { block, sidecars := [], level } name) :=
    Rewording.Renders.awaited rfl rfl rfl (Rewording.alone_run blobless) hgives_up suits name
  rw [hended]
  exact sameButForImport_alone _

/-- A blank block on a fork with up to six blobs, where sidecars are counted, and on a fork without. -/
theorem variants_agree_when_blank :
    Request.blank.block.commitments = [] ∧ Rewording.alone.Suits (.willing .standard) (.willing .standard) ∧
    SameButForImport
      (Attempt.awaited (.willing .standard) (.single { variant := .withBlobs 6 true }) .blank "0")
      (Attempt.awaited (.willing .standard) (.single { variant := .plain }) .blank "0") ∧
    (Attempt.awaited (.willing .standard) (.single { variant := .plain }) .blank "0").1
      = .returned (.ok
        { root := Request.blank.block.root, slot := Request.blank.block.slot, optimistic := false,
          delivery := { blockTaken := true } }) := by
  have hsuits : Rewording.alone.Suits (.willing .standard) (.willing .standard) := by
    refine ⟨?_, ?_⟩
    · intro past c _
      cases c <;> rfl
    · intro past c _
      cases c <;> rfl
  exact ⟨rfl, hsuits, Attempt.variants_agree rfl hsuits 6 true none .standard "0", rfl⟩

end BeaconBroadcast
