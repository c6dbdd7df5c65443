import Yinshi.Reconcile.Working

/-! Every static node of an image is explained: it is a baseline node that is not in
quarantine or a desired node whose slot has been installed. Conversely a baseline
node that is not in quarantine is in its field. -/

namespace Yinshi.Reconcile
open ByteText Keyed Checked Artifact Ranked List

def movableFields : List (String × EffectKind) :=
  [("working_nodes", .quarantineWorkingNode), ("index.storage", .quarantineIndex),
    ("refs.reflogs", .quarantineReflog), ("refs.loose_ref", .quarantineSelectedRef)]

section Fields
variable {H : Hashes} {spec : ReconciliationSpec} {steps done : List TransitionStep}
  {step : TransitionStep} (valid : ValidSpec H spec)
variable {slot : QuarantineSlot} {base : NodeState}
include valid

theorem ValidSpec.baseline_field {first second : NodeState} {name name' : String}
    (hf : (.node first, name) ∈ staticRegistrations spec.baseline)
    (hs : (.node second, name') ∈ staticRegistrations spec.baseline)
    (same : first.location = second.location) : first = second ∧ name = name' := by
  have hd : ((staticRegistrations spec.baseline).map (·.1.location)).Nodup := by
    simpa [staticStorage, Function.comp_def] using valid.baselineLocations
  have rows := key_inj_of_nodup hd hf hs same
  exact ⟨Storage.node.inj (Prod.mk.inj rows).1, (Prod.mk.inj rows).2⟩

theorem ValidSpec.quarantine_field (hb : CompiledBlocks spec steps) (hm : step ∈ steps)
    (isKind : step.effectKind ∈ quarantineEffectKinds) (hl : slot ∈ spec.quarantineSlots)
    (isSlot : step.preparedSlotId = some slot.slotId) :
    ∃ base name, Quarantines spec slot base ∧
      (.node base, name) ∈ staticRegistrations spec.baseline ∧
      (name, step.effectKind) ∈ movableFields := by
  have hs : ∀ {other : QuarantineSlot}, other ∈ spec.quarantineSlots →
      some other.slotId = step.preparedSlotId → other = slot := by
    intro other ho selected
    exact key_inj_of_nodup valid.quarantineIds ho hl (Option.some.inj (selected.trans isSlot))
  have administrative : ∀ {node : NodeState} {name : String},
      (.node node, name) ∈ administrativeRegistrations spec.baseline →
      (.node node, name) ∈ staticRegistrations spec.baseline := fun h => mem_append_left _ h
  have hc := hb.step hm
  cases hc with
  | control hl =>
    have others : ∀ step ∈ controlSteps, step.effectKind ∉ quarantineEffectKinds := by decide
    exact absurd isKind (others step hl)
  | quarantineWorking other node _ working _ =>
    obtain rfl := hs (mem_filter.mp working).1 rfl
    obtain ⟨base, isBase, -, place, identity'⟩ := valid.working_source working
    refine ⟨base, "working_nodes", ⟨hl, place.symm, identity'.symm⟩, ?_, ?_⟩
    · exact mem_append_right _ (mem_map.mpr ⟨base, isBase, rfl⟩)
    · simp [movableFields]
  | quarantineIndex node other storage hq =>
    obtain rfl := hs hq.1 rfl
    refine ⟨node, "index.storage", hq, administrative ?_, ?_⟩
    · simp [administrativeRegistrations, storage]
    · simp [movableFields]
  | quarantineReflog node other isLog hq =>
    obtain rfl := hs hq.1 rfl
    refine ⟨node, "refs.reflogs", hq, administrative ?_, ?_⟩
    · simp [administrativeRegistrations, isLog]
    · simp [movableFields]
  | quarantineSelected node _ storage hq =>
    obtain rfl := hs hq.1 rfl
    refine ⟨node, "refs.loose_ref", hq, administrative ?_, ?_⟩
    · simp [administrativeRegistrations, storage]
    · simp [movableFields]
  | _ => simp [quarantineEffectKinds] at isKind

theorem ValidSpec.quarantines_of_identity (hm : slot ∈ spec.quarantineSlots)
    (isBase : base ∈ baselineNodes spec) (identity : slot.sourceIdentity = base.reference) :
    Quarantines spec slot base := by
  obtain ⟨node, expected, place, identity'⟩ := valid.quarantined hm
  obtain rfl : node = base := key_inj_of_nodup valid.baselineIdentities
    (mem_baselineNodes_of_expected expected) isBase (identity'.trans identity)
  exact ⟨hm, place.symm, identity⟩

theorem Gone.kind (hb : CompiledBlocks spec steps) (prefix_ : done <+: steps) {name : String}
    (field : (.node base, name) ∈ staticRegistrations spec.baseline)
    (gone : Gone spec done base.reference) :
    ∃ slot, Quarantines spec slot base ∧
      ∃ step ∈ done,
        (name, step.effectKind) ∈ movableFields ∧ step.preparedSlotId = some slot.slotId := by
  obtain ⟨slot, hm, identity, did, -⟩ := gone
  have isBase : base ∈ baselineNodes spec := mem_filterMap.mpr ⟨.node base, mem_map.mpr ⟨_, field, rfl⟩, rfl⟩
  have hq := valid.quarantines_of_identity hm isBase identity
  obtain ⟨step, hl, hk, hs⟩ := did_iff.mp did
  obtain ⟨_, _, hq', field', movable⟩ :=
    valid.quarantine_field hb (prefix_.subset hl) hk hm hs
  obtain ⟨-, rfl⟩ := valid.baseline_field field field' (hq.2.1.symm.trans hq'.2.1)
  exact ⟨slot, hq, step, hl, movable, hs⟩

theorem ValidSpec.gone_of_did (hb : CompiledBlocks spec steps) (prefix_ : done <+: steps)
    (name : String) (isNode : (.node base, name) ∈ administrativeRegistrations spec.baseline)
    (hq : Quarantines spec slot base) (did : Did quarantineEffectKinds done slot.slotId) :
    Gone spec done base.reference :=
  ⟨slot, hq.1, hq.2.2, did, valid.not_did_restore hb prefix_ hq name isNode⟩

end Fields

section Emitted
variable {spec : ReconciliationSpec} {steps done : List TransitionStep}

section
variable (hb : CompiledBlocks spec steps)
include hb

theorem CompiledBlocks.indexQuarantine {node : NodeState}
    (storage : spec.baseline.index.storage = .node node)
    (hc : spec.desired.index.storage ≠ desiredStorageFromConcrete spec.baseline.index.storage) :
    ∃ slot, Quarantines spec slot node ∧ quarantineStep 10 .quarantineIndex slot ∈ steps := by
  obtain ⟨same, -⟩ | ⟨-, _, _, first, -, hw⟩ := changed_eq_ok hb.indexed
  · exact absurd (congrArg Index.storage same) hc
  · obtain ⟨node', slot, hs, hq, rfl⟩ | ⟨none, -⟩ := compileQuarantine_eq_ok first
    · obtain rfl : node' = node := by
        rw [storage] at hs
        exact (Storage.node.inj (Option.some.inj hs)).symm
      refine ⟨slot, hq, hb.mem_middle ?_⟩
      rw [hw]
      simp
    · exact absurd (congrArg some storage) (none node)

theorem CompiledBlocks.did_quarantineIndex (prefix_ : done <+: steps)
    (did : DidKind [.quarantineIndex] done) :
    ∃ node slot, spec.baseline.index.storage = .node node ∧ Quarantines spec slot node ∧
      Did quarantineEffectKinds done slot.slotId := by
  obtain ⟨step, hm, hk⟩ := did
  rw [mem_singleton] at hk
  have hc := hb.step (prefix_.subset hm)
  cases hc with
  | control hl =>
    have others : ∀ step ∈ controlSteps, step.effectKind ≠ .quarantineIndex := by decide
    exact absurd hk (others step hl)
  | quarantineIndex node slot storage hq =>
    exact ⟨node, slot, storage, hq, did_iff.mpr ⟨_, hm, by simp [quarantineEffectKinds], rfl⟩⟩
  | _ => simp at hk

theorem CompiledBlocks.did_quarantineSelected (prefix_ : done <+: steps)
    (did : DidKind [.quarantineSelectedRef] done) :
    ∃ node slot, spec.baseline.refs.looseRef = .node node ∧ Quarantines spec slot node ∧
      Did quarantineEffectKinds done slot.slotId := by
  obtain ⟨step, hm, hk⟩ := did
  rw [mem_singleton] at hk
  have hc := hb.step (prefix_.subset hm)
  cases hc with
  | control hl =>
    have others : ∀ step ∈ controlSteps, step.effectKind ≠ .quarantineSelectedRef := by decide
    exact absurd hk (others step hl)
  | quarantineSelected node slot storage hq =>
    exact ⟨node, slot, storage, hq, did_iff.mpr ⟨_, hm, by simp [quarantineEffectKinds], rfl⟩⟩
  | _ => simp at hk

theorem CompiledBlocks.did_indexTarget (prefix_ : done <+: steps)
    (did : DidKind [.installIndex, .finalizeIndexAbsence] done) :
    ((∃ node slot, spec.desired.index.storage = .node node ∧ Prepares spec slot node ∧
          Did installEffectKinds done slot.slotId) ∨
        ∃ node,
          spec.baseline.index.storage = .node node ∧ spec.desired.index.storage.node? = none) ∧
    ∃ step ∈ done, step.effectKind.rank = 101 := by
  obtain ⟨step, hm, hk⟩ := did
  simp only [mem_cons, not_mem_nil, or_false] at hk
  have hc := hb.step (prefix_.subset hm)
  refine ⟨?_, step, hm, by rcases hk with h | h <;> rw [h] <;> rfl⟩
  cases hc with
  | control hl =>
    have others : ∀ step ∈ controlSteps, step.effectKind ≠ .installIndex ∧
        step.effectKind ≠ .finalizeIndexAbsence := by decide
    rcases hk with h | h
    · exact absurd h (others step hl).1
    · exact absurd h (others step hl).2
  | installIndex node slot storage hp =>
    exact .inl ⟨node, slot, storage, hp, did_iff.mpr ⟨_, hm, by simp [installEffectKinds], rfl⟩⟩
  | finalizeIndex node _ storage _ ha => exact .inr ⟨node, storage, ha⟩
  | _ => simp at hk

theorem CompiledBlocks.did_installSelected (prefix_ : done <+: steps)
    (did : DidKind [.installSelectedRef] done) :
    (∃ node slot, spec.desired.refs.looseRef = .node node ∧ Prepares spec slot node ∧
        Did installEffectKinds done slot.slotId) ∧ ∃ step ∈ done, step.effectKind.rank = 112 := by
  obtain ⟨step, hm, hk⟩ := did
  rw [mem_singleton] at hk
  have hc := hb.step (prefix_.subset hm)
  refine ⟨?_, step, hm, by rw [hk]; rfl⟩
  cases hc with
  | control hl =>
    have others : ∀ step ∈ controlSteps, step.effectKind ≠ .installSelectedRef := by decide
    exact absurd hk (others step hl)
  | installSelected node slot storage hp =>
    exact ⟨node, slot, storage, hp, did_iff.mpr ⟨_, hm, by simp [installEffectKinds], rfl⟩⟩
  | _ => simp at hk

end

end Emitted

def Arrived (spec : ReconciliationSpec) (done : List TransitionStep) (node : DesiredNodeState) : Prop :=
  ∃ desired ∈ desiredNodes spec.desired, Alike node desired ∧
    ∃ slot, Prepares spec slot desired ∧ Did installEffectKinds done slot.slotId

def Remaining (spec : ReconciliationSpec) (done : List TransitionStep) (node : DesiredNodeState) : Prop :=
  ∃ base ∈ baselineNodes spec, Alike node (desiredNodeFromConcrete base) ∧
    ¬ Gone spec done base.reference

section Custody
variable {H : Hashes} {bound : BoundSpecification} {steps done : List TransitionStep}
  {image : ExpectedObservation}
variable {node : DesiredNodeState}

theorem desiredStorage_node {state : Storage NodeIdentity}
    (hs : desiredStorageFromConcrete state = .node node) :
    ∃ base, state = .node base ∧ node = desiredNodeFromConcrete base := by
  cases state with
  | node base => exact ⟨base, rfl, (Storage.node.inj hs).symm⟩
  | absent _ => simp [desiredStorageFromConcrete] at hs

theorem prepared_ne_concrete {state : Storage NodeIdentity} {slotId : Text}
    (reference : node.reference = .prepared slotId) :
    Storage.node node ≠ desiredStorageFromConcrete state := by
  intro hs
  obtain ⟨_, -, rfl⟩ := desiredStorage_node hs.symm
  simp [desiredNodeFromConcrete] at reference

variable (valid : ValidSpec H bound.spec) (blocks : CompiledBlocks bound.spec steps)
include valid

theorem remaining_administrative {base : NodeState} (prefix_ : done <+: steps) (name : String)
    (blocks : CompiledBlocks bound.spec steps)
    (field : (.node base, name) ∈ administrativeRegistrations bound.spec.baseline)
    (unmoved : ∀ step ∈ done, ∀ slot, Quarantines bound.spec slot base →
        (name, step.effectKind) ∈ movableFields → step.preparedSlotId ≠ some slot.slotId) :
    Remaining bound.spec done (desiredNodeFromConcrete base) := by
  refine ⟨base, administrative_baseline field, .refl _, fun gone => ?_⟩
  obtain ⟨slot, hq, step, hm, movable, hs⟩ :=
    gone.kind valid blocks prefix_ (mem_append_left _ field)
  exact unmoved step hm slot hq movable hs

include blocks

theorem Reached.static_sound (graph : GraphValid bound.spec steps)
    (hr : Reached bound steps done image) (member : node ∈ staticNodes image.replica) :
    Remaining bound.spec done node ∨ Arrived bound.spec done node := by
  have prefix_ := hr.done_prefix
  have fields := hr.fieldTracks valid blocks graph
  rcases mem_staticNodes.mp member with isIndex | isHead | isLoose | isPacked | isLog | isMeta | isWorking
  · rw [fields.index, indexAfter] at isIndex
    split at isIndex
    next did =>
      obtain ⟨⟨desired, slot, storage, hp, installed⟩ | ⟨_, -, ha⟩, -⟩ :=
        blocks.did_indexTarget prefix_ did
      · obtain rfl : desired = node := Storage.node.inj (storage.symm.trans isIndex)
        exact .inr ⟨desired, mem_desiredNodes_index storage, .refl _, slot, hp, installed⟩
      · simp [isIndex, Storage.node?] at ha
    next =>
      split at isIndex
      next => simp at isIndex
      next unmoved =>
        obtain ⟨base, storage, rfl⟩ := desiredStorage_node isIndex
        refine .inl (remaining_administrative valid prefix_ "index.storage" blocks
          (by simp [administrativeRegistrations, storage]) ?_)
        intro step hl slot _ movable _
        refine unmoved ⟨step, hl, ?_⟩
        simpa [movableFields] using movable
  · refine .inl ?_
    rw [isHead, fields.fixed.head]
    refine remaining_administrative valid prefix_ "refs.head" blocks
      (by simp [administrativeRegistrations]) ?_
    intro step hl slot _ movable _
    simp [movableFields] at movable
  · have selected := congrArg Prod.fst fields.selected
    simp only [isLoose, selectedAfter] at selected
    split at selected
    next did =>
      obtain ⟨⟨desired, slot, storage, hp, installed⟩, -⟩ := blocks.did_installSelected prefix_ did
      obtain rfl : desired = node := Storage.node.inj (storage.symm.trans selected.symm)
      exact .inr ⟨desired, mem_desiredNodes_loose storage, .refl _, slot, hp, installed⟩
    next =>
      split at selected
      next => simp at selected
      next unmoved =>
        obtain ⟨base, storage, rfl⟩ := desiredStorage_node selected.symm
        refine .inl (remaining_administrative valid prefix_ "refs.loose_ref" blocks
          (by simp [administrativeRegistrations, storage]) ?_)
        intro step hl slot _ movable _
        refine unmoved ⟨step, hl, ?_⟩
        simpa [movableFields] using movable
  · rw [fields.fixed.packedRefs] at isPacked
    obtain ⟨base, storage, rfl⟩ := desiredStorage_node isPacked
    refine .inl (remaining_administrative valid prefix_ "refs.packed_refs" blocks
      (by simp [administrativeRegistrations, storage]) ?_)
    intro step hl slot _ movable _
    simp [movableFields] at movable
  · have stored : storageAt image.replica.refs.reflogs node.location = some (.node node) :=
      (storageAt_eq_some (reflogs_nodup hr.imageValid.statics)).mpr ⟨isLog, rfl⟩
    have ht := fields.reflogs node.location
    rw [stored] at ht
    rcases ht with ⟨⟨desired, isDesired, place, slotId, prepared, did⟩, same⟩ | ⟨-, -, same⟩ |
      ⟨-, unmoved, same⟩
    · obtain ⟨hl, -⟩ := storageAt_mem same.symm
      obtain rfl : node = desired :=
        Storage.node.inj (key_inj_of_nodup valid.desiredReflogs hl isDesired place.symm)
      obtain ⟨slot, hp, rfl⟩ := valid.prepared_slot (mem_desiredNodes_reflog isDesired) prepared
      obtain ⟨step, hl, hk, hs⟩ := did_iff.mp did
      refine .inr ⟨node, mem_desiredNodes_reflog isDesired, .refl _, slot, hp, did_iff.mpr ⟨step, hl, ?_, hs⟩⟩
      rw [mem_singleton.mp hk]
      decide
    · simp at same
    · obtain ⟨state, hf, hm⟩ := Option.map_eq_some_iff.mp same.symm
      obtain ⟨base, rfl, rfl⟩ := desiredStorage_node hm
      refine .inl (remaining_administrative valid prefix_ "refs.reflogs" blocks
        (by simp [administrativeRegistrations, (storageAt_mem hf).1]) ?_)
      intro step hl slot hq movable hs
      refine unmoved ⟨slot, hq.1, hq.2.1, did_iff.mpr ⟨step, hl, ?_, hs⟩⟩
      simpa [movableFields] using movable
  · rw [fields.fixed.unrelatedMetadata] at isMeta
    obtain ⟨_, hl, hm⟩ := mem_map.mp isMeta
    obtain ⟨base, rfl, rfl⟩ := desiredStorage_node hm
    refine .inl (remaining_administrative valid prefix_ "refs.unrelated_metadata" blocks
      (by simp [administrativeRegistrations, hl]) ?_)
    intro step hl slot _ movable _
    simp [movableFields] at movable
  · obtain ⟨known, inPlace, alike⟩ := (hr.workingTracks valid blocks).sound node isWorking
    rcases inPlace with ⟨base, isBase, rfl, kept⟩ | ⟨isDesired, _, prepared, did⟩
    · exact .inl ⟨base, mem_baselineNodes_working isBase, alike, kept⟩
    · obtain ⟨slot, hp, rfl⟩ := valid.prepared_slot (mem_desiredNodes_working isDesired) prepared
      obtain ⟨step, hl, hk, hs⟩ := did_iff.mp did
      refine .inr ⟨known, mem_desiredNodes_working isDesired, alike, slot, hp, did_iff.mpr ⟨step, hl, ?_, hs⟩⟩
      rw [mem_singleton.mp hk]
      decide

theorem Reached.static_complete (graph : GraphValid bound.spec steps)
    (hr : Reached bound steps done image) {base : NodeState}
    (isBase : base ∈ baselineNodes bound.spec) (kept : ¬ Gone bound.spec done base.reference) :
    ∃ node ∈ staticNodes image.replica, Alike node (desiredNodeFromConcrete base) := by
  have prefix_ := hr.done_prefix
  have fields := hr.fieldTracks valid blocks graph
  have hso := blocks.sorted
  rcases mem_staticNodes.mp (show base ∈ staticNodes bound.spec.baseline from isBase) with
    isIndex | isHead | isLoose | isPacked | isLog | isMeta | isWorking
  · have field : (.node base, "index.storage") ∈ administrativeRegistrations bound.spec.baseline := by
      simp [administrativeRegistrations, isIndex]
    refine ⟨_, mem_staticNodes.mpr (.inl ?_), .refl _⟩
    rw [fields.index, indexAfter]
    split
    next did =>
      obtain ⟨hc, step, hm, rank⟩ := blocks.did_indexTarget prefix_ did
      have differs : bound.spec.desired.index.storage ≠
          desiredStorageFromConcrete bound.spec.baseline.index.storage := by
        rcases hc with ⟨node, slot, storage, hp, -⟩ | ⟨node, storage, ha⟩
        · rw [storage]
          exact prepared_ne_concrete hp.2
        · rw [storage]
          intro hs
          simp [hs, desiredStorageFromConcrete, Storage.node?] at ha
      obtain ⟨slot, hq, hl⟩ := blocks.indexQuarantine isIndex differs
      refine absurd (valid.gone_of_did blocks prefix_ _ field hq (did_iff.mpr ⟨_,
        mem_of_rank_lt prefix_ hso hm hl ?_, ?_, rfl⟩)) kept
      · rw [rank]
        simp [EffectKind.rank]
      · simp [quarantineEffectKinds]
    next =>
      split
      next did =>
        obtain ⟨node, slot, storage, hq, did⟩ := blocks.did_quarantineIndex prefix_ did
        obtain rfl : node = base := Storage.node.inj (storage.symm.trans isIndex)
        exact absurd (valid.gone_of_did blocks prefix_ _ field hq did) kept
      next =>
        show desiredStorageFromConcrete bound.spec.baseline.index.storage = _
        rw [isIndex]
        rfl
  · refine ⟨_, mem_staticNodes.mpr (.inr (.inl rfl)), ?_⟩
    rw [fields.fixed.head, isHead]
    exact .refl _
  · have field : (.node base, "refs.loose_ref") ∈ administrativeRegistrations bound.spec.baseline := by
      simp [administrativeRegistrations, isLoose]
    refine ⟨_, mem_staticNodes.mpr (.inr (.inr (.inl ?_))), .refl _⟩
    rw [show image.replica.refs.looseRef = _ from congrArg Prod.fst fields.selected, selectedAfter]
    split
    next did =>
      obtain ⟨⟨node, slot, storage, hp, -⟩, step, hm, rank⟩ :=
        blocks.did_installSelected prefix_ did
      have differs : bound.spec.desired.refs.looseRef ≠
          desiredStorageFromConcrete bound.spec.baseline.refs.looseRef := by
        rw [storage]
        exact prepared_ne_concrete hp.2
      obtain ⟨slot, hq, hl⟩ := blocks.selectedQuarantine isLoose differs
      refine absurd (valid.gone_of_did blocks prefix_ _ field hq (did_iff.mpr ⟨_,
        mem_of_rank_lt prefix_ hso hm hl ?_, ?_, rfl⟩)) kept
      · rw [rank]
        simp [EffectKind.rank]
      · simp [quarantineEffectKinds]
    next =>
      split
      next did =>
        obtain ⟨node, slot, storage, hq, did⟩ := blocks.did_quarantineSelected prefix_ did
        obtain rfl : node = base := Storage.node.inj (storage.symm.trans isLoose)
        exact absurd (valid.gone_of_did blocks prefix_ _ field hq did) kept
      next =>
        rw [isLoose]
        rfl
  · refine ⟨_, mem_staticNodes.mpr (.inr (.inr (.inr (.inl ?_)))), .refl _⟩
    rw [fields.fixed.packedRefs, isPacked]
    rfl
  · have field : (.node base, "refs.reflogs") ∈ administrativeRegistrations bound.spec.baseline := by
      simp [administrativeRegistrations, isLog]
    refine ⟨_, mem_staticNodes.mpr (.inr (.inr (.inr (.inr (.inl ?_))))), .refl _⟩
    have stored : storageAt bound.spec.baseline.refs.reflogs base.location = some (.node base) :=
      (storageAt_eq_some valid.baselineReflogs).mpr ⟨isLog, rfl⟩
    rcases fields.reflogs base.location with ⟨installed, -⟩ | ⟨-, vacated, -⟩ | ⟨-, -, hs⟩
    · obtain ⟨slot, hq, did⟩ := installed.vacated valid graph prefix_ isBase
      exact absurd (valid.gone_of_did blocks prefix_ _ field hq did) kept
    · obtain ⟨_, hm, place, did⟩ := vacated
      obtain ⟨node, expected, place', identity⟩ := valid.quarantined hm
      obtain rfl : node = base := key_inj_of_nodup valid.baselinePlaces
        (mem_baselineNodes_of_expected expected) isBase (place'.trans place)
      obtain ⟨step, hl, hk, isSlot⟩ := did_iff.mp did
      refine absurd (valid.gone_of_did blocks prefix_ _ field ⟨hm, place, identity.symm⟩
        (did_iff.mpr ⟨step, hl, ?_, isSlot⟩)) kept
      rw [mem_singleton.mp hk]
      decide
    · rw [stored] at hs
      exact (storageAt_mem hs).1
  · refine ⟨_, mem_staticNodes.mpr (.inr (.inr (.inr (.inr (.inr (.inl ?_)))))), .refl _⟩
    rw [fields.fixed.unrelatedMetadata]
    exact mem_map.mpr ⟨.node base, isMeta, rfl⟩
  · obtain ⟨node, _, alike⟩ := (hr.workingTracks valid blocks).complete _ (.inl ⟨base, isWorking, rfl, kept⟩)
    exact ⟨node, mem_staticNodes.mpr (by tauto), alike⟩

end Custody

end Yinshi.Reconcile
