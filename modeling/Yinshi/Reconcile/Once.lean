import Yinshi.Reconcile.Image

/-! Every slot is created, moved and removed at most once, and what a transition
takes away has been put there before. -/

namespace Yinshi.Reconcile
open ByteText Keyed Checked Artifact Ranked List Option

section Counts
variable {spec : ReconciliationSpec} {steps done : List TransitionStep} {step : TransitionStep}
  {kinds : List EffectKind} {slotId : Text}

theorem ValidSpec.graphValid {H : Hashes} (hv : ValidSpec H spec)
    (hc : compileTransitions spec = .ok steps) : GraphValid spec steps := by
  obtain ⟨transitions, hc', graph⟩ := hv.graph
  obtain rfl : transitions = steps := Except.ok.inj (hc'.symm.trans hc)
  exact validateTransitionGraph_eq_ok.mp graph

theorem filterMap_slotOf_nil {xs : List TransitionStep}
    (other : ∀ step ∈ xs, step.effectKind ∉ kinds) : xs.filterMap (slotOf kinds) = [] := by
  rw [filterMap_eq_nil_iff]
  intro step hm
  rw [slotOf, if_neg (other step hm)]

theorem CompiledBlocks.opening_slots (blocks : CompiledBlocks spec steps)
    (early : ∀ kind ∈ kinds, kind.rank < 61) :
    steps.filterMap (slotOf kinds) = (openingSteps spec).filterMap (slotOf kinds) := by
  obtain ⟨rest, whole⟩ : ∃ rest, steps = openingSteps spec ++ rest :=
    ⟨_, blocks.whole.trans (append_assoc ..)⟩
  have hs := blocks.sorted
  rw [whole] at hs ⊢
  refine (filterMap_append ..).trans ?_
  rw [@filterMap_slotOf_nil kinds rest ?_, append_nil]
  intro step hm hk
  have last : applicationStep 6 .acknowledgePreparation ∈ openingSteps spec := by simp [openingSteps]
  have ha := (pairwise_append.mp hs).2.2 _ last step hm
  have hb := early _ hk
  simp only [applicationStep, EffectKind.rank] at ha hb
  omega

theorem CompiledBlocks.created_slots (hb : CompiledBlocks spec steps) :
    steps.filterMap (slotOf [.createOwnershipMarker]) = spec.ownershipMarkers.map (·.slotId) := by
  rw [hb.opening_slots (by simp [EffectKind.rank])]
  have markers : (spec.ownershipMarkers.flatMap markerCreationSteps).filterMap
      (slotOf [.createOwnershipMarker]) = spec.ownershipMarkers.map (·.slotId) := by
    induction spec.ownershipMarkers with
    | nil => rfl
    | cons _ markers ih =>
      rw [flatMap_cons, filterMap_append, ih]
      simp [markerCreationSteps, slotOf]
  have slots : (spec.preparationSlots.map materializationStep).filterMap
          (slotOf [.createOwnershipMarker]) = [] :=
    filterMap_slotOf_nil (by simp)
  simp only [openingSteps, filterMap_append, markers, slots]
  simp [slotOf]

theorem CompiledBlocks.materialized_slots (hb : CompiledBlocks spec steps) :
    steps.filterMap (slotOf [.materializePreparation]) = spec.preparationSlots.map (·.slotId) := by
  rw [hb.opening_slots (by simp [EffectKind.rank])]
  have markers : (spec.ownershipMarkers.flatMap markerCreationSteps).filterMap
      (slotOf [.materializePreparation]) = [] :=
    filterMap_slotOf_nil (by
      intro _ member
      obtain ⟨_, -, hm⟩ := mem_flatMap.mp member
      simp only [markerCreationSteps, mem_cons, not_mem_nil, or_false] at hm
      rcases hm with rfl | rfl <;> simp)
  have slots : (spec.preparationSlots.map materializationStep).filterMap
      (slotOf [.materializePreparation]) = spec.preparationSlots.map (·.slotId) := by
    rw [filterMap_map, ← filterMap_eq_map]
    exact filterMap_congr fun slot _ => by simp [slotOf]
  simp only [openingSteps, filterMap_append, markers, slots]
  simp [slotOf]

theorem not_did_of_nodup (next : Next steps done step) (hd : (steps.filterMap (slotOf kinds)).Nodup)
    (hk : step.effectKind ∈ kinds) (hs : step.preparedSlotId = some slotId) :
    ¬ Did kinds done slotId := by
  intro did
  obtain ⟨_, hm, selected⟩ := mem_filterMap.mp did
  exact next.key_ne hd (slotOf_eq_some.mpr ⟨hk, hs⟩) hm selected

theorem GraphValid.restore_slots (graph : GraphValid spec steps) :
    (steps.filterMap (slotOf [.restoreWorkingNode])).Nodup := by
  have hs : slotOf [.restoreWorkingNode] = restoredSlot := by
    funext step
    simp only [slotOf, restoredSlot, mem_singleton]
  rw [hs]
  exact graph.restoreSlots

theorem GraphValid.install_slots (graph : GraphValid spec steps) :
    (steps.filterMap (slotOf installEffectKinds)).Nodup := graph.installSlots

theorem GraphValid.not_did_quarantine {H : Hashes} (hv : ValidSpec H spec)
    (graph : GraphValid spec steps) (next : Next steps done step) {slot : QuarantineSlot}
    (hm : slot ∈ spec.quarantineSlots) (hk : step.effectKind ∈ quarantineEffectKinds)
    (hs : step.preparedSlotId = some slot.slotId) :
    ¬ Did quarantineEffectKinds done slot.slotId := by
  have hf : quarantineSlotAt spec slot.slotId = some slot :=
    (find?_eq_some_iff (fun slot : QuarantineSlot => slot.slotId) hv.quarantineIds).mpr ⟨hm, rfl⟩
  have source : ∀ {other : TransitionStep}, other.effectKind ∈ quarantineEffectKinds →
      other.preparedSlotId = some slot.slotId → quarantinedSource spec other = some slot.source := by
    intro other kind slotId
    rw [quarantinedSource, if_pos kind, slotId, bind_some, hf, map_some]
  intro did
  obtain ⟨_, hl, kind, slotId⟩ := did_iff.mp did
  exact next.key_ne graph.sources (source hk hs) hl (source kind slotId)

end Counts

section Order
variable {H : Hashes} {spec : ReconciliationSpec} {steps done : List TransitionStep}
  {step : TransitionStep}
variable {base : NodeState}

section
variable (hv : ValidSpec H spec)
include hv

theorem ValidSpec.node_target {node : DesiredNodeState} {slot : PreparationSlot}
    (member : node ∈ desiredNodes spec.desired) (hp : Prepares spec slot node)
    (hk : step.effectKind ∈ installEffectKinds) (hs : step.preparedSlotId = some slot.slotId) :
    installedTarget (installTargets spec) step = some node.location := by
  rw [installedTarget, installedSlot, if_pos hk, hs, bind_some, hv.target_iff]
  refine mem_append_left _ (mem_map.mpr ⟨(node, slot.slotId), ?_, rfl⟩)
  exact mem_filterMap.mpr ⟨node, member, by rw [hp.2]⟩

theorem ValidSpec.baseline_row (hm : base ∈ baselineNodes spec) :
    ∃ name,
      (staticRegistrations spec.baseline).find? (·.1.location = base.location) =
        some (.node base, name) := by
  obtain ⟨_, hl, hn⟩ := mem_filterMap.mp hm
  obtain ⟨row, _, rfl⟩ := mem_map.mp hl
  have hs : row.1 = .node base := by
    cases first : row.1 with
    | node _ => simpa [first, Storage.node?] using hn
    | absent _ => simp [first, Storage.node?] at hn
  have hd : ((staticRegistrations spec.baseline).map (·.1.location)).Nodup := by
    simpa [staticStorage, Function.comp_def] using hv.baselineLocations
  refine ⟨row.2, (find?_eq_some_iff _ hd).mpr ⟨?_, rfl⟩⟩
  rwa [← hs]

theorem ValidSpec.quarantined_earlier (graph : GraphValid spec steps)
    (hm : base ∈ baselineNodes spec) {position : Nat} (hf : steps[position]? = some step)
    (target : installedTarget (installTargets spec) step = some base.location) :
    ∃ earlier < position, ∃ other, steps[earlier]? = some other ∧
      other.effectKind ∈ quarantineEffectKinds ∧
      ∃ slot, Quarantines spec slot base ∧ other.preparedSlotId = some slot.slotId := by
  obtain ⟨name, row⟩ := hv.baseline_row hm
  obtain ⟨earlier, ⟨other, ho, source⟩, before⟩ :=
    graph.installOrder base.location position ⟨step, hf, target⟩ base name row
  refine ⟨earlier, before, other, ho, ?_⟩
  rw [quarantinedSource] at source
  split at source
  next hk =>
    obtain ⟨slot, hs, place⟩ := map_eq_some_iff.mp source
    obtain ⟨slotId, selected, hs⟩ := bind_eq_some_iff.mp hs
    have hl := mem_of_find?_eq_some hs
    have same : slot.slotId = slotId := by simpa using find?_some hs
    obtain ⟨node, expected, place', identity⟩ := hv.quarantined hl
    obtain rfl : node = base := key_inj_of_nodup hv.baselinePlaces
      (mem_baselineNodes_of_expected expected) hm (place'.trans place)
    exact ⟨hk, slot, ⟨hl, place, identity.symm⟩, by rw [selected, same]⟩
  next => simp at source

theorem ValidSpec.quarantined_done (graph : GraphValid spec steps) (prefix_ : done <+: steps)
    (hm : base ∈ baselineNodes spec) {position : Nat} (hw : position ≤ done.length)
    (found : steps[position]? = some step)
    (target : installedTarget (installTargets spec) step = some base.location) :
    ∃ slot, Quarantines spec slot base ∧ Did quarantineEffectKinds done slot.slotId := by
  obtain ⟨_, _, other, ho, hk, slot, hq, hs⟩ :=
    hv.quarantined_earlier graph hm found target
  refine ⟨slot, hq, did_iff.mpr ⟨other, ?_, hk, hs⟩⟩
  obtain ⟨_, rfl⟩ := prefix_
  rw [getElem?_append_left (by omega)] at ho
  exact mem_of_getElem? ho

theorem ValidSpec.quarantined_next (graph : GraphValid spec steps) (next : Next steps done step)
    (hm : base ∈ baselineNodes spec)
    (target : installedTarget (installTargets spec) step = some base.location) :
    ∃ slot, Quarantines spec slot base ∧ Did quarantineEffectKinds done slot.slotId := by
  have prefix_ : done <+: steps := IsPrefix.trans (prefix_append _ _) next
  refine hv.quarantined_done graph prefix_ hm (le_refl _) ?_ target
  obtain ⟨_, rfl⟩ := next
  simp

theorem ValidSpec.quarantined_did (graph : GraphValid spec steps) (prefix_ : done <+: steps)
    (hl : step ∈ done) (hm : base ∈ baselineNodes spec)
    (target : installedTarget (installTargets spec) step = some base.location) :
    ∃ slot, Quarantines spec slot base ∧ Did quarantineEffectKinds done slot.slotId := by
  obtain ⟨_, hw, hf⟩ := mem_iff_getElem.mp hl
  refine hv.quarantined_done graph prefix_ hm hw.le ?_ target
  obtain ⟨_, rfl⟩ := prefix_
  rw [getElem?_append_left hw, getElem?_eq_getElem hw, hf]

end

end Order

structure Planned (H : Hashes) (bound : BoundSpecification) (plan : ReconciliationPlan)
    (steps : List TransitionStep) : Prop where
  valid : ValidSpec H bound.spec
  blocks : Nonempty (CompiledBlocks bound.spec steps)
  graph : GraphValid bound.spec steps
  fingerprint : plan.fingerprint = bound.fingerprint
  length : plan.actions.length = steps.length
  contract : ∀ position action, plan.actions[position]? = some action →
    ∃ step, Contract bound steps position step action

theorem planned {H : Hashes} {spec : ReconciliationSpec} {bound : BoundSpecification}
    {plan : ReconciliationPlan} (binds : bindSpecification H spec = .ok bound)
    (derives : deriveProtocolPlan bound = .ok plan) : ∃ steps, Planned H bound plan steps := by
  have hv : ValidSpec H bound.spec := validSpec_of_bind binds
  obtain ⟨steps, hc, -, fingerprint, length, contract⟩ := deriveProtocolPlan_contracts derives
  exact ⟨steps, hv, compiledBlocks hc, hv.graphValid hc, fingerprint, length, contract⟩

section Planned
variable {H : Hashes} {bound : BoundSpecification} {plan : ReconciliationPlan}
  {steps : List TransitionStep}

theorem Planned.last (hp : Planned H bound plan steps) : ∃ last,
    plan.actions.getLast? = some last ∧ Reached bound steps steps last.completionPostimage := by
  obtain ⟨hb⟩ := hp.blocks
  have first : applicationStep 1 .commitApplicationIntent ∈ steps := hb.control (by decide)
  have hn : 0 < steps.length := length_pos_of_mem first
  obtain ⟨last, isLast⟩ : ∃ last, plan.actions[steps.length - 1]? = some last :=
    ⟨_, getElem?_eq_getElem (by rw [hp.length]; omega)⟩
  obtain ⟨_, contract⟩ := hp.contract _ last isLast
  refine ⟨last, ?_, ?_⟩
  · rw [getLast?_eq_getElem?, hp.length, isLast]
  · have hr := contract.reached_post
    rwa [Nat.sub_add_cancel hn, take_length] at hr

end Planned

end Yinshi.Reconcile
