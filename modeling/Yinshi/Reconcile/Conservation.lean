import Yinshi.Reconcile.Completion

/-! No node of the baseline and no destination object is lost or copied: every image of
a plan records it once, with its body, and at the end what is not kept is in
quarantine. -/

namespace Yinshi.Reconcile
open ByteText Keyed Checked Artifact Ranked List

theorem mem_desiredNodes {desired : DesiredReplicaState} {node : DesiredNodeState} :
    node ∈ desiredNodes desired ↔ node ∈ staticNodes desired := by
  have hp : ∀ {state : Storage NodeReference}, state.node? = some node ↔ state = .node node := by
    intro state
    cases state <;> simp [Storage.node?]
  simp only [mem_staticNodes, desiredNodes, mem_append, mem_filterMap, mem_cons,
    not_mem_nil, or_false, Option.mem_toList, hp, exists_eq_right, or_and_right, exists_or]
  tauto

section Records
variable {image : ExpectedObservation} {node : DesiredNodeState} {identity : NodeIdentity}

def recordsOf (image : ExpectedObservation) (identity : NodeIdentity) : List DesiredNodeState :=
  (imageNodes image).filter (·.reference = .existing identity)

theorem ImageValid.recordsOf_eq (hv : ImageValid image) (hm : node ∈ imageNodes image)
    (reference : node.reference = .existing identity) : recordsOf image identity = [node] := by
  have hd : (recordsOf image identity).Nodup :=
    (Nodup.of_map _ hv.node_locations).filter _
  have hl : node ∈ recordsOf image identity :=
    mem_filter.mpr ⟨hm, by simpa using reference⟩
  have hs : ∀ other ∈ recordsOf image identity, other = node := by
    intro other ho
    obtain ⟨hm', reference'⟩ := mem_filter.mp ho
    exact key_inj_of_nodup hv.node_locations hm' hm ((agree_of_mem hv.places
      (registered_of_mem hm' (by simpa using reference')) (registered_of_mem hm reference)).1 rfl)
  exact perm_singleton.mp ((perm_ext_iff_of_nodup hd (by simp)).mpr fun other =>
    ⟨fun h => by simp [hs other h], fun h => by rwa [mem_singleton.mp h]⟩)

theorem mem_imageNodes_storage {location : Location}
    (hf : auxAt image.storage location = some (.desired node)) : node ∈ imageNodes image :=
  mem_append_right _ (mem_filterMap.mpr ⟨_, mem_of_find?_eq_some hf, rfl⟩)

end Records

section Runs
variable {H : Hashes} {bound : BoundSpecification} {steps done : List TransitionStep}
  {image : ExpectedObservation} (valid : ValidSpec H bound.spec)
variable {known : NodeState}
  (blocks : CompiledBlocks bound.spec steps)
include valid blocks

theorem Reached.gone_stored (hr : Reached bound steps done image) {identity : NodeIdentity}
    (gone : Gone bound.spec done identity) :
    ∃ slot ∈ bound.spec.quarantineSlots, slot.sourceIdentity = identity ∧
      ∃ node, auxAt image.storage slot.destination = some (.desired node) ∧
        node.location = slot.destination ∧ node.reference = .existing identity := by
  obtain ⟨slot, hm, rfl, away⟩ := gone
  obtain ⟨_, hf, hh⟩ :=
    (hr.auxTracks valid blocks).holds (.quarantine slot) (mem_places.mpr hm)
  rw [PlaceHolds, if_pos away] at hh
  obtain ⟨node, rfl, place, reference⟩ := hh
  exact ⟨slot, hm, rfl, node, hf, place, reference⟩

theorem Reached.known_recorded (graph : GraphValid bound.spec steps)
    (hr : Reached bound steps done image) (isKnown : known ∈ knownNodes bound.spec) :
    ∃ node ∈ imageNodes image, node.reference = .existing known.reference := by
  rcases mem_append.mp isKnown with isBase | isObject
  · by_cases gone : Gone bound.spec done known.reference
    · obtain ⟨_, -, -, node, hf, -, reference⟩ := hr.gone_stored valid blocks gone
      exact ⟨node, mem_imageNodes_storage hf, reference⟩
    · obtain ⟨node, isStatic, alike⟩ := hr.static_complete valid blocks graph isBase gone
      exact ⟨node, mem_append_left _ isStatic, alike.reference⟩
  · obtain ⟨item, hm, rfl⟩ := mem_map.mp isObject
    obtain ⟨_, hf, rfl⟩ :=
      (hr.auxTracks valid blocks).holds (.destination item) (mem_places.mpr hm)
    refine ⟨desiredNodeFromConcrete item.storage, mem_append_right _ ?_, rfl⟩
    exact mem_filterMap.mpr ⟨_, mem_of_find?_eq_some hf, rfl⟩

theorem Reached.known_body (hr : Reached bound steps done image)
    (isKnown : known ∈ knownNodes bound.spec) {node : DesiredNodeState}
    (hm : node ∈ imageNodes image) (reference : node.reference = .existing known.reference) :
    SameBody node known := by
  obtain ⟨_, ho, identity, body⟩ := hr.bodies valid blocks node hm _ reference
  exact valid.known_unique ho isKnown identity ▸ body

theorem Reached.conserves (graph : GraphValid bound.spec steps)
    (hr : Reached bound steps done image) (isKnown : known ∈ knownNodes bound.spec) :
    ∃ node, recordsOf image known.reference = [node] ∧ SameBody node known := by
  obtain ⟨node, hm, reference⟩ := hr.known_recorded valid blocks graph isKnown
  exact ⟨node, hr.imageValid.recordsOf_eq hm reference, hr.known_body valid blocks isKnown hm reference⟩

theorem Reached.final_gone (graph : GraphValid bound.spec steps)
    (hr : Reached bound steps steps image) {base : NodeState}
    (isBase : base ∈ baselineNodes bound.spec)
    (dropped :
      ∀ node ∈ desiredNodes bound.spec.desired, node.reference ≠ .existing base.reference) :
    Gone bound.spec steps base.reference := by
  by_contra kept
  obtain ⟨node, isStatic, alike⟩ := hr.static_complete valid blocks graph isBase kept
  rw [hr.final_replica valid blocks graph] at isStatic
  exact dropped node (mem_desiredNodes.2 isStatic) alike.reference

end Runs

section Plans
variable {H : Hashes} {spec : ReconciliationSpec} {bound : BoundSpecification}
  {plan : ReconciliationPlan}

def ActionContract.images (action : ActionContract) : List ExpectedObservation :=
  action.preimage :: action.completionPostimage :: action.permittedEffectPostimages

theorem Contract.image_reached {steps : List TransitionStep} {position : Nat}
    {step : TransitionStep} {action : ActionContract}
    (contract : Contract bound steps position step action) {image : ExpectedObservation}
    (member : image ∈ action.images) : ∃ done, Reached bound steps done image := by
  simp only [ActionContract.images, contract.permitted, mem_cons, not_mem_nil, or_false, or_self] at member
  rcases member with rfl | rfl
  · exact ⟨_, contract.reached⟩
  · exact ⟨_, contract.reached_post⟩

def Quarantined (spec : ReconciliationSpec) (last : ActionContract) (base : NodeState) : Prop :=
  ∃ slot ∈ spec.quarantineSlots, slot.source = base.location ∧
    slot.sourceIdentity = base.reference ∧ ∃ node, node.location = slot.destination ∧
      auxAt last.completionPostimage.storage slot.destination = some (.desired node) ∧
      recordsOf last.completionPostimage base.reference = [node]

/-- No plan loses or copies a node. -/
theorem plan_conserves_nodes (binds : bindSpecification H spec = .ok bound)
    (derives : deriveProtocolPlan bound = .ok plan) :
    (∀ action ∈ plan.actions, ∀ image ∈ action.images, ∀ known ∈ knownNodes bound.spec,
      ∃ node, recordsOf image known.reference = [node] ∧ SameBody node known) ∧
    ∃ last, plan.actions.getLast? = some last ∧
      ∀ base ∈ baselineNodes bound.spec,
        (∀ node ∈ desiredNodes bound.spec.desired, node.reference ≠ .existing base.reference) →
        Quarantined bound.spec last base := by
  obtain ⟨_, planned⟩ := planned binds derives
  obtain ⟨blocks⟩ := planned.blocks
  constructor
  · intro action member _ isImage _ isKnown
    obtain ⟨position, found⟩ := mem_iff_getElem?.mp member
    obtain ⟨_, contract⟩ := planned.contract position action found
    obtain ⟨_, reached⟩ := contract.image_reached isImage
    exact reached.conserves planned.valid blocks planned.graph isKnown
  · obtain ⟨last, isLast, reached⟩ := planned.last
    refine ⟨last, isLast, fun base isBase dropped => ?_⟩
    obtain ⟨slot, member, identity, node, stored, place, reference⟩ := reached.gone_stored
      planned.valid blocks (reached.final_gone planned.valid blocks planned.graph isBase dropped)
    have quarantines := planned.valid.quarantines_of_identity member isBase identity
    exact ⟨slot, member, quarantines.2.1, identity, node, place, stored,
      reached.imageValid.recordsOf_eq (mem_imageNodes_storage stored) reference⟩

/-- The file that the sample plan replaces. -/
theorem plan_conserves_nodes_sampleSpec :
    ∃ plan last, deriveProtocolPlan sampleBound = .ok plan ∧ plan.actions.getLast? = some last ∧
      ∃ node, recordsOf last.completionPostimage (sampleIdentity "notes") = [node] ∧
        node.location = ⟨text "private", bytes "notes-old"⟩ ∧ node.content = bytes "old" := by
  obtain ⟨plan, derives⟩ := sampleBound_derives
  obtain ⟨everywhere, last, hl, dropped⟩ := plan_conserves_nodes sampleSpec_binds derives
  let notes := sampleFile sampleNotes "notes" (bytes "old")
  have isNotes : notes ∈ baselineNodes sampleSpec := by decide +kernel
  obtain ⟨slot, hm, -, -, node, place, -, recorded⟩ := dropped notes isNotes (by decide +kernel)
  obtain ⟨node', recorded', body⟩ := everywhere last (mem_of_getLast? hl)
    last.completionPostimage (by simp [ActionContract.images]) notes (mem_append_left _ isNotes)
  obtain rfl : node = node' := by simpa using recorded.symm.trans recorded'
  have only : ∀ slot ∈ sampleSpec.quarantineSlots,
      slot.destination = ⟨text "private", bytes "notes-old"⟩ := by decide +kernel
  exact ⟨plan, last, derives, hl, node, recorded, place.trans (only slot hm), body.content⟩

end Plans

end Yinshi.Reconcile
