import Yinshi.Reconcile.Conservation

/-! Where a transition puts nodes, and that it puts them where there are none. -/

namespace Yinshi.Reconcile
open ByteText Keyed Checked Artifact Ranked List

def named {α : Type} (key : α → Text) (slotId : Option Text) (xs : List α) : List α :=
  xs.filter fun x => some (key x) = slotId

def arrivals (spec : ReconciliationSpec) (kind : EffectKind) (slotId : Option Text) :
    List Location :=
  match kind with
  | .createOwnershipMarker => (named (·.slotId) slotId spec.ownershipMarkers).map (·.destination)
  | .materializePreparation => (named (·.slotId) slotId spec.preparationSlots).map (·.destination)
  | .promoteRequiredObject =>
    (named (·.sourceSlotId) slotId (missingObjects spec)).map (objectLocation ·.objectId)
  | .quarantineWorkingNode | .quarantineIndex | .quarantineReflog | .quarantineSelectedRef =>
    (named (·.slotId) slotId spec.quarantineSlots).map (·.destination)
  | .installWorkingNode | .installIndex | .installReflog | .installSelectedRef =>
    (named Prod.snd slotId (preparedNodes spec.desired)).map (·.1.location)
  | .restoreWorkingNode => (named (·.slotId) slotId spec.quarantineSlots).map (·.source)
  | _ => []

theorem mem_named {α : Type} {key : α → Text} {slotId : Option Text} {xs : List α} {x : α} :
    x ∈ named key slotId xs ↔ x ∈ xs ∧ slotId = some (key x) := by
  rw [named, mem_filter, decide_eq_true_eq, eq_comm]

theorem mem_preparedNodes {desired : DesiredReplicaState} {node : DesiredNodeState}
    {slotId : Text} :
    (node, slotId) ∈ preparedNodes desired ↔
    node ∈ desiredNodes desired ∧ node.reference = .prepared slotId := by
  rw [preparedNodes, mem_filterMap]
  constructor
  · rintro ⟨other, member, hm⟩
    cases reference : other.reference with
    | existing _ => simp [reference] at hm
    | prepared _ =>
      simp only [reference, Option.some.injEq, Prod.mk.injEq] at hm
      exact hm.1 ▸ ⟨member, hm.2 ▸ reference⟩
  · rintro ⟨member, reference⟩
    exact ⟨node, member, by rw [reference]⟩

inductive Arrival (spec : ReconciliationSpec) (step : TransitionStep) (location : Location) : Prop
  | marker (marker : OwnershipMarkerSpec) (member : marker ∈ spec.ownershipMarkers)
      (kind : step.effectKind = .createOwnershipMarker)
      (slot : step.preparedSlotId = some marker.slotId) (place : location = marker.destination)
  | slot (slot : PreparationSlot) (member : slot ∈ spec.preparationSlots)
      (kind : step.effectKind = .materializePreparation)
      (slotId : step.preparedSlotId = some slot.slotId) (place : location = slot.destination)
  | object (item : RequiredObject) (missing : item ∈ missingObjects spec)
      (kind : step.effectKind = .promoteRequiredObject)
      (slot : step.preparedSlotId = some item.sourceSlotId)
      (place : location = objectLocation item.objectId)
  | quarantine (slot : QuarantineSlot) (member : slot ∈ spec.quarantineSlots)
      (kind : step.effectKind ∈ quarantineEffectKinds)
      (slotId : step.preparedSlotId = some slot.slotId) (place : location = slot.destination)
  | node (node : DesiredNodeState) (slotId : Text) (member : node ∈ desiredNodes spec.desired)
      (kind : step.effectKind ∈
        [.installWorkingNode, .installIndex, .installReflog, .installSelectedRef])
      (reference : node.reference = .prepared slotId) (slot : step.preparedSlotId = some slotId)
      (place : location = node.location)
  | restored (slot : QuarantineSlot) (member : slot ∈ spec.quarantineSlots)
      (kind : step.effectKind = .restoreWorkingNode)
      (slotId : step.preparedSlotId = some slot.slotId) (place : location = slot.source)

theorem arrival {spec : ReconciliationSpec} {step : TransitionStep} {location : Location} :
    location ∈ arrivals spec step.effectKind step.preparedSlotId ↔ Arrival spec step location := by
  constructor
  · intro arrives
    generalize kind : step.effectKind = effectKind at arrives
    cases effectKind with
    | createOwnershipMarker =>
      obtain ⟨marker, isMarker, rfl⟩ := mem_map.mp arrives
      exact .marker marker (mem_named.1 isMarker).1 kind (mem_named.1 isMarker).2 rfl
    | materializePreparation =>
      obtain ⟨slot, hs, rfl⟩ := mem_map.mp arrives
      exact .slot slot (mem_named.1 hs).1 kind (mem_named.1 hs).2 rfl
    | promoteRequiredObject =>
      obtain ⟨item, isItem, rfl⟩ := mem_map.mp arrives
      exact .object item (mem_named.1 isItem).1 kind (mem_named.1 isItem).2 rfl
    | quarantineWorkingNode | quarantineIndex | quarantineReflog | quarantineSelectedRef =>
      obtain ⟨slot, hs, rfl⟩ := mem_map.mp arrives
      exact .quarantine slot (mem_named.1 hs).1 (by rw [kind]; decide) (mem_named.1 hs).2
        rfl
    | installWorkingNode | installIndex | installReflog | installSelectedRef =>
      obtain ⟨⟨node, slotId⟩, hn, rfl⟩ := mem_map.mp arrives
      obtain ⟨hm, reference⟩ := mem_preparedNodes.1 (mem_named.1 hn).1
      exact .node node slotId hm (by rw [kind]; decide) reference (mem_named.1 hn).2 rfl
    | restoreWorkingNode =>
      obtain ⟨slot, hs, rfl⟩ := mem_map.mp arrives
      exact .restored slot (mem_named.1 hs).1 kind (mem_named.1 hs).2 rfl
    | _ => exact absurd arrives (by simp [arrivals])
  · intro arrives
    cases arrives with
    | marker marker hm kind slot place =>
      rw [kind, place]
      exact mem_map.mpr ⟨marker, mem_named.2 ⟨hm, slot⟩, rfl⟩
    | slot slot hm kind slotId place | restored slot hm kind slotId place =>
      rw [kind, place]
      exact mem_map.mpr ⟨slot, mem_named.2 ⟨hm, slotId⟩, rfl⟩
    | object item missing kind slot place =>
      rw [kind, place]
      exact mem_map.mpr ⟨item, mem_named.2 ⟨missing, slot⟩, rfl⟩
    | quarantine slot hm kind slotId place =>
      have hl : location ∈ (named (·.slotId) step.preparedSlotId spec.quarantineSlots).map
          (·.destination) := mem_map.mpr ⟨slot, mem_named.2 ⟨hm, slotId⟩, place.symm⟩
      simp only [quarantineEffectKinds, mem_cons, not_mem_nil, or_false] at kind
      rcases kind with kind | kind | kind | kind <;> rw [kind] <;> exact hl
    | node node slotId hm kind reference slot place =>
      have hl : location ∈ (named Prod.snd step.preparedSlotId (preparedNodes spec.desired)).map
          (·.1.location) := mem_map.mpr ⟨(node, slotId), mem_named.2
            ⟨mem_preparedNodes.2 ⟨hm, reference⟩, slot⟩, place.symm⟩
      simp only [mem_cons, not_mem_nil, or_false] at kind
      rcases kind with kind | kind | kind | kind <;> rw [kind] <;> exact hl

section Specification
variable {H : Hashes} {spec : ReconciliationSpec} (valid : ValidSpec H spec)
include valid

theorem ValidSpec.desiredPlaces : ((staticNodes spec.desired).map (·.location)).Nodup :=
  staticNodes_nodup valid.desiredLocations

theorem ValidSpec.desired_place {first second : DesiredNodeState}
    (hf : first ∈ desiredNodes spec.desired) (hs : second ∈ desiredNodes spec.desired)
    (same : first.location = second.location) : first = second :=
  key_inj_of_nodup valid.desiredPlaces (mem_desiredNodes.mp hf) (mem_desiredNodes.mp hs) same

theorem ValidSpec.place_apart {place : Place} (hl : place ∈ places spec) :
    place.location ∉ staticLocations spec := by
  have ha : ∀ name, (place.location, name) ∈ requiredAbsentLocations spec →
      place.location ∉ staticLocations spec := fun name row => (valid.absent _ row).2
  have objects := valid.objectLocations
  simp only [validateObjectLocations, rejectIf_eq_ok, not_exists, not_and] at objects
  rw [mem_places] at hl
  cases place with
  | preparation slot => exact ha "preparation destination" (by
      simp only [requiredAbsentLocations, mem_append, mem_map]
      exact .inl (.inl (.inl ⟨slot, hl, rfl⟩)))
  | ownership marker => exact ha "ownership marker destination" (by
      simp only [requiredAbsentLocations, mem_append, mem_map]
      exact .inl (.inl (.inr ⟨marker, hl, rfl⟩)))
  | quarantine slot => exact ha "quarantine destination" (by
      simp only [requiredAbsentLocations, mem_append, mem_map]
      exact .inl (.inr ⟨slot, hl, rfl⟩))
  | destination item => exact objects item hl
  | object item => exact ha "object destination" (by
      simp only [requiredAbsentLocations, mem_append, mem_map]
      exact .inr ⟨item, hl, rfl⟩)

end Specification

theorem static_location {ρ : Type} {replica : Replica ρ} {node : Node ρ}
    (hm : node ∈ staticNodes replica) :
    node.location ∈ (staticStorage replica).map (·.location) := by
  obtain ⟨state, hl, hn⟩ := mem_filterMap.mp hm
  refine mem_map.mpr ⟨state, hl, ?_⟩
  cases state with
  | node _ => rw [← Option.some.inj hn]; rfl
  | absent _ => simp [Storage.node?] at hn

def Vacant (image : ExpectedObservation) (location : Location) : Prop :=
  ∀ node ∈ imageNodes image, node.location ≠ location

section Runs
variable {H : Hashes} {bound : BoundSpecification} {steps done : List TransitionStep}
  {step : TransitionStep} {image : ExpectedObservation} (valid : ValidSpec H bound.spec)
  (blocks : CompiledBlocks bound.spec steps)
include valid blocks

theorem Reached.vacant_place (hr : Reached bound steps done image) (place : Place)
    (hl : place ∈ places bound.spec)
    (empty : ∀ state, PlaceHolds bound done place state → state.node? = none) :
    Vacant image place.location := by
  obtain ⟨state, hf, hh⟩ := (hr.auxTracks valid blocks).holds place hl
  have hs := mem_of_find?_eq_some hf
  have located : state.location = place.location := by simpa using find?_some hf
  intro node hm same
  rcases mem_append.mp hm with isStatic | isStored
  · refine hr.imageValid.apart state hs ?_
    rw [located, ← same]
    exact mem_presentLocations.mpr ⟨node, isStatic, rfl⟩
  · obtain ⟨other, ho, hn⟩ := mem_filterMap.mp isStored
    have place' := ExpectedStorage.node_location hn
    obtain rfl : other = state := key_inj_of_nodup hr.imageValid.stored ho hs
      (place'.symm.trans (same.trans located.symm))
    exact absurd hn (by simp [empty other hh])

theorem Reached.vacant_static (graph : GraphValid bound.spec steps)
    (reached : Reached bound steps done image) {location : Location}
    (isStatic : location ∈ staticLocations bound.spec)
    (gone : ∀ base ∈ baselineNodes bound.spec,
        base.location = location → Gone bound.spec done base.reference)
    (waiting : ∀ node ∈ desiredNodes bound.spec.desired,
        node.location = location →
        ∀ slot, Prepares bound.spec slot node → ¬ Did installEffectKinds done slot.slotId) :
    Vacant image location := by
  intro _ member same
  rcases mem_append.mp member with listed | stored
  · rcases reached.static_sound valid blocks graph listed with
      ⟨base, isBase, alike, kept⟩ | ⟨desired, isDesired, alike, slot, prepares, did⟩
    · exact kept (gone base isBase (alike.location.symm.trans same))
    · exact waiting desired isDesired (alike.location.symm.trans same) slot prepares did
  · obtain ⟨state, isState, isNode⟩ := mem_filterMap.mp stored
    have located := (reached.auxTracks valid blocks).located.mem_iff.mp (mem_map.mpr ⟨state, isState, rfl⟩)
    obtain ⟨_, listed, place'⟩ := mem_map.mp located
    refine valid.place_apart listed ?_
    rw [place', ← ExpectedStorage.node_location isNode, same]
    exact isStatic

theorem restored_desired (prefix_ : done <+: steps) {slot : QuarantineSlot} {base : NodeState}
    (quarantines : Quarantines bound.spec slot base) (isBase : base ∈ baselineNodes bound.spec)
    (did : Did [.restoreWorkingNode] done slot.slotId) :
    desiredNodeFromConcrete base ∈ desiredNodes bound.spec.desired := by
  obtain ⟨step, hm, kind, hs⟩ := did_iff.mp did
  rw [mem_singleton] at kind
  have hc := blocks.step (prefix_.subset hm)
  cases hc with
  | control hl =>
    have others : ∀ step ∈ controlSteps, step.effectKind ≠ .restoreWorkingNode := by decide
    exact absurd kind (others step hl)
  | restoreWorking _ hp other hl identity _ _ =>
    obtain rfl : other = slot := key_inj_of_nodup valid.quarantineIds (mem_filter.mp hl).1
      quarantines.1 (by simpa using hs)
    have isDesired := mem_desiredNodes_working hp
    obtain ⟨base', isBase', same, rfl⟩ := valid.desired_existing isDesired identity
    obtain rfl : base' = base :=
      key_inj_of_nodup valid.baselineIdentities isBase' isBase (same.trans quarantines.2.2)
    exact isDesired
  | _ => simp at kind

theorem Arrival.gone (graph : GraphValid bound.spec steps) (next : Next steps done step)
    {base : NodeState} (isBase : base ∈ baselineNodes bound.spec)
    (arrives : Arrival bound.spec step base.location) :
    ∃ slot, Quarantines bound.spec slot base ∧ Did quarantineEffectKinds done slot.slotId ∧
      ¬ Did [.restoreWorkingNode] done slot.slotId := by
  have prefix_ : done <+: steps := IsPrefix.trans (prefix_append _ _) next
  have ha : ∀ {place : Place}, place ∈ places bound.spec → base.location ≠ place.location := by
    intro place hl hs
    refine valid.place_apart hl (hs ▸ mem_append_left _ ?_)
    exact static_location (show base ∈ staticNodes bound.spec.baseline from isBase)
  cases arrives with
  | marker marker hm kind slot place => exact absurd place (@ha (.ownership marker) (mem_places.mpr hm))
  | slot slot hm kind slotId place => exact absurd place (@ha (.preparation slot) (mem_places.mpr hm))
  | object item missing kind slot place => exact absurd place (@ha (.object item) (mem_places.mpr missing))
  | quarantine slot hm kind slotId place => exact absurd place (@ha (.quarantine slot) (mem_places.mpr hm))
  | node node _ hm kind reference isSlot place =>
    obtain ⟨_, hp, rfl⟩ := valid.prepared_slot hm reference
    have installs : step.effectKind ∈ installEffectKinds := by
      revert kind
      cases step.effectKind <;> decide
    have target := valid.node_target hm hp installs isSlot
    rw [← place] at target
    obtain ⟨slot, hq, did⟩ := valid.quarantined_next graph next isBase target
    refine ⟨slot, hq, did, fun restored => ?_⟩
    have hk := restored_desired valid blocks prefix_ hq isBase restored
    have hs := valid.desired_place hk hm place
    rw [← hs] at reference
    simp [desiredNodeFromConcrete] at reference
  | restored slot hm kind isSlot place =>
    obtain ⟨node, expected, place', identity⟩ := valid.quarantined hm
    obtain rfl : node = base := key_inj_of_nodup valid.baselinePlaces
      (mem_baselineNodes_of_expected expected) isBase (place'.trans place.symm)
    refine ⟨slot, ⟨hm, place.symm, identity.symm⟩, ?_,
      not_did_of_nodup next graph.restore_slots (by simp [kind]) isSlot⟩
    have working : slot ∈ workingQuarantines bound.spec := by
      obtain ⟨_, hl, hs⟩ := did_restore blocks
          next (did_concat.mpr (.inr (slotOf_eq_some.mpr ⟨by simp [kind], isSlot⟩)))
      rwa [← key_inj_of_nodup valid.quarantineIds (mem_filter.mp hl).1 hm hs]
    refine did_of_rank blocks next (blocks.workingQuarantine working) ?_ rfl ?_
    · simp [quarantineEffectKinds]
    · rw [kind]
      simp [EffectKind.rank]

theorem Reached.vacant (graph : GraphValid bound.spec steps) (hr : Reached bound steps done image)
    (next : Next steps done step) {location : Location}
    (arrives : Arrival bound.spec step location) : Vacant image location := by
  have gone : ∀ base ∈ baselineNodes bound.spec,
        base.location = location → Gone bound.spec done base.reference := by
    rintro base isBase rfl
    obtain ⟨slot, hq, did, hk⟩ := arrives.gone valid blocks graph next isBase
    exact ⟨slot, hq.1, hq.2.2, did, hk⟩
  cases arrives with
  | marker marker hm kind slot place =>
    rw [place]
    refine hr.vacant_place valid blocks (.ownership marker) (mem_places.mpr hm) ?_
    have first : ¬ Did [.createOwnershipMarker] done marker.slotId := not_did_of_nodup next
      (by rw [blocks.created_slots]; exact valid.markerIds) (by simp [kind]) slot
    intro state hh
    rw [PlaceHolds, if_neg fun h => first h.1] at hh
    rw [hh]
    rfl
  | slot slot hm kind slotId place =>
    rw [place]
    refine hr.vacant_place valid blocks (.preparation slot) (mem_places.mpr hm) ?_
    have first : ¬ Did [.materializePreparation] done slot.slotId := not_did_of_nodup next
      (by rw [blocks.materialized_slots]; exact valid.slotIds) (by simp [kind]) slotId
    intro state hh
    rw [PlaceHolds, if_neg fun h => first h.1] at hh
    rw [hh]
    rfl
  | object item missing kind slot place =>
    rw [place]
    refine hr.vacant_place valid blocks (.object item) (mem_places.mpr missing) ?_
    have first : ¬ Did [.promoteRequiredObject] done item.sourceSlotId := by
      intro did
      obtain ⟨other, hm, isKind, hs⟩ := did_iff.mp did
      refine not_did_of_nodup next graph.install_slots (by rw [kind]; decide) slot
        (did_iff.mpr ⟨other, hm, ?_, hs⟩)
      rw [mem_singleton.mp isKind]
      decide
    intro state hh
    rw [PlaceHolds, if_neg first] at hh
    rw [hh]
    rfl
  | quarantine slot hm kind slotId place =>
    rw [place]
    refine hr.vacant_place valid blocks (.quarantine slot) (mem_places.mpr hm) ?_
    have first := graph.not_did_quarantine valid next hm kind slotId
    intro _ hh
    rw [PlaceHolds, if_neg fun h => first h.1] at hh
    rw [hh]
    rfl
  | node _ _ hm kind reference hs place =>
    refine hr.vacant_static valid blocks graph ?_ gone ?_
    · rw [place]
      exact mem_append_right _ (static_location (mem_desiredNodes.mp hm))
    · intro other ho same slot hp
      obtain rfl := valid.desired_place ho hm (same.trans place)
      have installs : step.effectKind ∈ installEffectKinds := by
        revert kind
        cases step.effectKind <;> decide
      refine not_did_of_nodup next graph.install_slots installs ?_
      rw [hs, NodeReference.prepared.inj (reference.symm.trans hp.2)]
  | restored slot hm kind hs place =>
    obtain ⟨base, expected, place', identity⟩ := valid.quarantined hm
    have isBase := mem_baselineNodes_of_expected expected
    have hq : Quarantines bound.spec slot base := ⟨hm, place'.symm, identity.symm⟩
    have hk := restored_desired valid blocks next hq isBase (did_concat.mpr
      (.inr (slotOf_eq_some.mpr ⟨by simp [kind], hs⟩)))
    refine hr.vacant_static valid blocks graph ?_ gone ?_
    · rw [place, ← place']
      exact mem_append_left _ (static_location (show base ∈ staticNodes bound.spec.baseline from isBase))
    · intro _ ho same _ hp
      have agree := valid.desired_place ho hk (same.trans (place.trans place'.symm))
      have reference := hp.2
      rw [agree] at reference
      simp [desiredNodeFromConcrete] at reference

end Runs

section Effects
variable {H : Hashes} {bound : BoundSpecification} {pre post : ExpectedObservation}
  {step : TransitionStep}

theorem Brings.arrival {spec : ReconciliationSpec} (hv : ValidSpec H spec) {node : DesiredNodeState}
    (hm : node ∈ desiredNodes spec.desired) (brings : Brings spec step node) :
    Arrival spec step node.location := by
  rcases brings with ⟨kind, slot, hp, hs⟩ | ⟨kind, slot, hs, reference, slotId⟩
  · exact .node node slot.slotId hm kind hp.2 hs rfl
  · obtain ⟨_, isBase, identity, rfl⟩ := hv.desired_existing hm reference
    have hq := hv.quarantines_of_identity hs isBase identity.symm
    exact .restored slot hs kind slotId hq.2.1.symm

theorem arrives {node : DesiredNodeState} (arrival : Arrival bound.spec step node.location) :
    ∀ state ∈ [ExpectedStorage.desired node], ∀ node ∈ state.node?,
      Arrival bound.spec step node.location := by
  simpa [ExpectedStorage.node?] using arrival

theorem effect_arrivals (effect : Effect bound pre post step) :
    ∃ replica writes parents, Change pre post replica writes parents ∧
      ∀ state ∈ writes, ∀ node ∈ state.node?, Arrival bound.spec step node.location := by
  cases effect with
  | control _ _ _ _ _ change | exclusion _ _ change | finalizeIndex _ _ _ _ _ change
  | selectPacked _ _ change => exact ⟨_, _, _, change, by simp⟩
  | publish change => exact ⟨_, _, _, change, by simp⟩
  | create marker hm change =>
    exact ⟨_, _, _, change, arrives (.marker marker hm rfl rfl rfl)⟩
  | removal _ hm change => exact ⟨_, _, _, change, by simp [ExpectedStorage.node?]⟩
  | materialization slot hm change =>
    exact ⟨_, _, _, change, arrives (.slot slot hm rfl rfl rfl)⟩
  | promotion item missing slot _ source change =>
    refine ⟨_, _, _, change, ?_⟩
    simp only [mem_cons, not_mem_nil, or_false, forall_eq_or_imp, forall_eq,
      ExpectedStorage.node?, Option.mem_some_iff, forall_eq', Option.not_mem_none, false_implies,
      implies_true, true_and]
    exact .object item missing rfl (congrArg some source) rfl
  | installWorking _ _ _ _ _ _ _ change | restoreWorking _ _ _ _ _ _ _ _ _ _ _ _ change
  | installIndex _ _ _ _ change | installReflog _ _ _ _ change | installSelected _ _ _ _ change =>
    exact ⟨_, _, _, change, by simp [ExpectedStorage.node?]⟩
  | quarantineWorking slot _ _ hl _ source hf _ change =>
    exact ⟨_, _, _, change,
      arrives (.quarantine slot (mem_filter.mp hl).1 (by simp [quarantineEffectKinds]) rfl rfl)⟩
  | quarantineIndex _ slot _ hq source hf change
  | quarantineReflog _ slot _ hq source hf change
  | quarantineSelected _ slot _ hq _ _ change =>
    exact ⟨_, _, _, change, arrives (.quarantine slot hq.1 (by simp [quarantineEffectKinds]) rfl rfl)⟩

theorem effect_nodes (hv : ValidSpec H bound.spec) (effect : Effect bound pre post step)
    (bodies : ∀ node ∈ imageNodes pre, KnownBody bound.spec node) {node : DesiredNodeState}
    (hm : node ∈ imageNodes post) :
    Arrival bound.spec step node.location ∨ ∃ before ∈ imageNodes pre, Alike node before := by
  rcases mem_append.mp hm with isStatic | isStored
  · rcases static_inherited hv effect bodies isStatic with ⟨before, hl, alike⟩ |
      ⟨_, hl, alike, brings⟩
    · exact .inr ⟨before, mem_append_left _ hl, alike⟩
    · rw [alike.location]
      exact .inl (brings.arrival hv hl)
  · obtain ⟨state, hs, hn⟩ := mem_filterMap.mp isStored
    obtain ⟨_, _, _, change, written⟩ := effect_arrivals effect
    rw [change.storage] at hs
    rcases mem_writeAll hs with old | new
    · exact .inr ⟨node, mem_append_right _ (mem_filterMap.mpr ⟨state, old, hn⟩), .refl node⟩
    · exact .inl (written state new node hn)

end Effects

section Plans
variable {H : Hashes} {spec : ReconciliationSpec} {bound : BoundSpecification}
  {plan : ReconciliationPlan}

def ActionContract.placements (spec : ReconciliationSpec) (action : ActionContract) :
    List Location :=
  arrivals spec action.effectKind action.preparedSlotId

def QuarantinesNode (spec : ReconciliationSpec) (base : NodeState) (action : ActionContract) : Prop :=
  action.effectKind ∈ quarantineEffectKinds ∧ ∃ slot, Quarantines spec slot base ∧
    action.preparedSlotId = some slot.slotId

structure Unclobbering (bound : BoundSpecification) (plan : ReconciliationPlan) (position : Nat)
    (action : ActionContract) : Prop where
  vacant : ∀ location ∈ action.placements bound.spec, Vacant action.preimage location
  placed : ∀ node ∈ imageNodes action.completionPostimage,
    node.location ∈ action.placements bound.spec ∨
    ∃ before ∈ imageNodes action.preimage, Alike node before
  quarantined : ∀ base ∈ baselineNodes bound.spec, base.location ∈ action.placements bound.spec →
    ∃ earlier < position, ∃ other,
      plan.actions[earlier]? = some other ∧ QuarantinesNode bound.spec base other

/-- No action of a plan puts a node where there is one. -/
theorem plan_never_clobbers (binds : bindSpecification H spec = .ok bound)
    (derives : deriveProtocolPlan bound = .ok plan) {position : Nat} {action : ActionContract}
    (isAction : plan.actions[position]? = some action) : Unclobbering bound plan position action := by
  obtain ⟨_, planned⟩ := planned binds derives
  obtain ⟨blocks⟩ := planned.blocks
  obtain ⟨step, contract⟩ := planned.contract position action isAction
  have places : ∀ {location : Location}, location ∈ action.placements bound.spec ↔
      Arrival bound.spec step location := by
    intro location
    rw [ActionContract.placements, contract.effectKind, contract.slot]
    exact arrival
  refine ⟨fun location placed => ?_, fun node member => ?_, fun base isBase placed => ?_⟩
  · exact contract.reached.vacant planned.valid blocks planned.graph contract.next (places.mp placed)
  · rw [places]
    exact effect_nodes planned.valid
      (advanceStep_effect planned.valid (blocks.step contract.mem) contract.advanced)
      (contract.reached.bodies planned.valid blocks) member
  · obtain ⟨slot, quarantines, did, -⟩ := (places.mp placed).gone planned.valid blocks planned.graph
      contract.next isBase
    obtain ⟨_, member, kind, isSlot⟩ := did_iff.mp did
    obtain ⟨earlier, _, rfl⟩ := mem_take_iff_getElem.mp member
    have listed : earlier < plan.actions.length := by
      rw [planned.length]
      omega
    have found := getElem?_eq_getElem listed
    obtain ⟨_, contract'⟩ := planned.contract earlier _ found
    cases (getElem?_eq_getElem (by omega)).symm.trans contract'.found
    refine ⟨earlier, by omega, _, found, ?_, slot, quarantines, ?_⟩
    · rw [contract'.effectKind]
      exact kind
    · rw [contract'.slot]
      exact isSlot

/-- The file of the sample plan is moved away before it is replaced. -/
theorem plan_never_clobbers_sampleSpec :
    ∃ (plan : ReconciliationPlan) (position : Nat) (action : ActionContract),
      deriveProtocolPlan sampleBound = .ok plan ∧ plan.actions[position]? = some action ∧
      sampleNotes ∈ action.placements sampleSpec ∧ Vacant action.preimage sampleNotes ∧
      ∃ earlier < position, ∃ other, plan.actions[earlier]? = some other ∧
        QuarantinesNode sampleSpec (sampleFile sampleNotes "notes" (bytes "old")) other := by
  obtain ⟨plan, derives⟩ := sampleBound_derives
  have placed : (deriveProtocolPlan sampleBound).toOption.any (fun plan =>
      plan.actions.any fun action => decide (sampleNotes ∈ action.placements sampleSpec)) = true := by
    decide +kernel
  simp only [derives, Except.toOption, Option.any_some, any_eq_true, decide_eq_true_eq] at placed
  obtain ⟨action, hm, isPlaced⟩ := placed
  obtain ⟨position, isAction⟩ := mem_iff_getElem?.mp hm
  obtain ⟨vacant, -, quarantined⟩ := plan_never_clobbers sampleSpec_binds derives isAction
  exact ⟨plan, position, action, derives, isAction, isPlaced, vacant _ isPlaced,
    quarantined _ (by decide +kernel) isPlaced⟩

end Plans

end Yinshi.Reconcile
