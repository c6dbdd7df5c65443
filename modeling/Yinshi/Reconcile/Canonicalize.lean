import Mathlib.Algebra.BigOperators.Group.List.Basic
import Mathlib.Data.List.Dedup
import Mathlib.Data.List.Perm.Lattice
import Yinshi.Reconcile.Valid

/-! Rearranging a specification keeps it valid. A permutation changes neither a lookup
by a distinct key nor a test on all elements, so every check of the validator gives
the same verdict; the canonical form is one such arrangement. -/

namespace Yinshi.Reconcile
open ByteText Keyed Checked Artifact List

theorem decodedByteCounts_eq_sum (values : List Value) :
    decodedByteCounts values = (values.map decodedByteCount).sum := by
  induction values with
  | nil => rfl
  | cons _ _ ih => simp [decodedByteCounts, ih]

theorem decodedByteCount_tuple_perm {α : Type} [ToValue α] {xs ys : List α} (perm : xs.Perm ys) :
    decodedByteCount (tupleValue xs) = decodedByteCount (tupleValue ys) := by
  simp only [tupleValue, decodedByteCount, decodedByteCounts_eq_sum]
  exact ((perm.map _).map _).sum_eq

theorem decodedByteCount_arrangeReplica {ρ : Type} [Variant ρ] {replica : Replica ρ}
    {order : ReplicaOrder ρ} (perm : order.Of replica) :
    decodedByteCount (toValue (replica.arrange order)) = decodedByteCount (toValue replica) := by
  have entries := decodedByteCount_tuple_perm perm.entries
  have reflogs := decodedByteCount_tuple_perm perm.reflogs
  have metadata := decodedByteCount_tuple_perm perm.unrelatedMetadata
  have manifest := decodedByteCount_tuple_perm perm.manifest
  have nodes := decodedByteCount_tuple_perm perm.workingNodes
  simp only [ToValue.toValue, dataclassValue, Replica.arrange, map_cons, map_nil,
    decodedByteCount, decodedByteCounts, entries, reflogs, metadata, manifest, nodes]

section Limits
variable {spec : ReconciliationSpec} {order : SpecOrder} (perm : order.Of spec)
include perm

theorem decodedByteCount_arrange :
    decodedByteCount (toValue (spec.arrange order)) = decodedByteCount (toValue spec) := by
  have baseline := decodedByteCount_arrangeReplica perm.baseline
  have desired := decodedByteCount_arrangeReplica perm.desired
  have boundaries := decodedByteCount_tuple_perm perm.boundaries
  have slots := decodedByteCount_tuple_perm perm.preparationSlots
  have hq := decodedByteCount_tuple_perm perm.quarantineSlots
  have markers := decodedByteCount_tuple_perm perm.ownershipMarkers
  have required := decodedByteCount_tuple_perm perm.requiredObjects
  have destinations := decodedByteCount_tuple_perm perm.destinationObjects
  show decodedByteCounts [toValue spec.version, toValue spec.identity,
    toValue (spec.baseline.arrange order.baseline), toValue (spec.desired.arrange order.desired),
    tupleValue order.boundaries, tupleValue order.preparationSlots,
    tupleValue order.quarantineSlots, tupleValue order.ownershipMarkers,
    tupleValue order.requiredObjects, tupleValue order.destinationObjects,
    toValue spec.limits] = _
  simp only [decodedByteCounts, baseline, desired, boundaries, slots, hq, markers, required, destinations]
  rfl

omit perm in
theorem replicaPaths_arrange {ρ : Type} {replica : Replica ρ} {order : ReplicaOrder ρ}
    (perm : order.Of replica) :
    (replicaPaths (replica.arrange order)).Perm (replicaPaths replica) :=
  (((((List.Perm.refl _).append (perm.entries.map _)).append (perm.manifest.map _)).append
    (perm.workingNodes.map _)).append (List.Perm.refl _)).append (perm.reflogs.map _) |>.append
    (perm.unrelatedMetadata.map _)

theorem schemaPaths_arrange : (schemaPaths (spec.arrange order)).Perm (schemaPaths spec) := by
  refine .append (.append (.append (.append (.append (.append (.append ?_ ?_) ?_) ?_) ?_) ?_) ?_) ?_
  · exact replicaPaths_arrange perm.baseline
  · exact replicaPaths_arrange perm.desired
  · exact perm.boundaries.flatMap_right _
  · exact perm.preparationSlots.flatMap_right _
  · exact perm.quarantineSlots.flatMap_right _
  · exact perm.ownershipMarkers.flatMap_right _
  · exact perm.requiredObjects.map _
  · exact perm.destinationObjects.flatMap_right _

theorem semanticBytes_arrange : semanticBytes (spec.arrange order) = semanticBytes spec :=
  (perm.requiredObjects.map (fun item : RequiredObject => item.byteLength)).sum_eq

theorem validateLimits_arrange (hv : validateLimits spec = .ok ()) :
    validateLimits (spec.arrange order) = .ok () := by
  have paths := schemaPaths_arrange perm
  have objects : ∀ item, item ∈ (spec.arrange order).requiredObjects ↔
      item ∈ spec.requiredObjects := fun _ => perm.requiredObjects.mem_iff
  simp only [validateLimits, enforceSchemaPathLimits, steps_ok] at hv ⊢
  rw [decodedByteCount_arrange perm, semanticBytes_arrange perm, paths.length_eq]
  simp only [paths.mem_iff, objects]
  exact hv

end Limits

theorem parentBindingKey_injective : Function.Injective parentBindingKey := by
  rintro ⟨_, reference⟩ ⟨_, reference'⟩ hs
  have tags : text "existing" ≠ text "prepared" := by decide
  cases reference with
  | existing identity =>
    cases reference' with
    | existing identity' =>
      simp only [parentBindingKey, EmbeddingLike.apply_eq_iff_eq, Prod.mk.injEq, true_and] at hs
      have place := Location.key_injective hs.1
      obtain ⟨_, _⟩ := identity
      simp_all
    | prepared slotId' =>
      simp only [parentBindingKey, EmbeddingLike.apply_eq_iff_eq, Prod.mk.injEq] at hs
      exact absurd hs.2.1 tags
  | prepared _ =>
    cases reference' with
    | existing _ =>
      simp only [parentBindingKey, EmbeddingLike.apply_eq_iff_eq, Prod.mk.injEq] at hs
      exact absurd hs.2.1.symm tags
    | prepared _ =>
      simp only [parentBindingKey, EmbeddingLike.apply_eq_iff_eq, Prod.mk.injEq, true_and, and_true] at hs
      have place := Location.key_injective hs.1
      simp_all

theorem distinctParents_perm {xs ys : List ParentBinding} (perm : xs.Perm ys) :
    distinctParents xs = distinctParents ys :=
  sortBy_eq_of_perm perm.dedup (xs.nodup_dedup.map parentBindingKey_injective)

section Lookups
variable {H : Hashes} {spec : ReconciliationSpec} (valid : ValidSpec H spec) {order : SpecOrder}
  (perm : order.Of spec)
include valid perm

theorem ValidSpec.slotAt_arrange :
    slotAt (spec.arrange order).preparationSlots = slotAt spec.preparationSlots :=
  (funext fun _ => find?_perm _ valid.slotIds perm.preparationSlots.symm)

theorem ValidSpec.filesystem_arrange :
    namespaceFilesystem (spec.arrange order).boundaries = namespaceFilesystem spec.boundaries :=
  namespaceFilesystem_perm valid.boundarySpaces perm.boundaries.symm

theorem ValidSpec.parentLocation_arrange :
    parentLocation (spec.arrange order).boundaries = parentLocation spec.boundaries := by
  have roots : namespaceRoot (spec.arrange order).boundaries = namespaceRoot spec.boundaries :=
    namespaceRoot_perm valid.boundarySpaces perm.boundaries.symm
  funext entry
  simp only [parentLocation, roots]

theorem ValidSpec.immediate_arrange :
    requireImmediateParent (spec.arrange order).boundaries =
      requireImmediateParent spec.boundaries := by
  funext parent entry name
  simp only [requireImmediateParent, expectedParentLocation, valid.parentLocation_arrange perm]

theorem ValidSpec.parentFilesystem_arrange :
    parentFilesystem (spec.arrange order).preparationSlots =
      parentFilesystem spec.preparationSlots := by
  funext binding
  simp only [parentFilesystem, valid.slotAt_arrange perm]

theorem ValidSpec.parentBinding_arrange (binding : ParentBinding) (name : String)
    (existing : Bool) :
    validateParentBinding binding name (spec.arrange order).preparationSlots existing =
      validateParentBinding binding name spec.preparationSlots existing := by
  simp only [validateParentBinding, valid.slotAt_arrange perm]

end Lookups

theorem collectedParents_arrange {spec : ReconciliationSpec} {order : SpecOrder}
    (perm : order.Of spec) :
    (collectedParentBindings (spec.arrange order)).Perm (collectedParentBindings spec) := by
  exact (((perm.ownershipMarkers.map _).append (perm.destinationObjects.map _)).append
    (perm.preparationSlots.flatMap_right _)).append (perm.quarantineSlots.flatMap_right _)

theorem initialParents_arrange {spec : ReconciliationSpec} {order : SpecOrder}
    (perm : order.Of spec) : initialParents (spec.arrange order) = initialParents spec :=
  distinctParents_perm (collectedParents_arrange perm)

section Checks
variable {H : Hashes} {spec : ReconciliationSpec} (valid : ValidSpec H spec) {order : SpecOrder}
  (perm : order.Of spec)
include valid perm

theorem ValidSpec.boundaries_arrange : validateBoundaries (spec.arrange order).boundaries = .ok () := by
  have hc := valid.boundaries
  simp only [validateBoundaries, steps_ok] at hc ⊢
  refine ⟨eachAfter_perm validateBoundary_eq_ok (fun h => ⟨h.1.symm, h.2.symm⟩) perm.boundaries.symm hc.1, ?_⟩
  have roles : ∀ role, role ∈ (spec.arrange order).boundaries.map (·.role) ↔
      role ∈ spec.boundaries.map (·.role) := fun _ => (perm.boundaries.map _).mem_iff
  simpa only [roles] using hc.2

theorem ValidSpec.preparationParents_arrange (slot : PreparationSlot) :
    validatePreparationParents (spec.arrange order) slot =
      validatePreparationParents spec slot := by
  simp only [validatePreparationParents, valid.parentBinding_arrange perm,
    valid.parentFilesystem_arrange perm, valid.immediate_arrange perm]

theorem ValidSpec.marker_arrange (marker : OwnershipMarkerSpec) :
    validateOwnershipMarker (spec.arrange order) [] marker = .ok () ↔
    validateOwnershipMarker spec [] marker = .ok () := by
  have slots : ∀ slot, slot ∈ (spec.arrange order).preparationSlots ↔
      slot ∈ spec.preparationSlots := fun _ => perm.preparationSlots.mem_iff
  simp only [validateOwnershipMarker, steps_ok, slots, valid.parentBinding_arrange perm,
    valid.parentFilesystem_arrange perm, valid.immediate_arrange perm, valid.filesystem_arrange perm]

theorem ValidSpec.markers_arrange :
    eachAfter (validateOwnershipMarker (spec.arrange order)) []
        (spec.arrange order).ownershipMarkers = .ok () := by
  have hs : eachAfter (validateOwnershipMarker spec) [] (spec.arrange order).ownershipMarkers = .ok () :=
    eachAfter_perm validateOwnershipMarker_eq_ok (fun h => ⟨h.1.symm, h.2.symm⟩)
      perm.ownershipMarkers.symm valid.markers
  rw [eachAfter_eq_ok _ _ validateOwnershipMarker_eq_ok] at hs ⊢
  exact ⟨fun marker hm => ((valid.marker_arrange perm) marker).mpr (hs.1 marker hm), hs.2⟩

theorem ValidSpec.quarantine_arrange (slot : QuarantineSlot) :
    validateQuarantineSlot (spec.arrange order) [] slot = .ok () ↔
    validateQuarantineSlot spec [] slot = .ok () := by
  have slots : ∀ slot, slot ∈ (spec.arrange order).preparationSlots ↔
      slot ∈ spec.preparationSlots := fun _ => perm.preparationSlots.mem_iff
  have markers : ∀ marker, marker ∈ (spec.arrange order).ownershipMarkers ↔
      marker ∈ spec.ownershipMarkers := fun _ => perm.ownershipMarkers.mem_iff
  simp only [validateQuarantineSlot, steps_ok, slots, markers, valid.parentBinding_arrange perm,
    valid.parentFilesystem_arrange perm, valid.immediate_arrange perm]

theorem ValidSpec.quarantines_arrange :
    eachAfter (validateQuarantineSlot (spec.arrange order)) []
        (spec.arrange order).quarantineSlots = .ok () := by
  have hs : eachAfter (validateQuarantineSlot spec) [] (spec.arrange order).quarantineSlots = .ok () :=
    eachAfter_perm validateQuarantineSlot_eq_ok (fun h => ⟨h.1.symm, h.2.symm⟩)
      perm.quarantineSlots.symm valid.quarantines
  rw [eachAfter_eq_ok _ _ validateQuarantineSlot_eq_ok] at hs ⊢
  exact ⟨fun slot hm => ((valid.quarantine_arrange perm) slot).mpr (hs.1 slot hm), hs.2⟩

theorem ValidSpec.baselineNodeAt_arrange :
    baselineNodeAt (baselineNodes (spec.arrange order)) = baselineNodeAt (baselineNodes spec) :=
  funext fun _ => find?_perm _ valid.baselineIdentities ((storage_arrange perm.baseline).symm.filterMap _)

theorem ValidSpec.desiredNode_arrange :
    validateDesiredNode (baselineNodes (spec.arrange order)) (spec.arrange order).preparationSlots
        (spec.arrange order).boundaries =
      validateDesiredNode (baselineNodes spec) spec.preparationSlots spec.boundaries := by
  funext node name
  simp only [validateDesiredNode, validateDesiredReference, valid.baselineNodeAt_arrange perm,
    valid.slotAt_arrange perm, valid.filesystem_arrange perm, valid.parentFilesystem_arrange perm]

theorem ValidSpec.desiredStorage_arrange :
    validateDesiredStorage (baselineNodes (spec.arrange order))
        (spec.arrange order).preparationSlots (spec.arrange order).boundaries =
      validateDesiredStorage (baselineNodes spec) spec.preparationSlots spec.boundaries := by
  funext state name
  simp only [validateDesiredStorage, valid.desiredNode_arrange perm]

theorem ValidSpec.desired_arrange :
    validateDesired (spec.arrange order).desired spec.identity.objectFormat
        (baselineNodes (spec.arrange order)) (spec.arrange order).preparationSlots
        (spec.arrange order).boundaries = .ok () := by
  have hc := valid.desired
  simp only [validateDesired, steps_ok, valid.desiredNode_arrange perm,
    valid.desiredStorage_arrange perm] at hc ⊢
  obtain ⟨generation, replicaGeneration, sparse, entries, ha, storage, resolved, packed, head,
    loose, packedRefs, reflogs, metadata, hu, admin, semantics, working⟩ := hc
  refine ⟨generation, replicaGeneration, sparse,
    validateEntries_perm perm.desired.entries.symm perm.desired.manifest.symm entries, ?_, storage,
      resolved, packed,
    head, loose, packedRefs, (each_perm perm.desired.reflogs.symm).mp reflogs,
    (each_perm perm.desired.unrelatedMetadata.symm).mp metadata,
    requireUniqueStorageLocations_perm ((administrative_arrange perm.desired).symm.map _) hu,
    (each_perm (administrative_arrange perm.desired).symm).mp admin, semantics,
    validateWorkingNodes_arrange perm.desired working⟩
  rintro ⟨hm, hl⟩
  refine ha ⟨hm, fun empty => hl ?_⟩
  exact Perm.eq_nil (empty ▸ perm.desired.entries)

end Checks

section Collections
variable {spec : ReconciliationSpec} {order : SpecOrder} (perm : order.Of spec)
include perm

theorem isDestinationObject_arrange (objectId : Text) :
    isDestinationObject (spec.arrange order) objectId ↔ isDestinationObject spec objectId :=
  (perm.destinationObjects.map _).mem_iff

theorem missingObjects_arrange : (missingObjects (spec.arrange order)).Perm (missingObjects spec) := by
  unfold missingObjects
  simp only [isDestinationObject_arrange perm]
  exact perm.requiredObjects.filter _

theorem requiredAbsent_arrange :
    (requiredAbsentLocations (spec.arrange order)).Perm (requiredAbsentLocations spec) :=
  (((perm.preparationSlots.map _).append (perm.ownershipMarkers.map _)).append
    (perm.quarantineSlots.map _)).append ((missingObjects_arrange perm).map _)

theorem baselineNodes_arrange : (baselineNodes (spec.arrange order)).Perm (baselineNodes spec) :=
  (storage_arrange perm.baseline).filterMap _

theorem statedRegistrations_arrange :
    (statedRegistrations (spec.arrange order)).Perm (statedRegistrations spec) :=
  ((perm.boundaries.flatMap_right _).append ((baselineNodes_arrange perm).map _)).append
    (perm.destinationObjects.map _)

theorem physicalRegistrations_arrange :
    (physicalRegistrations (spec.arrange order)).Perm (physicalRegistrations spec) := by
  unfold physicalRegistrations
  rw [initialParents_arrange perm]
  exact (statedRegistrations_arrange perm).append (Perm.refl _)

theorem mem_staticLocations_arrange (location : Location) :
    location ∈ staticLocations (spec.arrange order) ↔ location ∈ staticLocations spec :=
  (((storage_arrange perm.baseline).map _).append ((storage_arrange perm.desired).map _)).mem_iff

theorem mem_staticAbsent_arrange (location : Location) :
    location ∈ staticAbsentLocations (spec.arrange order) ↔ location ∈ staticAbsentLocations spec :=
  ((((storage_arrange perm.baseline).filter _).map _).append
    (((storage_arrange perm.desired).filter _).map _)).mem_iff

theorem mem_quarantineTransitions_arrange (transition : Location × NodeIdentity) :
    transition ∈ quarantineTransitions (spec.arrange order) ↔
    transition ∈ quarantineTransitions spec :=
  (perm.quarantineSlots.map _).mem_iff

end Collections

section Locations
variable {H : Hashes} {spec : ReconciliationSpec} (valid : ValidSpec H spec) {order : SpecOrder}
  (perm : order.Of spec)
include valid perm

theorem ValidSpec.canonicalEntries_arrange :
    canonicalIndexEntries order.baseline.entries =
        canonicalIndexEntries spec.baseline.index.entries ∧
    canonicalIndexEntries order.desired.entries =
      canonicalIndexEntries spec.desired.index.entries :=
  ⟨(sortBy_eq_of_perm perm.baseline.entries.symm valid.baselineEntries.1).symm,
    (sortBy_eq_of_perm perm.desired.entries.symm valid.desiredEntries.1).symm⟩

theorem ValidSpec.indexSemantics_arrange : validateIndexSemantics (spec.arrange order) = .ok () := by
  have hc := valid.indexSemantics
  obtain ⟨baseline, desired⟩ := valid.canonicalEntries_arrange perm
  simp only [validateIndexSemantics, rejectIf_eq_ok] at hc ⊢
  show ¬ (spec.desired.index.storage = desiredStorageFromConcrete spec.baseline.index.storage ∧
    (canonicalIndexEntries order.desired.entries ≠ canonicalIndexEntries order.baseline.entries ∨
      spec.desired.index.sparseIndex ≠ spec.baseline.index.sparseIndex))
  rwa [baseline, desired]

theorem ValidSpec.requiredObjects_arrange :
    eachAfter (validateRequiredObject (spec.arrange order)) []
        (spec.arrange order).requiredObjects = .ok () := by
  have hs : eachAfter (validateRequiredObject spec) [] (spec.arrange order).requiredObjects = .ok () :=
    eachAfter_perm validateRequiredObject_eq_ok Ne.symm perm.requiredObjects.symm valid.requiredObjects
  rw [eachAfter_eq_ok _ _ validateRequiredObject_eq_ok] at hs ⊢
  refine ⟨fun item hm => ?_, hs.2⟩
  have same : validateRequiredObject (spec.arrange order) [] item = validateRequiredObject spec [] item := by
    simp only [validateRequiredObject, valid.slotAt_arrange perm, valid.filesystem_arrange perm,
      valid.parentFilesystem_arrange perm]
    rfl
  rw [same]
  exact hs.1 item hm

theorem ValidSpec.coverage_arrange : validateCoverage (spec.arrange order) = .ok () := by
  have hc := valid.coverage
  have required : ∀ oid, oid ∈ (spec.arrange order).requiredObjects.map (·.objectId) ↔
      oid ∈ spec.requiredObjects.map (·.objectId) := fun _ => (perm.requiredObjects.map _).mem_iff
  have covered : ∀ oid, oid ∈ coveredOids (spec.arrange order) ↔ oid ∈ coveredOids spec :=
    fun _ => (((perm.desired.entries.map _).append (Perm.refl _)).append (Perm.refl _)).mem_iff
  simp only [validateCoverage, rejectIf_eq_ok] at hc ⊢
  simpa only [required, covered] using hc

theorem ValidSpec.destination_arrange {item : DestinationObject}
    (hm : item ∈ spec.destinationObjects) : DestinationValid H (spec.arrange order) item := by
  obtain ⟨oid, required, head, tail⟩ := valid.destinations item hm
  refine ⟨oid, (perm.requiredObjects.map _).mem_iff.mpr required, ?_, ?_⟩
  · rw [← head]
    simp only [validateDestinationHead, valid.parentBinding_arrange perm,
      valid.parentFilesystem_arrange perm, valid.filesystem_arrange perm]
  · rw [← tail]
    simp only [validateDestinationTail, valid.immediate_arrange perm, valid.filesystem_arrange perm]

theorem ValidSpec.fieldChanges_arrange :
    validateFieldChanges (spec.arrange order) (staticRegistrations (spec.arrange order).baseline)
        (staticRegistrations (spec.arrange order).desired) = .ok () := by
  have hc := valid.fieldChanges
  have hd : ((staticRegistrations spec.desired).map
      fun row : Storage NodeReference × String => row.1.location).Nodup := by
    simpa [staticStorage, Function.comp_def] using valid.desiredLocations
  have rows : ∀ location, (staticRegistrations (spec.arrange order).desired).find?
      (·.1.location = location) = (staticRegistrations spec.desired).find?
        (·.1.location = location) := fun location =>
    find?_perm (fun row : Storage NodeReference × String => row.1.location) hd
      (static_arrange perm.desired).symm
  simp only [validateFieldChanges, each_eq_ok, rows] at hc ⊢
  intro row hm
  have hp := hc row ((static_arrange perm.baseline).mem_iff.mp hm)
  revert hp
  cases (staticRegistrations spec.desired).find? (·.1.location = row.1.location) with
  | none => exact id
  | some _ => simp only [rejectIf_eq_ok, mem_quarantineTransitions_arrange perm, imp_self]

theorem ValidSpec.parents_arrange : ∀ parent ∈ initialParents (spec.arrange order),
    ParentValid (spec.arrange order) (statedRegistrations (spec.arrange order)) parent := by
  rw [initialParents_arrange perm]
  intro parent hm
  have stated : Consistent (statedRegistrations spec) :=
    (pairwise_append.mp valid.physical).1
  obtain ⟨existing, _, hk⟩ := (valid.parents parent hm).perm (statedRegistrations_arrange perm).symm stated
  exact ⟨existing, by rwa [mem_staticAbsent_arrange perm], hk⟩

theorem ValidSpec.objectLocations_arrange : validateObjectLocations (spec.arrange order) = .ok () := by
  have hc := valid.objectLocations
  have objects : ∀ item, item ∈ (spec.arrange order).destinationObjects ↔
      item ∈ spec.destinationObjects := fun _ => perm.destinationObjects.mem_iff
  simp only [validateObjectLocations, rejectIf_eq_ok, mem_staticLocations_arrange perm, objects] at hc ⊢
  exact hc

end Locations

end Yinshi.Reconcile
