import Yinshi.Reconcile.Completion

/-! Binding does not depend on the order of the collections of a specification. The
canonical form sorts each of them by a key that a valid specification keeps distinct,
so all arrangements of a valid specification have one canonical form. -/

namespace Yinshi.Reconcile
open ByteText Keyed Checked Artifact

section Replicas
variable {ρ : Type} {replica : Replica ρ} {order : ReplicaOrder ρ} (perm : order.Of replica)
include perm

theorem canonicalizeReplica_arrange (entries : (replica.index.entries.map indexEntryKey).Nodup)
    (manifest : (replica.manifest.map (·.rawPath)).Nodup)
    (locations : ((staticStorage replica).map (·.location)).Nodup) :
    canonicalizeReplica (replica.arrange order) = canonicalizeReplica replica := by
  have sameEntries : canonicalIndexEntries order.entries = canonicalIndexEntries replica.index.entries :=
    sortBy_eq_of_perm perm.entries ((perm.entries.map _).nodup_iff.mpr entries)
  have sameReflogs : sortStorage order.reflogs = sortStorage replica.refs.reflogs := by
    refine sortBy_eq_of_perm perm.reflogs ((perm.reflogs.map _).nodup_iff.mpr ?_)
    simpa [Function.comp_def] using (reflogs_nodup locations).map Location.key_injective
  have sameMetadata : sortStorage order.unrelatedMetadata = sortStorage replica.refs.unrelatedMetadata := by
    refine sortBy_eq_of_perm perm.unrelatedMetadata ((perm.unrelatedMetadata.map _).nodup_iff.mpr ?_)
    simpa [Function.comp_def] using (metadata_nodup locations).map Location.key_injective
  have sameManifest : sortManifest order.manifest = sortManifest replica.manifest :=
    sortBy_eq_of_perm perm.manifest ((perm.manifest.map _).nodup_iff.mpr manifest)
  have sameNodes : sortNodes order.workingNodes = sortNodes replica.workingNodes := by
    refine sortBy_eq_of_perm perm.workingNodes ((perm.workingNodes.map _).nodup_iff.mpr ?_)
    have places : (replica.workingNodes.map (·.location)).Nodup := by
      simp only [staticStorage, staticRegistrations, List.map_append, List.map_map,
        List.nodup_append'] at locations
      exact locations.2.1
    simpa [Function.comp_def] using places.map Location.key_injective
  simp only [canonicalizeReplica, Replica.arrange, sameEntries, sameReflogs, sameMetadata,
    sameManifest, sameNodes]

end Replicas

section Specifications
variable {H : Hashes} {spec : ReconciliationSpec} {order : SpecOrder} (perm : order.Of spec)
include perm

theorem ValidSpec.canonicalizeSpec_arrange (hv : ValidSpec H spec) :
    canonicalizeSpec (spec.arrange order) = canonicalizeSpec spec := by
  have baseline := canonicalizeReplica_arrange perm.baseline hv.baselineEntries.1
    hv.baselineEntries.2 hv.baselineLocations
  have desired := canonicalizeReplica_arrange perm.desired hv.desiredEntries.1 hv.desiredEntries.2
      hv.desiredLocations
  have boundaries := sortBy_eq_of_perm perm.boundaries ((perm.boundaries.map _).nodup_iff.mpr hv.boundaryIds)
  have slots := sortBy_eq_of_perm perm.preparationSlots ((perm.preparationSlots.map _).nodup_iff.mpr hv.slotIds)
  have hq := sortBy_eq_of_perm perm.quarantineSlots ((perm.quarantineSlots.map _).nodup_iff.mpr hv.quarantineIds)
  have markers := sortBy_eq_of_perm perm.ownershipMarkers
      ((perm.ownershipMarkers.map _).nodup_iff.mpr hv.markerIds)
  have required := sortBy_eq_of_perm perm.requiredObjects
    ((perm.requiredObjects.map _).nodup_iff.mpr hv.object_pairs.2)
  have destinations := sortBy_eq_of_perm perm.destinationObjects
    ((perm.destinationObjects.map _).nodup_iff.mpr hv.destinationIds)
  simp only [canonicalizeSpec, ReconciliationSpec.arrange, baseline, desired, boundaries, slots,
    hq, markers, required, destinations]

theorem bindSpecification_arrange {bound : BoundSpecification}
    (binds : bindSpecification H spec = .ok bound) :
    bindSpecification H (spec.arrange order) = .ok bound := by
  obtain ⟨hv, hw, steps, hc, rfl⟩ := bindSpecification_eq_ok.mp binds
  have canonical := hv.canonicalizeSpec_arrange perm
  refine bindSpecification_eq_ok.mpr ⟨hv.arrange perm, ?_, steps, ?_, ?_⟩
  · rw [canonical]
    exact hw
  · rw [canonical]
    exact hc
  · rw [canonical]

end Specifications

/-- Binding accepts all arrangements of a specification or none, binds them to the same
value, and binds the specification of a bound one to that bound one. -/
theorem bindSpecification_order_free (H : Hashes) (spec : ReconciliationSpec) (order : SpecOrder)
    (perm : order.Of spec) (bound : BoundSpecification) :
    (bindSpecification H (spec.arrange order) = .ok bound ↔ bindSpecification H spec = .ok bound) ∧
    (bindSpecification H spec = .ok bound → bindSpecification H bound.spec = .ok bound) := by
  refine ⟨⟨fun binds => ?_, bindSpecification_arrange perm⟩, bindSpecification_again⟩
  have back := bindSpecification_arrange perm.symm binds
  rwa [spec.arrange_back] at back

def sampleOrder : SpecOrder :=
  { sampleSpec.order with boundaries := sampleSpec.boundaries.reverse }

theorem sampleOrder_of : sampleOrder.Of sampleSpec where
  baseline := ⟨.refl _, .refl _, .refl _, .refl _, .refl _⟩
  desired := ⟨.refl _, .refl _, .refl _, .refl _, .refl _⟩
  boundaries := List.reverse_perm _
  preparationSlots := .refl _
  quarantineSlots := .refl _
  ownershipMarkers := .refl _
  requiredObjects := .refl _
  destinationObjects := .refl _

theorem bindSpecification_order_free_sample :
    sampleSpec.arrange sampleOrder ≠ sampleSpec ∧
    bindSpecification sampleHashes (sampleSpec.arrange sampleOrder) = .ok sampleBound := by
  refine ⟨by decide +kernel, ?_⟩
  exact (bindSpecification_order_free sampleHashes sampleSpec sampleOrder sampleOrder_of
    sampleBound).1.mpr sampleSpec_binds

end Yinshi.Reconcile
