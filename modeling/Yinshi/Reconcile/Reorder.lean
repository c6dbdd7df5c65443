import Yinshi.Reconcile.Plan

/-! Validators do not depend on the order of the collections they read. Each
collection is looked up by a key that the validators keep distinct, so rearranging
a valid replica gives a valid replica. -/

namespace Yinshi.Reconcile
open ByteText Keyed Checked Artifact

structure ReplicaOrder (ρ : Type) where
  entries : List IndexEntry
  reflogs : List (Storage ρ)
  unrelatedMetadata : List (Storage ρ)
  manifest : List ManifestEntry
  workingNodes : List (Node ρ)

def Replica.arrange {ρ : Type} (replica : Replica ρ) (order : ReplicaOrder ρ) : Replica ρ :=
  { replica with
    index := { replica.index with entries := order.entries }
    refs := { replica.refs with
      reflogs := order.reflogs
      unrelatedMetadata := order.unrelatedMetadata }
    manifest := order.manifest
    workingNodes := order.workingNodes }

structure ReplicaOrder.Of {ρ : Type} (order : ReplicaOrder ρ) (replica : Replica ρ) : Prop where
  entries : order.entries.Perm replica.index.entries
  reflogs : order.reflogs.Perm replica.refs.reflogs
  unrelatedMetadata : order.unrelatedMetadata.Perm replica.refs.unrelatedMetadata
  manifest : order.manifest.Perm replica.manifest
  workingNodes : order.workingNodes.Perm replica.workingNodes

structure SpecOrder where
  baseline : ReplicaOrder NodeIdentity
  desired : ReplicaOrder NodeReference
  boundaries : List Boundary
  preparationSlots : List PreparationSlot
  quarantineSlots : List QuarantineSlot
  ownershipMarkers : List OwnershipMarkerSpec
  requiredObjects : List RequiredObject
  destinationObjects : List DestinationObject

def ReconciliationSpec.arrange (spec : ReconciliationSpec) (order : SpecOrder) :
    ReconciliationSpec :=
  { spec with
    baseline := spec.baseline.arrange order.baseline
    desired := spec.desired.arrange order.desired
    boundaries := order.boundaries
    preparationSlots := order.preparationSlots
    quarantineSlots := order.quarantineSlots
    ownershipMarkers := order.ownershipMarkers
    requiredObjects := order.requiredObjects
    destinationObjects := order.destinationObjects }

structure SpecOrder.Of (order : SpecOrder) (spec : ReconciliationSpec) : Prop where
  baseline : order.baseline.Of spec.baseline
  desired : order.desired.Of spec.desired
  boundaries : order.boundaries.Perm spec.boundaries
  preparationSlots : order.preparationSlots.Perm spec.preparationSlots
  quarantineSlots : order.quarantineSlots.Perm spec.quarantineSlots
  ownershipMarkers : order.ownershipMarkers.Perm spec.ownershipMarkers
  requiredObjects : order.requiredObjects.Perm spec.requiredObjects
  destinationObjects : order.destinationObjects.Perm spec.destinationObjects

def Replica.order {ρ : Type} (replica : Replica ρ) : ReplicaOrder ρ where
  entries := replica.index.entries
  reflogs := replica.refs.reflogs
  unrelatedMetadata := replica.refs.unrelatedMetadata
  manifest := replica.manifest
  workingNodes := replica.workingNodes

def ReconciliationSpec.order (spec : ReconciliationSpec) : SpecOrder where
  baseline := spec.baseline.order
  desired := spec.desired.order
  boundaries := spec.boundaries
  preparationSlots := spec.preparationSlots
  quarantineSlots := spec.quarantineSlots
  ownershipMarkers := spec.ownershipMarkers
  requiredObjects := spec.requiredObjects
  destinationObjects := spec.destinationObjects

theorem ReplicaOrder.Of.symm {ρ : Type} {order : ReplicaOrder ρ} {replica : Replica ρ}
    (perm : order.Of replica) : replica.order.Of (replica.arrange order) where
  entries := perm.entries.symm
  reflogs := perm.reflogs.symm
  unrelatedMetadata := perm.unrelatedMetadata.symm
  manifest := perm.manifest.symm
  workingNodes := perm.workingNodes.symm

theorem SpecOrder.Of.symm {order : SpecOrder} {spec : ReconciliationSpec} (perm : order.Of spec) :
    spec.order.Of (spec.arrange order) where
  baseline := perm.baseline.symm
  desired := perm.desired.symm
  boundaries := perm.boundaries.symm
  preparationSlots := perm.preparationSlots.symm
  quarantineSlots := perm.quarantineSlots.symm
  ownershipMarkers := perm.ownershipMarkers.symm
  requiredObjects := perm.requiredObjects.symm
  destinationObjects := perm.destinationObjects.symm

theorem ReconciliationSpec.arrange_back (spec : ReconciliationSpec) (order : SpecOrder) :
    (spec.arrange order).arrange spec.order = spec := rfl

theorem canonicalizeReplica_of {ρ : Type} (replica : Replica ρ) :
    (canonicalizeReplica replica).order.Of replica where
  entries := sortBy_perm
  reflogs := sortBy_perm
  unrelatedMetadata := sortBy_perm
  manifest := sortBy_perm
  workingNodes := sortBy_perm

theorem canonicalizeSpec_of (spec : ReconciliationSpec) : (canonicalizeSpec spec).order.Of spec where
  baseline := canonicalizeReplica_of spec.baseline
  desired := canonicalizeReplica_of spec.desired
  boundaries := sortBy_perm
  preparationSlots := sortBy_perm
  quarantineSlots := sortBy_perm
  ownershipMarkers := sortBy_perm
  requiredObjects := sortBy_perm
  destinationObjects := sortBy_perm

theorem manifestAt_perm {xs ys : List ManifestEntry} (hd : (xs.map (·.rawPath)).Nodup)
    (perm : xs.Perm ys) : manifestAt ys = manifestAt xs :=
  funext fun _ => find?_perm _ hd perm

section Generic
variable {ρ : Type}

theorem storageAt_perm {xs ys : List (Storage ρ)} (hd : (xs.map (·.location)).Nodup)
    (perm : xs.Perm ys) : storageAt ys = storageAt xs :=
  funext fun _ => find?_perm _ hd perm

theorem workingNodeAt_perm {xs ys : List (Node ρ)} (hd : (xs.map (·.location.rawPath)).Nodup)
    (perm : xs.Perm ys) : workingNodeAt ys = workingNodeAt xs :=
  funext fun _ => find?_perm (fun node : Node ρ => node.location.rawPath) hd perm

end Generic

theorem namespaceRoot_perm {xs ys : List Boundary} (hd : (xs.map (·.location.nameSpace)).Nodup)
    (perm : xs.Perm ys) : namespaceRoot ys = namespaceRoot xs :=
  funext fun space => by
    rw [namespaceRoot, namespaceRoot,
      find?_perm (fun boundary : Boundary => boundary.location.nameSpace) hd perm]

theorem namespaceFilesystem_perm {xs ys : List Boundary}
    (hd : (xs.map (·.location.nameSpace)).Nodup) (perm : xs.Perm ys) :
    namespaceFilesystem ys = namespaceFilesystem xs :=
  funext fun space => by
    rw [namespaceFilesystem, namespaceFilesystem,
      find?_perm (fun boundary : Boundary => boundary.location.nameSpace) hd perm]

theorem validateEntries_perm {entries entries' : List IndexEntry}
    {manifest manifest' : List ManifestEntry} (hentries : entries.Perm entries')
    (hmanifest : manifest.Perm manifest') {format : Text}
    (hv : validateEntries entries manifest format = .ok ()) :
    validateEntries entries' manifest' format = .ok () := by
  simp only [validateEntries, steps_ok] at hv ⊢
  obtain ⟨index, stages, prefixes, hf, topology⟩ := hv
  have hd : (manifest.map (·.rawPath)).Nodup := (eachFresh_eq_ok.mp hf).2.1
  refine ⟨(eachFresh_perm hentries).mp index, ?_, ?_, (eachFresh_perm hmanifest).mp hf, ?_⟩
  · simpa only [hentries.mem_iff] using stages
  · simpa only [hentries.mem_iff] using prefixes
  · simpa only [manifestAt_perm hd hmanifest, hmanifest.mem_iff] using topology

section Phases
variable {ρ : Type} {replica : Replica ρ} {order : ReplicaOrder ρ} (perm : order.Of replica)

section Registrations
include perm

theorem administrative_arrange : (administrativeRegistrations (replica.arrange order)).Perm
    (administrativeRegistrations replica) :=
  ((List.Perm.refl _).append (perm.reflogs.map _)).append (perm.unrelatedMetadata.map _)

theorem static_arrange : (staticRegistrations (replica.arrange order)).Perm (staticRegistrations replica) :=
  (administrative_arrange perm).append (perm.workingNodes.map _)

theorem storage_arrange : (staticStorage (replica.arrange order)).Perm (staticStorage replica) :=
  (static_arrange perm).map _

end Registrations

theorem requireUniqueStorageLocations_perm {xs ys : List (Storage ρ)} (perm : xs.Perm ys)
    {name : String} (valid : requireUniqueStorageLocations xs name = .ok ()) :
    requireUniqueStorageLocations ys name = .ok () :=
  (eachFresh_perm perm).mp valid

include perm in
theorem validateWorkingNodes_arrange {check : Node ρ → Checked Unit}
    {wrong duplicated incomplete mismatch : String}
    (hv : validateWorkingNodes check wrong duplicated incomplete mismatch replica = .ok ()) :
    validateWorkingNodes check wrong duplicated incomplete mismatch (replica.arrange order) =
      .ok () := by
  simp only [validateWorkingNodes, steps_ok] at hv ⊢
  obtain ⟨nodes, cover, semantic⟩ := hv
  have hd : (replica.workingNodes.map (·.location.rawPath)).Nodup :=
    (eachFresh_eq_ok.mp nodes).2.1
  refine ⟨(eachFresh_perm perm.workingNodes.symm).mp nodes, ?_, ?_⟩
  · simpa only [Replica.arrange, perm.workingNodes.mem_iff, perm.manifest.mem_iff, List.mem_map] using cover
  · have hs : workingNodeAt (replica.arrange order).workingNodes =
        workingNodeAt replica.workingNodes := workingNodeAt_perm hd perm.workingNodes.symm
    rw [hs]
    exact (each_perm perm.manifest.symm).mp semantic

end Phases

theorem validateReplica_arrange {replica : ReplicaState} {order : ReplicaOrder NodeIdentity}
    (perm : order.Of replica) {format : Text} {name : String}
    (hv : validateReplica replica format name = .ok ()) :
    validateReplica (replica.arrange order) format name = .ok () := by
  simp only [validateReplica, validateRefState, steps_ok] at hv ⊢
  obtain ⟨generation, replicaGeneration, storage, sparse, entries, ha, ⟨resolved, packed, head,
    loose, packedRefs, reflogs, metadata, semantics⟩, hu, admin, working⟩ := hv
  refine ⟨generation, replicaGeneration, storage, sparse,
    validateEntries_perm perm.entries.symm perm.manifest.symm entries, ?_,
    ⟨resolved, packed, head, loose, packedRefs, (each_perm perm.reflogs.symm).mp reflogs,
      (each_perm perm.unrelatedMetadata.symm).mp metadata, semantics⟩,
    requireUniqueStorageLocations_perm ((administrative_arrange perm).symm.map _) hu,
    (each_perm (administrative_arrange perm).symm).mp admin,
    validateWorkingNodes_arrange perm working⟩
  rintro ⟨hm, hl⟩
  refine ha ⟨hm, ?_⟩
  intro empty
  exact hl (List.Perm.eq_nil (empty ▸ perm.entries))

end Yinshi.Reconcile
