import Yinshi.Reconcile.Transitions

/-! Validation, canonicalization and binding of a complete specification. The
validator of the source is one long function; here each of its loops is a
definition of its own and `validateSpecification` runs them in the same order. -/

namespace Yinshi.Reconcile
open ByteText Keyed Checked Artifact

def replicaPaths {ρ : Type} (replica : Replica ρ) : List Bytes :=
  [replica.index.storage.location.rawPath] ++ replica.index.entries.map (·.rawPath) ++
  replica.manifest.map (·.rawPath) ++ replica.workingNodes.map (·.location.rawPath) ++
  [replica.refs.head.location.rawPath, replica.refs.looseRef.location.rawPath,
    replica.refs.packedRefs.location.rawPath, replica.refs.selectedRef] ++
  replica.refs.reflogs.map (·.location.rawPath) ++
  replica.refs.unrelatedMetadata.map (·.location.rawPath)

def slotPaths (slot : PreparationSlot) : List Bytes :=
  [slot.destination.rawPath, slot.materializationParent.location.rawPath,
    slot.installationParent.location.rawPath, slot.initial.location.rawPath]

def quarantinePaths (slot : QuarantineSlot) : List Bytes :=
  [slot.source.rawPath, slot.destination.rawPath, slot.sourceParent.location.rawPath,
    slot.destinationParent.location.rawPath, slot.initial.location.rawPath] ++
  slot.restorationParent.toList.map (·.location.rawPath)

def markerPaths (marker : OwnershipMarkerSpec) : List Bytes :=
  [marker.destination.rawPath, marker.parent.location.rawPath, marker.initial.location.rawPath]

def schemaPaths (spec : ReconciliationSpec) : List Bytes :=
  replicaPaths spec.baseline ++ replicaPaths spec.desired ++
  spec.boundaries.flatMap (fun boundary =>
    boundary.location.rawPath :: boundary.ancestors.map (·.location.rawPath)) ++
  spec.preparationSlots.flatMap slotPaths ++ spec.quarantineSlots.flatMap quarantinePaths ++
  spec.ownershipMarkers.flatMap markerPaths ++
  spec.requiredObjects.map (fun item => (objectLocation item.objectId).rawPath) ++
  spec.destinationObjects.flatMap (fun item =>
    [item.storage.location.rawPath, item.parent.location.rawPath])

def enforceSchemaPathLimits (spec : ReconciliationSpec) : Checked Unit := do
  rejectIf (∃ item ∈ spec.requiredObjects, ∃ character ∈ item.objectId, 128 ≤ character)
    .unicodeEncodeError
  rejectIf (spec.limits.maxPaths < (schemaPaths spec).length)
    (reject "inventory_limit_exceeded" "path or object limit exceeded")
  rejectIf (∃ path ∈ schemaPaths spec, spec.limits.maxDepth < (pathDepth path : Int) + 1)
    (reject "inventory_limit_exceeded" "path depth limit exceeded")

def semanticBytes (spec : ReconciliationSpec) : Int := (spec.requiredObjects.map (·.byteLength)).sum

def validateLimits (spec : ReconciliationSpec) : Checked Unit := do
  requireInt spec.limits.maxPaths "limits.max_paths" 1
  requireInt spec.limits.maxObjects "limits.max_objects" 1
  requireInt spec.limits.maxTotalBytes "limits.max_total_bytes" 1
  requireInt spec.limits.maxDepth "limits.max_depth" 1
  requireInt spec.limits.maxTransitions "limits.max_transitions" 1
  rejectIf (spec.limits.maxTotalBytes < (decodedByteCount (toValue spec) : Int) + semanticBytes spec)
    (reject "inventory_limit_exceeded" "byte limit exceeded")
  enforceSchemaPathLimits spec

def validateOperationIdentity (identity : OperationIdentity) : Checked Unit := do
  requireStr identity.incarnation "identity.incarnation"
  requireStr identity.bindingId "identity.binding_id"
  requireStr identity.selectedAuthority "identity.selected_authority"
  requireStr identity.operationId "identity.operation_id"
  requireStr identity.reservationId "identity.reservation_id"
  requireStr identity.destinationBinding "identity.destination_binding"
  requireStr identity.physicalTargetId "identity.physical_target_id"
  requireStr identity.acknowledgmentReceiptId "identity.acknowledgment_receipt_id"
  requireStr identity.drainReceiptId "identity.drain_receipt_id"
  requireStr identity.exportReceiptId "identity.export_receipt_id"
  requireStr identity.inventoryReceiptId "identity.inventory_receipt_id"
  requireInt identity.generation "identity.generation"
  requireInt identity.replicaGeneration "identity.replica_generation"
  requireStr identity.objectFormat "identity.object_format"
  rejectIf (identity.objectFormat ∉ [text "sha1", text "sha256"])
    (reject "unsupported_object_format" "object format is unsupported")

def validateGenerations (spec : ReconciliationSpec) : Checked Unit := do
  rejectIf (spec.baseline.generation ≠ spec.identity.generation)
    (reject "generation_mismatch" "baseline generation is not operation generation")
  rejectIf (spec.baseline.replicaGeneration ≠ spec.identity.replicaGeneration)
    (reject "generation_mismatch" "baseline replica generation changed")
  rejectIf (spec.desired.generation ≠ spec.baseline.generation + 1)
    (reject "generation_mismatch" "desired generation must advance exactly once")
  rejectIf (spec.desired.replicaGeneration ≠ spec.baseline.replicaGeneration)
    (reject "generation_mismatch" "desired replica generation changed")

def requiredRoles : List Text :=
  [text "root", text "admin", text "registration", text "excluded", text "private"]

def roleNamespace (role : Text) : Text := if role = text "root" then text "working" else role

def validateBoundary (seen : List Boundary) (boundary : Boundary) : Checked Unit := do
  requireStr boundary.boundaryId "boundary.boundary_id"
  rejectIf (∃ prior ∈ seen, prior.boundaryId = boundary.boundaryId)
    (reject "duplicate_boundary" "boundary id is duplicated")
  requireStr boundary.role "boundary.role"
  rejectIf (boundary.role ∉ requiredRoles ∨ ∃ prior ∈ seen, prior.role = boundary.role)
    (reject "incomplete_topology" "boundary roles are incomplete or duplicated")
  validateLocation boundary.location "boundary.location"
  validateIdentity boundary.identity "boundary.identity"
  rejectIf (boundary.location.nameSpace ≠ roleNamespace boundary.role)
    (reject "incomplete_topology" "boundary namespace does not match role")
  eachFresh (·.location)
    (fun ancestor => do
      validateNode ancestor "boundary.ancestor"
      rejectIf (ancestor.kind ≠ directory)
        (reject "incomplete_topology" "boundary ancestor chain is invalid"))
    (fun _ => reject "incomplete_topology" "boundary ancestor chain is invalid")
    (fun _ => .ok ()) [] boundary.ancestors

def validateBoundaries (boundaries : List Boundary) : Checked Unit := do
  eachAfter validateBoundary [] boundaries
  rejectIf (∃ role ∈ requiredRoles, role ∉ boundaries.map (·.role))
    (reject "incomplete_topology" "all protected boundary roles are required")

def duplicatedAuxiliary : ReplicaError :=
  reject "duplicate_location" "auxiliary location is duplicated"

def validatePreparationSlot (seen : List PreparationSlot) (slot : PreparationSlot) :
    Checked Unit := do
  requireStr slot.slotId "preparation.slot_id"
  rejectIf (∃ prior ∈ seen, prior.slotId = slot.slotId)
    (reject "duplicate_slot" "preparation slot id is duplicated")
  validateLocation slot.destination "preparation.destination"
  rejectIf (slot.destination.nameSpace ≠ text "private")
    (reject "invalid_specification" "preparation destination is not private")
  rejectIf (slot.initial ≠ .absent ⟨slot.destination⟩)
    (reject "invalid_specification" "preparation destination must be absent")
  requireStr slot.desiredKind "preparation.desired_kind"
  rejectIf (slot.desiredKind ∉ nodeKinds)
    (reject "unsupported_kind" "preparation kind is unsupported")
  validateNodeSemantics "preparation slot" slot.desiredKind slot.desiredContent slot.executable 1
    false "invalid_node_state" "preparation slot directory carries content"
  rejectIf (∃ prior ∈ seen, prior.destination = slot.destination) duplicatedAuxiliary

def validatePreparationParents (spec : ReconciliationSpec) (slot : PreparationSlot) :
    Checked Unit := do
  validateParentBinding slot.materializationParent "preparation.materialization_parent"
    spec.preparationSlots true
  validateParentBinding slot.installationParent "preparation.installation_parent"
    spec.preparationSlots
  rejectIf (slot.destination = slot.materializationParent.location)
    (reject "invalid_specification" "preparation cannot contain itself")
  let materialization ← parentFilesystem spec.preparationSlots slot.materializationParent
  let installation ← parentFilesystem spec.preparationSlots slot.installationParent
  rejectIf (materialization ≠ installation)
    (reject "cross_filesystem_transition" "preparation install crosses filesystems")
  requireImmediateParent spec.boundaries slot.materializationParent slot.destination
    "preparation.materialization_parent"

def validateOwnershipMarker (spec : ReconciliationSpec) (seen : List OwnershipMarkerSpec)
    (marker : OwnershipMarkerSpec) : Checked Unit := do
  requireStr marker.slotId "ownership_marker.slot_id"
  rejectIf ((∃ slot ∈ spec.preparationSlots, slot.slotId = marker.slotId) ∨
      ∃ prior ∈ seen, prior.slotId = marker.slotId)
    (reject "duplicate_slot" "ownership marker slot id is duplicated")
  validateLocation marker.destination "ownership_marker.destination"
  rejectIf (marker.destination.nameSpace ≠ text "private" ∨
      marker.initial.location ≠ marker.destination)
    (reject "invalid_specification" "ownership marker destination must be absent")
  validateParentBinding marker.parent "ownership_marker.parent" spec.preparationSlots true
  let error := reject "cross_filesystem_transition" "ownership marker crosses filesystems"
  rejectIf (marker.destination = marker.parent.location) error
  let filesystem ← parentFilesystem spec.preparationSlots marker.parent
  rejectIf (some filesystem ≠ namespaceFilesystem spec.boundaries (text "private")) error
  requireImmediateParent spec.boundaries marker.parent marker.destination "ownership_marker.parent"
  rejectIf ((∃ slot ∈ spec.preparationSlots, slot.destination = marker.destination) ∨
      ∃ prior ∈ seen, prior.destination = marker.destination) duplicatedAuxiliary

def checkOptional {α : Type} (check : α → Checked Unit) : Option α → Checked Unit
  | some value => check value
  | none => .ok ()

def validateQuarantineSlot (spec : ReconciliationSpec) (seen : List QuarantineSlot)
    (slot : QuarantineSlot) : Checked Unit := do
  requireStr slot.slotId "quarantine.slot_id"
  rejectIf ((∃ prior ∈ seen, prior.slotId = slot.slotId) ∨
      (∃ prepared ∈ spec.preparationSlots, prepared.slotId = slot.slotId) ∨
      ∃ marker ∈ spec.ownershipMarkers, marker.slotId = slot.slotId)
    (reject "duplicate_slot" "quarantine slot id is duplicated")
  validateLocation slot.source "quarantine.source"
  validateIdentity slot.sourceIdentity "quarantine.source_identity"
  validateLocation slot.destination "quarantine.destination"
  validateParentBinding slot.sourceParent "quarantine.source_parent" spec.preparationSlots true
  validateParentBinding slot.destinationParent "quarantine.destination_parent" spec.preparationSlots
    true
  checkOptional (validateParentBinding · "quarantine.restoration_parent" spec.preparationSlots)
    slot.restorationParent
  let filesystems ← (slot.sourceParent :: slot.destinationParent ::
    slot.restorationParent.toList).mapM (parentFilesystem spec.preparationSlots)
  rejectIf (∃ filesystem ∈ filesystems, filesystem ≠ slot.sourceIdentity.filesystemId)
    (reject "cross_filesystem_transition" "quarantine crosses filesystems")
  rejectIf (slot.source = slot.sourceParent.location ∨
      slot.destination = slot.destinationParent.location)
    (reject "invalid_specification" "quarantine parent equals moved entry")
  rejectIf (slot.destination = slot.source)
    (reject "invalid_specification" "quarantine destination equals its source")
  requireImmediateParent spec.boundaries slot.sourceParent slot.source "quarantine.source_parent"
  requireImmediateParent spec.boundaries slot.destinationParent slot.destination
    "quarantine.destination_parent"
  checkOptional (requireImmediateParent spec.boundaries · slot.source
    "quarantine.restoration_parent") slot.restorationParent
  rejectIf (slot.initial.location ≠ slot.destination)
    (reject "invalid_specification" "quarantine destination must be absent")
  rejectIf ((∃ prior ∈ seen, prior.destination = slot.destination) ∨
      (∃ prepared ∈ spec.preparationSlots, prepared.destination = slot.destination) ∨
      ∃ marker ∈ spec.ownershipMarkers, marker.destination = slot.destination) duplicatedAuxiliary

structure Registration where
  location : Location
  identity : NodeIdentity
  state : Option NodeState := none

def Registration.conflicts (prior next : Registration) : Prop :=
  (prior.identity = next.identity ∧ prior.location ≠ next.location) ∨
  (prior.location = next.location ∧ prior.identity ≠ next.identity) ∨
  ((prior.identity = next.identity ∨ prior.location = next.location) ∧
    prior.state ≠ none ∧ next.state ≠ none ∧ prior.state ≠ next.state)

instance (prior next : Registration) : Decidable (prior.conflicts next) :=
  inferInstanceAs (Decidable (_ ∨ _))

/-- The source keeps the last binding of each identity and location together with
the state retained from earlier ones; a list of all registrations says the same. -/
def register (seen : List Registration) (next : Registration) : Checked Unit :=
  rejectIf (∃ prior ∈ seen, prior.conflicts next)
    (reject "ambiguous_node_identity"
      "physical identity, location, and concrete state must be unique")

/-- Register `entry x` for every element, with a test before and after it. -/
def registerEach {α : Type} (entry : α → Registration) (before after : α → Checked Unit) :
    List Registration → List α → Checked (List Registration)
  | seen, [] => pure seen
  | seen, x :: xs => do
      before x
      register seen (entry x)
      after x
      registerEach entry before after (entry x :: seen) xs

def boundaryRegistrations (boundaries : List Boundary) : List Registration :=
  boundaries.flatMap fun boundary => ⟨boundary.location, boundary.identity, none⟩ ::
    boundary.ancestors.map fun ancestor =>
      ⟨ancestor.location, ancestor.reference, some ancestor⟩

def nodeRegistration (node : NodeState) : Registration :=
  ⟨node.location, node.reference, some node⟩

def checkNodeFilesystem (boundaries : List Boundary) (node : NodeState) : Checked Unit :=
  rejectIf (namespaceFilesystem boundaries node.location.nameSpace ≠
      some node.reference.filesystemId)
    (reject "filesystem_identity_mismatch" "node filesystem is outside boundary")

def validateAdministrativeFiles {ρ : Type} (replica : Replica ρ) (prefix_ : String) :
    Checked Unit :=
  each (fun row => requireAdministrativeFile row.1 (prefix_ ++ "." ++ row.2))
    (administrativeRegistrations replica)

def validateIndexSemantics (spec : ReconciliationSpec) : Checked Unit :=
  rejectIf (spec.desired.index.storage = desiredStorageFromConcrete spec.baseline.index.storage ∧
      (canonicalIndexEntries spec.desired.index.entries ≠
          canonicalIndexEntries spec.baseline.index.entries ∨
        spec.desired.index.sparseIndex ≠ spec.baseline.index.sparseIndex))
    (reject "invalid_index_semantics"
      "index semantics cannot change without a physical index transition")

def validateRequiredObject (spec : ReconciliationSpec) (seen : List RequiredObject)
    (item : RequiredObject) : Checked Unit := do
  validateOid item.objectId spec.identity.objectFormat "object.object_id"
  rejectIf (∃ prior ∈ seen, prior.objectId = item.objectId)
    (reject "duplicate_object" "required object id is duplicated")
  requireStr item.kind "object.kind"
  rejectIf (item.kind ∉ [text "blob", text "tree", text "commit", text "tag"])
    (reject "unsupported_object_kind" "object kind is unsupported")
  requireInt item.byteLength "object.byte_length"
  validateSha256 item.contentSha256 "object.content_sha256"
  requireStr item.sourceSlotId "object.source_slot_id"
  let slot ← orRaise (reject "missing_preparation_slot" "object source slot is unknown")
    (slotAt spec.preparationSlots item.sourceSlotId)
  let error := reject "cross_filesystem_transition" "prepared object promotion crosses filesystems"
  let materialization ← parentFilesystem spec.preparationSlots slot.materializationParent
  rejectIf (some materialization ≠ namespaceFilesystem spec.boundaries (text "admin")) error
  let installation ← parentFilesystem spec.preparationSlots slot.installationParent
  rejectIf (some installation ≠ namespaceFilesystem spec.boundaries (text "admin")) error

def coveredOids (spec : ReconciliationSpec) : List Text :=
  spec.desired.index.entries.map (·.objectId) ++ spec.desired.refs.resolvedOid.toList ++
    spec.desired.refs.packedFallbackOid.toList

def validateCoverage (spec : ReconciliationSpec) : Checked Unit :=
  rejectIf (∃ oid ∈ coveredOids spec, oid ∉ spec.requiredObjects.map (·.objectId))
    (reject "incomplete_object_inventory" "desired roots are not fully inventoried")

def validateDestinationHead (spec : ReconciliationSpec) (item : DestinationObject) :
    Checked Unit := do
  validateNode item.storage "destination.storage"
  requireAdministrativeFile (.node item.storage) "destination.storage"
  validateParentBinding item.parent "destination.parent" spec.preparationSlots true
  let error := reject "cross_filesystem_transition" "destination object parent is invalid"
  rejectIf (item.storage.location = item.parent.location) error
  let filesystem ← parentFilesystem spec.preparationSlots item.parent
  rejectIf (some filesystem ≠ namespaceFilesystem spec.boundaries (text "admin")) error

def validateDestinationTail (H : Hashes) (spec : ReconciliationSpec) (item : DestinationObject) :
    Checked Unit := do
  rejectIf (item.storage.location ≠ objectLocation item.objectId ∨
      some item.storage.reference.filesystemId ≠
        namespaceFilesystem spec.boundaries (text "admin"))
    (reject "object_identity_conflict" "destination object has the wrong location or filesystem")
  requireImmediateParent spec.boundaries item.parent item.storage.location "destination.parent"
  validateSha256 item.contentSha256 "destination.content_sha256"
  rejectIf (item.contentSha256 ≠ text "sha256:" ++ hexdigest (H.sha256 item.storage.content))
    (reject "object_identity_conflict" "destination physical bytes changed")
  requireStr item.contentSyncReceiptId "destination.content_sync_receipt_id"
  requireStr item.parentSyncReceiptId "destination.parent_sync_receipt_id"

def validateDestinationObjects (H : Hashes) (spec : ReconciliationSpec) :
    List DestinationObject → List Registration → List DestinationObject →
    Checked (List Registration)
  | _, registry, [] => pure registry
  | seen, registry, item :: items => do
      validateOid item.objectId spec.identity.objectFormat "destination.object_id"
      rejectIf (item.objectId ∉ spec.requiredObjects.map (·.objectId) ∨
          ∃ prior ∈ seen, prior.objectId = item.objectId)
        (reject "object_identity_conflict" "destination object identity is invalid")
      validateDestinationHead spec item
      register registry (nodeRegistration item.storage)
      validateDestinationTail H spec item
      validateDestinationObjects H spec (item :: seen)
        (nodeRegistration item.storage :: registry) items

def staticLocations (spec : ReconciliationSpec) : List Location :=
  (staticStorage spec.baseline).map (·.location) ++ (staticStorage spec.desired).map (·.location)

def staticAbsentLocations (spec : ReconciliationSpec) : List Location :=
  ((staticStorage spec.baseline).filter (·.node?.isNone)).map (·.location) ++
  ((staticStorage spec.desired).filter (·.node?.isNone)).map (·.location)

def quarantineTransitions (spec : ReconciliationSpec) : List (Location × NodeIdentity) :=
  spec.quarantineSlots.map fun slot => (slot.source, slot.sourceIdentity)

def validateFieldChanges (spec : ReconciliationSpec)
    (baselineRegistry : List (Storage NodeIdentity × String))
    (desiredRegistry : List (Storage NodeReference × String)) : Checked Unit :=
  each (fun row =>
    match desiredRegistry.find? (·.1.location = row.1.location) with
    | none => .ok ()
    | some desiredRow =>
      rejectIf (desiredRow.2 ≠ row.2 ∧ ¬ ∃ node ∈ row.1.node?,
          (node.location, node.reference) ∈ quarantineTransitions spec)
        (reject "duplicate_location"
          "one location changes fields without an explicit quarantine")) baselineRegistry

def knownState (registry : List Registration) (location : Location) : Option NodeState :=
  (registry.filter (·.location = location)).findSome? (·.state)

def registerInitialParents (spec : ReconciliationSpec) :
    List Registration → List ParentBinding → Checked (List Registration)
  | registry, [] => pure registry
  | registry, parent :: parents =>
    match parent.reference with
    | .prepared _ => .error (reject "invalid_specification" "an initial parent must already exist")
    | .existing identity => do
        rejectIf (parent.location ∈ staticAbsentLocations spec)
          (reject "duplicate_location" "an initial parent is recorded as absent")
        register registry ⟨parent.location, identity, none⟩
        rejectIf (∃ state ∈ knownState registry parent.location, state.kind ≠ directory)
          (reject "invalid_parent_state" "an initial parent must resolve to a known directory")
        registerInitialParents spec (⟨parent.location, identity, none⟩ :: registry) parents

def requiredAbsentLocations (spec : ReconciliationSpec) : List (Location × String) :=
  spec.preparationSlots.map (fun slot => (slot.destination, "preparation destination")) ++
  spec.ownershipMarkers.map (fun marker => (marker.destination, "ownership marker destination")) ++
  spec.quarantineSlots.map (fun slot => (slot.destination, "quarantine destination")) ++
  (missingObjects spec).map (fun item => (objectLocation item.objectId, "object destination"))

def validateAbsentLocation (spec : ReconciliationSpec) (registry : List Registration)
    (seen : List (Location × String)) (row : Location × String) : Checked Unit := do
  rejectIf (row.1 ∈ registry.map (·.location)) (reject "duplicate_location"
    (row.2 ++ " must stay absent but is present in the specification"))
  rejectIf (row.1 ∈ staticLocations spec)
    (reject "duplicate_location" (row.2 ++ " conflicts with replica storage"))
  match seen.find? (·.1 = row.1) with
  | some prior => .error (reject "duplicate_location"
      (row.2 ++ " duplicates the independent " ++ prior.2))
  | none => .ok ()

def validateObjectLocations (spec : ReconciliationSpec) : Checked Unit :=
  rejectIf (∃ item ∈ spec.destinationObjects, item.storage.location ∈ staticLocations spec)
    (reject "duplicate_location" "durable object storage conflicts with replica storage")

/-- The desired nodes of all fields, in the order of the source. -/
def desiredNodes (desired : DesiredReplicaState) : List DesiredNodeState :=
  [desired.refs.head] ++ desired.workingNodes ++ desired.index.storage.node?.toList ++
  [desired.refs.looseRef, desired.refs.packedRefs].filterMap Storage.node? ++
  (desired.refs.reflogs ++ desired.refs.unrelatedMetadata).filterMap Storage.node?

def preparedNodes (desired : DesiredReplicaState) : List (DesiredNodeState × Text) :=
  (desiredNodes desired).filterMap fun node => match node.reference with
    | .prepared slotId => some (node, slotId)
    | .existing _ => none

def ambiguousSlot : ReplicaError :=
  reject "ambiguous_preparation_slot" "preparation slot has two consumers"

def validateNodeConsumer (spec : ReconciliationSpec) (seen : List Text)
    (row : DesiredNodeState × Text) : Checked Unit := do
  let slot ← orRaise .keyError (slotAt spec.preparationSlots row.2)
  rejectIf (row.2 ∈ seen) ambiguousSlot
  rejectIf ((slot.desiredKind, slot.desiredContent, slot.executable) ≠
        (row.1.kind, row.1.content, row.1.executable) ∨
      (row.1.kind ≠ directory ∧ row.1.nlink ≠ 1) ∨ row.1.privilegeBits = true)
    (reject "preparation_content_mismatch" "prepared bytes do not match desired node semantics")

def validateObjectConsumer (spec : ReconciliationSpec) (seen : List Text) (item : RequiredObject) :
    Checked Unit := do
  rejectIf (item.sourceSlotId ∈ seen) ambiguousSlot
  let slot ← orRaise .keyError (slotAt spec.preparationSlots item.sourceSlotId)
  rejectIf (slot.desiredKind ≠ text "file" ∨ slot.executable = true)
    (reject "preparation_content_mismatch" "prepared object storage must be a non-executable file")

def consumeEach {α : Type} (key : α → Text) (check : List Text → α → Checked Unit) :
    List Text → List α → Checked (List Text)
  | seen, [] => pure seen
  | seen, x :: xs => do
      check seen x
      consumeEach key check (key x :: seen) xs

def validateSlotConsumers (spec : ReconciliationSpec) : Checked Unit := do
  let consumed ← consumeEach Prod.snd (validateNodeConsumer spec) [] (preparedNodes spec.desired)
  let consumed ← consumeEach (·.sourceSlotId) (validateObjectConsumer spec) consumed
    spec.requiredObjects
  rejectIf (∃ slot ∈ spec.preparationSlots, slot.slotId ∉ consumed)
    (reject "unexplained_preparation_slot" "every preparation slot must have exactly one consumer")

def installTargets (spec : ReconciliationSpec) : List (Text × Location) :=
  (preparedNodes spec.desired).map (fun row => (row.2, row.1.location)) ++
  (missingObjects spec).map (fun item => (item.sourceSlotId, objectLocation item.objectId))

def validateInstallTargets (spec : ReconciliationSpec) : Checked Unit := do
  eachFresh Prod.fst (fun _ => .ok ()) (fun _ => reject "invalid_plan_integrity"
    "one preparation slot has two final installation targets") (fun _ => .ok ()) []
    (installTargets spec)
  each (fun row => do
    let slot ← orRaise .keyError (slotAt spec.preparationSlots row.1)
    requireImmediateParent spec.boundaries slot.installationParent row.2
      "preparation.installation_parent") (installTargets spec)

def protectedLocations (spec : ReconciliationSpec) : List Location :=
  (boundaryRegistrations spec.boundaries).map (·.location)

def protectedIdentities (spec : ReconciliationSpec) : List NodeIdentity :=
  (boundaryRegistrations spec.boundaries).map (·.identity)

def validateTargetParents (spec : ReconciliationSpec) (parents : List ParentBinding) :
    Checked Unit :=
  each (fun target => checkWhen (target.2 ∉ protectedLocations spec)
    (rejectIf (∃ binding ∈ parents, binding.location = target.2 ∧
        ¬ ∃ transition ∈ quarantineTransitions spec,
          binding = ⟨transition.1, .existing transition.2⟩)
      (reject "duplicate_location"
        "a prepared final target overlaps a still-bound existing parent"))) (installTargets spec)

def directlyChanged (spec : ReconciliationSpec) (node : NodeState) : Prop :=
  workingNodeAt spec.desired.workingNodes node.location.rawPath ≠ some (desiredNodeFromConcrete node)

instance (spec : ReconciliationSpec) (node : NodeState) : Decidable (directlyChanged spec node) :=
  inferInstanceAs (Decidable (_ ≠ _))

def insideReplaced (spec : ReconciliationSpec) (node : NodeState) : Prop :=
  ∃ replaced ∈ spec.baseline.workingNodes, replaced.kind = directory ∧
    directlyChanged spec replaced ∧
    isDirectoryPrefix replaced.location.rawPath node.location.rawPath = true

instance (spec : ReconciliationSpec) (node : NodeState) : Decidable (insideReplaced spec node) :=
  inferInstanceAs (Decidable (∃ _ ∈ _, _))

def replacedNode (baseline : Storage NodeIdentity) (desired : Option (Storage NodeReference)) :
    List NodeState :=
  match baseline with
  | .node node => if desired = some (.node (desiredNodeFromConcrete node)) then [] else [node]
  | .absent _ => []

def expectedQuarantine (spec : ReconciliationSpec) : List NodeState :=
  spec.baseline.workingNodes.filter
    (fun node => directlyChanged spec node ∨ insideReplaced spec node) ++
  replacedNode spec.baseline.index.storage (some spec.desired.index.storage) ++
  spec.baseline.refs.reflogs.flatMap
    (fun state => replacedNode state (storageAt spec.desired.refs.reflogs state.location)) ++
  replacedNode spec.baseline.refs.looseRef (some spec.desired.refs.looseRef)

def validateReflogPresence (spec : ReconciliationSpec) : Checked Unit := do
  rejectIf (∃ state ∈ spec.desired.refs.reflogs,
      state.location ∉ spec.baseline.refs.reflogs.map (·.location) ∧ state.node? = none)
    (reject "invalid_ref_semantics" "a new reflog absence has no physical transition")
  rejectIf (∃ state ∈ spec.baseline.refs.reflogs,
      state.location ∉ spec.desired.refs.reflogs.map (·.location))
    (reject "invalid_ref_semantics" "every baseline reflog requires an explicit desired state")

def sameStates {ρ : Type} [DecidableEq ρ] (xs ys : List (Storage ρ)) : Prop :=
  (∀ x ∈ xs, storageAt ys x.location = some x) ∧ ∀ y ∈ ys, storageAt xs y.location = some y

instance {ρ : Type} [DecidableEq ρ] (xs ys : List (Storage ρ)) : Decidable (sameStates xs ys) :=
  inferInstanceAs (Decidable (_ ∧ _))

def validateImmutableAdmin (spec : ReconciliationSpec) : Checked Unit := do
  rejectIf (spec.desired.refs.head ≠ desiredNodeFromConcrete spec.baseline.refs.head ∨
      spec.desired.refs.packedRefs ≠ desiredStorageFromConcrete spec.baseline.refs.packedRefs ∨
      ¬ sameStates spec.desired.refs.unrelatedMetadata
        (spec.baseline.refs.unrelatedMetadata.map desiredStorageFromConcrete))
    (reject "unsupported_administrative_transition"
      "HEAD, packed refs, and unrelated metadata must remain exact")
  rejectIf (spec.desired.refs.packedFallbackOid ≠ spec.baseline.refs.packedFallbackOid)
    (reject "invalid_ref_semantics"
      "packed fallback cannot change without a physical packed-refs transition")

def validateQuarantineSet (spec : ReconciliationSpec) : Checked Unit := do
  let expected := (expectedQuarantine spec).map fun node => (node.location, node.reference)
  let actual := quarantineTransitions spec
  rejectIf (¬ actual.Nodup)
    (reject "unexplained_quarantine_slot" "one source has multiple quarantine destinations")
  rejectIf (∃ node ∈ expected, node ∉ actual)
    (reject "missing_quarantine_slot"
      "every replaced concrete node requires an exact quarantine slot")
  rejectIf (∃ node ∈ actual, node ∉ expected)
    (reject "unexplained_quarantine_slot"
      "quarantine slot does not correspond to a replaced node")

def mutationLocations (spec : ReconciliationSpec) : List Location :=
  spec.quarantineSlots.map (·.source) ++
  (spec.preparationSlots.map (·.destination) ++ spec.ownershipMarkers.map (·.destination) ++
    spec.quarantineSlots.map (·.destination)) ++
  spec.destinationObjects.map (·.storage.location) ++
  (preparedNodes spec.desired).map (·.1.location)

def validateProtectedTopology (spec : ReconciliationSpec) : Checked Unit := do
  rejectIf ((∃ location ∈ protectedLocations spec, location ∈ mutationLocations spec) ∨
      ∃ identity ∈ protectedIdentities spec,
        identity ∈ spec.quarantineSlots.map (·.sourceIdentity))
    (reject "protected_topology_conflict" "reconciliation cannot mutate a protected boundary node")
  each (fun boundary =>
    let chain := boundary.ancestors.map (·.location) ++ [boundary.location]
    each (fun link => rejectIf (link.1.nameSpace ≠ link.2.nameSpace ∨
        ¬ isDirectoryPrefix link.1.rawPath link.2.rawPath = true)
      (reject "incomplete_topology"
        "protected boundary ancestors must form one connected ordered parent chain"))
      (chain.zip chain.tail)) spec.boundaries
  rejectIf (spec.limits.maxObjects < spec.requiredObjects.length)
    (reject "inventory_limit_exceeded" "path or object limit exceeded")

end Yinshi.Reconcile
