import Yinshi.Reconcile.Specification

/-! The transition graph check, canonicalization and `bind_specification`. -/

namespace Yinshi.Reconcile
open ByteText Keyed Checked Artifact

def installEffectKinds : List EffectKind :=
  [.promoteRequiredObject, .installWorkingNode, .installIndex, .installReflog, .installSelectedRef]

def quarantineEffectKinds : List EffectKind :=
  [.quarantineWorkingNode, .quarantineIndex, .quarantineReflog, .quarantineSelectedRef]

structure GraphIndex where
  installIndex : List (Text × Nat) := []
  restoreIndex : List (Text × Nat) := []
  quarantineIndexBySource : List (Location × Nat) := []
  installIndexByTarget : List (Location × Nat) := []

def indexInstall (targets : List (Text × Location)) (index : GraphIndex) (position : Nat)
    (slot : Option Text) : Checked GraphIndex := do
  let multiple := reject "invalid_plan_integrity"
    "one preparation slot has multiple installation actions"
  let slotId ← orRaise multiple slot
  rejectIf (index.installIndex.lookup slotId ≠ none) multiple
  let target ← orRaise (reject "invalid_specification" "an installation action has no final target")
    (targets.lookup slotId)
  rejectIf (index.installIndexByTarget.lookup target ≠ none)
    (reject "invalid_plan_integrity" "one location receives two prepared installations")
  pure { index with
    installIndex := (slotId, position) :: index.installIndex
    installIndexByTarget := (target, position) :: index.installIndexByTarget }

def indexRestore (index : GraphIndex) (position : Nat) (slot : Option Text) :
    Checked GraphIndex := do
  let multiple := reject "invalid_plan_integrity"
    "one quarantine slot has multiple restoration actions"
  let slotId ← orRaise multiple slot
  rejectIf (index.restoreIndex.lookup slotId ≠ none) multiple
  pure { index with restoreIndex := (slotId, position) :: index.restoreIndex }

def quarantineSlotAt (spec : ReconciliationSpec) (slotId : Text) : Option QuarantineSlot :=
  spec.quarantineSlots.find? (·.slotId = slotId)

def indexQuarantine (spec : ReconciliationSpec) (index : GraphIndex) (position : Nat)
    (slot : Option Text) : Checked GraphIndex := do
  let slotId ← orRaise (reject "invalid_plan_integrity" "quarantine slot is absent") slot
  let quarantine ← orRaise .stopIteration (quarantineSlotAt spec slotId)
  rejectIf (index.quarantineIndexBySource.lookup quarantine.source ≠ none)
    (reject "invalid_plan_integrity" "one source location has multiple quarantine actions")
  pure { index with
    quarantineIndexBySource := (quarantine.source, position) :: index.quarantineIndexBySource }

def indexTransition (spec : ReconciliationSpec) (targets : List (Text × Location))
    (index : GraphIndex) (position : Nat) (step : TransitionStep) : Checked GraphIndex :=
  if step.effectKind ∈ installEffectKinds then
    indexInstall targets index position step.preparedSlotId
  else if step.effectKind = .restoreWorkingNode then
    indexRestore index position step.preparedSlotId
  else if step.effectKind ∈ quarantineEffectKinds then
    indexQuarantine spec index position step.preparedSlotId
  else pure index

def indexTransitions (spec : ReconciliationSpec) (targets : List (Text × Location)) :
    GraphIndex → Nat → List TransitionStep → Checked GraphIndex
  | index, _, [] => pure index
  | index, position, step :: steps => do
      let index ← indexTransition spec targets index position step
      indexTransitions spec targets index (position + 1) steps

inductive Dependent
  | preparation (slot : PreparationSlot)
  | restoration (slot : QuarantineSlot)

structure Edge where
  binding : ParentBinding
  parentSlotId : Text
  dependent : Dependent

def preparedParent (binding : ParentBinding) : Option Text :=
  match binding.reference with
  | .prepared slotId => some slotId
  | .existing _ => none

def preparationEdges (slot : PreparationSlot) : List Edge :=
  (preparedParent slot.installationParent).toList.map fun parentId =>
    ⟨slot.installationParent, parentId, .preparation slot⟩

def restorationEdges (slot : QuarantineSlot) : List Edge :=
  slot.restorationParent.toList.flatMap fun binding =>
    (preparedParent binding).toList.map fun parentId => ⟨binding, parentId, .restoration slot⟩

def graphEdges (spec : ReconciliationSpec) : List Edge :=
  spec.preparationSlots.flatMap preparationEdges ++ spec.quarantineSlots.flatMap restorationEdges

def Dependent.isSlot (dependent : Dependent) (slotId : Text) : Prop :=
  match dependent with
  | .preparation slot => slot.slotId = slotId
  | .restoration _ => False

instance (dependent : Dependent) (slotId : Text) : Decidable (dependent.isSlot slotId) :=
  match dependent with
  | .preparation slot => inferInstanceAs (Decidable (slot.slotId = slotId))
  | .restoration _ => inferInstanceAs (Decidable False)

def validateEdge (spec : ReconciliationSpec) (targets : List (Text × Location)) (edge : Edge) :
    Checked Unit := do
  let unresolved := reject "invalid_specification"
    "a prepared parent resolves to no consumed installation target"
  let target ← orRaise unresolved (targets.lookup edge.parentSlotId)
  let parent ← orRaise unresolved (slotAt spec.preparationSlots edge.parentSlotId)
  rejectIf (edge.dependent.isSlot edge.parentSlotId) (reject "cyclic_prepared_parent"
    "a preparation slot references itself as its installation parent")
  rejectIf (parent.desiredKind ≠ directory) (reject "invalid_parent_state"
    "a prepared installation parent must be a directory slot")
  rejectIf (target ≠ edge.binding.location) (reject "invalid_specification"
    "a prepared parent final target differs from the parent binding location")

def dependencyOf (spec : ReconciliationSpec) (slotId : Text) : Option Text :=
  (slotAt spec.preparationSlots slotId).bind fun slot => preparedParent slot.installationParent

/-- Depth-first cycle search. A path visits distinct slots, so `fuel` beyond their
number is never used up. -/
def visit (spec : ReconciliationSpec) : (fuel : Nat) → (resolving resolved : List Text) →
    Text → Checked (List Text)
  | 0, _, _, _ => .error (reject "cyclic_prepared_parent"
      "prepared installation parents form a dependency cycle")
  | fuel + 1, resolving, resolved, slotId =>
    if slotId ∈ resolved then pure resolved else
    if slotId ∈ resolving then .error (reject "cyclic_prepared_parent"
      "prepared installation parents form a dependency cycle") else
      match dependencyOf spec slotId with
      | none => pure (slotId :: resolved)
      | some parentId => do
          let resolved ← visit spec fuel (slotId :: resolving) resolved parentId
          pure (slotId :: resolved)

def visitAll (spec : ReconciliationSpec) (fuel : Nat) : List Text → List Text → Checked Unit
  | _, [] => .ok ()
  | resolved, slotId :: slots => do
      let resolved ← visit spec fuel [] resolved slotId
      visitAll spec fuel resolved slots

def dependentSlots (spec : ReconciliationSpec) : List Text :=
  sortBy id ((spec.preparationSlots.filter
    fun slot => (preparedParent slot.installationParent).isSome).map (·.slotId))

def validateEdgeOrder (index : GraphIndex) (edge : Edge) : Checked Unit := do
  let parentInstall ← orRaise .keyError (index.installIndex.lookup edge.parentSlotId)
  match edge.dependent with
  | .preparation slot => do
      let dependentInstall ← orRaise (reject "invalid_plan_integrity"
        "a prepared dependent has no installation action") (index.installIndex.lookup slot.slotId)
      rejectIf (dependentInstall ≤ parentInstall) (reject "impossible_replay_order"
        "a prepared parent installs after its dependent transition")
  | .restoration slot => do
      let restoration ← orRaise (reject "invalid_plan_integrity"
        "a prepared restoration parent has no restoration action")
        (index.restoreIndex.lookup slot.slotId)
      rejectIf (restoration ≤ parentInstall) (reject "impossible_replay_order"
        "a prepared parent installs after its dependent restoration")

def validateInstallOrder (index : GraphIndex)
    (baselineRegistry : List (Storage NodeIdentity × String)) (row : Location × Nat) :
    Checked Unit :=
  match baselineRegistry.find? (·.1.location = row.1) with
  | some (.node _, _) => do
      let quarantined ← orRaise (reject "invalid_plan_integrity"
        "an installation replaces a baseline node without quarantine")
        (index.quarantineIndexBySource.lookup row.1)
      rejectIf (row.2 ≤ quarantined) (reject "invalid_plan_integrity"
        "an installation occurs before quarantine of its target")
  | _ => .ok ()

def validateTransitionGraph (spec : ReconciliationSpec) (transitions : List TransitionStep)
    (targets : List (Text × Location))
    (baselineRegistry : List (Storage NodeIdentity × String)) : Checked Unit := do
  let index ← indexTransitions spec targets {} 0 transitions
  each (validateEdge spec targets) (graphEdges spec)
  visitAll spec (transitions.length + 1) [] (dependentSlots spec)
  each (validateEdgeOrder index) (graphEdges spec)
  each (validateInstallOrder index baselineRegistry) index.installIndexByTarget.reverse

def validateSlots (spec : ReconciliationSpec) : Checked Unit := do
  eachAfter validatePreparationSlot [] spec.preparationSlots
  each (validatePreparationParents spec) spec.preparationSlots
  eachAfter (validateOwnershipMarker spec) [] spec.ownershipMarkers
  eachAfter (validateQuarantineSlot spec) [] spec.quarantineSlots

def validateStates (spec : ReconciliationSpec) : Checked (List Registration) := do
  let baselineNodes ← collectBaselineNodes spec.baseline
  let registry ← registerEach id (fun _ => .ok ()) (fun _ => .ok ()) []
    (boundaryRegistrations spec.boundaries)
  let registry ← registerEach nodeRegistration (fun _ => .ok ())
    (checkNodeFilesystem spec.boundaries) registry baselineNodes
  validateDesired spec.desired spec.identity.objectFormat baselineNodes spec.preparationSlots
    spec.boundaries
  validateAdministrativeFiles spec.baseline "baseline"
  validateAdministrativeFiles spec.desired "desired"
  validateIndexSemantics spec
  pure registry

def validateLocations (H : Hashes) (spec : ReconciliationSpec) (registry : List Registration) :
    Checked (List (Storage NodeIdentity × String)) := do
  eachAfter (validateRequiredObject spec) [] spec.requiredObjects
  validateCoverage spec
  let registry ← validateDestinationObjects H spec [] registry spec.destinationObjects
  let baselineRegistry ← staticLocationRegistry spec.baseline "baseline"
  let desiredRegistry ← staticLocationRegistry spec.desired "desired"
  validateFieldChanges spec baselineRegistry desiredRegistry
  let parents ← initialParentBindings spec
  let registry ← registerInitialParents spec registry parents
  eachAfter (validateAbsentLocation spec registry) [] (requiredAbsentLocations spec)
  validateObjectLocations spec
  pure baselineRegistry

def validateTransitions (spec : ReconciliationSpec) : Checked Unit := do
  validateSlotConsumers spec
  validateInstallTargets spec
  let parents ← initialParentBindings spec
  validateTargetParents spec parents
  validateReflogPresence spec
  validateImmutableAdmin spec
  validateQuarantineSet spec
  validateProtectedTopology spec

def validateSpecification (H : Hashes) (spec : ReconciliationSpec) : Checked Unit := do
  validateLimits spec
  requireInt spec.version "version" 1
  rejectIf (spec.version ≠ 1)
    (reject "unsupported_version" "specification version is unsupported")
  validateOperationIdentity spec.identity
  validateReplica spec.baseline spec.identity.objectFormat "baseline"
  validateGenerations spec
  validateBoundaries spec.boundaries
  validateSlots spec
  let registry ← validateStates spec
  let baselineRegistry ← validateLocations H spec registry
  validateTransitions spec
  let transitions ← compileTransitions spec
  validateTransitionGraph spec transitions (installTargets spec) baselineRegistry

section CanonicalForm
variable {ρ : Type}

def sortStorage (states : List (Storage ρ)) : List (Storage ρ) := sortBy (·.location.key) states

def sortManifest (manifest : List ManifestEntry) : List ManifestEntry := sortBy (·.rawPath) manifest

def sortNodes (nodes : List (Node ρ)) : List (Node ρ) := sortBy (·.location.key) nodes

def canonicalizeReplica (replica : Replica ρ) : Replica ρ :=
  { replica with
    index := { replica.index with entries := canonicalIndexEntries replica.index.entries }
    refs := { replica.refs with
      reflogs := sortStorage replica.refs.reflogs
      unrelatedMetadata := sortStorage replica.refs.unrelatedMetadata }
    manifest := sortManifest replica.manifest
    workingNodes := sortNodes replica.workingNodes }

end CanonicalForm

def canonicalizeSpec (spec : ReconciliationSpec) : ReconciliationSpec :=
  { spec with
    baseline := canonicalizeReplica spec.baseline
    desired := canonicalizeReplica spec.desired
    boundaries := sortBy (·.boundaryId) spec.boundaries
    preparationSlots := sortBy (·.slotId) spec.preparationSlots
    quarantineSlots := sortBy (·.slotId) spec.quarantineSlots
    ownershipMarkers := sortBy (·.slotId) spec.ownershipMarkers
    requiredObjects := sortBy (·.objectId) spec.requiredObjects
    destinationObjects := sortBy (·.objectId) spec.destinationObjects }

def specDomain : Bytes := bytes "yinshi.workspace-replica.spec" ++ [0] ++ bytes "v1" ++ [0]

def stateDomain (phase : String) : Bytes :=
  bytes "yinshi.workspace-replica.state" ++ [0] ++ bytes "v1" ++ [0] ++ bytes phase ++ [0]

def bindSpecification (H : Hashes) (spec : ReconciliationSpec) : Checked BoundSpecification := do
  validateSpecification H spec
  let canonical := canonicalizeSpec spec
  rejectIf (canonical.limits.maxTotalBytes <
      ((canonicalBytes (toValue canonical)).length : Int) + semanticBytes canonical)
    (reject "inventory_limit_exceeded" "byte limit exceeded")
  let transitions ← compileTransitions canonical
  pure {
    spec := canonical
    fingerprint := protocolFingerprint H specDomain (toValue canonical)
    baselineFingerprint :=
      protocolFingerprint H (stateDomain "baseline") (toValue canonical.baseline)
    desiredFingerprint := protocolFingerprint H (stateDomain "desired") (toValue canonical.desired)
    transitionCount := transitions.length }

end Yinshi.Reconcile
