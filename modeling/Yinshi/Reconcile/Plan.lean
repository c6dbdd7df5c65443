import Yinshi.Reconcile.Binding

/-! Expected images and the deterministic plan: each transition advances a symbolic
image whose prepared references are resolved later by durable preparation facts. -/

namespace Yinshi.Reconcile
open ByteText Keyed Checked Artifact

inductive ExpectedReplica
  | concrete (replica : ReplicaState)
  | desired (replica : DesiredReplicaState)

inductive ExpectedStorage
  | concrete (node : NodeState)
  | desired (node : DesiredNodeState)
  | absent (state : AbsentState)

def ExpectedStorage.location : ExpectedStorage → Location
  | .concrete node => node.location
  | .desired node => node.location
  | .absent state => state.location

def ExpectedStorage.ofStorage : Storage NodeIdentity → ExpectedStorage
  | .node node => .concrete node
  | .absent state => .absent state

structure ExpectedObservation where
  identity : OperationIdentity
  replicaState : ExpectedReplica
  boundaries : List Boundary
  parents : List ParentBinding
  storage : List ExpectedStorage
  control : ControlState

structure ActionContract where
  actionId : Text
  fingerprint : Text
  stage : Nat
  owner : Owner
  effectKind : EffectKind
  preimage : ExpectedObservation
  permittedEffectPostimages : List ExpectedObservation
  synchronizationRequirements : List Text
  parentSynchronizations : List ParentBinding
  completionPostimage : ExpectedObservation
  effectPayload : Option Bytes
  preparedSlotId : Option Text
  createsPreparedIdentity : Bool

structure ReconciliationPlan where
  fingerprint : Text
  actions : List ActionContract

def ensureDesiredReplica : ExpectedReplica → DesiredReplicaState
  | .concrete replica => replicaAsDesired replica
  | .desired replica => replica

def initialStorage (spec : ReconciliationSpec) : List ExpectedStorage :=
  spec.preparationSlots.map (fun slot => .ofStorage slot.initial) ++
  spec.ownershipMarkers.map (fun marker => .absent marker.initial) ++
  spec.quarantineSlots.map (fun slot => .absent slot.initial) ++
  spec.destinationObjects.map (fun item => .concrete item.storage) ++
  (missingObjects spec).map (fun item => .absent ⟨objectLocation item.objectId⟩)

def initialExpected (spec : ReconciliationSpec) : Checked ExpectedObservation := do
  let parents ← initialParentBindings spec
  pure {
    identity := spec.identity
    replicaState := .concrete spec.baseline
    boundaries := spec.boundaries
    parents := parents
    storage := sortBy (·.location.key) (initialStorage spec)
    control := {} }

/-- `states[location] = replacement` on a dictionary of states by location. -/
def setStorage (states : List ExpectedStorage) (location : Location)
    (replacement : ExpectedStorage) : List ExpectedStorage :=
  if location ∈ states.map (·.location) then
    states.map fun state => if state.location = location then replacement else state
  else states ++ [replacement]

def replaceExpectedStorage (image : ExpectedObservation) (location : Location)
    (replacement : ExpectedStorage) : ExpectedObservation :=
  { image with storage := sortBy (·.location.key) (setStorage image.storage location replacement) }

def removeParent (image : ExpectedObservation) (reference : NodeReference) : ExpectedObservation :=
  { image with parents := sortBy parentBindingKey (image.parents.filter (·.reference ≠ reference)) }

def addParent (image : ExpectedObservation) (added : ParentBinding) :
    Checked ExpectedObservation := do
  rejectIf (added ∉ image.parents ∧ ∃ parent ∈ image.parents, parent.location = added.location)
    (reject "invalid_plan_integrity" "parent transition aliases an observed location")
  pure { image with
    parents := sortBy parentBindingKey
      (if added ∈ image.parents then image.parents else image.parents ++ [added]) }

def ExpectedStorage.node? : ExpectedStorage → Option DesiredNodeState
  | .concrete node => some (desiredNodeFromConcrete node)
  | .desired node => some node
  | .absent _ => none

def currentExistingState (image : ExpectedObservation) (location : Location)
    (identity : NodeIdentity) : Checked DesiredNodeState :=
  let candidates :=
    (staticStorage (ensureDesiredReplica image.replicaState)).filterMap Storage.node? ++
    image.storage.filterMap ExpectedStorage.node?
  orRaise (reject "invalid_plan_integrity" "quarantine source is unavailable in the current image")
    (candidates.find? fun node => node.location = location ∧ node.reference = .existing identity)

def adjustWorkingParentNlink (image : ExpectedObservation) (parent : Location) (delta : Int) :
    Checked ExpectedObservation :=
  let replica := ensureDesiredReplica image.replicaState
  match replica.workingNodes.filter (·.location = parent) with
  | [] => pure image
  | [node] => do
      rejectIf (node.kind ≠ directory) (reject "invalid_plan_integrity"
        "a moved directory has no unique directory parent")
      rejectIf (node.nlink + delta < 2) (reject "invalid_plan_integrity"
        "directory parent link count falls below two")
      let adjusted := { replica with
        manifest := replica.manifest.map fun entry =>
          if entry.rawPath = parent.rawPath then { entry with nlink := node.nlink + delta }
          else entry
        workingNodes := replica.workingNodes.map fun other =>
          if other.location = parent then { node with nlink := node.nlink + delta } else other }
      pure { image with replicaState := .desired adjusted }
  | _ => .error (reject "invalid_plan_integrity"
      "a moved directory has no unique directory parent")

def controlReceipt (spec : ReconciliationSpec) (suffix : Text) (owner : Owner) : ControlReceipt :=
  ⟨spec.identity.operationId ++ text ":" ++ suffix, text owner.name⟩

def receiptKey (receipt : ControlReceipt) : Text := receipt.receiptId

def advanceReceipts (control : ControlState) (spec : ReconciliationSpec) (kind : EffectKind)
    (slotId : Option Text) : Checked ControlState :=
  match kind with
  | .commitApplicationIntent => pure { control with
      applicationIntent := some (controlReceipt spec (text "application-intent") .application) }
  | .commitReservation => pure { control with
      reservation := some ⟨spec.identity.reservationId, text "application"⟩ }
  | .acceptBrokerIntent => pure { control with
      brokerAcceptance := some (controlReceipt spec (text "broker-acceptance") .broker) }
  | .closeAdmissionGate => pure { control with
      admissionGate := some (controlReceipt spec (text "admission-gate-closed") .broker) }
  | .recordDrain => pure { control with
      drain := some ⟨spec.identity.drainReceiptId, text "broker"⟩ }
  | .validateExport => pure { control with
      exportValidation := some ⟨spec.identity.exportReceiptId, text "application"⟩ }
  | .validateInventory => pure { control with
      inventoryValidation := some ⟨spec.identity.inventoryReceiptId, text "application"⟩ }
  | .acceptBaseline => pure { control with
      baselineAcceptance := some (controlReceipt spec (text "baseline-acceptance") .application) }
  | .verifyPostimage => pure { control with
      verification := some (controlReceipt spec (text "postimage-verification") .application) }
  | .publishGeneration => pure { control with
      publication := some (controlReceipt spec (text "generation-publication") .broker) }
  | .commitDestinationBinding => pure { control with
      destinationBinding := some ⟨spec.identity.destinationBinding, text "application"⟩ }
  | .acknowledgeDestinationBinding => pure { control with
      bindingAcknowledgment := some (controlReceipt spec (text "binding-acknowledgment") .broker) }
  | .recordReleaseIntent => pure { control with
      releaseIntent := some (controlReceipt spec (text "release-intent") .application) }
  | .physicalRelease => pure { control with
      physicalRelease := some (controlReceipt spec (text "physical-release") .broker) }
  | .logicalRelease => pure { control with
      logicalRelease := some (controlReceipt spec (text "logical-release") .application) }
  | .admitReaders => pure { control with
      admission := some (controlReceipt spec (text "reader-admission") .broker) }
  | .recordMarkerExclusion => do
      let slot ← orRaise (reject "invalid_plan_integrity" "marker exclusion slot is absent") slotId
      pure { control with
        exclusionReceipts := sortBy receiptKey (control.exclusionReceipts ++
          [controlReceipt spec (text "exclusion:" ++ slot) .broker]) }
  | _ => pure control

def physicalMoveEffects : List EffectKind :=
  [.createOwnershipMarker, .materializePreparation, .promoteRequiredObject, .quarantineWorkingNode,
    .installWorkingNode, .restoreWorkingNode, .quarantineIndex, .installIndex, .quarantineReflog,
    .installReflog, .quarantineSelectedRef, .installSelectedRef, .removeOwnershipMarker,
    .recordMarkerExclusion]

def advanceControl (control : ControlState) (spec : ReconciliationSpec) (owner : Owner)
    (kind : EffectKind) (slotId : Option Text) : Checked ControlState := do
  let control ← advanceReceipts control spec kind slotId
  if kind ∈ physicalMoveEffects then pure control else
    let suffix := match slotId with
      | none => text kind.name
      | some slot => text kind.name ++ text ":" ++ slot
    pure { control with
      effectReceipts := control.effectReceipts ++
        [controlReceipt spec (text "effect:" ++ suffix) owner] }

def preparedNode (location : Location) (slotId : Text) (kind : Text) (content : Bytes)
    (executable : Bool) (nlink : Int) : DesiredNodeState :=
  ⟨location, .prepared slotId, kind, content, executable, nlink, false⟩

def markerAt (spec : ReconciliationSpec) (slotId : Option Text) : Checked OwnershipMarkerSpec :=
  orRaise .stopIteration (spec.ownershipMarkers.find? fun marker => some marker.slotId = slotId)

def preparationAt (spec : ReconciliationSpec) (slotId : Option Text) : Checked PreparationSlot :=
  orRaise .stopIteration (spec.preparationSlots.find? fun slot => some slot.slotId = slotId)

def quarantineFor (spec : ReconciliationSpec) (slotId : Option Text) : Checked QuarantineSlot :=
  orRaise .stopIteration (spec.quarantineSlots.find? fun slot => some slot.slotId = slotId)

def createMarker (image : ExpectedObservation) (spec : ReconciliationSpec) (payload : Option Bytes)
    (slotId : Option Text) : Checked ExpectedObservation := do
  let marker ← markerAt spec slotId
  let content ← orRaise (reject "invalid_plan_integrity" "ownership payload is absent") payload
  pure (replaceExpectedStorage image marker.destination (.desired
    (preparedNode marker.destination marker.slotId (text "file") content marker.executable 1)))

def materialize (image : ExpectedObservation) (spec : ReconciliationSpec)
    (slotId : Option Text) : Checked ExpectedObservation := do
  let slot ← preparationAt spec slotId
  pure (replaceExpectedStorage image slot.destination (.desired
    (preparedNode slot.destination slot.slotId slot.desiredKind slot.desiredContent slot.executable
      (if slot.desiredKind = directory then 2 else 1))))

def vacate (image : ExpectedObservation) (location : Location) : ExpectedObservation :=
  replaceExpectedStorage image location (.absent ⟨location⟩)

def promote (image : ExpectedObservation) (spec : ReconciliationSpec)
    (slotId : Option Text) : Checked ExpectedObservation := do
  let required ← orRaise .stopIteration
    (spec.requiredObjects.find? fun item => some item.sourceSlotId = slotId)
  let slot ← preparationAt spec slotId
  let location := objectLocation required.objectId
  pure (replaceExpectedStorage (vacate image slot.destination) location (.desired
    (preparedNode location slot.slotId slot.desiredKind slot.desiredContent slot.executable 1)))

/-- What leaves the replica when the node at `source` is quarantined. -/
def withoutSource (replica : DesiredReplicaState) (kind : EffectKind) (source : Location) :
    DesiredReplicaState :=
  match kind with
  | .quarantineWorkingNode => { replica with
      manifest := replica.manifest.filter (·.rawPath ≠ source.rawPath)
      workingNodes := replica.workingNodes.filter (·.location ≠ source) }
  | .quarantineIndex => { replica with index := ⟨.absent ⟨source⟩, [], false⟩ }
  | .quarantineReflog => { replica with refs := { replica.refs with
      reflogs := replica.refs.reflogs.map fun state =>
        if state.location = source then .absent ⟨source⟩ else state } }
  | _ => { replica with refs := { replica.refs with
      resolvedOid := replica.refs.packedFallbackOid
      looseRef := .absent ⟨source⟩ } }

def quarantine (image : ExpectedObservation) (spec : ReconciliationSpec) (kind : EffectKind)
    (slotId : Option Text) : Checked ExpectedObservation := do
  let slot ← quarantineFor spec slotId
  let source ← currentExistingState image slot.source slot.sourceIdentity
  let image := replaceExpectedStorage image slot.destination
    (.desired { source with location := slot.destination })
  let replica := withoutSource (ensureDesiredReplica image.replicaState) kind slot.source
  let image := { image with replicaState := .desired replica }
  if source.kind = directory then do
    let image ← adjustWorkingParentNlink image slot.sourceParent.location (-1)
    pure (removeParent image source.reference)
  else pure image

def placeWorkingNode (image : ExpectedObservation) (node : DesiredNodeState)
    (entry : ManifestEntry) : ExpectedObservation :=
  let replica := ensureDesiredReplica image.replicaState
  { image with replicaState := .desired { replica with
    manifest := sortManifest (replica.manifest ++ [entry])
    workingNodes := sortNodes (replica.workingNodes ++ [node]) } }

def desiredEntryFor (spec : ReconciliationSpec) (node : DesiredNodeState) : Checked ManifestEntry :=
  orRaise .stopIteration
    (spec.desired.manifest.find? fun entry => entry.rawPath = node.location.rawPath)

def installWorking (image : ExpectedObservation) (spec : ReconciliationSpec)
    (slotId : Option Text) : Checked ExpectedObservation := do
  let desired ← orRaise .stopIteration (spec.desired.workingNodes.find? fun node =>
    ∃ slot ∈ slotId, node.reference = .prepared slot)
  let slot ← preparationAt spec slotId
  let image := vacate image slot.destination
  let entry ← desiredEntryFor spec desired
  if desired.kind = directory then do
    let image := placeWorkingNode image { desired with nlink := 2 } { entry with nlink := 2 }
    let image ← adjustWorkingParentNlink image slot.installationParent.location 1
    addParent image ⟨desired.location, .prepared slot.slotId⟩
  else pure (placeWorkingNode image desired entry)

def restoreWorking (image : ExpectedObservation) (spec : ReconciliationSpec)
    (slotId : Option Text) : Checked ExpectedObservation := do
  let slot ← quarantineFor spec slotId
  let desired ← orRaise .stopIteration (spec.desired.workingNodes.find? fun node =>
    node.reference = .existing slot.sourceIdentity)
  let stored ← currentExistingState image slot.destination slot.sourceIdentity
  let image := vacate image slot.destination
  let entry ← desiredEntryFor spec desired
  let image := placeWorkingNode image { desired with nlink := stored.nlink }
    { entry with nlink := stored.nlink }
  if desired.kind = directory then do
    let parent ← orRaise (reject "invalid_plan_integrity"
      "directory restoration has no parent binding") slot.restorationParent
    let image ← adjustWorkingParentNlink image parent.location 1
    addParent image ⟨desired.location, .existing slot.sourceIdentity⟩
  else pure image

def withInstalled (replica : DesiredReplicaState) (spec : ReconciliationSpec) (kind : EffectKind)
    (slotId : Option Text) : Checked DesiredReplicaState :=
  match kind with
  | .installIndex => pure { replica with index := spec.desired.index }
  | .installReflog => do
      let reflog ← orRaise .stopIteration (spec.desired.refs.reflogs.find? fun state =>
        ∃ node ∈ state.node?, ∃ slot ∈ slotId, node.reference = .prepared slot)
      pure { replica with refs := { replica.refs with
        reflogs := sortStorage
          (replica.refs.reflogs.filter (·.location ≠ reflog.location) ++ [reflog]) } }
  | _ => pure { replica with refs := { replica.refs with
      resolvedOid := spec.desired.refs.resolvedOid
      looseRef := spec.desired.refs.looseRef } }

def installAdministrative (image : ExpectedObservation) (spec : ReconciliationSpec)
    (kind : EffectKind) (slotId : Option Text) : Checked ExpectedObservation := do
  let slot ← preparationAt spec slotId
  let image := vacate image slot.destination
  let replica ← withInstalled (ensureDesiredReplica image.replicaState) spec kind slotId
  pure { image with replicaState := .desired replica }

def acknowledge (agrees : Prop) [Decidable agrees] (subject : String)
    (image : ExpectedObservation) : Checked ExpectedObservation := do
  rejectIf (¬ agrees) (reject "invalid_plan_integrity" subject)
  pure image

def publishGeneration (spec : ReconciliationSpec) : ExpectedReplica → ExpectedReplica
  | .concrete replica => .concrete { replica with generation := spec.desired.generation }
  | .desired replica => .desired { replica with generation := spec.desired.generation }

def advanceImage (image : ExpectedObservation) (spec : ReconciliationSpec) (kind : EffectKind)
    (payload : Option Bytes) (slotId : Option Text) : Checked ExpectedObservation :=
  let replica := ensureDesiredReplica image.replicaState
  match kind with
  | .publishGeneration => pure { image with
      replicaState := publishGeneration spec image.replicaState }
  | .createOwnershipMarker => createMarker image spec payload slotId
  | .materializePreparation => materialize image spec slotId
  | .promoteRequiredObject => promote image spec slotId
  | .quarantineWorkingNode => quarantine image spec kind slotId
  | .quarantineIndex => quarantine image spec kind slotId
  | .quarantineReflog => quarantine image spec kind slotId
  | .quarantineSelectedRef => quarantine image spec kind slotId
  | .installWorkingNode => installWorking image spec slotId
  | .restoreWorkingNode => restoreWorking image spec slotId
  | .installIndex => installAdministrative image spec kind slotId
  | .installReflog => installAdministrative image spec kind slotId
  | .installSelectedRef => installAdministrative image spec kind slotId
  | .selectPackedFallback => pure { image with replicaState := .desired { replica with
      refs := { replica.refs with resolvedOid := replica.refs.packedFallbackOid } } }
  | .finalizeIndexAbsence => pure { image with replicaState := .desired { replica with
      index := spec.desired.index } }
  | .acknowledgeWorkingInstall => acknowledge
      (replica.manifest = spec.desired.manifest ∧ replica.workingNodes = spec.desired.workingNodes)
      "working acknowledgment cannot synthesize physical state" image
  | .acknowledgeIndex => acknowledge (replica.index = spec.desired.index)
      "index acknowledgment cannot synthesize physical state" image
  | .acknowledgeMetadata => acknowledge (replica.refs = spec.desired.refs)
      "metadata acknowledgment cannot synthesize physical ref state" image
  | .removeOwnershipMarker => do
      let marker ← markerAt spec slotId
      pure (vacate image marker.destination)
  | _ => pure image

def advanceExpected (image : ExpectedObservation) (spec : ReconciliationSpec) (owner : Owner)
    (kind : EffectKind) (payload : Option Bytes) (slotId : Option Text) :
    Checked ExpectedObservation := do
  let control ← advanceControl image.control spec owner kind slotId
  advanceImage { image with control := control } spec kind payload slotId

def imageRegistration (node : DesiredNodeState) : List Registration :=
  match node.reference with
  | .existing identity => [⟨node.location, identity, none⟩]
  | .prepared _ => []

def parentRegistration (parent : ParentBinding) : List Registration :=
  match parent.reference with
  | .existing identity => [⟨parent.location, identity, none⟩]
  | .prepared _ => []

def registerPlace (detail : String) (seen : List Registration) (next : Registration) :
    Checked Unit :=
  rejectIf (∃ prior ∈ seen, (prior.identity = next.identity ∧ prior.location ≠ next.location) ∨
      (prior.location = next.location ∧ prior.identity ≠ next.identity))
    (reject "ambiguous_node_identity" detail)

def boundaryPlaces (boundaries : List Boundary) : List Registration :=
  (boundaryRegistrations boundaries).map fun entry => { entry with state := none }

def imageRegistrations (image : ExpectedObservation) : List Registration :=
  boundaryPlaces image.boundaries ++
  ((staticStorage (ensureDesiredReplica image.replicaState)).filterMap
    Storage.node?).flatMap imageRegistration ++
  image.parents.flatMap parentRegistration

def storageRegistration (state : ExpectedStorage) : List Registration :=
  state.node?.toList.flatMap imageRegistration

def presentLocations (image : ExpectedObservation) : List Location :=
  ((staticStorage (ensureDesiredReplica image.replicaState)).filterMap Storage.node?).map
    (·.location)

def ambiguousImage : String := "one expected image maps an identity or location to two nodes"

def validateImageStorage (image : ExpectedObservation) (seen : List ExpectedStorage)
    (state : ExpectedStorage) : Checked Unit := do
  rejectIf (∃ prior ∈ seen, prior.location = state.location) (reject "duplicate_location"
    "an expected image records one storage location twice")
  rejectIf (state.location ∈ presentLocations image) (reject "duplicate_location"
    (if state.node? = none then "an expected image records absence at a present location"
      else "an expected image records one location in conflicting states"))
  each (registerPlace ambiguousImage (seen.flatMap storageRegistration ++ imageRegistrations image))
    (storageRegistration state)

def validateExpectedImage (image : ExpectedObservation) : Checked Unit := do
  let _ ← staticLocationRegistry (ensureDesiredReplica image.replicaState) "expected"
  eachAfter (registerPlace ambiguousImage) [] (imageRegistrations image)
  eachAfter (validateImageStorage image) [] image.storage

def createsPreparedIdentity (kind : EffectKind) : Bool :=
  kind = .createOwnershipMarker ∨ kind = .materializePreparation

def effectPayload (bound : BoundSpecification) (step : TransitionStep) : Checked (Option Bytes) :=
  if step.effectKind = .createOwnershipMarker then do
    let slotId ← orRaise (reject "invalid_plan_integrity" "ownership marker slot is absent")
      step.preparedSlotId
    let marker ← markerAt bound.spec (some slotId)
    pure (some (marker.payloadPrefix ++ [0] ++ bytes "fingerprint=" ++
      bound.fingerprint.map UInt8.ofNat))
  else pure step.payload

def ordinalText (ordinal : Nat) : Text :=
  let digits := text (toString ordinal)
  List.replicate (4 - digits.length) 48 ++ digits

def actionIdOf (fingerprint : Text) (ordinal : Nat) (kind : EffectKind) : Text :=
  fingerprint ++ text ":" ++ ordinalText ordinal ++ text ":" ++ text kind.name

def deriveAction (bound : BoundSpecification) (ordinal : Nat) (preimage : ExpectedObservation)
    (step : TransitionStep) : Checked ActionContract := do
  let payload ← effectPayload bound step
  let postimage ← advanceExpected preimage bound.spec step.owner step.effectKind payload
    step.preparedSlotId
  validateExpectedImage postimage
  pure {
    actionId := actionIdOf bound.fingerprint ordinal step.effectKind
    fingerprint := bound.fingerprint
    stage := step.stage
    owner := step.owner
    effectKind := step.effectKind
    preimage := preimage
    permittedEffectPostimages := [postimage]
    synchronizationRequirements := step.synchronization
    parentSynchronizations := step.parentSynchronizations
    completionPostimage := postimage
    effectPayload := payload
    preparedSlotId := step.preparedSlotId
    createsPreparedIdentity := createsPreparedIdentity step.effectKind }

def deriveActions (bound : BoundSpecification) : Nat → ExpectedObservation →
    List TransitionStep → Checked (List ActionContract)
  | _, _, [] => pure []
  | ordinal, image, step :: steps => do
      let action ← deriveAction bound ordinal image step
      let actions ← deriveActions bound (ordinal + 1) action.completionPostimage steps
      pure (action :: actions)

def deriveProtocolPlan (bound : BoundSpecification) : Checked ReconciliationPlan := do
  let transitions ← compileTransitions bound.spec
  rejectIf (transitions.length ≠ bound.transitionCount) (reject "invalid_plan_integrity"
    "stored transition count differs from the compiled transition inventory")
  let image ← initialExpected bound.spec
  validateExpectedImage image
  let actions ← deriveActions bound 0 image transitions
  pure ⟨bound.fingerprint, actions⟩

end Yinshi.Reconcile
