import Yinshi.Reconcile.Validation

/-! The normalized transition inventory compiled from a validated specification.
Binding counts it and planning executes it; both call the same compiler. -/

namespace Yinshi.Reconcile
open ByteText Keyed Checked

inductive Owner
  | application
  | broker
  deriving DecidableEq

def Owner.name : Owner → String
  | .application => "application"
  | .broker => "broker"

inductive EffectKind
  | commitApplicationIntent
  | commitReservation
  | acceptBrokerIntent
  | createOwnershipMarker
  | recordMarkerExclusion
  | closeAdmissionGate
  | recordDrain
  | validateOriginalAcknowledgment
  | validateExport
  | validateInventory
  | acceptBaseline
  | materializePreparation
  | acknowledgePreparation
  | promoteRequiredObject
  | acknowledgeObjectPromotion
  | quarantineWorkingNode
  | acknowledgeWorkingQuarantine
  | installWorkingNode
  | restoreWorkingNode
  | acknowledgeWorkingInstall
  | quarantineIndex
  | installIndex
  | finalizeIndexAbsence
  | acknowledgeIndex
  | quarantineReflog
  | installReflog
  | quarantineSelectedRef
  | installSelectedRef
  | selectPackedFallback
  | acknowledgeMetadata
  | verifyPostimage
  | publishGeneration
  | commitDestinationBinding
  | acknowledgeDestinationBinding
  | recordReleaseIntent
  | removeOwnershipMarker
  | physicalRelease
  | logicalRelease
  | admitReaders
  deriving DecidableEq

def EffectKind.name : EffectKind → String
  | .commitApplicationIntent => "commit_application_intent"
  | .commitReservation => "commit_reservation"
  | .acceptBrokerIntent => "accept_broker_intent"
  | .createOwnershipMarker => "create_ownership_marker"
  | .recordMarkerExclusion => "record_marker_exclusion"
  | .closeAdmissionGate => "close_admission_gate"
  | .recordDrain => "record_drain"
  | .validateOriginalAcknowledgment => "validate_original_acknowledgment"
  | .validateExport => "validate_export"
  | .validateInventory => "validate_inventory"
  | .acceptBaseline => "accept_baseline"
  | .materializePreparation => "materialize_preparation"
  | .acknowledgePreparation => "acknowledge_preparation"
  | .promoteRequiredObject => "promote_required_object"
  | .acknowledgeObjectPromotion => "acknowledge_object_promotion"
  | .quarantineWorkingNode => "quarantine_working_node"
  | .acknowledgeWorkingQuarantine => "acknowledge_working_quarantine"
  | .installWorkingNode => "install_working_node"
  | .restoreWorkingNode => "restore_working_node"
  | .acknowledgeWorkingInstall => "acknowledge_working_install"
  | .quarantineIndex => "quarantine_index"
  | .installIndex => "install_index"
  | .finalizeIndexAbsence => "finalize_index_absence"
  | .acknowledgeIndex => "acknowledge_index"
  | .quarantineReflog => "quarantine_reflog"
  | .installReflog => "install_reflog"
  | .quarantineSelectedRef => "quarantine_selected_ref"
  | .installSelectedRef => "install_selected_ref"
  | .selectPackedFallback => "select_packed_fallback"
  | .acknowledgeMetadata => "acknowledge_metadata"
  | .verifyPostimage => "verify_postimage"
  | .publishGeneration => "publish_generation"
  | .commitDestinationBinding => "commit_destination_binding"
  | .acknowledgeDestinationBinding => "acknowledge_destination_binding"
  | .recordReleaseIntent => "record_release_intent"
  | .removeOwnershipMarker => "remove_ownership_marker"
  | .physicalRelease => "physical_release"
  | .logicalRelease => "logical_release"
  | .admitReaders => "admit_readers"

structure TransitionStep where
  stage : Nat
  owner : Owner
  effectKind : EffectKind
  synchronization : List Text
  parentSynchronizations : List ParentBinding := []
  payload : Option Bytes := none
  preparedSlotId : Option Text := none
  deriving DecidableEq

def distinctParents (parents : List ParentBinding) : List ParentBinding :=
  sortBy parentBindingKey parents.dedup

def applicationStep (stage : Nat) (kind : EffectKind) : TransitionStep :=
  ⟨stage, .application, kind, [text "application-journal"], [], none, none⟩

def brokerStep (stage : Nat) (kind : EffectKind) : TransitionStep :=
  ⟨stage, .broker, kind, [text "broker-journal"], [], none, none⟩

def moveStep (stage : Nat) (kind : EffectKind) (synchronization : List Text)
    (slotId : Text) (parents : List ParentBinding) : TransitionStep :=
  ⟨stage, .broker, kind, synchronization, distinctParents parents, none, some slotId⟩

/-- The loose-object location of an object id; ids are ASCII once validated. -/
def objectLocation (objectId : Text) : Location where
  nameSpace := text "admin"
  rawPath := (text "objects/" ++ objectId.take 2 ++ text "/" ++ objectId.drop 2).map UInt8.ofNat

def isDestinationObject (spec : ReconciliationSpec) (objectId : Text) : Prop :=
  objectId ∈ spec.destinationObjects.map (·.objectId)

instance (spec : ReconciliationSpec) (objectId : Text) :
    Decidable (isDestinationObject spec objectId) := inferInstanceAs (Decidable (_ ∈ _))

def missingObjects (spec : ReconciliationSpec) : List RequiredObject :=
  spec.requiredObjects.filter fun item => ¬ isDestinationObject spec item.objectId

def markerCreationSteps (marker : OwnershipMarkerSpec) : List TransitionStep :=
  [⟨2, .broker, .createOwnershipMarker, [text "content:" ++ marker.slotId],
    distinctParents [marker.parent], some [], some marker.slotId⟩,
    ⟨2, .broker, .recordMarkerExclusion, [text "broker-journal"], [], none, some marker.slotId⟩]

def materializationStep (slot : PreparationSlot) : TransitionStep :=
  ⟨6, .broker, .materializePreparation, [text "node:" ++ slot.slotId],
    distinctParents [slot.materializationParent], some slot.desiredContent, some slot.slotId⟩

def installStep (spec : ReconciliationSpec) (stage : Nat) (kind : EffectKind)
    (label slotId : Text) : Checked TransitionStep := do
  let slot ← orRaise .keyError (slotAt spec.preparationSlots slotId)
  pure (moveStep stage kind [label] slotId [slot.materializationParent, slot.installationParent])

def compilePromotions (spec : ReconciliationSpec) : Checked (List TransitionStep) :=
  (missingObjects spec).mapM fun required =>
    installStep spec 7 .promoteRequiredObject (text "content:" ++ required.objectId)
      required.sourceSlotId

def quarantineStep (stage : Nat) (kind : EffectKind) (slot : QuarantineSlot) : TransitionStep :=
  moveStep stage kind [] slot.slotId [slot.sourceParent, slot.destinationParent]

def workingQuarantines (spec : ReconciliationSpec) : List QuarantineSlot :=
  spec.quarantineSlots.filter (·.source.nameSpace = text "working")

def quarantineOrder (row : QuarantineSlot × Text) : Bool ×ₗ Int ×ₗ Bytes :=
  toLex (decide (row.2 = directory), toLex (-(pathDepth row.1.source.rawPath : Int),
    row.1.source.rawPath))

def compileWorkingQuarantines (spec : ReconciliationSpec) : Checked (List TransitionStep) := do
  let rows ← (workingQuarantines spec).mapM fun slot => do
    let node ← orRaise .keyError (baselineNodeAt spec.baseline.workingNodes slot.sourceIdentity)
    pure (slot, node.kind)
  pure ((sortBy quarantineOrder rows).map fun row => quarantineStep 8 .quarantineWorkingNode row.1)

def quarantineOf (spec : ReconciliationSpec) (identity : NodeIdentity) : Option QuarantineSlot :=
  (workingQuarantines spec).find? (·.sourceIdentity = identity)

def needsInstallation (spec : ReconciliationSpec) (node : DesiredNodeState) : Bool :=
  match node.reference with
  | .prepared _ => true
  | .existing identity => (quarantineOf spec identity).isSome

def installationOrder (node : DesiredNodeState) : Bool ×ₗ Nat ×ₗ Bytes :=
  toLex (decide (node.kind ≠ directory),
    toLex (if node.kind = directory then pathDepth node.location.rawPath else 0,
      node.location.rawPath))

def compileWorkingInstallation (spec : ReconciliationSpec) (node : DesiredNodeState) :
    Checked TransitionStep :=
  match node.reference with
  | .prepared slotId => installStep spec 9 .installWorkingNode (text "node:" ++ slotId) slotId
  | .existing identity => do
      let quarantine ← orRaise .keyError (quarantineOf spec identity)
      let restorationParent ← orRaise
        (reject "invalid_specification" "restored node has no destination parent")
        quarantine.restorationParent
      pure (moveStep 9 .restoreWorkingNode [text "node:" ++ quarantine.slotId] quarantine.slotId
        [quarantine.destinationParent, restorationParent])

def workingInstallations (spec : ReconciliationSpec) : List DesiredNodeState :=
  sortBy installationOrder (spec.desired.workingNodes.filter (needsInstallation spec))

def compileWorkingInstallations (spec : ReconciliationSpec) : Checked (List TransitionStep) :=
  (workingInstallations spec).mapM (compileWorkingInstallation spec)

def quarantineAt (spec : ReconciliationSpec) (node : NodeState) : Option QuarantineSlot :=
  spec.quarantineSlots.find? fun slot =>
    slot.source = node.location ∧ slot.sourceIdentity = node.reference

def compileQuarantine (spec : ReconciliationSpec) (stage : Nat) (kind : EffectKind)
    (state : Option (Storage NodeIdentity)) : Checked (List TransitionStep) :=
  match state with
  | some (.node node) => do
      let slot ← orRaise .stopIteration (quarantineAt spec node)
      pure [quarantineStep stage kind slot]
  | _ => pure []

def compileInstallation (spec : ReconciliationSpec) (stage : Nat) (kind : EffectKind)
    (unprepared : String) (node : DesiredNodeState) : Checked (List TransitionStep) :=
  match node.reference with
  | .prepared slotId => do
      let step ← installStep spec stage kind (text "node:" ++ slotId) slotId
      pure [step]
  | .existing _ => .error (reject "invalid_specification" unprepared)

/-- The source parent of the index quarantine; the source binds that name only
when the baseline has an index. -/
def indexQuarantineParent (spec : ReconciliationSpec) : Checked ParentBinding :=
  match spec.baseline.index.storage with
  | .node node => do
      let slot ← orRaise .stopIteration (quarantineAt spec node)
      pure slot.sourceParent
  | .absent _ => .error .unboundLocalError

def indexAsDesired (index : Index NodeIdentity) : Index NodeReference :=
  ⟨desiredStorageFromConcrete index.storage, canonicalIndexEntries index.entries, index.sparseIndex⟩

def indexUnchanged (spec : ReconciliationSpec) : Prop :=
  ({ spec.desired.index with entries := canonicalIndexEntries spec.desired.index.entries } :
    Index NodeReference) = indexAsDesired spec.baseline.index

instance (spec : ReconciliationSpec) : Decidable (indexUnchanged spec) :=
  inferInstanceAs (Decidable (_ = _))

def compileIndexTarget (spec : ReconciliationSpec) : Checked (List TransitionStep) :=
  match spec.desired.index.storage with
  | .node node => compileInstallation spec 10 .installIndex "changed index is not prepared" node
  | .absent _ => do
      let parent ← indexQuarantineParent spec
      pure [⟨10, .broker, .finalizeIndexAbsence, [], distinctParents [parent], none, none⟩]

def compileIndex (spec : ReconciliationSpec) : Checked (List TransitionStep) :=
  if indexUnchanged spec then pure [] else do
    let quarantine ← compileQuarantine spec 10 .quarantineIndex (some spec.baseline.index.storage)
    let target ← compileIndexTarget spec
    pure (quarantine ++ target)

def storageAt {ρ : Type} (states : List (Storage ρ)) (location : Location) : Option (Storage ρ) :=
  states.find? (·.location = location)

def reflogLocations (spec : ReconciliationSpec) : List Location :=
  sortBy Location.key (spec.baseline.refs.reflogs.map (·.location) ++
    spec.desired.refs.reflogs.map (·.location)).dedup

def compileReflogTarget (spec : ReconciliationSpec) (state : Option (Storage NodeReference)) :
    Checked (List TransitionStep) :=
  match state with
  | some (.node node) =>
    compileInstallation spec 11 .installReflog "changed reflog is not prepared" node
  | _ => pure []

def reflogUnchanged (spec : ReconciliationSpec) (location : Location) : Prop :=
  ∃ state ∈ storageAt spec.baseline.refs.reflogs location,
    storageAt spec.desired.refs.reflogs location = some (desiredStorageFromConcrete state)

instance (spec : ReconciliationSpec) (location : Location) :
    Decidable (reflogUnchanged spec location) :=
  match h : storageAt spec.baseline.refs.reflogs location with
  | none => isFalse fun ⟨_, member, _⟩ => by simp [h] at member
  | some state =>
    decidable_of_iff
      (storageAt spec.desired.refs.reflogs location = some (desiredStorageFromConcrete state))
      ⟨fun same => ⟨state, h, same⟩, fun ⟨_, member, same⟩ => by
        rw [h, Option.mem_some_iff] at member
        exact member ▸ same⟩

def compileReflog (spec : ReconciliationSpec) (location : Location) :
    Checked (List TransitionStep) :=
  if reflogUnchanged spec location then pure [] else do
    let quarantine ← compileQuarantine spec 11 .quarantineReflog
      (storageAt spec.baseline.refs.reflogs location)
    let target ← compileReflogTarget spec (storageAt spec.desired.refs.reflogs location)
    pure (quarantine ++ target)

def compileSelectedTarget (spec : ReconciliationSpec) : Checked (List TransitionStep) :=
  match spec.desired.refs.looseRef with
  | .node node =>
    compileInstallation spec 11 .installSelectedRef "changed loose ref is not prepared" node
  | .absent _ => pure [applicationStep 11 .selectPackedFallback]

def compileSelectedRef (spec : ReconciliationSpec) : Checked (List TransitionStep) :=
  if spec.desired.refs.looseRef = desiredStorageFromConcrete spec.baseline.refs.looseRef then
    pure []
  else do
    let quarantine ← compileQuarantine spec 11 .quarantineSelectedRef
      (some spec.baseline.refs.looseRef)
    let target ← compileSelectedTarget spec
    pure (quarantine ++ target)

def openingSteps (spec : ReconciliationSpec) : List TransitionStep :=
  [applicationStep 1 .commitApplicationIntent, applicationStep 1 .commitReservation,
    brokerStep 2 .acceptBrokerIntent] ++
  spec.ownershipMarkers.flatMap markerCreationSteps ++
  [brokerStep 3 .closeAdmissionGate, brokerStep 3 .recordDrain,
    applicationStep 4 .validateOriginalAcknowledgment, applicationStep 4 .validateExport,
    applicationStep 4 .validateInventory, applicationStep 5 .acceptBaseline] ++
  spec.preparationSlots.map materializationStep ++
  [applicationStep 6 .acknowledgePreparation]

def markerRemovalStep (marker : OwnershipMarkerSpec) : TransitionStep :=
  moveStep 16 .removeOwnershipMarker [] marker.slotId [marker.parent]

def closingSteps (spec : ReconciliationSpec) : List TransitionStep :=
  [applicationStep 12 .verifyPostimage, brokerStep 13 .publishGeneration,
    applicationStep 14 .commitDestinationBinding, brokerStep 15 .acknowledgeDestinationBinding,
    applicationStep 16 .recordReleaseIntent] ++
  spec.ownershipMarkers.map markerRemovalStep ++
  [brokerStep 16 .physicalRelease, applicationStep 16 .logicalRelease, brokerStep 16 .admitReaders]

def compileTransitions (spec : ReconciliationSpec) : Checked (List TransitionStep) := do
  let promotions ← compilePromotions spec
  let quarantines ← compileWorkingQuarantines spec
  let installations ← compileWorkingInstallations spec
  let index ← compileIndex spec
  let reflogs ← (reflogLocations spec).mapM (compileReflog spec)
  let selected ← compileSelectedRef spec
  let steps := openingSteps spec ++
    promotions ++ [applicationStep 7 .acknowledgeObjectPromotion] ++
    quarantines ++ [applicationStep 8 .acknowledgeWorkingQuarantine] ++
    installations ++ [applicationStep 9 .acknowledgeWorkingInstall] ++
    index ++ [applicationStep 10 .acknowledgeIndex] ++
    reflogs.flatten ++ selected ++ [applicationStep 11 .acknowledgeMetadata] ++
    closingSteps spec
  rejectIf (spec.limits.maxTransitions < steps.length)
    (reject "inventory_limit_exceeded" "transition limit exceeded")
  pure steps

end Yinshi.Reconcile
