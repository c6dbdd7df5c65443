import Yinshi.Base.ByteText

/-! Data model of the replica reconciliation core (`workspace_replica.py`).
A concrete and a desired state differ only in how a node is referred to, so the
records are generic in the reference type: `NodeState` refers to a node by its
identity, `DesiredNodeState` by an existing node or a preparation slot. -/

namespace Yinshi.Reconcile
open ByteText

structure NodeIdentity where
  filesystemId : Text
  nodeId : Text
  deriving DecidableEq

inductive NodeReference
  | existing (identity : NodeIdentity)
  | prepared (slotId : Text)
  deriving DecidableEq

structure Location where
  nameSpace : Text
  rawPath : Bytes
  deriving DecidableEq

def Location.key (location : Location) : Text ×ₗ Bytes :=
  toLex (location.nameSpace, location.rawPath)

theorem Location.key_injective : Function.Injective Location.key := by
  rintro ⟨_, _⟩ ⟨_, _⟩ hs
  rw [Location.mk.injEq]
  exact Prod.mk.inj hs

structure ParentBinding where
  location : Location
  reference : NodeReference
  deriving DecidableEq

/-- `NodeState` (with `reference` an identity) or `DesiredNodeState`. -/
structure Node (ρ : Type) where
  location : Location
  reference : ρ
  kind : Text
  content : Bytes
  executable : Bool
  nlink : Int
  privilegeBits : Bool
  deriving DecidableEq

abbrev NodeState := Node NodeIdentity
abbrev DesiredNodeState := Node NodeReference

structure AbsentState where
  location : Location
  deriving DecidableEq

/-- `NodeState | AbsentState` or `DesiredNodeState | AbsentState`. -/
inductive Storage (ρ : Type)
  | node (state : Node ρ)
  | absent (state : AbsentState)
  deriving DecidableEq

def Storage.location {ρ : Type} : Storage ρ → Location
  | .node state => state.location
  | .absent state => state.location

def Storage.node? {ρ : Type} : Storage ρ → Option (Node ρ)
  | .node state => some state
  | .absent _ => none

structure IndexEntry where
  rawPath : Bytes
  stage : Int
  mode : Text
  objectId : Text
  intentToAdd : Bool
  skipWorktree : Bool
  assumeUnchanged : Bool
  deriving DecidableEq

structure ManifestEntry where
  rawPath : Bytes
  kind : Text
  content : Bytes
  executable : Bool
  nlink : Int
  privilegeBits : Bool
  deriving DecidableEq

structure Refs (ρ : Type) where
  selectedRef : Bytes
  headBinding : Bytes
  resolvedOid : Option Text
  packedFallbackOid : Option Text
  head : Node ρ
  looseRef : Storage ρ
  packedRefs : Storage ρ
  reflogs : List (Storage ρ)
  unrelatedMetadata : List (Storage ρ)
  deriving DecidableEq

structure Index (ρ : Type) where
  storage : Storage ρ
  entries : List IndexEntry
  sparseIndex : Bool
  deriving DecidableEq

structure Replica (ρ : Type) where
  generation : Int
  replicaGeneration : Int
  index : Index ρ
  refs : Refs ρ
  manifest : List ManifestEntry
  workingNodes : List (Node ρ)
  deriving DecidableEq

abbrev ReplicaState := Replica NodeIdentity
abbrev DesiredReplicaState := Replica NodeReference

structure OwnershipMarkerSpec where
  slotId : Text
  destination : Location
  parent : ParentBinding
  initial : AbsentState
  payloadPrefix : Bytes
  executable : Bool
  deriving DecidableEq

structure DestinationObject where
  objectId : Text
  storage : NodeState
  parent : ParentBinding
  contentSha256 : Text
  contentSyncReceiptId : Text
  parentSyncReceiptId : Text
  deriving DecidableEq

structure RequiredObject where
  objectId : Text
  kind : Text
  byteLength : Int
  contentSha256 : Text
  sourceSlotId : Text
  deriving DecidableEq

structure PreparationSlot where
  slotId : Text
  destination : Location
  materializationParent : ParentBinding
  installationParent : ParentBinding
  initial : Storage NodeIdentity
  desiredKind : Text
  desiredContent : Bytes
  executable : Bool
  deriving DecidableEq

structure QuarantineSlot where
  slotId : Text
  source : Location
  sourceIdentity : NodeIdentity
  sourceParent : ParentBinding
  destination : Location
  destinationParent : ParentBinding
  restorationParent : Option ParentBinding
  initial : AbsentState
  deriving DecidableEq

structure Boundary where
  boundaryId : Text
  role : Text
  location : Location
  identity : NodeIdentity
  ancestors : List NodeState
  deriving DecidableEq

structure ControlReceipt where
  receiptId : Text
  owner : Text

structure ControlState where
  applicationIntent : Option ControlReceipt := none
  reservation : Option ControlReceipt := none
  brokerAcceptance : Option ControlReceipt := none
  exclusionReceipts : List ControlReceipt := []
  admissionGate : Option ControlReceipt := none
  drain : Option ControlReceipt := none
  exportValidation : Option ControlReceipt := none
  inventoryValidation : Option ControlReceipt := none
  baselineAcceptance : Option ControlReceipt := none
  verification : Option ControlReceipt := none
  publication : Option ControlReceipt := none
  destinationBinding : Option ControlReceipt := none
  bindingAcknowledgment : Option ControlReceipt := none
  releaseIntent : Option ControlReceipt := none
  physicalRelease : Option ControlReceipt := none
  logicalRelease : Option ControlReceipt := none
  admission : Option ControlReceipt := none
  effectReceipts : List ControlReceipt := []

structure OperationIdentity where
  incarnation : Text
  bindingId : Text
  selectedAuthority : Text
  operationId : Text
  reservationId : Text
  destinationBinding : Text
  physicalTargetId : Text
  generation : Int
  replicaGeneration : Int
  acknowledgmentReceiptId : Text
  drainReceiptId : Text
  exportReceiptId : Text
  objectFormat : Text
  inventoryReceiptId : Text
  deriving DecidableEq

structure InventoryLimits where
  maxPaths : Int
  maxObjects : Int
  maxTotalBytes : Int
  maxDepth : Int
  maxTransitions : Int
  deriving DecidableEq

structure ReconciliationSpec where
  version : Int
  identity : OperationIdentity
  baseline : ReplicaState
  desired : DesiredReplicaState
  boundaries : List Boundary
  preparationSlots : List PreparationSlot
  quarantineSlots : List QuarantineSlot
  ownershipMarkers : List OwnershipMarkerSpec
  requiredObjects : List RequiredObject
  destinationObjects : List DestinationObject
  limits : InventoryLimits
  deriving DecidableEq

structure BoundSpecification where
  spec : ReconciliationSpec
  fingerprint : Text
  baselineFingerprint : Text
  desiredFingerprint : Text
  transitionCount : Nat

/-- What the core can raise. Everything it checks is a `SnapshotRejected`; the
other constructors are the exceptions that escape from unchecked lookups. -/
inductive ReplicaError
  | snapshotRejected (reasonCode : String) (detail : Text)
  | stopIteration
  | keyError
  | unboundLocalError
  | unicodeEncodeError
  | indexError
  deriving DecidableEq

def reject (reasonCode detail : String) : ReplicaError := .snapshotRejected reasonCode (text detail)

abbrev Checked (α : Type) := Except ReplicaError α

section Static
variable {ρ : Type}

def administrativeRegistrations (replica : Replica ρ) : List (Storage ρ × String) :=
  [(replica.index.storage, "index.storage"), (.node replica.refs.head, "refs.head"),
    (replica.refs.looseRef, "refs.loose_ref"), (replica.refs.packedRefs, "refs.packed_refs")] ++
  replica.refs.reflogs.map (fun state => (state, "refs.reflogs")) ++
  replica.refs.unrelatedMetadata.map (fun state => (state, "refs.unrelated_metadata"))

def staticRegistrations (replica : Replica ρ) : List (Storage ρ × String) :=
  administrativeRegistrations replica ++
  replica.workingNodes.map (fun state => (.node state, "working_nodes"))

def staticStorage (replica : Replica ρ) : List (Storage ρ) :=
  (staticRegistrations replica).map Prod.fst

end Static

section AsDesired

def desiredNodeFromConcrete (node : NodeState) : DesiredNodeState where
  location := node.location
  reference := .existing node.reference
  kind := node.kind
  content := node.content
  executable := node.executable
  nlink := node.nlink
  privilegeBits := node.privilegeBits

def desiredStorageFromConcrete : Storage NodeIdentity → Storage NodeReference
  | .node state => .node (desiredNodeFromConcrete state)
  | .absent state => .absent state

def refAsDesired (refs : Refs NodeIdentity) : Refs NodeReference where
  selectedRef := refs.selectedRef
  headBinding := refs.headBinding
  resolvedOid := refs.resolvedOid
  packedFallbackOid := refs.packedFallbackOid
  head := desiredNodeFromConcrete refs.head
  looseRef := desiredStorageFromConcrete refs.looseRef
  packedRefs := desiredStorageFromConcrete refs.packedRefs
  reflogs := refs.reflogs.map desiredStorageFromConcrete
  unrelatedMetadata := refs.unrelatedMetadata.map desiredStorageFromConcrete

def replicaAsDesired (replica : ReplicaState) : DesiredReplicaState where
  generation := replica.generation
  replicaGeneration := replica.replicaGeneration
  index := ⟨desiredStorageFromConcrete replica.index.storage, replica.index.entries,
    replica.index.sparseIndex⟩
  refs := refAsDesired replica.refs
  manifest := replica.manifest
  workingNodes := replica.workingNodes.map desiredNodeFromConcrete

end AsDesired

end Yinshi.Reconcile
