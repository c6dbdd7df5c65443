import Yinshi.Reconcile.Canonical

/-! Field, node, replica and desired-state validators. Python's dynamic type tests
hold by typing here; every other test is kept, in the order of the source and
with its reason code and detail. A dictionary whose keys are checked to be
distinct is represented by the list of its values. -/

namespace Yinshi.Reconcile
open ByteText Keyed Checked

def requireStr (value : Text) (fieldName : String) : Checked Unit :=
  rejectIf (value = [])
    (reject "invalid_input_type" (fieldName ++ " must be a non-empty string"))

def maximumInt : Int := 2 ^ 63 - 1

def requireInt (value : Int) (fieldName : String) (minimum : Int := 0) : Checked Unit := do
  rejectIf (value < minimum) (reject "invalid_specification" (fieldName ++ " is below its minimum"))
  rejectIf (maximumInt < value) (reject "invalid_specification" (fieldName ++ " exceeds its maximum"))

def validateIdentity (identity : NodeIdentity) (fieldName : String) : Checked Unit := do
  requireStr identity.filesystemId (fieldName ++ ".filesystem_id")
  requireStr identity.nodeId (fieldName ++ ".node_id")

def unsafeComponents : List Bytes := [[], bytes ".", bytes "..", bytes ".git"]

def isUnsafePath (rawPath : Bytes) : Bool :=
  rawPath.isEmpty || rawPath.head? == some slash || rawPath.contains 0 ||
    (components rawPath).any (unsafeComponents.contains ·)

def isDirectoryPrefix (ancestor descendant : Bytes) : Bool :=
  (ancestor ++ [slash]).isPrefixOf descendant

def namespaces : List Text :=
  [text "working", text "admin", text "registration", text "excluded", text "private"]

def validateLocation (location : Location) (fieldName : String) : Checked Unit := do
  requireStr location.nameSpace (fieldName ++ ".namespace")
  rejectIf (location.nameSpace ∉ namespaces)
    (reject "invalid_specification" (fieldName ++ " namespace is unsupported"))
  rejectIf (isUnsafePath location.rawPath = true)
    (reject "unsafe_path" (fieldName ++ " contains an unsafe raw path"))

def directory : Text := text "directory"
def nodeKinds : List Text := [text "file", directory, text "symlink"]

def validateNodeSemantics (fieldName : String) (kind : Text) (content : Bytes) (executable : Bool)
    (nlink : Int) (privilegeBits : Bool) (contentReason contentDetail : String) : Checked Unit := do
  rejectIf (privilegeBits = true)
    (reject "unsupported_privilege_bits" (fieldName ++ " has privilege bits"))
  rejectIf (kind = directory ∧ content ≠ []) (reject contentReason contentDetail)
  rejectIf (kind ≠ directory ∧ nlink ≠ 1)
    (reject "unsupported_hardlink" (fieldName ++ " has multiple links"))
  rejectIf (kind = text "symlink" ∧ executable = true)
    (reject "invalid_node_state" (fieldName ++ " symlink is executable"))

def validateNodeShape {ρ : Type} (node : Node ρ) (fieldName : String) : Checked Unit := do
  requireStr node.kind (fieldName ++ ".kind")
  rejectIf (node.kind ∉ nodeKinds) (reject "unsupported_kind" (fieldName ++ " kind is unsupported"))
  requireInt node.nlink (fieldName ++ ".nlink") 1
  validateNodeSemantics fieldName node.kind node.content node.executable node.nlink
    node.privilegeBits "invalid_node_state" (fieldName ++ " directory carries content")

def validateNode (node : NodeState) (fieldName : String) : Checked Unit := do
  validateLocation node.location (fieldName ++ ".location")
  validateIdentity node.reference (fieldName ++ ".identity")
  validateNodeShape node fieldName

def validateStorage (state : Storage NodeIdentity) (fieldName : String) : Checked Unit :=
  match state with
  | .node node => validateNode node fieldName
  | .absent absent => validateLocation absent.location (fieldName ++ ".location")

def requireAdministrativeFile {ρ : Type} (state : Storage ρ) (fieldName : String) : Checked Unit :=
  match state with
  | .node node =>
    rejectIf (node.kind ≠ text "file" ∨ node.executable = true ∨ node.nlink ≠ 1)
      (reject "invalid_node_state" (fieldName ++ " must be a regular non-executable file"))
  | .absent _ => .ok ()

def hexCharacters : Text := text "0123456789abcdef"

def validateOid (value objectFormat : Text) (fieldName : String) : Checked Unit := do
  requireStr value fieldName
  rejectIf (value.length ≠ (if objectFormat = text "sha1" then 40 else 64) ∨
      ∃ character ∈ value, character ∉ hexCharacters)
    (reject "invalid_object_id" (fieldName ++ " is not canonical"))

def validateSha256 (value : Text) (fieldName : String) : Checked Unit := do
  requireStr value fieldName
  let error := reject "invalid_digest" (fieldName ++ " is not canonical sha256")
  rejectIf (¬ text "sha256:" <+: value ∨ (value.drop 7).length ≠ 64) error
  rejectIf (∃ character ∈ value.drop 7, character ∉ hexCharacters) error

def validateIndexEntry (objectFormat : Text) (entry : IndexEntry) : Checked Unit := do
  rejectIf (isUnsafePath entry.rawPath = true) (reject "unsafe_path" "index entry path is unsafe")
  requireStr entry.mode "index.mode"
  requireStr entry.objectId "index.object_id"
  rejectIf (entry.stage ∉ [0, 1, 2, 3])
    (reject "invalid_index_stage" "index stage is outside stages 0 through 3")
  rejectIf (entry.mode ∉ [text "100644", text "100755", text "120000"])
    (reject "unsupported_index_mode" "index mode is unsupported")
  validateOid entry.objectId objectFormat "index.object_id"

def validateManifestEntry (entry : ManifestEntry) : Checked Unit := do
  rejectIf (isUnsafePath entry.rawPath = true) (reject "unsafe_path" "manifest path is unsafe")
  requireStr entry.kind "manifest.kind"
  rejectIf (entry.kind ∉ nodeKinds) (reject "unsupported_kind" "manifest kind is unsupported")
  requireInt entry.nlink "manifest.nlink" 1
  validateNodeSemantics "manifest" entry.kind entry.content entry.executable entry.nlink
    entry.privilegeBits "invalid_manifest" "directory manifest entry carries content"

def indexEntryKey (entry : IndexEntry) : Bytes ×ₗ Int := toLex (entry.rawPath, entry.stage)

def canonicalIndexEntries (entries : List IndexEntry) : List IndexEntry :=
  sortBy indexEntryKey entries

def manifestAt (manifest : List ManifestEntry) (path : Bytes) : Option ManifestEntry :=
  manifest.find? (·.rawPath = path)

def validateEntries (indexEntries : List IndexEntry) (manifest : List ManifestEntry)
    (objectFormat : Text) : Checked Unit := do
  eachFresh (fun entry => (entry.rawPath, entry.stage)) (validateIndexEntry objectFormat)
    (fun _ => reject "duplicate_index_entry" "index path and stage are duplicated")
    (fun _ => .ok ()) [] indexEntries
  rejectIf (∃ entry ∈ indexEntries, entry.stage = 0 ∧
      ∃ other ∈ indexEntries, other.rawPath = entry.rawPath ∧ other.stage ≠ 0)
    (reject "unmerged_index" "stage-zero entries cannot coexist with conflict stages")
  rejectIf (∃ entry ∈ indexEntries, ∃ other ∈ indexEntries, other.rawPath ≠ entry.rawPath ∧
      isDirectoryPrefix entry.rawPath other.rawPath = true)
    (reject "index_prefix_collision" "index paths have a prefix collision")
  eachFresh (·.rawPath) validateManifestEntry
    (fun _ => reject "duplicate_manifest_entry" "manifest path is duplicated")
    (fun _ => .ok ()) [] manifest
  rejectIf (∃ entry ∈ manifest, ∃ ancestor ∈ properAncestors entry.rawPath,
      ¬ (manifestAt manifest ancestor).any (·.kind = directory) = true)
    (reject "incomplete_topology" "every non-root manifest parent must be an explicit directory")

section Phases
variable {ρ : Type}

def requireUniqueStorageLocations (values : List (Storage ρ)) (fieldName : String) : Checked Unit :=
  eachFresh (·.location) (fun _ => .ok ())
    (fun _ => reject "duplicate_location" (fieldName ++ " location is duplicated"))
    (fun _ => .ok ()) [] values

def requireAdminNamespace (state : Storage ρ) (fieldName : String) : Checked Unit :=
  rejectIf (state.location.nameSpace ≠ text "admin")
    (reject "invalid_specification" (fieldName ++ " must use the admin namespace"))

def staticLocationRegistry (replica : Replica ρ) (phase : String) :
    Checked (List (Storage ρ × String)) := do
  let registrations := staticRegistrations replica
  eachAfter (fun seen row => match seen.find? (·.1.location = row.1.location) with
    | some prior => .error (reject "duplicate_location"
        ("one " ++ phase ++ " location holds the " ++ prior.2 ++ " and " ++ row.2 ++ " fields"))
    | none => .ok ()) [] registrations
  pure registrations

def decodeAscii (content : Bytes) : Option Text :=
  if ∀ byte ∈ content, byte.toNat < 128 then some (content.map UInt8.toNat) else none

def selectedOid (refs : Refs ρ) (objectFormat : Text) (fieldName : String) :
    Checked (Option Text) :=
  match refs.looseRef with
  | .node node => do
      let looseOid ← orRaise (reject "invalid_ref_semantics"
        (fieldName ++ " selected loose ref is not ASCII")) (decodeAscii node.content)
      validateOid looseOid objectFormat (fieldName ++ ".refs.loose_ref")
      pure (some looseOid)
  | .absent _ => pure refs.packedFallbackOid

def validateRefSemantics (refs : Refs ρ) (objectFormat : Text) (fieldName : String) :
    Checked Unit := do
  rejectIf (refs.headBinding ≠ bytes "symbolic:" ++ refs.selectedRef ∨
      refs.head.content ≠ refs.headBinding ∨
      refs.looseRef.location.nameSpace ≠ text "admin" ∨
      refs.looseRef.location.rawPath ≠ refs.selectedRef)
    (reject "invalid_ref_semantics" (fieldName ++ " selected-ref binding is inconsistent"))
  let expectedOid ← selectedOid refs objectFormat fieldName
  rejectIf (refs.resolvedOid ≠ expectedOid)
    (reject "invalid_ref_semantics"
      (fieldName ++ " resolved OID differs from selected physical source"))

def validateOptionalOid (value : Option Text) (objectFormat : Text) (fieldName : String) :
    Checked Unit :=
  match value with
  | some oid => validateOid oid objectFormat fieldName
  | none => .ok ()

def nodeSemantic (node : Node ρ) : Text × Bytes × Bool × Int × Bool :=
  (node.kind, node.content, node.executable, node.nlink, node.privilegeBits)

def entrySemantic (entry : ManifestEntry) : Text × Bytes × Bool × Int × Bool :=
  (entry.kind, entry.content, entry.executable, entry.nlink, entry.privilegeBits)

def workingNodeAt (nodes : List (Node ρ)) (path : Bytes) : Option (Node ρ) :=
  nodes.find? (·.location.rawPath = path)

def validateWorkingNodes (check : Node ρ → Checked Unit)
    (wrongNamespace duplicated incomplete mismatch : String) (replica : Replica ρ) :
    Checked Unit := do
  eachFresh (·.location.rawPath)
    (fun node => do
      check node
      rejectIf (node.location.nameSpace ≠ text "working")
        (reject "invalid_specification" wrongNamespace))
    (fun _ => reject "duplicate_location" duplicated) (fun _ => .ok ()) [] replica.workingNodes
  rejectIf ((∃ node ∈ replica.workingNodes,
        node.location.rawPath ∉ replica.manifest.map (·.rawPath)) ∨
      ∃ entry ∈ replica.manifest, entry.rawPath ∉ replica.workingNodes.map (·.location.rawPath))
    (reject "incomplete_topology" incomplete)
  each (fun entry => do
    let node ← orRaise .keyError (workingNodeAt replica.workingNodes entry.rawPath)
    rejectIf (nodeSemantic node ≠ entrySemantic entry) (reject "manifest_node_mismatch" mismatch))
    replica.manifest

end Phases

def validateRefState (refs : Refs NodeIdentity) (objectFormat : Text) (fieldName : String) :
    Checked Unit := do
  validateOptionalOid refs.resolvedOid objectFormat "refs.resolved_oid"
  validateOptionalOid refs.packedFallbackOid objectFormat "refs.packed_fallback_oid"
  validateNode refs.head (fieldName ++ ".refs.head")
  validateStorage refs.looseRef (fieldName ++ ".refs.loose_ref")
  validateStorage refs.packedRefs (fieldName ++ ".refs.packed_refs")
  each (validateStorage · (fieldName ++ ".refs.reflogs")) refs.reflogs
  each (validateStorage · (fieldName ++ ".refs.unrelated_metadata")) refs.unrelatedMetadata
  validateRefSemantics refs objectFormat fieldName

def validateReplica (replica : ReplicaState) (objectFormat : Text) (fieldName : String) :
    Checked Unit := do
  requireInt replica.generation (fieldName ++ ".generation")
  requireInt replica.replicaGeneration (fieldName ++ ".replica_generation")
  validateStorage replica.index.storage (fieldName ++ ".index.storage")
  rejectIf (replica.index.sparseIndex = true)
    (reject "sparse_index_unsupported" "sparse index is unsupported")
  validateEntries replica.index.entries replica.manifest objectFormat
  rejectIf (replica.index.storage.node? = none ∧ replica.index.entries ≠ [])
    (reject "invalid_index_semantics" (fieldName ++ " absent index storage cannot retain entries"))
  validateRefState replica.refs objectFormat fieldName
  requireUniqueStorageLocations ((administrativeRegistrations replica).map Prod.fst)
    (fieldName ++ ".administrative_storage")
  each (fun row => requireAdminNamespace row.1 (fieldName ++ "." ++ row.2))
    (administrativeRegistrations replica)
  validateWorkingNodes (validateNode · (fieldName ++ ".working_node"))
    "working node has wrong namespace" "working location is duplicated"
    "manifest and working nodes differ" "manifest and node semantics differ" replica

def slotAt (slots : List PreparationSlot) (slotId : Text) : Option PreparationSlot :=
  slots.find? (·.slotId = slotId)

def validateParentBinding (binding : ParentBinding) (fieldName : String)
    (slots : List PreparationSlot) (requireExisting : Bool := false) : Checked Unit := do
  validateLocation binding.location (fieldName ++ ".location")
  match binding.reference, requireExisting with
  | .existing identity, _ => validateIdentity identity (fieldName ++ ".identity")
  | .prepared slotId, false => do
      requireStr slotId (fieldName ++ ".slot_id")
      rejectIf (slotAt slots slotId = none)
        (reject "missing_preparation_slot" (fieldName ++ " prepared parent is unknown"))
  | .prepared _, true =>
    .error (reject "invalid_input_type" (fieldName ++ " reference type is invalid"))

def parentFilesystem (slots : List PreparationSlot) (binding : ParentBinding) : Checked Text :=
  match binding.reference with
  | .existing identity => pure identity.filesystemId
  | .prepared slotId => do
      let slot ← orRaise .keyError (slotAt slots slotId)
      match slot.materializationParent.reference with
      | .existing identity => pure identity.filesystemId
      | .prepared _ => .error (reject "invalid_specification"
          "a preparation materialization parent must already exist")

def namespaceRoot (boundaries : List Boundary) (space : Text) : Option Location :=
  (boundaries.find? (·.location.nameSpace = space)).map (·.location)

def namespaceFilesystem (boundaries : List Boundary) (space : Text) : Option Text :=
  (boundaries.find? (·.location.nameSpace = space)).map (·.identity.filesystemId)

def parentLocation (boundaries : List Boundary) (entry : Location) : Option Location :=
  match parentPath entry.rawPath with
  | some head => some ⟨entry.nameSpace, head⟩
  | none => namespaceRoot boundaries entry.nameSpace

def expectedParentLocation (boundaries : List Boundary) (entry : Location) : Checked Location :=
  orRaise (reject "incomplete_topology" "entry namespace has no protected root boundary")
    (parentLocation boundaries entry)

def requireImmediateParent (boundaries : List Boundary) (parent : ParentBinding) (entry : Location)
    (fieldName : String) : Checked Unit := do
  let expected ← expectedParentLocation boundaries entry
  rejectIf (parent.location ≠ expected) (reject "invalid_specification"
    (fieldName ++ " must be the immediate entry-owning directory"))

def parentBindingKey (binding : ParentBinding) : (Text ×ₗ Bytes) ×ₗ Text ×ₗ Text ×ₗ Text :=
  match binding.reference with
  | .existing identity => toLex (binding.location.key, toLex (text "existing",
      toLex (identity.filesystemId, identity.nodeId)))
  | .prepared slotId => toLex (binding.location.key, toLex (text "prepared",
      toLex (slotId, [])))

def ParentBinding.isExisting (binding : ParentBinding) : Bool :=
  match binding.reference with
  | .existing _ => true
  | .prepared _ => false

def checkParentBinding (seen : List ParentBinding) (binding : ParentBinding) : Checked Unit := do
  rejectIf (∃ prior ∈ seen, prior.location = binding.location ∧ prior ≠ binding)
    (reject "ambiguous_node_identity" "one parent location has conflicting identities")
  checkWhen (binding.isExisting = true) (rejectIf
    (∃ prior ∈ seen, prior.reference = binding.reference ∧ prior.location ≠ binding.location)
    (reject "ambiguous_node_identity" "one parent identity has conflicting locations"))

def collectedParentBindings (spec : ReconciliationSpec) : List ParentBinding :=
  spec.ownershipMarkers.map (·.parent) ++ spec.destinationObjects.map (·.parent) ++
  spec.preparationSlots.flatMap (fun slot =>
    slot.materializationParent :: [slot.installationParent].filter (·.isExisting)) ++
  spec.quarantineSlots.flatMap (fun slot =>
    [slot.sourceParent, slot.destinationParent] ++
      slot.restorationParent.toList.filter (·.isExisting))

def initialParentBindings (spec : ReconciliationSpec) : Checked (List ParentBinding) := do
  let bindings := collectedParentBindings spec
  eachAfter checkParentBinding [] bindings
  pure (sortBy parentBindingKey bindings.dedup)

def collectBaselineNodes (replica : ReplicaState) : Checked (List NodeState) := do
  let nodes := (staticStorage replica).filterMap Storage.node?
  eachAfter (fun seen node => rejectIf (∃ prior ∈ seen, prior.reference = node.reference ∧ prior ≠ node)
    (reject "ambiguous_node_identity" "one node identity has two states")) [] nodes
  pure nodes

def baselineNodeAt (nodes : List NodeState) (identity : NodeIdentity) : Option NodeState :=
  nodes.find? (·.reference = identity)

def validateDesiredReference (node : DesiredNodeState) (fieldName : String)
    (baselineNodes : List NodeState) (slots : List PreparationSlot) (boundaries : List Boundary) :
    Checked Unit :=
  match node.reference with
  | .existing identity => do
      validateIdentity identity (fieldName ++ ".reference")
      let baseline ← orRaise (reject "unexplained_desired_node" "desired existing node is unknown")
        (baselineNodeAt baselineNodes identity)
      rejectIf (node.location ≠ baseline.location ∨ nodeSemantic node ≠ nodeSemantic baseline)
        (reject "unexplained_desired_node" "existing node was changed in place")
  | .prepared slotId => do
      requireStr slotId (fieldName ++ ".slot_id")
      let slot ← orRaise (reject "missing_preparation_slot" "desired prepared slot is unknown")
        (slotAt slots slotId)
      let destination := namespaceFilesystem boundaries node.location.nameSpace
      let error := reject "cross_filesystem_transition" "prepared install crosses filesystems"
      let materialization ← parentFilesystem slots slot.materializationParent
      rejectIf (some materialization ≠ destination) error
      let installation ← parentFilesystem slots slot.installationParent
      rejectIf (some installation ≠ destination) error

def validateDesiredNode (baselineNodes : List NodeState) (slots : List PreparationSlot)
    (boundaries : List Boundary) (node : DesiredNodeState) (fieldName : String) :
    Checked Unit := do
  validateLocation node.location (fieldName ++ ".location")
  validateNodeShape node fieldName
  validateDesiredReference node fieldName baselineNodes slots boundaries

def validateDesiredStorage (baselineNodes : List NodeState) (slots : List PreparationSlot)
    (boundaries : List Boundary) (state : Storage NodeReference) (fieldName : String) :
    Checked Unit :=
  match state with
  | .absent absent => validateLocation absent.location (fieldName ++ ".location")
  | .node node => validateDesiredNode baselineNodes slots boundaries node fieldName

def validateDesired (desired : DesiredReplicaState) (objectFormat : Text)
    (baselineNodes : List NodeState) (slots : List PreparationSlot) (boundaries : List Boundary) :
    Checked Unit := do
  requireInt desired.generation "desired.generation"
  requireInt desired.replicaGeneration "desired.replica_generation"
  rejectIf (desired.index.sparseIndex = true)
    (reject "sparse_index_unsupported" "sparse index is unsupported")
  validateEntries desired.index.entries desired.manifest objectFormat
  rejectIf (desired.index.storage.node? = none ∧ desired.index.entries ≠ [])
    (reject "invalid_index_semantics" "desired absent index storage cannot retain entries")
  validateDesiredStorage baselineNodes slots boundaries desired.index.storage "desired.index.storage"
  validateOptionalOid desired.refs.resolvedOid objectFormat "desired.refs.resolved_oid"
  validateOptionalOid desired.refs.packedFallbackOid objectFormat "desired.refs.packed_fallback_oid"
  validateDesiredNode baselineNodes slots boundaries desired.refs.head "desired.refs.head"
  validateDesiredStorage baselineNodes slots boundaries desired.refs.looseRef "desired.refs.loose_ref"
  validateDesiredStorage baselineNodes slots boundaries desired.refs.packedRefs
    "desired.refs.packed_refs"
  each (validateDesiredStorage baselineNodes slots boundaries · "desired.refs.reflogs")
    desired.refs.reflogs
  each (validateDesiredStorage baselineNodes slots boundaries · "desired.refs.unrelated_metadata")
    desired.refs.unrelatedMetadata
  requireUniqueStorageLocations ((administrativeRegistrations desired).map Prod.fst)
    "desired.administrative_storage"
  each (fun row => requireAdminNamespace row.1 ("desired." ++ row.2))
    (administrativeRegistrations desired)
  validateRefSemantics desired.refs objectFormat "desired"
  validateWorkingNodes (validateDesiredNode baselineNodes slots boundaries · "desired.working_node")
    "desired working node has wrong namespace" "desired working location is duplicated"
    "desired manifest and working nodes differ" "desired manifest and nodes differ" desired

end Yinshi.Reconcile
