import Yinshi.Reconcile.Run

/-! What each transition of a plan does to an image. The lookups of the source find
the slot, marker or node the transition was compiled for, so the new image is
given by a new replica, a few writes to auxiliary storage and new parents. -/

namespace Yinshi.Reconcile
open ByteText Keyed Checked Artifact Ranked List Option

def ExpectedObservation.replica (image : ExpectedObservation) : DesiredReplicaState :=
  ensureDesiredReplica image.replicaState

def writeStorage (states : List ExpectedStorage) (state : ExpectedStorage) : List ExpectedStorage :=
  sortBy (·.location.key) (setStorage states state.location state)

def writeAll (states writes : List ExpectedStorage) : List ExpectedStorage :=
  writes.foldl writeStorage states

/-- The replica with the link count of the working directory at `parent` adjusted. -/
def adjustReplica (replica : DesiredReplicaState) (parent : Location) (delta : Int) :
    DesiredReplicaState :=
  match replica.workingNodes.find? (·.location = parent) with
  | none => replica
  | some node => { replica with
      manifest := replica.manifest.map fun entry =>
        if entry.rawPath = parent.rawPath then { entry with nlink := node.nlink + delta } else entry
      workingNodes := replica.workingNodes.map fun other =>
        if other.location = parent then { node with nlink := node.nlink + delta } else other }

structure Adjustable (replica : DesiredReplicaState) (parent : Location) (delta : Int) : Prop where
  single : (replica.workingNodes.filter (·.location = parent)).length ≤ 1
  directory : ∀ node ∈ replica.workingNodes, node.location = parent → node.kind = directory
  links : ∀ node ∈ replica.workingNodes, node.location = parent → 2 ≤ node.nlink + delta

theorem adjustWorkingParentNlink_eq_ok {image result : ExpectedObservation} {parent : Location}
    {delta : Int} :
    adjustWorkingParentNlink image parent delta = .ok result ↔
    Adjustable image.replica parent delta ∧
    ∃ state, result = { image with replicaState := state } ∧
      ensureDesiredReplica state = adjustReplica image.replica parent delta ∧
      (image.replica.workingNodes.find? (·.location = parent) = none → state = image.replicaState) ∧
      (image.replica.workingNodes.find? (·.location = parent) ≠ none →
        state = .desired (adjustReplica image.replica parent delta)) := by
  have filtered : ∀ node, node ∈ image.replica.workingNodes.filter (·.location = parent) ↔
      node ∈ image.replica.workingNodes ∧ node.location = parent := by simp
  have head : image.replica.workingNodes.find? (·.location = parent) =
      (image.replica.workingNodes.filter (·.location = parent)).head? :=
    (head?_filter).symm
  have own : ensureDesiredReplica image.replicaState = image.replica := rfl
  simp only [adjustWorkingParentNlink, own]
  cases hs : image.replica.workingNodes.filter (·.location = parent) with
  | nil =>
    rw [hs] at filtered head
    have hu : adjustReplica image.replica parent delta = image.replica := by
      rw [adjustReplica, head]
      rfl
    simp only [pure_eq_ok]
    constructor
    · rintro rfl
      refine ⟨⟨by simp [hs], ?_, ?_⟩, image.replicaState, rfl, hu.symm, fun _ => rfl, ?_⟩
      · exact fun node hm place => by cases (filtered node).mpr ⟨hm, place⟩
      · exact fun node hm place => by cases (filtered node).mpr ⟨hm, place⟩
      · exact fun some => absurd head some
    · rintro ⟨-, state, rfl, -, hk, -⟩
      rw [hk head]
  | cons node others =>
    rw [hs] at filtered head
    have hf : image.replica.workingNodes.find? (·.location = parent) ≠ none := by simp [head]
    cases others with
    | cons other _ =>
      simp only [reduceCtorEq, false_iff]
      rintro ⟨⟨single, -, -⟩, -⟩
      simp [hs] at single
    | nil =>
      have members : ∀ other ∈ image.replica.workingNodes, other.location = parent → other = node := by
        intro other hm place
        simpa using (filtered other).mpr ⟨hm, place⟩
      have hp := (filtered node).mp (by simp)
      have adjusted : adjustReplica image.replica parent delta = { image.replica with
          manifest := image.replica.manifest.map fun entry =>
            if entry.rawPath = parent.rawPath then { entry with nlink := node.nlink + delta }
            else entry
          workingNodes := image.replica.workingNodes.map fun other =>
            if other.location = parent then { node with nlink := node.nlink + delta }
            else other } := by
        rw [adjustReplica, head]
        rfl
      simp only [steps_ok, not_not, not_lt]
      constructor
      · rintro ⟨isDirectory, links, rfl⟩
        refine ⟨⟨by simp [hs], ?_, ?_⟩, _, rfl, adjusted.symm, fun none => absurd none hf,
          fun _ => by rw [adjusted]⟩
        · intro other hm place
          rw [members other hm place]
          exact isDirectory
        · intro other hm place
          rw [members other hm place]
          exact links
      · rintro ⟨⟨-, isDirectory, links⟩, _, rfl, -, -, hc⟩
        refine ⟨isDirectory node hp.1 hp.2, links node hp.1 hp.2, ?_⟩
        rw [hc hf, adjusted]

structure Change (pre post : ExpectedObservation) (replica : DesiredReplicaState)
    (writes : List ExpectedStorage) (parents : List ParentBinding) : Prop where
  identity : post.identity = pre.identity
  boundaries : post.boundaries = pre.boundaries
  replica : post.replica = replica
  storage : post.storage = writeAll pre.storage writes
  parents : post.parents = parents

def removedParents (parents : List ParentBinding) (reference : NodeReference) : List ParentBinding :=
  sortBy parentBindingKey (parents.filter (·.reference ≠ reference))

def addedParents (parents : List ParentBinding) (added : ParentBinding) : List ParentBinding :=
  sortBy parentBindingKey (if added ∈ parents then parents else parents ++ [added])

/-- The replica after its node at the source of `slot` has left. -/
def quarantinedReplica (replica : DesiredReplicaState) (kind : EffectKind) (slot : QuarantineSlot)
    (source : DesiredNodeState) : DesiredReplicaState :=
  if source.kind = directory then
    adjustReplica (withoutSource replica kind slot.source) slot.sourceParent.location (-1)
  else withoutSource replica kind slot.source

def quarantinedParents (parents : List ParentBinding) (source : DesiredNodeState) :
    List ParentBinding :=
  if source.kind = directory then removedParents parents source.reference else parents

def withWorkingNode (replica : DesiredReplicaState) (node : DesiredNodeState)
    (entry : ManifestEntry) : DesiredReplicaState :=
  { replica with
    manifest := sortManifest (replica.manifest ++ [entry])
    workingNodes := sortNodes (replica.workingNodes ++ [node]) }

/-- The replica after a working node has arrived below `parent`. -/
def placedReplica (replica : DesiredReplicaState) (node : DesiredNodeState) (entry : ManifestEntry)
    (parent : Location) : DesiredReplicaState :=
  if node.kind = directory then adjustReplica (withWorkingNode replica node entry) parent 1
  else withWorkingNode replica node entry

def placedParents (parents : List ParentBinding) (node : DesiredNodeState) : List ParentBinding :=
  if node.kind = directory then addedParents parents ⟨node.location, node.reference⟩ else parents

/-- When a working node can arrive below `parent`. -/
structure Placeable (pre : ExpectedObservation) (node : DesiredNodeState) (entry : ManifestEntry)
    (parent : Location) : Prop where
  adjustable : Adjustable (withWorkingNode pre.replica node entry) parent 1
  unbound : ¬ (⟨node.location, node.reference⟩ ∉ pre.parents ∧
    ∃ other ∈ pre.parents, other.location = node.location)

def freshNode (node : DesiredNodeState) : DesiredNodeState :=
  if node.kind = directory then { node with nlink := 2 } else node

def freshEntry (node : DesiredNodeState) (entry : ManifestEntry) : ManifestEntry :=
  if node.kind = directory then { entry with nlink := 2 } else entry

def markerContent (bound : BoundSpecification) (marker : OwnershipMarkerSpec) : Bytes :=
  marker.payloadPrefix ++ [0] ++ bytes "fingerprint=" ++ bound.fingerprint.map UInt8.ofNat

def slotNode (slot : PreparationSlot) (location : Location) (nlink : Int) : DesiredNodeState :=
  preparedNode location slot.slotId slot.desiredKind slot.desiredContent slot.executable nlink

def materializedNode (slot : PreparationSlot) : DesiredNodeState :=
  slotNode slot slot.destination (if slot.desiredKind = directory then 2 else 1)

def markerNode (bound : BoundSpecification) (marker : OwnershipMarkerSpec) : DesiredNodeState :=
  preparedNode marker.destination marker.slotId (text "file") (markerContent bound marker)
    marker.executable 1

def DescribedBy (spec : ReconciliationSpec) (node : DesiredNodeState) (entry : ManifestEntry) : Prop :=
  entry ∈ spec.desired.manifest ∧ entry.rawPath = node.location.rawPath

inductive Effect (bound : BoundSpecification) (pre post : ExpectedObservation) :
    TransitionStep → Prop
  | control {step : TransitionStep} (listed : step ∈ controlSteps)
      (unpublished : step.effectKind ≠ .publishGeneration)
      (working : step.effectKind = .acknowledgeWorkingInstall →
        pre.replica.manifest = bound.spec.desired.manifest ∧
        pre.replica.workingNodes = bound.spec.desired.workingNodes)
      (index : step.effectKind = .acknowledgeIndex → pre.replica.index = bound.spec.desired.index)
      (metadata : step.effectKind = .acknowledgeMetadata →
        pre.replica.refs = bound.spec.desired.refs)
      (change : Change pre post pre.replica [] pre.parents) : Effect bound pre post step
  | publish (change : Change pre post
        { pre.replica with generation := bound.spec.desired.generation } [] pre.parents) :
      Effect bound pre post (brokerStep 13 .publishGeneration)
  | create (marker : OwnershipMarkerSpec) (member : marker ∈ bound.spec.ownershipMarkers)
      (change : Change pre post pre.replica [.desired (markerNode bound marker)] pre.parents) :
      Effect bound pre post (createStep marker)
  | exclusion (marker : OwnershipMarkerSpec) (member : marker ∈ bound.spec.ownershipMarkers)
      (change : Change pre post pre.replica [] pre.parents) :
      Effect bound pre post (exclusionStep marker)
  | removal (marker : OwnershipMarkerSpec) (member : marker ∈ bound.spec.ownershipMarkers)
      (change : Change pre post pre.replica [.absent ⟨marker.destination⟩] pre.parents) :
      Effect bound pre post (markerRemovalStep marker)
  | materialization (slot : PreparationSlot) (member : slot ∈ bound.spec.preparationSlots)
      (change : Change pre post pre.replica [.desired (materializedNode slot)] pre.parents) :
      Effect bound pre post (materializationStep slot)
  | promotion (item : RequiredObject) (missing : item ∈ missingObjects bound.spec)
      (slot : PreparationSlot) (member : slot ∈ bound.spec.preparationSlots)
      (source : slot.slotId = item.sourceSlotId)
      (change : Change pre post pre.replica [.absent ⟨slot.destination⟩,
        .desired (slotNode slot (objectLocation item.objectId) 1)] pre.parents) :
      Effect bound pre post
        (slotStep 7 .promoteRequiredObject (text "content:" ++ item.objectId) slot)
  | quarantineWorking (slot : QuarantineSlot) (node : NodeState)
      (member : node ∈ bound.spec.baseline.workingNodes)
      (listed : slot ∈ workingQuarantines bound.spec)
      (identity : node.reference = slot.sourceIdentity) (source : DesiredNodeState)
      (found : currentExistingState pre slot.source slot.sourceIdentity = .ok source)
      (adjustable : source.kind = directory → Adjustable
        (withoutSource pre.replica .quarantineWorkingNode slot.source) slot.sourceParent.location (-1))
      (change : Change pre post (quarantinedReplica pre.replica .quarantineWorkingNode slot source)
        [.desired { source with location := slot.destination }]
        (quarantinedParents pre.parents source)) :
      Effect bound pre post (quarantineStep 8 .quarantineWorkingNode slot)
  | installWorking (node : DesiredNodeState) (member : node ∈ bound.spec.desired.workingNodes)
      (slot : PreparationSlot) (prepares : Prepares bound.spec slot node) (entry : ManifestEntry)
      (described : DescribedBy bound.spec node entry)
      (placeable : node.kind = directory → Placeable pre (freshNode node) (freshEntry node entry)
        slot.installationParent.location)
      (change : Change pre post (placedReplica pre.replica (freshNode node) (freshEntry node entry)
        slot.installationParent.location) [.absent ⟨slot.destination⟩]
        (placedParents pre.parents node)) :
      Effect bound pre post (slotStep 9 .installWorkingNode (text "node:" ++ slot.slotId) slot)
  | restoreWorking (node : DesiredNodeState) (member : node ∈ bound.spec.desired.workingNodes)
      (slot : QuarantineSlot) (listed : slot ∈ workingQuarantines bound.spec)
      (identity : node.reference = .existing slot.sourceIdentity) (parent : ParentBinding)
      (restoration : slot.restorationParent = some parent) (stored : DesiredNodeState)
      (found : currentExistingState pre slot.destination slot.sourceIdentity = .ok stored)
      (entry : ManifestEntry) (described : DescribedBy bound.spec node entry)
      (placeable : node.kind = directory → Placeable pre { node with nlink := stored.nlink }
        { entry with nlink := stored.nlink } parent.location)
      (change : Change pre post (placedReplica pre.replica { node with nlink := stored.nlink }
        { entry with nlink := stored.nlink } parent.location) [.absent ⟨slot.destination⟩]
        (placedParents pre.parents node)) :
      Effect bound pre post (restoreStep slot parent)
  | quarantineIndex (node : NodeState) (slot : QuarantineSlot)
      (storage : bound.spec.baseline.index.storage = .node node)
      (quarantines : Quarantines bound.spec slot node) (source : DesiredNodeState)
      (found : currentExistingState pre slot.source slot.sourceIdentity = .ok source)
      (change : Change pre post (quarantinedReplica pre.replica .quarantineIndex slot source)
        [.desired { source with location := slot.destination }]
        (quarantinedParents pre.parents source)) :
      Effect bound pre post (quarantineStep 10 .quarantineIndex slot)
  | installIndex (node : DesiredNodeState) (slot : PreparationSlot)
      (storage : bound.spec.desired.index.storage = .node node)
      (prepares : Prepares bound.spec slot node)
      (change : Change pre post { pre.replica with index := bound.spec.desired.index }
        [.absent ⟨slot.destination⟩] pre.parents) :
      Effect bound pre post (slotStep 10 .installIndex (text "node:" ++ slot.slotId) slot)
  | finalizeIndex (node : NodeState) (slot : QuarantineSlot)
      (storage : bound.spec.baseline.index.storage = .node node)
      (quarantines : Quarantines bound.spec slot node)
      (absent : bound.spec.desired.index.storage.node? = none)
      (change : Change pre post { pre.replica with index := bound.spec.desired.index } []
        pre.parents) :
      Effect bound pre post ⟨10, .broker, .finalizeIndexAbsence, [],
        distinctParents [slot.sourceParent], none, none⟩
  | quarantineReflog (node : NodeState) (slot : QuarantineSlot)
      (member : .node node ∈ bound.spec.baseline.refs.reflogs)
      (quarantines : Quarantines bound.spec slot node) (source : DesiredNodeState)
      (found : currentExistingState pre slot.source slot.sourceIdentity = .ok source)
      (change : Change pre post (quarantinedReplica pre.replica .quarantineReflog slot source)
        [.desired { source with location := slot.destination }]
        (quarantinedParents pre.parents source)) :
      Effect bound pre post (quarantineStep 11 .quarantineReflog slot)
  | installReflog (node : DesiredNodeState) (slot : PreparationSlot)
      (member : .node node ∈ bound.spec.desired.refs.reflogs)
      (prepares : Prepares bound.spec slot node)
      (change : Change pre post { pre.replica with refs := { pre.replica.refs with
        reflogs := sortStorage (pre.replica.refs.reflogs.filter (·.location ≠ node.location) ++
          [.node node]) } } [.absent ⟨slot.destination⟩] pre.parents) :
      Effect bound pre post (slotStep 11 .installReflog (text "node:" ++ slot.slotId) slot)
  | quarantineSelected (node : NodeState) (slot : QuarantineSlot)
      (storage : bound.spec.baseline.refs.looseRef = .node node)
      (quarantines : Quarantines bound.spec slot node) (source : DesiredNodeState)
      (found : currentExistingState pre slot.source slot.sourceIdentity = .ok source)
      (change : Change pre post (quarantinedReplica pre.replica .quarantineSelectedRef slot source)
        [.desired { source with location := slot.destination }]
        (quarantinedParents pre.parents source)) :
      Effect bound pre post (quarantineStep 11 .quarantineSelectedRef slot)
  | installSelected (node : DesiredNodeState) (slot : PreparationSlot)
      (storage : bound.spec.desired.refs.looseRef = .node node)
      (prepares : Prepares bound.spec slot node)
      (change : Change pre post { pre.replica with refs := { pre.replica.refs with
        resolvedOid := bound.spec.desired.refs.resolvedOid
        looseRef := bound.spec.desired.refs.looseRef } } [.absent ⟨slot.destination⟩] pre.parents) :
      Effect bound pre post (slotStep 11 .installSelectedRef (text "node:" ++ slot.slotId) slot)
  | selectPacked (absent : bound.spec.desired.refs.looseRef.node? = none)
      (changed : bound.spec.desired.refs.looseRef ≠
        desiredStorageFromConcrete bound.spec.baseline.refs.looseRef)
      (change : Change pre post { pre.replica with refs := { pre.replica.refs with
        resolvedOid := pre.replica.refs.packedFallbackOid } } [] pre.parents) :
      Effect bound pre post (applicationStep 11 .selectPackedFallback)

theorem mem_desiredNodes_working {spec : ReconciliationSpec} {node : DesiredNodeState}
    (hm : node ∈ spec.desired.workingNodes) : node ∈ desiredNodes spec.desired := by
  simp [desiredNodes, hm]

theorem mem_desiredNodes_reflog {spec : ReconciliationSpec} {node : DesiredNodeState}
    (hm : .node node ∈ spec.desired.refs.reflogs) : node ∈ desiredNodes spec.desired := by
  simp only [desiredNodes, mem_append, mem_filterMap]
  exact .inr ⟨.node node, .inl hm, rfl⟩

section Lookups
variable {H : Hashes} {spec : ReconciliationSpec} (valid : ValidSpec H spec)
include valid

theorem ValidSpec.markerAt_member {marker : OwnershipMarkerSpec}
    (hm : marker ∈ spec.ownershipMarkers) : markerAt spec (some marker.slotId) = .ok marker := by
  have hf := (find?_eq_some_iff (fun marker : OwnershipMarkerSpec => marker.slotId)
        valid.markerIds).mpr ⟨hm, rfl⟩
  simp only [markerAt, some.injEq, hf, orRaise]

theorem ValidSpec.preparationAt_member {slot : PreparationSlot}
    (hm : slot ∈ spec.preparationSlots) : preparationAt spec (some slot.slotId) = .ok slot := by
  have hf := (find?_eq_some_iff (fun slot : PreparationSlot => slot.slotId) valid.slotIds).mpr ⟨hm, rfl⟩
  simp only [preparationAt, some.injEq, hf, orRaise]

theorem ValidSpec.quarantineFor_member {slot : QuarantineSlot}
    (hm : slot ∈ spec.quarantineSlots) : quarantineFor spec (some slot.slotId) = .ok slot := by
  have hf := (find?_eq_some_iff (fun slot : QuarantineSlot => slot.slotId) valid.quarantineIds).mpr ⟨hm, rfl⟩
  simp only [quarantineFor, some.injEq, hf, orRaise]

theorem ValidSpec.prepared_unique {first second : DesiredNodeState} {slotId : Text}
    (hf : first ∈ desiredNodes spec.desired) (hs : second ∈ desiredNodes spec.desired)
    (rf : first.reference = .prepared slotId) (rs : second.reference = .prepared slotId) :
    first = second := by
  obtain ⟨-, -, hd, -⟩ := validateSlotConsumers_eq_ok.mp valid.consumers
  have rows : ∀ {node : DesiredNodeState}, node ∈ desiredNodes spec.desired →
      node.reference = .prepared slotId → (node, slotId) ∈ preparedNodes spec.desired := by
    intro node hm reference
    exact mem_filterMap.mpr ⟨node, hm, by rw [reference]⟩
  have same := key_inj_of_nodup (nodup_append'.mp hd).1 (rows hf rf) (rows hs rs) rfl
  exact (Prod.mk.inj same).1

end Lookups

section Effects
variable {H : Hashes} {bound : BoundSpecification} {pre image post : ExpectedObservation}
variable {slot : PreparationSlot} {spec : ReconciliationSpec} {node : DesiredNodeState}

structure SameBut (pre image : ExpectedObservation) : Prop where
  identity : image.identity = pre.identity
  boundaries : image.boundaries = pre.boundaries
  replicaState : image.replicaState = pre.replicaState
  storage : image.storage = pre.storage
  parents : image.parents = pre.parents

theorem SameBut.replica (hs : SameBut pre image) : image.replica = pre.replica := by
  rw [ExpectedObservation.replica, hs.replicaState]
  rfl

theorem SameBut.current (hs : SameBut pre image) (location : Location) (identity : NodeIdentity) :
    currentExistingState image location identity = currentExistingState pre location identity := by
  rw [currentExistingState, currentExistingState, hs.replicaState, hs.storage]

theorem SameBut.unchanged (hs : SameBut pre image) : Change pre image pre.replica [] pre.parents :=
  ⟨hs.identity, hs.boundaries, hs.replica, hs.storage, hs.parents⟩

theorem advanceImage_control {step : TransitionStep} {payload : Option Bytes}
    (hl : step ∈ controlSteps) (unpublished : step.effectKind ≠ .publishGeneration)
    (advanced :
      advanceImage image bound.spec step.effectKind payload step.preparedSlotId = .ok post) :
    post = image ∧
    (step.effectKind = .acknowledgeWorkingInstall →
      image.replica.manifest = bound.spec.desired.manifest ∧
      image.replica.workingNodes = bound.spec.desired.workingNodes) ∧
    (step.effectKind = .acknowledgeIndex → image.replica.index = bound.spec.desired.index) ∧
    (step.effectKind = .acknowledgeMetadata → image.replica.refs = bound.spec.desired.refs) := by
  simp only [controlSteps, mem_cons, not_mem_nil, or_false] at hl
  rcases hl with rfl | rfl | rfl | rfl | rfl | rfl | rfl | rfl | rfl | rfl | rfl | rfl | rfl |
    rfl | rfl | rfl | rfl | rfl | rfl | rfl | rfl | rfl | rfl
  all_goals
    simp only [applicationStep, brokerStep, advanceImage, acknowledge, steps_ok,
        not_not] at advanced unpublished ⊢
  all_goals first
    | exact absurd rfl unpublished
    | (subst advanced; simp)
    | (obtain ⟨ha, rfl⟩ := advanced; simpa [ExpectedObservation.replica] using ha)

theorem quarantine_effect {kind : EffectKind} {slot : QuarantineSlot} (hv : ValidSpec H bound.spec)
    (hm : slot ∈ bound.spec.quarantineSlots) (hs : SameBut pre image)
    (ha : quarantine image bound.spec kind (some slot.slotId) = .ok post) :
    ∃ source, currentExistingState pre slot.source slot.sourceIdentity = .ok source ∧
      (source.kind = directory →
        Adjustable (withoutSource pre.replica kind slot.source) slot.sourceParent.location (-1)) ∧
      Change pre post (quarantinedReplica pre.replica kind slot source)
        [.desired { source with location := slot.destination }]
        (quarantinedParents pre.parents source) := by
  simp only [quarantine, hv.quarantineFor_member hm, bind_eq_ok, Except.ok.injEq, exists_eq_left',
    hs.current] at ha
  obtain ⟨source, hf, ha⟩ := ha
  refine ⟨source, hf, ?_⟩
  split at ha
  next isDirectory =>
    simp only [steps_ok] at ha
    obtain ⟨_, adjusts, rfl⟩ := ha
    obtain ⟨adjustable, state, rfl, replica, -⟩ := adjustWorkingParentNlink_eq_ok.1 adjusts
    have view : ∀ state : ExpectedObservation, state.replicaState = .desired (withoutSource
        (ensureDesiredReplica image.replicaState) kind slot.source) →
        state.replica = withoutSource pre.replica kind slot.source := by
      intro _ h
      rw [ExpectedObservation.replica, h, ← hs.replica]
      rfl
    rw [view _ rfl] at adjustable replica
    refine ⟨fun _ => adjustable, hs.identity, hs.boundaries, ?_, ?_, ?_⟩
    · rw [quarantinedReplica, if_pos isDirectory]
      exact replica
    · show writeStorage image.storage (.desired { source with location := slot.destination }) = _
      rw [hs.storage]
      rfl
    · rw [quarantinedParents, if_pos isDirectory, removedParents, ← hs.parents]
      rfl
  next other =>
    rw [pure_eq_ok] at ha
    subst ha
    refine ⟨fun isDirectory => absurd isDirectory other, hs.identity, hs.boundaries, ?_, ?_, ?_⟩
    · rw [quarantinedReplica, if_neg other, ← hs.replica]
      rfl
    · show writeStorage image.storage (.desired { source with location := slot.destination }) = _
      rw [hs.storage]
      rfl
    · rw [quarantinedParents, if_neg other]
      exact hs.parents

theorem place_effect (node binder : DesiredNodeState) {entry : ManifestEntry} {parent : Location}
    (state : ExpectedStorage) (hs : SameBut pre image)
    (kinds : binder.kind = node.kind) (places : binder.location = node.location)
    (references : binder.reference = node.reference)
    (ha : (if node.kind = directory then do
        let image ← adjustWorkingParentNlink
          (placeWorkingNode (replaceExpectedStorage image state.location state) node entry) parent 1
        addParent image ⟨binder.location, binder.reference⟩
      else pure (placeWorkingNode (replaceExpectedStorage image state.location state) node entry)) =
        (.ok post : Checked ExpectedObservation)) :
    (node.kind = directory → Placeable pre node entry parent) ∧
      Change pre post (placedReplica pre.replica node entry parent) [state]
        (placedParents pre.parents binder) := by
  have view : (placeWorkingNode (replaceExpectedStorage image state.location state) node
      entry).replica = withWorkingNode pre.replica node entry := by
    rw [← hs.replica]
    rfl
  split at ha
  next isDirectory =>
    simp only [bind_eq_ok] at ha
    obtain ⟨_, adjusts, added⟩ := ha
    obtain ⟨adjustable, _, rfl, replica, -⟩ := adjustWorkingParentNlink_eq_ok.1 adjusts
    rw [view] at adjustable replica
    simp only [addParent, steps_ok] at added
    obtain ⟨unbound, rfl⟩ := added
    have parents : (placeWorkingNode (replaceExpectedStorage image state.location state) node
        entry).parents = pre.parents := hs.parents
    refine ⟨fun _ => ⟨adjustable, ?_⟩, hs.identity, hs.boundaries, ?_, ?_, ?_⟩
    · rw [← places, ← references, ← parents]
      exact unbound
    · rw [placedReplica, if_pos isDirectory]
      exact replica
    · show writeStorage image.storage state = _
      rw [hs.storage]
      rfl
    · rw [placedParents, kinds, if_pos isDirectory, addedParents, ← parents]
  next other =>
    rw [pure_eq_ok] at ha
    subst ha
    refine ⟨fun isDirectory => absurd isDirectory other, hs.identity, hs.boundaries, ?_, ?_, ?_⟩
    · rw [placedReplica, if_neg other]
      exact view
    · show writeStorage image.storage state = _
      rw [hs.storage]
      rfl
    · rw [placedParents, kinds, if_neg other]
      exact hs.parents

theorem installAdministrative_effect {kind : EffectKind} (hv : ValidSpec H bound.spec)
    (hm : slot ∈ bound.spec.preparationSlots) (hs : SameBut pre image)
    (ha : installAdministrative image bound.spec kind (some slot.slotId) = .ok post) :
    ∃ replica, withInstalled pre.replica bound.spec kind (some slot.slotId) = .ok replica ∧
      Change pre post replica [.absent ⟨slot.destination⟩] pre.parents := by
  have view : ensureDesiredReplica (vacate image slot.destination).replicaState = pre.replica :=
    hs.replica
  simp only [installAdministrative, hv.preparationAt_member hm, steps_ok, Except.ok.injEq,
    exists_eq_left', view] at ha
  obtain ⟨replica, installed, rfl⟩ := ha
  refine ⟨replica, installed, hs.identity, hs.boundaries, rfl, ?_, hs.parents⟩
  show writeStorage image.storage (.absent ⟨slot.destination⟩) = _
  rw [hs.storage]
  rfl

theorem desiredEntryFor_spec {entry : ManifestEntry} (hf : desiredEntryFor spec node = .ok entry) :
    DescribedBy spec node entry := by
  rw [desiredEntryFor, orRaise_eq_ok] at hf
  exact ⟨mem_of_find?_eq_some hf, by simpa using find?_some hf⟩

theorem installWorking_effect (hv : ValidSpec H bound.spec)
    (hm : node ∈ bound.spec.desired.workingNodes) (hp : Prepares bound.spec slot node)
    (hs : SameBut pre image) (ha : installWorking image bound.spec (some slot.slotId) = .ok post) :
    ∃ entry, DescribedBy bound.spec node entry ∧
      (node.kind = directory →
        Placeable pre (freshNode node) (freshEntry node entry) slot.installationParent.location) ∧
      Change pre post (placedReplica pre.replica (freshNode node) (freshEntry node entry)
          slot.installationParent.location) [.absent ⟨slot.destination⟩]
        (placedParents pre.parents node) := by
  simp only [installWorking, hv.preparationAt_member hp.1, steps_ok, Except.ok.injEq,
    exists_eq_left', mem_some_iff, exists_eq_left'] at ha
  obtain ⟨hf, isFound, entry, he, ha⟩ := ha
  have reference : hf.reference = .prepared slot.slotId := by simpa using find?_some isFound
  obtain rfl : hf = node := hv.prepared_unique
    (mem_desiredNodes_working (mem_of_find?_eq_some isFound)) (mem_desiredNodes_working hm)
    reference hp.2
  refine ⟨entry, desiredEntryFor_spec he, ?_⟩
  have kinds : hf.kind = (freshNode hf).kind := by
    rw [freshNode]
    split <;> rfl
  have places : hf.location = (freshNode hf).location := by
    rw [freshNode]
    split <;> rfl
  have references : hf.reference = (freshNode hf).reference := by
    rw [freshNode]
    split <;> rfl
  rw [kinds]
  apply place_effect _ _ (.absent ⟨slot.destination⟩) hs kinds places references
  rw [← kinds, ← ha]
  by_cases isDirectory : hf.kind = directory
  · simp only [if_pos isDirectory, freshNode, freshEntry, reference]
    rfl
  · simp only [if_neg isDirectory, freshNode, freshEntry]
    rfl

theorem ValidSpec.existing_unique (hv : ValidSpec H spec) {first second : DesiredNodeState}
    {identity : NodeIdentity} (hf : first ∈ spec.desired.workingNodes)
    (hs : second ∈ spec.desired.workingNodes) (rf : first.reference = .existing identity)
    (rs : second.reference = .existing identity) : first = second := by
  have place : ∀ {node : DesiredNodeState},
        node ∈ spec.desired.workingNodes → node.reference = .existing identity →
      ∃ base, baselineNodeAt (baselineNodes spec) identity = some base ∧ node.location = base.location := by
    intro node hm reference
    have hc := hv.desired
    simp only [validateDesired, steps_ok] at hc
    have hp := ((validateWorkingNodes_nodes hc.2.2.2.2.2.2.2.2.2.2.2.2.2.2.2.2).2 node hm).1
    simp only [validateDesiredNode, validateDesiredReference, reference, steps_ok, not_or, not_not] at hp
    obtain ⟨-, -, -, base, found, place, -⟩ := hp
    exact ⟨base, found, place⟩
  obtain ⟨base, found, located⟩ := place hf rf
  obtain ⟨base', found', located'⟩ := place hs rs
  obtain rfl : base = base' := some.inj (found.symm.trans found')
  exact key_inj_of_nodup hv.desiredPaths hf hs (by rw [located, located'])

theorem restoreWorking_effect {slot : QuarantineSlot} {parent : ParentBinding}
    (valid : ValidSpec H bound.spec) (member : node ∈ bound.spec.desired.workingNodes)
    (listed : slot ∈ bound.spec.quarantineSlots)
    (identity : node.reference = .existing slot.sourceIdentity)
    (restoration : slot.restorationParent = some parent) (same : SameBut pre image)
    (advanced : restoreWorking image bound.spec (some slot.slotId) = .ok post) :
    ∃ stored entry, currentExistingState pre slot.destination slot.sourceIdentity = .ok stored ∧
      DescribedBy bound.spec node entry ∧
      (node.kind = directory →
        Placeable pre { node with nlink := stored.nlink } { entry with nlink := stored.nlink }
          parent.location) ∧
      Change pre post (placedReplica pre.replica { node with nlink := stored.nlink }
          { entry with nlink := stored.nlink } parent.location) [.absent ⟨slot.destination⟩]
        (placedParents pre.parents node) := by
  simp only [restoreWorking, valid.quarantineFor_member listed, steps_ok, Except.ok.injEq,
    exists_eq_left', same.current, restoration] at advanced
  obtain ⟨found, isFound, stored, isStored, entry, isEntry, advanced⟩ := advanced
  have reference : found.reference = .existing slot.sourceIdentity := by simpa using find?_some isFound
  obtain rfl : found = node := valid.existing_unique (mem_of_find?_eq_some isFound) member reference identity
  refine ⟨stored, entry, isStored, desiredEntryFor_spec isEntry, ?_⟩
  exact place_effect { found with nlink := stored.nlink } found
    (.absent ⟨slot.destination⟩) same rfl rfl rfl (by
      rw [← advanced, reference]
      by_cases isDirectory : found.kind = directory
      · rfl
      · rfl)

theorem ValidSpec.required_unique (hv : ValidSpec H spec) {first second : RequiredObject}
    (hf : first ∈ spec.requiredObjects) (hs : second ∈ spec.requiredObjects)
    (same : first.sourceSlotId = second.sourceSlotId) : first = second := by
  obtain ⟨-, -, hd, -⟩ := validateSlotConsumers_eq_ok.mp hv.consumers
  exact key_inj_of_nodup (nodup_append'.mp hd).2.1 hf hs same

theorem promote_effect {item : RequiredObject} (hv : ValidSpec H bound.spec)
    (missing : item ∈ missingObjects bound.spec) (hm : slot ∈ bound.spec.preparationSlots)
    (source : slot.slotId = item.sourceSlotId) (same : SameBut pre image)
    (ha : promote image bound.spec (some slot.slotId) = .ok post) :
    Change pre post pre.replica
      [.absent ⟨slot.destination⟩, .desired (slotNode slot (objectLocation item.objectId) 1)]
      pre.parents := by
  simp only [promote, hv.preparationAt_member hm, steps_ok, Except.ok.injEq, exists_eq_left',
    some.injEq] at ha
  obtain ⟨required, hf, rfl⟩ := ha
  have isSource : required.sourceSlotId = slot.slotId := by simpa using find?_some hf
  obtain rfl : required = item := hv.required_unique (mem_of_find?_eq_some hf)
    (mem_filter.mp missing).1 (isSource.trans source)
  refine ⟨same.identity, same.boundaries, same.replica, ?_, same.parents⟩
  show writeStorage (writeStorage image.storage (.absent ⟨slot.destination⟩))
    (.desired (slotNode slot (objectLocation required.objectId) 1)) = _
  rw [same.storage]
  rfl

theorem replace_effect (hs : SameBut pre image) (state : ExpectedStorage) :
    Change pre (replaceExpectedStorage image state.location state) pre.replica [state]
      pre.parents := by
  refine ⟨hs.identity, hs.boundaries, hs.replica, ?_, hs.parents⟩
  show writeStorage image.storage state = _
  rw [hs.storage]
  rfl

theorem advanceStep_effect {step : TransitionStep} (hv : ValidSpec H bound.spec)
    (compiled : CompiledStep bound.spec step) (advances : advanceStep bound pre step = .ok post) :
    Effect bound pre post step := by
  obtain ⟨_, paid, ha, -⟩ := advanceStep_eq_ok.mp advances
  simp only [advanceExpected, bind_eq_ok] at ha
  obtain ⟨control, -, ha⟩ := ha
  have hs : SameBut pre { pre with control := control } := ⟨rfl, rfl, rfl, rfl, rfl⟩
  cases compiled with
  | control hl =>
    by_cases published : step.effectKind = .publishGeneration
    · obtain rfl : step = brokerStep 13 .publishGeneration := by
        simp only [controlSteps, mem_cons, not_mem_nil, or_false] at hl
        rcases hl with rfl | rfl | rfl | rfl | rfl | rfl | rfl | rfl | rfl | rfl | rfl | rfl |
          rfl | rfl | rfl | rfl | rfl | rfl | rfl | rfl | rfl | rfl | rfl <;>
          first | rfl | simp at published
      simp only [brokerStep, advanceImage, pure_eq_ok] at ha
      subst ha
      refine .publish ⟨rfl, rfl, ?_, rfl, rfl⟩
      simp only [ExpectedObservation.replica]
      cases pre.replicaState <;> rfl
    · obtain ⟨rfl, working, index, metadata⟩ := advanceImage_control hl published ha
      exact .control hl published working index metadata hs.unchanged
  | create marker hm =>
    simp only [createStep, effectPayload, if_true, steps_ok, some.injEq, exists_eq_left',
      hv.markerAt_member hm, Except.ok.injEq] at paid
    subst paid
    simp only [createStep, advanceImage, createMarker, hv.markerAt_member hm, steps_ok,
      Except.ok.injEq, exists_eq_left', some.injEq] at ha
    subst ha
    exact .create marker hm (replace_effect hs (.desired (markerNode bound marker)))
  | exclusion marker hm =>
    simp only [exclusionStep, advanceImage, pure_eq_ok] at ha
    subst ha
    exact .exclusion marker hm hs.unchanged
  | removal marker hm =>
    simp only [markerRemovalStep, moveStep, advanceImage, hv.markerAt_member hm, steps_ok,
      Except.ok.injEq, exists_eq_left'] at ha
    subst ha
    exact .removal marker hm (replace_effect hs (.absent ⟨marker.destination⟩))
  | materialization slot hm =>
    simp only [materializationStep, advanceImage, materialize, hv.preparationAt_member hm, steps_ok,
      Except.ok.injEq, exists_eq_left'] at ha
    subst ha
    exact .materialization slot hm (replace_effect hs (.desired (materializedNode slot)))
  | promotion item missing slot hm source =>
    exact .promotion item missing slot hm source (promote_effect hv missing hm source hs ha)
  | quarantineWorking slot node hm hl identity =>
    obtain ⟨source, hf, adjustable, change⟩ :=
      quarantine_effect hv (mem_filter.mp hl).1 hs ha
    exact .quarantineWorking slot node hm hl identity source hf adjustable change
  | installWorking node hm slot hp =>
    obtain ⟨entry, described, placeable, change⟩ :=
      installWorking_effect hv hm hp hs ha
    exact .installWorking node hm slot hp entry described placeable change
  | restoreWorking node hm slot hl identity parent restoration =>
    obtain ⟨stored, entry, hf, described, placeable, change⟩ := restoreWorking_effect hv hm
      (mem_filter.mp hl).1 identity restoration hs ha
    exact .restoreWorking node hm slot hl identity parent restoration stored hf entry described
      placeable change
  | quarantineIndex node slot storage hq =>
    obtain ⟨source, hf, -, change⟩ := quarantine_effect hv hq.1 hs ha
    exact .quarantineIndex node slot storage hq source hf change
  | installIndex node slot storage hp =>
    obtain ⟨replica, installed, change⟩ :=
      installAdministrative_effect hv hp.1 hs ha
    simp only [slotStep, moveStep, withInstalled, pure_eq_ok] at installed
    subst installed
    exact .installIndex node slot storage hp change
  | finalizeIndex node slot storage hq hab =>
    simp only [advanceImage, pure_eq_ok] at ha
    subst ha
    exact .finalizeIndex node slot storage hq hab ⟨rfl, rfl, rfl, rfl, rfl⟩
  | quarantineReflog node slot hm hq =>
    obtain ⟨source, hf, -, change⟩ := quarantine_effect hv hq.1 hs ha
    exact .quarantineReflog node slot hm hq source hf change
  | installReflog node slot hm hp =>
    obtain ⟨replica, installed, change⟩ :=
      installAdministrative_effect hv hp.1 hs ha
    simp only [slotStep, moveStep, withInstalled, steps_ok, mem_some_iff, exists_eq_left'] at installed
    obtain ⟨state, hf, rfl⟩ := installed
    obtain ⟨other, isNode, reference⟩ : ∃ other ∈ state.node?, other.reference =
        .prepared slot.slotId := by simpa using find?_some hf
    obtain rfl : state = .node other := by
      cases state with
      | node _ => simp_all [Storage.node?]
      | absent hab => simp [Storage.node?] at isNode
    obtain rfl : other = node := hv.prepared_unique
      (mem_desiredNodes_reflog (mem_of_find?_eq_some hf)) (mem_desiredNodes_reflog hm)
      reference hp.2
    exact .installReflog other slot hm hp change
  | quarantineSelected node slot storage hq =>
    obtain ⟨source, hf, -, change⟩ := quarantine_effect hv hq.1 hs ha
    exact .quarantineSelected node slot storage hq source hf change
  | installSelected node slot storage hp =>
    obtain ⟨_, installed, change⟩ :=
      installAdministrative_effect hv hp.1 hs ha
    simp only [slotStep, moveStep, withInstalled, pure_eq_ok] at installed
    subst installed
    exact .installSelected node slot storage hp change
  | selectPacked hab hc =>
    simp only [applicationStep, advanceImage, pure_eq_ok] at ha
    subst ha
    exact .selectPacked hab hc ⟨rfl, rfl, rfl, rfl, rfl⟩

end Effects

end Yinshi.Reconcile
