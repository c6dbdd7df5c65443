import Yinshi.Reconcile.Auxiliary

/-! The replica along a run: administrative fields and working nodes as functions of
the transitions done so far. Link counts are left open here. -/

namespace Yinshi.Reconcile
open ByteText Keyed Checked Artifact Ranked List
variable {replica : DesiredReplicaState} {node : DesiredNodeState}

def staticNodes {ρ : Type} (replica : Replica ρ) : List (Node ρ) :=
  (staticStorage replica).filterMap Storage.node?

def imageNodes (image : ExpectedObservation) : List DesiredNodeState :=
  staticNodes image.replica ++ image.storage.filterMap ExpectedStorage.node?

theorem mem_staticNodes {ρ : Type} {replica : Replica ρ} {node : Node ρ} :
    node ∈ staticNodes replica ↔
    replica.index.storage = .node node ∨ node = replica.refs.head ∨
    replica.refs.looseRef = .node node ∨ replica.refs.packedRefs = .node node ∨
    .node node ∈ replica.refs.reflogs ∨ .node node ∈ replica.refs.unrelatedMetadata ∨
    node ∈ replica.workingNodes := by
  have hp : ∀ state : Storage ρ, state.node? = some node ↔ state = .node node := by
    intro state
    cases state <;> simp [Storage.node?]
  simp only [staticNodes, staticStorage, staticRegistrations, administrativeRegistrations,
    map_append, map_cons, map_nil, map_map, mem_filterMap, mem_append,
    mem_cons, mem_map, not_mem_nil, or_false, hp]
  constructor
  · rintro ⟨_, (((rfl | rfl | rfl | rfl) | ⟨inner, hm, rfl⟩) | ⟨inner, hm, rfl⟩) |
      ⟨_, hm, rfl⟩, hs⟩
    · exact .inl hs
    · exact .inr (.inl (Storage.node.inj hs).symm)
    · exact .inr (.inr (.inl hs))
    · exact .inr (.inr (.inr (.inl hs)))
    · exact .inr (.inr (.inr (.inr (.inl (hs ▸ hm)))))
    · exact .inr (.inr (.inr (.inr (.inr (.inl (hs ▸ hm))))))
    · exact .inr (.inr (.inr (.inr (.inr (.inr (Storage.node.inj hs ▸ hm))))))
  · rintro (hs | hs | hs | hs | hm | hm | hm)
    · exact ⟨_, .inl (.inl (.inl (.inl rfl))), hs⟩
    · exact ⟨_, .inl (.inl (.inl (.inr (.inl rfl)))), by rw [hs]⟩
    · exact ⟨_, .inl (.inl (.inl (.inr (.inr (.inl rfl))))), hs⟩
    · exact ⟨_, .inl (.inl (.inl (.inr (.inr (.inr rfl))))), hs⟩
    · exact ⟨_, .inl (.inl (.inr ⟨.node node, hm, rfl⟩)), rfl⟩
    · exact ⟨_, .inl (.inr ⟨.node node, hm, rfl⟩), rfl⟩
    · exact ⟨_, .inr ⟨node, hm, rfl⟩, rfl⟩

theorem currentExistingState_mem {image : ExpectedObservation} {location : Location}
    {identity : NodeIdentity} {source : DesiredNodeState}
    (hf : currentExistingState image location identity = .ok source) :
    source ∈ imageNodes image := by
  rw [currentExistingState, orRaise_eq_ok] at hf
  exact mem_of_find?_eq_some hf

/-- Two nodes that differ at most in the link count of a directory. -/
structure Alike {ρ : Type} (first second : Node ρ) : Prop where
  same : first = { second with nlink := first.nlink }
  links : second.kind ≠ directory → first.nlink = second.nlink

section Alike
variable {ρ : Type} {first second third : Node ρ}

theorem Alike.refl (node : Node ρ) : Alike node node := ⟨rfl, fun _ => rfl⟩

theorem Alike.location (h : Alike first second) : first.location = second.location := by rw [h.same]

theorem Alike.reference (h : Alike first second) : first.reference = second.reference := by
  rw [h.same]

theorem Alike.kind (h : Alike first second) : first.kind = second.kind := by rw [h.same]

theorem Alike.trans (h : Alike first second) (h' : Alike second third) : Alike first third := by
  refine ⟨?_, fun other => (h.links (h'.kind ▸ other)).trans (h'.links other)⟩
  rw [h.same, h'.same]

theorem alike_directory {node : Node ρ} (isDirectory : node.kind = directory) (nlink : Int) :
    Alike { node with nlink := nlink } node := ⟨rfl, fun other => absurd isDirectory other⟩

end Alike

section Adjusted
variable (replica : DesiredReplicaState) (parent : Location) (delta : Int)

@[simp] theorem adjustReplica_index : (adjustReplica replica parent delta).index = replica.index := by
  rw [adjustReplica]
  split <;> rfl

@[simp] theorem adjustReplica_refs : (adjustReplica replica parent delta).refs = replica.refs := by
  rw [adjustReplica]
  split <;> rfl

@[simp] theorem adjustReplica_generation :
    (adjustReplica replica parent delta).generation = replica.generation := by
  rw [adjustReplica]
  split <;> rfl

@[simp] theorem adjustReplica_replicaGeneration :
    (adjustReplica replica parent delta).replicaGeneration = replica.replicaGeneration := by
  rw [adjustReplica]
  split <;> rfl

end Adjusted

theorem adjustReplica_nodes {parent : Location} {delta : Int}
    (adjustable : Adjustable replica parent delta) :
    List.Forall₂ (fun after before => Alike after before ∧
        (before.location ≠ parent → after = before) ∧
        (before.location = parent → after.nlink = before.nlink + delta))
      (adjustReplica replica parent delta).workingNodes replica.workingNodes := by
  rw [adjustReplica]
  split
  next missing =>
    rw [forall₂_same]
    intro node hm
    have elsewhere := find?_eq_none_iff (fun node : DesiredNodeState => node.location) |>.mp missing
    exact ⟨.refl node, fun _ => rfl, fun hs => absurd hs (elsewhere node hm)⟩
  next hf isFound =>
    have place : hf.location = parent := by simpa using find?_some isFound
    have only : ∀ node ∈ replica.workingNodes, node.location = parent → node = hf := by
      intro node hm hs
      have single := adjustable.single
      have first : node ∈ replica.workingNodes.filter (·.location = parent) := by simp [hm, hs]
      have second : hf ∈ replica.workingNodes.filter (·.location = parent) := by
        simp [mem_of_find?_eq_some isFound, place]
      generalize replica.workingNodes.filter (·.location = parent) = nodes at single first second
      rcases nodes with _ | ⟨only, _ | _⟩
      · cases first
      · rw [mem_singleton.mp first, mem_singleton.mp second]
      · simp at single
    rw [forall₂_map_left_iff, forall₂_same]
    intro node hm
    split
    next hs =>
      obtain rfl := only node hm hs
      exact ⟨alike_directory (adjustable.directory node hm hs) _,
        fun other => absurd hs other, fun _ => rfl⟩
    next other => exact ⟨.refl node, fun _ => rfl, fun hs => absurd hs other⟩

theorem quarantinedReplica_nodes {slot : QuarantineSlot} {source : DesiredNodeState}
    (adjustable : source.kind = directory →
      Adjustable (withoutSource replica .quarantineWorkingNode slot.source)
        slot.sourceParent.location (-1)) :
    List.Forall₂ Alike (quarantinedReplica replica .quarantineWorkingNode slot source).workingNodes
      (replica.workingNodes.filter (·.location ≠ slot.source)) := by
  rw [quarantinedReplica]
  split
  next isDirectory => exact (adjustReplica_nodes (adjustable isDirectory)).imp fun _ _ h => h.1
  next => exact forall₂_same.mpr fun node _ => .refl node

theorem placedReplica_nodes {entry : ManifestEntry} {parent : Location}
    (adjustable : node.kind = directory →
      Adjustable (withWorkingNode replica node entry) parent 1) :
    List.Forall₂ Alike (placedReplica replica node entry parent).workingNodes
      (sortNodes (replica.workingNodes ++ [node])) := by
  rw [placedReplica]
  split
  next isDirectory => exact (adjustReplica_nodes (adjustable isDirectory)).imp fun _ _ h => h.1
  next => exact forall₂_same.mpr fun node _ => .refl node

section Placed
variable (replica : DesiredReplicaState) (node : DesiredNodeState) (entry : ManifestEntry) (parent : Location)

@[simp] theorem placedReplica_index : (placedReplica replica node entry parent).index = replica.index := by
  rw [placedReplica]
  split <;> simp [withWorkingNode]

@[simp] theorem placedReplica_refs : (placedReplica replica node entry parent).refs = replica.refs := by
  rw [placedReplica]
  split <;> simp [withWorkingNode]

@[simp] theorem placedReplica_generations :
    (placedReplica replica node entry parent).generation = replica.generation ∧
    (placedReplica replica node entry parent).replicaGeneration = replica.replicaGeneration := by
  rw [placedReplica]
  split <;> simp [withWorkingNode]

end Placed

theorem quarantinedReplica_fields (replica : DesiredReplicaState) (kind : EffectKind)
    (slot : QuarantineSlot) (source : DesiredNodeState) :
    (quarantinedReplica replica kind slot source).index =
        (withoutSource replica kind slot.source).index ∧
    (quarantinedReplica replica kind slot source).refs =
      (withoutSource replica kind slot.source).refs ∧
    (quarantinedReplica replica kind slot source).generation =
      (withoutSource replica kind slot.source).generation ∧
    (quarantinedReplica replica kind slot source).replicaGeneration =
      (withoutSource replica kind slot.source).replicaGeneration := by
  rw [quarantinedReplica]
  split <;> simp

theorem freshNode_alike (node : DesiredNodeState) : Alike (freshNode node) node := by
  rw [freshNode]
  split
  next isDirectory => exact alike_directory isDirectory 2
  next => exact .refl node

def knownNodes (spec : ReconciliationSpec) : List NodeState :=
  baselineNodes spec ++ spec.destinationObjects.map (·.storage)

/-- What a move must not change: everything but the place and the link count of a
directory. -/
structure SameBody (node : DesiredNodeState) (known : NodeState) : Prop where
  kind : node.kind = known.kind
  content : node.content = known.content
  executable : node.executable = known.executable
  privilegeBits : node.privilegeBits = known.privilegeBits
  links : known.kind ≠ directory → node.nlink = known.nlink

def KnownBody (spec : ReconciliationSpec) (node : DesiredNodeState) : Prop :=
  ∀ identity, node.reference = .existing identity →
    ∃ known ∈ knownNodes spec, known.reference = identity ∧ SameBody node known

theorem SameBody.alike {other : DesiredNodeState} {known : NodeState}
    (body : SameBody node known) (alike : Alike other node) : SameBody other known := by
  refine ⟨alike.kind.trans body.kind, ?_, ?_, ?_, ?_⟩
  · rw [alike.same]
    exact body.content
  · rw [alike.same]
    exact body.executable
  · rw [alike.same]
    exact body.privilegeBits
  · intro other
    exact (alike.links (body.kind ▸ other)).trans (body.links other)

theorem KnownBody.alike {spec : ReconciliationSpec} {other : DesiredNodeState}
    (hk : KnownBody spec node) (alike : Alike other node) : KnownBody spec other := by
  intro identity reference
  rw [alike.reference] at reference
  obtain ⟨base, hm, hs, body⟩ := hk identity reference
  exact ⟨base, hm, hs, body.alike alike⟩

theorem administrative_baseline {spec : ReconciliationSpec} {node : NodeState} {name : String}
    (hm : (.node node, name) ∈ administrativeRegistrations spec.baseline) :
    node ∈ baselineNodes spec := by
  refine mem_filterMap.mpr ⟨.node node, ?_, rfl⟩
  exact mem_map.mpr ⟨_, mem_append_left _ hm, rfl⟩

section Bodies
variable {H : Hashes} {spec : ReconciliationSpec} (valid : ValidSpec H spec)
variable {node : DesiredNodeState}
include valid

theorem ValidSpec.desiredNode_valid (hm : node ∈ desiredNodes spec.desired) :
    ∃ name, validateDesiredNode (baselineNodes spec) spec.preparationSlots spec.boundaries node
          name = .ok () := by
  have hc := valid.desired
  simp only [validateDesired, steps_ok, each_eq_ok] at hc
  obtain ⟨-, -, -, -, -, storage, -, -, head, loose, packed, reflogs, metadata, -, -, -, working⟩ :=
    hc
  have hp : ∀ {state : Storage NodeReference} {name : String}, state.node? = some node →
      validateDesiredStorage (baselineNodes spec) spec.preparationSlots spec.boundaries state name = .ok () →
      validateDesiredNode (baselineNodes spec) spec.preparationSlots spec.boundaries node name = .ok () := by
    intro state _ hs passed
    cases state with
    | node inner =>
      obtain rfl : inner = node := by simpa [Storage.node?] using hs
      exact passed
    | absent _ => simp [Storage.node?] at hs
  simp only [desiredNodes, mem_append, mem_filterMap, mem_cons, not_mem_nil, or_false,
    Option.mem_toList] at hm
  rcases hm with (((rfl | isWorking) | hs) | ⟨state, rfl | rfl, hs⟩) | ⟨state, isLog | isMeta, hs⟩
  · exact ⟨_, head⟩
  · exact ⟨_, ((validateWorkingNodes_nodes working).2 node isWorking).1⟩
  · exact ⟨_, hp hs storage⟩
  · exact ⟨_, hp hs loose⟩
  · exact ⟨_, hp hs packed⟩
  · exact ⟨_, hp hs (reflogs state isLog)⟩
  · exact ⟨_, hp hs (metadata state isMeta)⟩

theorem ValidSpec.desired_existing (hm : node ∈ desiredNodes spec.desired) {identity : NodeIdentity}
    (reference : node.reference = .existing identity) :
    ∃ base ∈ baselineNodes spec,
      base.reference = identity ∧ node = desiredNodeFromConcrete base := by
  obtain ⟨_, hc⟩ := valid.desiredNode_valid hm
  simp only [validateDesiredNode, validateDesiredReference, reference, steps_ok, not_or, not_not] at hc
  obtain ⟨-, -, -, base, hf, place, semantic⟩ := hc
  refine ⟨base, mem_of_find?_eq_some hf, by simpa using find?_some hf, ?_⟩
  have isBase : base.reference = identity := by simpa using find?_some hf
  simp only [nodeSemantic, Prod.mk.injEq] at semantic
  obtain ⟨_, _, _, _, _, _, _⟩ := node
  simp only [desiredNodeFromConcrete, Node.mk.injEq] at semantic place reference ⊢
  exact ⟨place, by rw [reference, isBase], semantic⟩

theorem ValidSpec.desired_known (hm : node ∈ desiredNodes spec.desired) : KnownBody spec node := by
  intro _ reference
  obtain ⟨base, isBase, hs, rfl⟩ := valid.desired_existing hm reference
  exact ⟨base, mem_append_left _ isBase, hs, rfl, rfl, rfl, rfl, fun _ => rfl⟩

theorem ValidSpec.known_unique {first second : NodeState} (hf : first ∈ knownNodes spec)
    (hs : second ∈ knownNodes spec) (same : first.reference = second.reference) :
    first = second := by
  have hr : ∀ {node}, node ∈ knownNodes spec → nodeRegistration node ∈ physicalRegistrations spec := by
    intro node hm
    simp only [physicalRegistrations, statedRegistrations, mem_append]
    rcases mem_append.mp hm with h | h
    · exact .inl (.inl (.inr (mem_map.mpr ⟨node, h, rfl⟩)))
    · obtain ⟨item, hl, rfl⟩ := mem_map.mp h
      exact .inl (.inr (mem_map.mpr ⟨item, hl, rfl⟩))
  have ha := valid.physical.not_conflicts (hr hf) (hr hs)
  by_contra differs
  exact ha (.inr (.inr ⟨.inl same, by simp [nodeRegistration], by simp [nodeRegistration], by
    simpa [nodeRegistration] using differs⟩))

theorem ValidSpec.administrative_file {node : NodeState} {name : String}
    (hm : (.node node, name) ∈ administrativeRegistrations spec.baseline) :
    node.kind = text "file" := by
  have hc := valid.baselineFiles
  simp only [validateAdministrativeFiles, each_eq_ok] at hc
  have hp := hc (.node node, name) hm
  simp only [requireAdministrativeFile, rejectIf_eq_ok, not_or, not_not] at hp
  exact hp.1

theorem ValidSpec.administrative_source {image : ExpectedObservation} {node : NodeState}
    {slot : QuarantineSlot} {source : DesiredNodeState} (name : String)
    (hm : (.node node, name) ∈ administrativeRegistrations spec.baseline)
    (hq : Quarantines spec slot node) (bodies : ∀ node ∈ imageNodes image, KnownBody spec node)
    (hf : currentExistingState image slot.source slot.sourceIdentity = .ok source) :
    source.kind ≠ directory := by
  obtain ⟨hk, isKnown, hs, body⟩ :=
    bodies source (currentExistingState_mem hf) _ (currentExistingState_spec hf).2
  have isBase := mem_append_left (spec.destinationObjects.map (·.storage)) (administrative_baseline hm)
  obtain rfl : hk = node := valid.known_unique isKnown isBase (hs.trans hq.2.2)
  rw [body.kind, valid.administrative_file hm]
  decide

end Bodies

section Run
variable {H : Hashes} {bound : BoundSpecification} {steps done : List TransitionStep}
  {step : TransitionStep} {pre post : ExpectedObservation}
variable {node : DesiredNodeState}

theorem mem_writeStorage {states : List ExpectedStorage} {state other : ExpectedStorage}
    (member : other ∈ writeStorage states state) : other ∈ states ∨ other = state := by
  rw [writeStorage, mem_sortBy, setStorage] at member
  split at member
  · obtain ⟨_, hl, hm⟩ := mem_map.mp member
    split at hm
    · exact .inr hm.symm
    · exact .inl (hm ▸ hl)
  · rcases mem_append.mp member with h | h
    · exact .inl h
    · exact .inr (mem_singleton.mp h)

theorem mem_writeAll {states writes : List ExpectedStorage} {other : ExpectedStorage}
    (hm : other ∈ writeAll states writes) : other ∈ states ∨ other ∈ writes := by
  induction writes generalizing states with
  | nil => exact .inl hm
  | cons _ _ ih =>
    rcases ih hm with h | h
    · rcases mem_writeStorage h with h | rfl
      · exact .inl h
      · exact .inr (by simp)
    · exact .inr (by simp [h])

theorem mem_desiredNodes_index {spec : ReconciliationSpec}
    (storage : spec.desired.index.storage = .node node) : node ∈ desiredNodes spec.desired := by
  simp [desiredNodes, storage, Storage.node?]

theorem mem_desiredNodes_loose {spec : ReconciliationSpec}
    (storage : spec.desired.refs.looseRef = .node node) : node ∈ desiredNodes spec.desired := by
  simp [desiredNodes, storage, Storage.node?]

def Brings (spec : ReconciliationSpec) (step : TransitionStep) (desired : DesiredNodeState) : Prop :=
  (step.effectKind ∈ [.installWorkingNode, .installIndex, .installReflog, .installSelectedRef] ∧
    ∃ slot, Prepares spec slot desired ∧ step.preparedSlotId = some slot.slotId) ∨
  (step.effectKind = .restoreWorkingNode ∧ ∃ slot ∈ spec.quarantineSlots,
    desired.reference = .existing slot.sourceIdentity ∧ step.preparedSlotId = some slot.slotId)

def Inherited (bound : BoundSpecification) (step : TransitionStep) (pre : ExpectedObservation)
    (node : DesiredNodeState) : Prop :=
  (∃ before ∈ staticNodes pre.replica, Alike node before) ∨
    ∃ desired ∈ desiredNodes bound.spec.desired, Alike node desired ∧ Brings bound.spec step desired

theorem inherited_old (hm : node ∈ staticNodes pre.replica) :
    Inherited bound step pre node := .inl ⟨node, hm, .refl node⟩

theorem inherited_working {replica : DesiredReplicaState} {nodes : List DesiredNodeState}
    (index : replica.index = pre.replica.index) (refs : replica.refs = pre.replica.refs)
    (alike : List.Forall₂ Alike replica.workingNodes nodes)
    (hk : ∀ node ∈ nodes, Inherited bound step pre node) (hm : node ∈ staticNodes replica) :
    Inherited bound step pre node := by
  rw [mem_staticNodes, index, refs] at hm
  by_cases isWorking : node ∈ replica.workingNodes
  · obtain ⟨before, hl, hs⟩ := forall₂_mem_left alike isWorking
    rcases hk before hl with ⟨old, ho, hs'⟩ | ⟨new, hn, hs', brings⟩
    · exact .inl ⟨old, ho, hs.trans hs'⟩
    · exact .inr ⟨new, hn, hs.trans hs', brings⟩
  · refine inherited_old (mem_staticNodes.2 ?_)
    tauto

theorem inherited_placed {desired placed : DesiredNodeState} {entry : ManifestEntry}
    {parent : Location} (isDesired : desired ∈ bound.spec.desired.workingNodes)
    (alike : Alike placed desired) (brings : Brings bound.spec step desired)
    (adjustable : placed.kind = directory →
      Adjustable (withWorkingNode pre.replica placed entry) parent 1)
    (hm : node ∈ staticNodes (placedReplica pre.replica placed entry parent)) :
    Inherited bound step pre node := by
  refine inherited_working (placedReplica_index ..) (placedReplica_refs ..)
    (placedReplica_nodes adjustable) ?_ hm
  intro _ ho
  rcases mem_append.mp (mem_sortBy.mp ho) with h | h
  · exact inherited_old (mem_staticNodes.2 (by tauto))
  · rw [mem_singleton.mp h]
    exact .inr ⟨desired, mem_desiredNodes_working isDesired, alike, brings⟩

theorem restored_alike (hv : ValidSpec H bound.spec)
    (bodies : ∀ node ∈ imageNodes pre, KnownBody bound.spec node)
    {desired stored : DesiredNodeState} {location : Location} {identity : NodeIdentity}
    (isDesired : desired ∈ desiredNodes bound.spec.desired)
    (reference : desired.reference = .existing identity)
    (found : currentExistingState pre location identity = .ok stored) :
    Alike { desired with nlink := stored.nlink } desired := by
  obtain ⟨base, isBase, rfl, rfl⟩ := hv.desired_existing isDesired reference
  obtain ⟨hk, isKnown, hs, body⟩ := bodies stored (currentExistingState_mem found) _
    (currentExistingState_spec found).2
  obtain rfl : hk = base := hv.known_unique isKnown (mem_append_left _ isBase) hs
  exact ⟨rfl, body.links⟩

theorem static_inherited (hv : ValidSpec H bound.spec) (effect : Effect bound pre post step)
    (bodies : ∀ node ∈ imageNodes pre, KnownBody bound.spec node)
    (member : node ∈ staticNodes post.replica) : Inherited bound step pre node := by
  have installs : ∀ {stage : Nat} {kind : EffectKind} {label : Text} {slot : PreparationSlot}
      {desired : DesiredNodeState},
      kind ∈ [.installWorkingNode, .installIndex, .installReflog, .installSelectedRef] →
      Prepares bound.spec slot desired →
      Brings bound.spec (slotStep stage kind label slot) desired :=
    fun hk hp => .inl ⟨hk, _, hp, rfl⟩
  cases effect with
  | control _ _ _ _ _ change | create _ _ change | exclusion _ _ change | removal _ _ change
  | materialization _ _ change | promotion _ _ _ _ _ change | publish change | selectPacked _ _ change =>
    rw [change.replica] at member
    exact inherited_old member
  | quarantineWorking slot base _ hl identity source hf adjustable change =>
    rw [change.replica] at member
    have fields := quarantinedReplica_fields pre.replica .quarantineWorkingNode slot source
    refine inherited_working fields.1 fields.2.1 (quarantinedReplica_nodes adjustable) ?_ member
    intro _ ho
    exact inherited_old (mem_staticNodes.2 (by have := (mem_filter.mp ho).1; tauto))
  | installWorking desired isDesired slot hp entry described placeable change =>
    rw [change.replica] at member
    refine inherited_placed isDesired (freshNode_alike desired) (installs (by decide) hp) ?_ member
    intro isDirectory
    exact (placeable ((freshNode_alike desired).kind.symm.trans isDirectory)).adjustable
  | restoreWorking desired isDesired slot hl identity parent restoration stored hf entry described
      placeable change =>
      rw [change.replica] at member
      exact inherited_placed isDesired
        (restored_alike hv bodies (mem_desiredNodes_working isDesired) identity hf)
        (.inr ⟨rfl, slot, (mem_filter.mp hl).1, identity, rfl⟩)
        (fun isDirectory => (placeable isDirectory).adjustable) member
  | quarantineIndex base slot storage hq source hf change =>
    have file := hv.administrative_source "index.storage"
      (by simp [administrativeRegistrations, storage]) hq bodies hf
    rw [change.replica, quarantinedReplica, if_neg file, mem_staticNodes] at member
    refine inherited_old (mem_staticNodes.2 ?_)
    tauto
  | installIndex desired slot storage hp change =>
    rw [change.replica, mem_staticNodes] at member
    rcases member with isIndex | others
    · obtain rfl : desired = node := Storage.node.inj (storage.symm.trans isIndex)
      exact .inr ⟨desired, mem_desiredNodes_index storage, .refl desired, installs (by decide) hp⟩
    · exact inherited_old (mem_staticNodes.2 (.inr others))
  | finalizeIndex base slot storage hq ha change =>
    rw [change.replica, mem_staticNodes] at member
    rcases member with isIndex | others
    · have isIndex : bound.spec.desired.index.storage = .node node := isIndex
      simp [isIndex, Storage.node?] at ha
    · exact inherited_old (mem_staticNodes.2 (.inr others))
  | quarantineReflog base slot isLog hq source hf change =>
    have file := hv.administrative_source "refs.reflogs"
        (by simp [administrativeRegistrations, isLog]) hq bodies hf
    rw [change.replica, quarantinedReplica, if_neg file, mem_staticNodes] at member
    refine inherited_old (mem_staticNodes.2 ?_)
    rcases member with h | h | h | h | h | h
    · tauto
    · tauto
    · tauto
    · tauto
    · obtain ⟨_, hl, hm⟩ := mem_map.mp h
      split at hm
      · simp at hm
      · rw [hm] at hl
        tauto
    · tauto
  | installReflog desired slot isLog hp change =>
    rw [change.replica, mem_staticNodes] at member
    rcases member with h | h | h | h | h | h
    · exact inherited_old (mem_staticNodes.2 (by tauto))
    · exact inherited_old (mem_staticNodes.2 (by tauto))
    · exact inherited_old (mem_staticNodes.2 (by tauto))
    · exact inherited_old (mem_staticNodes.2 (by tauto))
    · rcases mem_append.mp (mem_sortBy.mp h) with h | h
      · have := (mem_filter.mp h).1
        exact inherited_old (mem_staticNodes.2 (by tauto))
      · cases mem_singleton.mp h
        exact .inr ⟨node, mem_desiredNodes_reflog isLog, .refl node, installs (by decide) hp⟩
    · exact inherited_old (mem_staticNodes.2 (by tauto))
  | quarantineSelected _ slot storage hq _ hf change =>
    have file := hv.administrative_source "refs.loose_ref"
      (by simp [administrativeRegistrations, storage]) hq bodies hf
    rw [change.replica, quarantinedReplica, if_neg file, mem_staticNodes] at member
    refine inherited_old (mem_staticNodes.2 ?_)
    tauto
  | installSelected desired _ storage hp change =>
    rw [change.replica, mem_staticNodes] at member
    rcases member with h | h | h | h
    · exact inherited_old (mem_staticNodes.2 (by tauto))
    · exact inherited_old (mem_staticNodes.2 (by tauto))
    · obtain rfl : desired = node := Storage.node.inj (storage.symm.trans h)
      exact .inr ⟨desired, mem_desiredNodes_loose storage, .refl desired, installs (by decide) hp⟩
    · exact inherited_old (mem_staticNodes.2 (by tauto))

attribute [local simp] ExpectedStorage.node?

theorem effect_writes (effect : Effect bound pre post step) :
    ∃ replica writes parents, Change pre post replica writes parents ∧
      ∀ state ∈ writes, ∀ node ∈ state.node?,
        (∃ slotId, node.reference = .prepared slotId) ∨
        ∃ source ∈ imageNodes pre, ∃ location, node = { source with location := location } := by
  cases effect with
  | control _ _ _ _ _ change | exclusion _ _ change | finalizeIndex _ _ _ _ _ change
  | selectPacked _ _ change => exact ⟨_, _, _, change, by simp⟩
  | publish change => exact ⟨_, _, _, change, by simp⟩
  | create marker hm change =>
    exact ⟨_, _, _, change, by simp [markerNode, preparedNode]⟩
  | removal _ hm change => exact ⟨_, _, _, change, by simp⟩
  | materialization slot hm change =>
    exact ⟨_, _, _, change, by simp [materializedNode, slotNode, preparedNode]⟩
  | promotion _ _ _ _ source change =>
    exact ⟨_, _, _, change, by simp [slotNode, preparedNode]⟩
  | installWorking _ _ _ _ _ _ _ change | restoreWorking _ _ _ _ _ _ _ _ _ _ _ _ change
  | installIndex _ _ _ _ change | installReflog _ _ _ _ change | installSelected _ _ _ _ change =>
    exact ⟨_, _, _, change, by simp⟩
  | quarantineWorking _ _ _ _ _ source hf _ change | quarantineIndex _ _ _ _ source hf change
  | quarantineReflog _ _ _ _ source hf change | quarantineSelected _ _ _ _ source hf change =>
    refine ⟨_, _, _, change, ?_⟩
    intro _ written _ hn
    rw [mem_singleton.mp written, ExpectedStorage.node?, Option.mem_some_iff] at hn
    exact .inr ⟨source, currentExistingState_mem hf, _, hn.symm⟩

theorem effect_identity (effect : Effect bound pre post step) :
    post.identity = pre.identity ∧ post.boundaries = pre.boundaries := by
  obtain ⟨_, _, _, change, -⟩ := effect_writes effect
  exact ⟨change.identity, change.boundaries⟩

theorem bodies_step (hv : ValidSpec H bound.spec) (effect : Effect bound pre post step)
    (bodies : ∀ node ∈ imageNodes pre, KnownBody bound.spec node) :
    ∀ node ∈ imageNodes post, KnownBody bound.spec node := by
  intro node hm
  rcases mem_append.mp hm with isStatic | isAuxiliary
  · rcases static_inherited hv effect bodies isStatic with ⟨before, hl, alike⟩ |
      ⟨_, hl, alike, -⟩
    · exact (bodies before (mem_append_left _ hl)).alike alike
    · exact (hv.desired_known hl).alike alike
  · obtain ⟨state, hs, hn⟩ := mem_filterMap.mp isAuxiliary
    obtain ⟨_, _, _, change, written⟩ := effect_writes effect
    rw [change.storage] at hs
    rcases mem_writeAll hs with old | new
    · exact bodies node (mem_append_right _ (mem_filterMap.mpr ⟨state, old, hn⟩))
    · rcases written state new node hn with ⟨_, prepared⟩ | ⟨source, hk, _, rfl⟩
      · intro identity reference
        rw [prepared] at reference
        cases reference
      · intro identity reference
        obtain ⟨base, isBase, same, body⟩ := bodies source hk identity reference
        exact ⟨base, isBase, same, body.kind, body.content, body.executable, body.privilegeBits, body.links⟩

theorem staticNodes_asDesired (replica : ReplicaState) :
    staticNodes (replicaAsDesired replica) = (staticNodes replica).map desiredNodeFromConcrete := by
  have hp : ∀ state : Storage NodeIdentity, (desiredStorageFromConcrete state).node? =
      state.node?.map desiredNodeFromConcrete := by
    intro state
    cases state <;> rfl
  have storage : staticStorage (replicaAsDesired replica) =
      (staticStorage replica).map desiredStorageFromConcrete := by
    have single : ∀ node, desiredStorageFromConcrete (.node node) =
        .node (desiredNodeFromConcrete node) := fun _ => rfl
    simp [staticStorage, staticRegistrations, administrativeRegistrations, replicaAsDesired,
      refAsDesired, Function.comp_def, single]
  rw [staticNodes, staticNodes, storage, filterMap_map, map_filterMap]
  exact filterMap_congr fun state _ => hp state

theorem bodies_initial {image : ExpectedObservation} (hv : ValidSpec H bound.spec)
    (starts : initialExpected bound.spec = .ok image) :
    ∀ node ∈ imageNodes image, KnownBody bound.spec node := by
  simp only [initialExpected, steps_ok] at starts
  obtain ⟨_, -, rfl⟩ := starts
  intro node hm _ reference
  rcases mem_append.mp hm with isStatic | isAuxiliary
  · rw [show ExpectedObservation.replica _ = replicaAsDesired bound.spec.baseline from rfl,
      staticNodes_asDesired] at isStatic
    obtain ⟨base, isBase, rfl⟩ := mem_map.mp isStatic
    cases reference
    exact ⟨base, mem_append_left _ isBase, rfl, rfl, rfl, rfl, rfl, fun _ => rfl⟩
  · obtain ⟨_, hs, hn⟩ := mem_filterMap.mp isAuxiliary
    rw [mem_sortBy, initialStorage_eq] at hs
    obtain ⟨place, hl, rfl⟩ := mem_map.mp hs
    have hh := (hv.initial_holds hl).2
    cases place with
    | destination item =>
      have isItem := mem_places.mp hl
      obtain rfl : desiredNodeFromConcrete item.storage = node := by
        simpa [Place.initial] using hn
      cases reference
      exact ⟨item.storage, mem_append_right _ (mem_map.mpr ⟨item, isItem, rfl⟩), rfl, rfl,
        rfl, rfl, rfl, fun _ => rfl⟩
    | preparation slot =>
      simp only [PlaceHolds, not_did_nil, false_and, if_false] at hh
      simp [hh] at hn
    | ownership marker | object item | quarantine slot => simp [Place.initial] at hn

theorem Reached.bodies (hv : ValidSpec H bound.spec) (hb : CompiledBlocks bound.spec steps)
    {image : ExpectedObservation} (hr : Reached bound steps done image) :
    ∀ node ∈ imageNodes image, KnownBody bound.spec node := by
  induction hr with
  | initial hs _ => exact bodies_initial hv hs
  | step _ next ha ih => exact bodies_step hv (advanceStep_effect hv (hb.step next.mem) ha) ih

end Run

def workingKinds : List EffectKind := [.quarantineWorkingNode, .installWorkingNode, .restoreWorkingNode]

def indexKinds : List EffectKind := [.quarantineIndex, .installIndex, .finalizeIndexAbsence]

def refKinds : List EffectKind :=
  [.quarantineReflog, .installReflog, .quarantineSelectedRef, .installSelectedRef, .selectPackedFallback]

structure Frame (pre post : ExpectedObservation) (kind : EffectKind) : Prop where
  working : kind ∉ workingKinds → post.replica.workingNodes = pre.replica.workingNodes ∧
    post.replica.manifest = pre.replica.manifest
  index : kind ∉ indexKinds → post.replica.index = pre.replica.index
  refs : kind ∉ refKinds → post.replica.refs = pre.replica.refs
  generation : kind ≠ .publishGeneration → post.replica.generation = pre.replica.generation
  replicaGeneration : post.replica.replicaGeneration = pre.replica.replicaGeneration

section Frames
variable {H : Hashes} {bound : BoundSpecification} {step : TransitionStep}
  {pre post : ExpectedObservation}

theorem Frame.of_replica {kind : EffectKind} (hs : post.replica = pre.replica) : Frame pre post kind := by
  constructor <;> simp [hs]

theorem frame_step (hv : ValidSpec H bound.spec) (effect : Effect bound pre post step)
    (bodies : ∀ node ∈ imageNodes pre, KnownBody bound.spec node) :
    Frame pre post step.effectKind := by
  cases effect with
  | control _ _ _ _ _ change | create _ _ change | exclusion _ _ change | removal _ _ change
  | materialization _ _ change | promotion _ _ _ _ _ change => exact .of_replica change.replica
  | publish change => refine ⟨?_, ?_, ?_, ?_, ?_⟩ <;> simp [change.replica]
  | quarantineWorking slot base _ hl identity source hf _ change =>
    have fields := quarantinedReplica_fields pre.replica .quarantineWorkingNode slot source
    rw [← change.replica] at fields
    refine ⟨fun other => absurd (by simp [workingKinds]) other,
      fun _ => fields.1, fun _ => fields.2.1, fun _ => fields.2.2.1, fields.2.2.2⟩
  | installWorking desired isDesired slot hp entry described placeable change =>
    refine ⟨fun other => absurd (by simp [workingKinds]) other, ?_, ?_, ?_, ?_⟩ <;>
      simp [change.replica]
  | restoreWorking desired isDesired slot hl identity parent restoration stored hf entry described
      placeable change =>
      refine ⟨fun other => absurd (by simp [workingKinds]) other, ?_, ?_, ?_, ?_⟩ <;>
        simp [change.replica]
  | quarantineIndex base slot storage hq source hf change =>
    have file := hv.administrative_source "index.storage"
      (by simp [administrativeRegistrations, storage]) hq bodies hf
    refine ⟨?_, fun other => absurd (by simp [indexKinds]) other, ?_, ?_, ?_⟩ <;>
      simp [change.replica, quarantinedReplica, file, withoutSource]
  | installIndex desired slot storage hp change =>
    refine ⟨?_, fun other => absurd (by simp [indexKinds]) other, ?_, ?_, ?_⟩ <;>
      simp [change.replica]
  | finalizeIndex base slot storage hq ha change =>
    refine ⟨?_, fun other => absurd (by simp [indexKinds]) other, ?_, ?_, ?_⟩ <;>
      simp [change.replica]
  | quarantineReflog base slot isLog hq source hf change =>
    have file := hv.administrative_source "refs.reflogs"
        (by simp [administrativeRegistrations, isLog]) hq bodies hf
    refine ⟨?_, ?_, fun other => absurd (by simp [refKinds]) other, ?_, ?_⟩ <;>
      simp [change.replica, quarantinedReplica, file, withoutSource]
  | installReflog desired slot isLog hp change | installSelected desired slot storage hp change =>
    refine ⟨?_, ?_, fun other => absurd (by simp [refKinds]) other, ?_, ?_⟩ <;>
      simp [change.replica]
  | quarantineSelected _ _ storage hq _ hf change =>
    have file := hv.administrative_source "refs.loose_ref"
      (by simp [administrativeRegistrations, storage]) hq bodies hf
    refine ⟨?_, ?_, fun other => absurd (by simp [refKinds]) other, ?_, ?_⟩ <;>
      simp [change.replica, quarantinedReplica, file, withoutSource]
  | selectPacked _ _ change =>
    refine ⟨?_, ?_, fun other => absurd (by simp [refKinds]) other, ?_, ?_⟩ <;>
      simp [change.replica]

end Frames

end Yinshi.Reconcile
