import Yinshi.Base.Ranked
import Yinshi.Reconcile.Valid

/-! What the compiler puts into a transition list, and in which order: every step
is one of a few kinds, explained by a field, a slot or a marker of the
specification, and a rank of the kinds never decreases along the list. -/

namespace Yinshi.Reconcile
open ByteText Keyed Checked Artifact Ranked List

def compileMiddle (spec : ReconciliationSpec) : Checked (List TransitionStep) := do
  let quarantines ← compileWorkingQuarantines spec
  let installations ← compileWorkingInstallations spec
  let index ← compileIndex spec
  let reflogs ← (reflogLocations spec).mapM (compileReflog spec)
  let selected ← compileSelectedRef spec
  pure ([applicationStep 7 .acknowledgeObjectPromotion] ++
    quarantines ++ [applicationStep 8 .acknowledgeWorkingQuarantine] ++
    installations ++ [applicationStep 9 .acknowledgeWorkingInstall] ++
    index ++ [applicationStep 10 .acknowledgeIndex] ++
    reflogs.flatten ++ selected ++ [applicationStep 11 .acknowledgeMetadata])

variable {spec : ReconciliationSpec} {steps : List TransitionStep}

theorem compileTransitions_eq_ok :
    compileTransitions spec = .ok steps ↔
    ∃ promotions middle, compilePromotions spec = .ok promotions ∧ compileMiddle spec = .ok middle ∧
      steps = openingSteps spec ++ promotions ++ middle ++ closingSteps spec ∧
      (steps.length : Int) ≤ spec.limits.maxTransitions := by
  simp only [compileTransitions, compileMiddle, steps_ok, not_lt]
  constructor
  · rintro ⟨promotions, hp, quarantines, hq, installations, hi, index, hx, reflogs, hr, selected, hs, hw, rfl⟩
    refine ⟨promotions, _, hp,
      ⟨quarantines, hq, installations, hi, index, hx, reflogs, hr, selected, hs, rfl⟩, ?_, hw⟩
    simp only [append_assoc]
  · rintro ⟨promotions, _, hp,
      ⟨quarantines, hq, installations, hi, index, hx, reflogs, hr, selected, hs, rfl⟩, rfl, hw⟩
    refine ⟨promotions, hp, quarantines, hq, installations, hi, index, hx, reflogs, hr, selected, hs, ?_, ?_⟩
    · simpa only [append_assoc] using hw
    · simp only [append_assoc]

def EffectKind.rank : EffectKind → Nat
  | .commitApplicationIntent => 10
  | .commitReservation => 11
  | .acceptBrokerIntent => 20
  | .createOwnershipMarker => 21
  | .recordMarkerExclusion => 21
  | .closeAdmissionGate => 30
  | .recordDrain => 31
  | .validateOriginalAcknowledgment => 40
  | .validateExport => 41
  | .validateInventory => 42
  | .acceptBaseline => 50
  | .materializePreparation => 60
  | .acknowledgePreparation => 61
  | .promoteRequiredObject => 70
  | .acknowledgeObjectPromotion => 71
  | .quarantineWorkingNode => 80
  | .acknowledgeWorkingQuarantine => 81
  | .installWorkingNode => 90
  | .restoreWorkingNode => 90
  | .acknowledgeWorkingInstall => 91
  | .quarantineIndex => 100
  | .installIndex => 101
  | .finalizeIndexAbsence => 101
  | .acknowledgeIndex => 102
  | .quarantineReflog => 110
  | .installReflog => 110
  | .quarantineSelectedRef => 111
  | .installSelectedRef => 112
  | .selectPackedFallback => 112
  | .acknowledgeMetadata => 113
  | .verifyPostimage => 120
  | .publishGeneration => 130
  | .commitDestinationBinding => 140
  | .acknowledgeDestinationBinding => 150
  | .recordReleaseIntent => 160
  | .removeOwnershipMarker => 161
  | .physicalRelease => 162
  | .logicalRelease => 163
  | .admitReaders => 164

def InRange (low high : Nat) (steps : List TransitionStep) : Prop :=
  steps.Pairwise (fun a b => a.effectKind.rank ≤ b.effectKind.rank) ∧
    ∀ step ∈ steps, low ≤ step.effectKind.rank ∧ step.effectKind.rank ≤ high

theorem InRange.append {low middle middle' high : Nat} {xs ys : List TransitionStep}
    (first : InRange low middle xs) (second : InRange middle' high ys) (le : middle ≤ middle')
    (low_le : low ≤ middle') (le_high : middle ≤ high) : InRange low high (xs ++ ys) := by
  refine ⟨pairwise_append.mpr ⟨first.1, second.1, ?_⟩, ?_⟩
  · intro a ha b hb
    have above := (first.2 a ha).2
    have below := (second.2 b hb).1
    omega
  · intro step hm
    rcases mem_append.mp hm with h | h
    · have := first.2 step h
      omega
    · have := second.2 step h
      omega

theorem InRange.constant {rank : Nat} (hs : ∀ step ∈ steps, step.effectKind.rank = rank) :
    InRange rank rank steps := by
  refine ⟨pairwise_of_forall_mem_list ?_, ?_⟩
  · intro a ha b hb
    rw [hs a ha, hs b hb]
  · intro step hm
    rw [hs step hm]
    exact ⟨le_refl _, le_refl _⟩

def controlSteps : List TransitionStep :=
  [applicationStep 1 .commitApplicationIntent, applicationStep 1 .commitReservation,
    brokerStep 2 .acceptBrokerIntent, brokerStep 3 .closeAdmissionGate, brokerStep 3 .recordDrain,
    applicationStep 4 .validateOriginalAcknowledgment, applicationStep 4 .validateExport,
    applicationStep 4 .validateInventory, applicationStep 5 .acceptBaseline,
    applicationStep 6 .acknowledgePreparation, applicationStep 7 .acknowledgeObjectPromotion,
    applicationStep 8 .acknowledgeWorkingQuarantine, applicationStep 9 .acknowledgeWorkingInstall,
    applicationStep 10 .acknowledgeIndex, applicationStep 11 .acknowledgeMetadata,
    applicationStep 12 .verifyPostimage, brokerStep 13 .publishGeneration,
    applicationStep 14 .commitDestinationBinding, brokerStep 15 .acknowledgeDestinationBinding,
    applicationStep 16 .recordReleaseIntent, brokerStep 16 .physicalRelease,
    applicationStep 16 .logicalRelease, brokerStep 16 .admitReaders]

def createStep (marker : OwnershipMarkerSpec) : TransitionStep :=
  ⟨2, .broker, .createOwnershipMarker, [text "content:" ++ marker.slotId],
    distinctParents [marker.parent], some [], some marker.slotId⟩

def exclusionStep (marker : OwnershipMarkerSpec) : TransitionStep :=
  ⟨2, .broker, .recordMarkerExclusion, [text "broker-journal"], [], none, some marker.slotId⟩

def slotStep (stage : Nat) (kind : EffectKind) (label : Text) (slot : PreparationSlot) :
    TransitionStep :=
  moveStep stage kind [label] slot.slotId [slot.materializationParent, slot.installationParent]

def restoreStep (slot : QuarantineSlot) (parent : ParentBinding) : TransitionStep :=
  moveStep 9 .restoreWorkingNode [text "node:" ++ slot.slotId] slot.slotId
    [slot.destinationParent, parent]

attribute [simp] applicationStep brokerStep moveStep materializationStep quarantineStep
  markerRemovalStep createStep
  exclusionStep slotStep restoreStep

def Quarantines (spec : ReconciliationSpec) (slot : QuarantineSlot) (node : NodeState) : Prop :=
  slot ∈ spec.quarantineSlots ∧ slot.source = node.location ∧ slot.sourceIdentity = node.reference

def Prepares (spec : ReconciliationSpec) (slot : PreparationSlot) (node : DesiredNodeState) : Prop :=
  slot ∈ spec.preparationSlots ∧ node.reference = .prepared slot.slotId

inductive CompiledStep (spec : ReconciliationSpec) : TransitionStep → Prop
  | control {step : TransitionStep} (listed : step ∈ controlSteps) : CompiledStep spec step
  | create (marker : OwnershipMarkerSpec) (member : marker ∈ spec.ownershipMarkers) :
      CompiledStep spec (createStep marker)
  | exclusion (marker : OwnershipMarkerSpec) (member : marker ∈ spec.ownershipMarkers) :
      CompiledStep spec (exclusionStep marker)
  | removal (marker : OwnershipMarkerSpec) (member : marker ∈ spec.ownershipMarkers) :
      CompiledStep spec (markerRemovalStep marker)
  | materialization (slot : PreparationSlot) (member : slot ∈ spec.preparationSlots) :
      CompiledStep spec (materializationStep slot)
  | promotion (item : RequiredObject) (missing : item ∈ missingObjects spec) (slot : PreparationSlot)
      (member : slot ∈ spec.preparationSlots) (source : slot.slotId = item.sourceSlotId) :
      CompiledStep spec (slotStep 7 .promoteRequiredObject (text "content:" ++ item.objectId) slot)
  | quarantineWorking (slot : QuarantineSlot) (node : NodeState)
      (member : node ∈ spec.baseline.workingNodes) (listed : slot ∈ workingQuarantines spec)
      (identity : node.reference = slot.sourceIdentity) :
      CompiledStep spec (quarantineStep 8 .quarantineWorkingNode slot)
  | installWorking (node : DesiredNodeState) (member : node ∈ spec.desired.workingNodes)
      (slot : PreparationSlot) (prepares : Prepares spec slot node) :
      CompiledStep spec (slotStep 9 .installWorkingNode (text "node:" ++ slot.slotId) slot)
  | restoreWorking (node : DesiredNodeState) (member : node ∈ spec.desired.workingNodes)
      (slot : QuarantineSlot) (listed : slot ∈ workingQuarantines spec)
      (identity : node.reference = .existing slot.sourceIdentity) (parent : ParentBinding)
      (restoration : slot.restorationParent = some parent) :
      CompiledStep spec (restoreStep slot parent)
  | quarantineIndex (node : NodeState) (slot : QuarantineSlot)
      (storage : spec.baseline.index.storage = .node node) (quarantines : Quarantines spec slot node) :
      CompiledStep spec (quarantineStep 10 .quarantineIndex slot)
  | installIndex (node : DesiredNodeState) (slot : PreparationSlot)
      (storage : spec.desired.index.storage = .node node) (prepares : Prepares spec slot node) :
      CompiledStep spec (slotStep 10 .installIndex (text "node:" ++ slot.slotId) slot)
  | finalizeIndex (node : NodeState) (slot : QuarantineSlot)
      (storage : spec.baseline.index.storage = .node node) (quarantines : Quarantines spec slot node)
      (absent : spec.desired.index.storage.node? = none) :
      CompiledStep spec ⟨10, .broker, .finalizeIndexAbsence, [],
        distinctParents [slot.sourceParent], none, none⟩
  | quarantineReflog (node : NodeState) (slot : QuarantineSlot)
      (member : .node node ∈ spec.baseline.refs.reflogs) (quarantines : Quarantines spec slot node) :
      CompiledStep spec (quarantineStep 11 .quarantineReflog slot)
  | installReflog (node : DesiredNodeState) (slot : PreparationSlot)
      (member : .node node ∈ spec.desired.refs.reflogs) (prepares : Prepares spec slot node) :
      CompiledStep spec (slotStep 11 .installReflog (text "node:" ++ slot.slotId) slot)
  | quarantineSelected (node : NodeState) (slot : QuarantineSlot)
      (storage : spec.baseline.refs.looseRef = .node node)
      (quarantines : Quarantines spec slot node) :
      CompiledStep spec (quarantineStep 11 .quarantineSelectedRef slot)
  | installSelected (node : DesiredNodeState) (slot : PreparationSlot)
      (storage : spec.desired.refs.looseRef = .node node) (prepares : Prepares spec slot node) :
      CompiledStep spec (slotStep 11 .installSelectedRef (text "node:" ++ slot.slotId) slot)
  | selectPacked (absent : spec.desired.refs.looseRef.node? = none)
      (changed : spec.desired.refs.looseRef ≠ desiredStorageFromConcrete spec.baseline.refs.looseRef) :
      CompiledStep spec (applicationStep 11 .selectPackedFallback)

theorem slotAt_mem {slots : List PreparationSlot} {slotId : Text} {slot : PreparationSlot}
    (hf : slotAt slots slotId = some slot) : slot ∈ slots ∧ slot.slotId = slotId :=
  ⟨mem_of_find?_eq_some hf, by simpa using find?_some hf⟩

theorem quarantineAt_spec {node : NodeState} {slot : QuarantineSlot}
    (hf : quarantineAt spec node = some slot) : Quarantines spec slot node := by
  have hs := find?_some hf
  rw [decide_eq_true_eq] at hs
  exact ⟨mem_of_find?_eq_some hf, hs⟩

theorem quarantineOf_spec {identity : NodeIdentity} {slot : QuarantineSlot}
    (found : quarantineOf spec identity = some slot) :
    slot ∈ workingQuarantines spec ∧ slot.sourceIdentity = identity :=
  ⟨mem_of_find?_eq_some found, by simpa using find?_some found⟩

theorem compileInstallation_eq_ok {stage : Nat} {kind : EffectKind} {unprepared : String}
    {node : DesiredNodeState}
    (hc : compileInstallation spec stage kind unprepared node = .ok steps) :
    ∃ slot, Prepares spec slot node ∧
      steps = [slotStep stage kind (text "node:" ++ slot.slotId) slot] := by
  rw [compileInstallation] at hc
  cases reference : node.reference with
  | existing _ => simp [reference] at hc
  | prepared _ =>
    simp only [reference, installStep, steps_ok] at hc
    obtain ⟨_, ⟨slot, hf, rfl⟩, rfl⟩ := hc
    obtain ⟨hm, rfl⟩ := slotAt_mem hf
    exact ⟨slot, ⟨hm, reference⟩, rfl⟩

theorem compileQuarantine_eq_ok {stage : Nat} {kind : EffectKind}
    {state : Option (Storage NodeIdentity)}
    (hc : compileQuarantine spec stage kind state = .ok steps) :
    (∃ node slot, state = some (.node node) ∧ Quarantines spec slot node ∧
        steps = [quarantineStep stage kind slot]) ∨
    ((∀ node, state ≠ some (.node node)) ∧ steps = []) := by
  unfold compileQuarantine at hc
  split at hc
  next node =>
    simp only [steps_ok] at hc
    obtain ⟨slot, hf, rfl⟩ := hc
    exact .inl ⟨node, slot, rfl, quarantineAt_spec hf, rfl⟩
  next other =>
    rw [pure_eq_ok] at hc
    exact .inr ⟨other, hc.symm⟩

section Blocks
variable {spec : ReconciliationSpec} {steps : List TransitionStep} {step : TransitionStep}

theorem openingSteps_mem (member : step ∈ openingSteps spec) : CompiledStep spec step := by
  simp only [openingSteps, mem_append, mem_flatMap, mem_map] at member
  rcases member with (((first | ⟨marker, hl, hm⟩) | second) | ⟨slot, hl, rfl⟩) | last
  · exact .control (by simp only [controlSteps, mem_cons] at first ⊢; tauto)
  · simp only [markerCreationSteps, mem_cons, not_mem_nil, or_false] at hm
    rcases hm with rfl | rfl
    · exact .create marker hl
    · exact .exclusion marker hl
  · exact .control (by simp only [controlSteps, mem_cons] at second ⊢; tauto)
  · exact .materialization slot hl
  · exact .control (by simp only [controlSteps, mem_cons] at last ⊢; tauto)

theorem closingSteps_mem (hm : step ∈ closingSteps spec) : CompiledStep spec step := by
  simp only [closingSteps, mem_append, mem_map] at hm
  rcases hm with (first | ⟨marker, hl, rfl⟩) | last
  · exact .control (by simp only [controlSteps, mem_cons] at first ⊢; tauto)
  · exact .removal marker hl
  · exact .control (by simp only [controlSteps, mem_cons] at last ⊢; tauto)

theorem compilePromotions_steps (hc : compilePromotions spec = .ok steps) (member : step ∈ steps) :
    ∃ item ∈ missingObjects spec, ∃ slot ∈ spec.preparationSlots,
      slot.slotId = item.sourceSlotId ∧
      step = slotStep 7 .promoteRequiredObject (text "content:" ++ item.objectId) slot := by
  obtain ⟨item, missing, hm⟩ := mapM_mem hc member
  simp only [installStep, steps_ok] at hm
  obtain ⟨slot, hf, rfl⟩ := hm
  obtain ⟨hl, source⟩ := slotAt_mem hf
  exact ⟨item, missing, slot, hl, source, by rw [slotStep, source]⟩

theorem compileWorkingQuarantines_steps (hc : compileWorkingQuarantines spec = .ok steps)
    {step : TransitionStep} (member : step ∈ steps) :
    ∃ slot ∈ workingQuarantines spec, ∃ node ∈ spec.baseline.workingNodes,
      node.reference = slot.sourceIdentity ∧
      step = quarantineStep 8 .quarantineWorkingNode slot := by
  simp only [compileWorkingQuarantines, steps_ok] at hc
  obtain ⟨_, hf, rfl⟩ := hc
  obtain ⟨_, hl, rfl⟩ := mem_map.mp member
  obtain ⟨slot, hs, hm⟩ := mapM_mem hf (mem_sortBy.mp hl)
  simp only [steps_ok] at hm
  obtain ⟨node, hn, rfl⟩ := hm
  exact ⟨slot, hs, node, mem_of_find?_eq_some hn, by simpa using find?_some hn, rfl⟩

theorem compileWorkingInstallation_eq_ok {node : DesiredNodeState}
    (compiled : compileWorkingInstallation spec node = .ok step) :
    (∃ slot, Prepares spec slot node ∧
        step = slotStep 9 .installWorkingNode (text "node:" ++ slot.slotId) slot) ∨
    (∃ slot ∈ workingQuarantines spec, node.reference = .existing slot.sourceIdentity ∧
      ∃ parent, slot.restorationParent = some parent ∧ step = restoreStep slot parent) := by
  rw [compileWorkingInstallation] at compiled
  cases reference : node.reference with
  | prepared _ =>
    simp only [reference, installStep, steps_ok] at compiled
    obtain ⟨slot, hf, rfl⟩ := compiled
    obtain ⟨hm, rfl⟩ := slotAt_mem hf
    exact .inl ⟨slot, ⟨hm, reference⟩, rfl⟩
  | existing _ =>
    simp only [reference, steps_ok] at compiled
    obtain ⟨slot, hf, parent, restoration, rfl⟩ := compiled
    obtain ⟨hm, rfl⟩ := quarantineOf_spec hf
    exact .inr ⟨slot, hm, rfl, parent, restoration, rfl⟩

theorem compileWorkingInstallations_mem (hc : compileWorkingInstallations spec = .ok steps)
    {step : TransitionStep} (member : step ∈ steps) :
    ∃ node ∈ spec.desired.workingNodes, compileWorkingInstallation spec node = .ok step := by
  obtain ⟨node, hl, hm⟩ := mapM_mem hc member
  exact ⟨node, (mem_filter.mp (mem_sortBy.mp hl)).1, hm⟩

theorem compileIndexTarget_eq_ok (hc : compileIndexTarget spec = .ok steps) :
    (∃ node slot, spec.desired.index.storage = .node node ∧ Prepares spec slot node ∧
        steps = [slotStep 10 .installIndex (text "node:" ++ slot.slotId) slot]) ∨
    (∃ node slot, spec.baseline.index.storage = .node node ∧ Quarantines spec slot node ∧
      spec.desired.index.storage.node? = none ∧
      steps =
        [⟨10, .broker, .finalizeIndexAbsence, [], distinctParents [slot.sourceParent], none,
          none⟩]) := by
  unfold compileIndexTarget at hc
  split at hc
  next node storage =>
    obtain ⟨slot, hp, rfl⟩ := compileInstallation_eq_ok hc
    exact .inl ⟨node, slot, storage, hp, rfl⟩
  next ha storage =>
    simp only [steps_ok] at hc
    obtain ⟨_, hf, rfl⟩ := hc
    unfold indexQuarantineParent at hf
    split at hf
    next node present =>
      simp only [steps_ok] at hf
      obtain ⟨slot, hs, rfl⟩ := hf
      exact .inr ⟨node, slot, present, quarantineAt_spec hs, by rw [storage]; rfl, rfl⟩
    next => simp at hf

theorem changed_eq_ok {unchanged : Prop} [Decidable unchanged] {first second : Checked (List TransitionStep)}
    (hc : (if unchanged then pure [] else do
      let quarantine ← first
      let target ← second
      pure (quarantine ++ target)) = .ok steps) :
    (unchanged ∧ steps = []) ∨ (¬ unchanged ∧ ∃ quarantine target,
      first = .ok quarantine ∧ second = .ok target ∧ steps = quarantine ++ target) := by
  split at hc
  next hu => exact .inl ⟨hu, (pure_eq_ok.mp hc).symm⟩
  next changed =>
    simp only [steps_ok] at hc
    obtain ⟨quarantine, first, target, second, rfl⟩ := hc
    exact .inr ⟨changed, quarantine, target, first, second, rfl⟩

theorem compileIndex_mem (hc : compileIndex spec = .ok steps) (hm : step ∈ steps) :
    CompiledStep spec step := by
  obtain ⟨-, rfl⟩ | ⟨-, _, _, first, second, rfl⟩ := changed_eq_ok hc
  · simp at hm
  rcases mem_append.mp hm with h | h
  · obtain ⟨node, slot, storage, hq, rfl⟩ | ⟨-, rfl⟩ := compileQuarantine_eq_ok first
    · rw [mem_singleton.mp h]
      exact .quarantineIndex node slot (Option.some.inj storage) hq
    · simp at h
  · obtain ⟨node, slot, storage, hp, rfl⟩ | ⟨node, slot, storage, hq, ha, rfl⟩ :=
      compileIndexTarget_eq_ok second
    · rw [mem_singleton.mp h]
      exact .installIndex node slot storage hp
    · rw [mem_singleton.mp h]
      exact .finalizeIndex node slot storage hq ha

variable {location : Location}

theorem storageAt_mem {ρ : Type} {states : List (Storage ρ)} {state : Storage ρ}
    (found : storageAt states location = some state) : state ∈ states ∧ state.location = location :=
  ⟨mem_of_find?_eq_some found, by simpa using find?_some found⟩

theorem compileReflogTarget_eq_ok {state : Option (Storage NodeReference)}
    (hc : compileReflogTarget spec state = .ok steps) :
    (∃ node slot, state = some (.node node) ∧ Prepares spec slot node ∧
        steps = [slotStep 11 .installReflog (text "node:" ++ slot.slotId) slot]) ∨
    ((∀ node, state ≠ some (.node node)) ∧ steps = []) := by
  unfold compileReflogTarget at hc
  split at hc
  next node =>
    obtain ⟨slot, hp, rfl⟩ := compileInstallation_eq_ok hc
    exact .inl ⟨node, slot, rfl, hp, rfl⟩
  next other =>
    rw [pure_eq_ok] at hc
    exact .inr ⟨other, hc.symm⟩

theorem compileReflog_mem (hc : compileReflog spec location = .ok steps)
    (hm : step ∈ steps) : CompiledStep spec step := by
  obtain ⟨-, rfl⟩ | ⟨-, _, _, first, second, rfl⟩ := changed_eq_ok hc
  · simp at hm
  rcases mem_append.mp hm with h | h
  · obtain ⟨node, slot, storage, hq, rfl⟩ | ⟨-, rfl⟩ := compileQuarantine_eq_ok first
    · rw [mem_singleton.mp h]
      exact .quarantineReflog node slot (storageAt_mem storage).1 hq
    · simp at h
  · obtain ⟨node, slot, storage, hp, rfl⟩ | ⟨-, rfl⟩ := compileReflogTarget_eq_ok second
    · rw [mem_singleton.mp h]
      exact .installReflog node slot (storageAt_mem storage).1 hp
    · simp at h

theorem compileSelectedTarget_eq_ok (hc : compileSelectedTarget spec = .ok steps) :
    (∃ node slot, spec.desired.refs.looseRef = .node node ∧ Prepares spec slot node ∧
        steps = [slotStep 11 .installSelectedRef (text "node:" ++ slot.slotId) slot]) ∨
    (spec.desired.refs.looseRef.node? = none ∧
      steps = [applicationStep 11 .selectPackedFallback]) := by
  unfold compileSelectedTarget at hc
  split at hc
  next node storage =>
    obtain ⟨slot, hp, rfl⟩ := compileInstallation_eq_ok hc
    exact .inl ⟨node, slot, storage, hp, rfl⟩
  next ha storage =>
    rw [pure_eq_ok] at hc
    exact .inr ⟨by rw [storage]; rfl, hc.symm⟩

theorem compileSelectedRef_mem (compiled : compileSelectedRef spec = .ok steps)
    (hm : step ∈ steps) : CompiledStep spec step := by
  obtain ⟨-, rfl⟩ | ⟨hc, _, _, first, second, rfl⟩ := changed_eq_ok compiled
  · simp at hm
  rcases mem_append.mp hm with h | h
  · obtain ⟨node, slot, storage, hq, rfl⟩ | ⟨-, rfl⟩ := compileQuarantine_eq_ok first
    · rw [mem_singleton.mp h]
      exact .quarantineSelected node slot (Option.some.inj storage) hq
    · simp at h
  · obtain ⟨node, slot, storage, hp, rfl⟩ | ⟨ha, rfl⟩ := compileSelectedTarget_eq_ok second
    · rw [mem_singleton.mp h]
      exact .installSelected node slot storage hp
    · rw [mem_singleton.mp h]
      exact .selectPacked ha hc

end Blocks

structure CompiledBlocks (spec : ReconciliationSpec) (steps : List TransitionStep) : Type where
  promotions : List TransitionStep
  quarantines : List TransitionStep
  installations : List TransitionStep
  index : List TransitionStep
  reflogs : List (List TransitionStep)
  selected : List TransitionStep
  promoted : compilePromotions spec = .ok promotions
  quarantined : compileWorkingQuarantines spec = .ok quarantines
  installed : compileWorkingInstallations spec = .ok installations
  indexed : compileIndex spec = .ok index
  logged : (reflogLocations spec).mapM (compileReflog spec) = .ok reflogs
  referred : compileSelectedRef spec = .ok selected
  whole : steps = openingSteps spec ++ (promotions ++
    [applicationStep 7 .acknowledgeObjectPromotion] ++
    quarantines ++ [applicationStep 8 .acknowledgeWorkingQuarantine] ++
    installations ++ [applicationStep 9 .acknowledgeWorkingInstall] ++
    index ++ [applicationStep 10 .acknowledgeIndex] ++
    reflogs.flatten ++ selected ++ [applicationStep 11 .acknowledgeMetadata]) ++ closingSteps spec

theorem compiledBlocks {spec : ReconciliationSpec} {steps : List TransitionStep}
    (hc : compileTransitions spec = .ok steps) : Nonempty (CompiledBlocks spec steps) := by
  simp only [compileTransitions, steps_ok] at hc
  obtain ⟨promotions, hp, quarantines, hq, installations, hi, index, hx, reflogs, hr, selected, hs,
    -, rfl⟩ := hc
  exact ⟨⟨promotions, quarantines, installations, index, reflogs, selected, hp, hq, hi, hx, hr, hs,
    by simp only [append_assoc]⟩⟩

section Members
variable {spec : ReconciliationSpec} {steps : List TransitionStep}

theorem CompiledBlocks.step (hb : CompiledBlocks spec steps) {step : TransitionStep}
    (member : step ∈ steps) : CompiledStep spec step := by
  rw [hb.whole] at member
  simp only [mem_append, mem_singleton, mem_flatten] at member
  rcases member with (opening | (((((((((promotion | rfl) | quarantine) | rfl) | installation) | rfl) |
    index) | rfl) | ⟨_, logs, reflog⟩) | selected) | rfl) | closing
  · exact openingSteps_mem opening
  · obtain ⟨item, missing, slot, hl, source, rfl⟩ :=
      compilePromotions_steps hb.promoted promotion
    exact .promotion item missing slot hl source
  · exact .control (by simp [controlSteps])
  · obtain ⟨slot, hl, node, hp, identity, rfl⟩ :=
      compileWorkingQuarantines_steps hb.quarantined quarantine
    exact .quarantineWorking slot node hp hl identity
  · exact .control (by simp [controlSteps])
  · obtain ⟨node, hp, hm⟩ := compileWorkingInstallations_mem hb.installed installation
    obtain ⟨slot, prepares, rfl⟩ | ⟨slot, hl, identity, parent, restoration, rfl⟩ :=
      compileWorkingInstallation_eq_ok hm
    · exact .installWorking node hp slot prepares
    · exact .restoreWorking node hp slot hl identity parent restoration
  · exact .control (by simp [controlSteps])
  · exact compileIndex_mem hb.indexed index
  · exact .control (by simp [controlSteps])
  · obtain ⟨_, -, hm⟩ := mapM_mem hb.logged logs
    exact compileReflog_mem hm reflog
  · exact compileSelectedRef_mem hb.referred selected
  · exact .control (by simp [controlSteps])
  · exact closingSteps_mem closing

attribute [local simp] EffectKind.rank

theorem openingSteps_range (spec : ReconciliationSpec) : InRange 10 61 (openingSteps spec) := by
  have first : InRange 10 20 [applicationStep 1 .commitApplicationIntent,
      applicationStep 1 .commitReservation, brokerStep 2 .acceptBrokerIntent] := by
    simp [InRange]
  have markers : InRange 21 21 (spec.ownershipMarkers.flatMap markerCreationSteps) := by
    refine .constant fun step hm => ?_
    obtain ⟨_, -, made⟩ := mem_flatMap.mp hm
    simp only [markerCreationSteps, mem_cons, not_mem_nil, or_false] at made
    rcases made with rfl | rfl <;> rfl
  have control : InRange 30 50 [brokerStep 3 .closeAdmissionGate, brokerStep 3 .recordDrain,
      applicationStep 4 .validateOriginalAcknowledgment, applicationStep 4 .validateExport,
      applicationStep 4 .validateInventory, applicationStep 5 .acceptBaseline] := by
    simp [InRange]
  have slots : InRange 60 60 (spec.preparationSlots.map materializationStep) := by
    refine .constant fun step hm => ?_
    obtain ⟨_, -, rfl⟩ := mem_map.mp hm
    rfl
  have last : InRange 61 61 [applicationStep 6 .acknowledgePreparation] := by simp [InRange]
  exact ((((first.append markers (by omega) (by omega) (by omega)).append control (by omega)
    (by omega) (by omega)).append slots (by omega) (by omega) (by omega)).append last (by omega)
    (by omega) (by omega))

theorem closingSteps_range (spec : ReconciliationSpec) : InRange 120 164 (closingSteps spec) := by
  have first : InRange 120 160 [applicationStep 12 .verifyPostimage, brokerStep 13 .publishGeneration,
      applicationStep 14 .commitDestinationBinding, brokerStep 15 .acknowledgeDestinationBinding,
      applicationStep 16 .recordReleaseIntent] := by
    simp [InRange]
  have markers : InRange 161 161 (spec.ownershipMarkers.map markerRemovalStep) := by
    refine .constant fun step hm => ?_
    obtain ⟨_, -, rfl⟩ := mem_map.mp hm
    rfl
  have last : InRange 162 164 [brokerStep 16 .physicalRelease, applicationStep 16 .logicalRelease,
      brokerStep 16 .admitReaders] := by
    simp [InRange]
  exact (first.append markers (by omega) (by omega) (by omega)).append last (by omega) (by omega) (by omega)

theorem compileIndex_range (hc : compileIndex spec = .ok steps) : InRange 100 101 steps := by
  obtain ⟨-, rfl⟩ | ⟨-, quarantine, target, first, second, rfl⟩ := changed_eq_ok hc
  · simp [InRange]
  have hq : InRange 100 100 quarantine := by
    refine .constant ?_
    obtain ⟨node, slot, -, -, rfl⟩ | ⟨-, rfl⟩ := compileQuarantine_eq_ok first
    · simp
    · simp
  have targets : InRange 101 101 target := by
    refine .constant ?_
    obtain ⟨node, slot, -, -, rfl⟩ | ⟨_, _, -, -, -, rfl⟩ := compileIndexTarget_eq_ok second
    · simp
    · simp
  exact hq.append targets (by omega) (by omega) (by omega)

theorem compileReflog_rank {location : Location} (hc : compileReflog spec location = .ok steps)
    {step : TransitionStep} (hm : step ∈ steps) : step.effectKind.rank = 110 := by
  obtain ⟨-, rfl⟩ | ⟨-, _, _, first, second, rfl⟩ := changed_eq_ok hc
  · simp at hm
  rcases mem_append.mp hm with h | h
  · obtain ⟨node, slot, -, -, rfl⟩ | ⟨-, rfl⟩ := compileQuarantine_eq_ok first
    · rw [mem_singleton.mp h]
      rfl
    · simp at h
  · obtain ⟨_, _, -, -, rfl⟩ | ⟨-, rfl⟩ := compileReflogTarget_eq_ok second
    · rw [mem_singleton.mp h]
      rfl
    · simp at h

theorem compileSelectedRef_range (hc : compileSelectedRef spec = .ok steps) : InRange 111 112 steps := by
  obtain ⟨-, rfl⟩ | ⟨-, quarantine, target, first, second, rfl⟩ := changed_eq_ok hc
  · simp [InRange]
  have hq : InRange 111 111 quarantine := by
    refine .constant ?_
    obtain ⟨node, slot, -, -, rfl⟩ | ⟨-, rfl⟩ := compileQuarantine_eq_ok first
    · simp
    · simp
  have targets : InRange 112 112 target := by
    refine .constant ?_
    obtain ⟨_, _, -, -, rfl⟩ | ⟨-, rfl⟩ := compileSelectedTarget_eq_ok second
    · simp
    · simp
  exact hq.append targets (by omega) (by omega) (by omega)

section
variable (blocks : CompiledBlocks spec steps)
include blocks

theorem CompiledBlocks.sorted : steps.Pairwise fun a b => a.effectKind.rank ≤ b.effectKind.rank := by
  have single : ∀ stage kind, InRange kind.rank kind.rank [applicationStep stage kind] := by
    intro _ _
    simp [InRange]
  have promotions : InRange 70 70 blocks.promotions := by
    refine .constant fun step hm => ?_
    obtain ⟨_, -, slot, -, -, rfl⟩ := compilePromotions_steps blocks.promoted hm
    rfl
  have hq : InRange 80 80 blocks.quarantines := by
    refine .constant fun step hm => ?_
    obtain ⟨slot, -, node, -, -, rfl⟩ := compileWorkingQuarantines_steps blocks.quarantined hm
    rfl
  have installations : InRange 90 90 blocks.installations := by
    refine .constant fun step hm => ?_
    obtain ⟨_, -, made⟩ := compileWorkingInstallations_mem blocks.installed hm
    obtain ⟨slot, -, rfl⟩ | ⟨_, -, -, _, -, rfl⟩ := compileWorkingInstallation_eq_ok made <;>
      rfl
  have reflogs : InRange 110 110 blocks.reflogs.flatten := by
    refine .constant fun step hm => ?_
    obtain ⟨_, logs, reflog⟩ := mem_flatten.mp hm
    obtain ⟨_, -, made⟩ := mapM_mem blocks.logged logs
    exact compileReflog_rank made reflog
  have middle := ((((((((promotions.append (single 7 .acknowledgeObjectPromotion) (by decide) (by decide)
    (by decide)).append hq (by decide) (by decide) (by decide)).append
    (single 8 .acknowledgeWorkingQuarantine) (by decide) (by decide) (by decide)).append installations
    (by decide) (by decide) (by decide)).append (single 9 .acknowledgeWorkingInstall) (by decide)
    (by decide) (by decide)).append (compileIndex_range blocks.indexed) (by decide) (by decide)
    (by decide)).append (single 10 .acknowledgeIndex) (by decide) (by decide) (by decide)).append
    reflogs (by decide) (by decide) (by decide)).append (compileSelectedRef_range blocks.referred)
    (by decide) (by decide) (by decide) |>.append (single 11 .acknowledgeMetadata) (by decide)
    (by decide) (by decide)
  have all := ((openingSteps_range spec).append middle (by decide) (by decide) (by decide)).append
    (closingSteps_range spec) (by decide) (by decide) (by decide)
  rw [blocks.whole]
  exact all.1

theorem CompiledBlocks.mem_middle {step : TransitionStep}
    (hm : step ∈ blocks.promotions ∨ step ∈ blocks.quarantines ∨ step ∈ blocks.installations ∨
      step ∈ blocks.index ∨ step ∈ blocks.reflogs.flatten ∨ step ∈ blocks.selected) :
    step ∈ steps := by
  rw [blocks.whole]
  simp only [mem_append]
  tauto

theorem CompiledBlocks.control {step : TransitionStep} (hl : step ∈ controlSteps) : step ∈ steps := by
  rw [blocks.whole]
  simp only [controlSteps, openingSteps, closingSteps, mem_append, mem_cons, not_mem_nil, or_false] at hl ⊢
  tauto

theorem CompiledBlocks.removal {marker : OwnershipMarkerSpec}
    (hm : marker ∈ spec.ownershipMarkers) : markerRemovalStep marker ∈ steps := by
  rw [blocks.whole]
  refine mem_append_right _ (mem_append_left _ (mem_append_right _ ?_))
  exact mem_map.mpr ⟨marker, hm, rfl⟩

theorem CompiledBlocks.promotion {item : RequiredObject} (missing : item ∈ missingObjects spec) :
    ∃ slot ∈ spec.preparationSlots, slot.slotId = item.sourceSlotId ∧
      slotStep 7 .promoteRequiredObject (text "content:" ++ item.objectId) slot ∈ steps := by
  obtain ⟨_, _, hm⟩ := mem_mapM blocks.promoted missing
  simp only [installStep, steps_ok] at hm
  obtain ⟨slot, hf, rfl⟩ := hm
  obtain ⟨hl, source⟩ := slotAt_mem hf
  refine ⟨slot, hl, source, blocks.mem_middle (.inl ?_)⟩
  rwa [slotStep, source]

theorem CompiledBlocks.workingQuarantine {slot : QuarantineSlot}
    (hl : slot ∈ workingQuarantines spec) :
    quarantineStep 8 .quarantineWorkingNode slot ∈ steps := by
  refine blocks.mem_middle (.inr (.inl ?_))
  have hc := blocks.quarantined
  simp only [compileWorkingQuarantines, steps_ok] at hc
  obtain ⟨_, hf, hm⟩ := hc
  obtain ⟨_, hr, single⟩ := mem_mapM hf hl
  simp only [steps_ok] at single
  obtain ⟨_, -, rfl⟩ := single
  rw [← hm]
  exact mem_map.mpr ⟨_, mem_sortBy.mpr hr, rfl⟩

end

end Members

end Yinshi.Reconcile
