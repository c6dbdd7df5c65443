import Yinshi.Reconcile.Canonicalize
import Yinshi.Reconcile.Compiled
import Yinshi.Reconcile.Graph

/-! Binding a canonical specification again changes nothing. The compiler sorts by
distinct keys, so a rearranged specification compiles to the same stages 8 to 11;
only markers, preparations and promotions are reordered among themselves. -/

namespace Yinshi.Reconcile
open ByteText Keyed Checked Artifact List
variable {spec : ReconciliationSpec} {order : SpecOrder} {ρ : Type} {H : Hashes}

theorem consumeEach_eq_ok {α : Type} {key : α → Text} {check : List Text → α → Checked Unit}
    (alone : α → Prop) (spec : ∀ seen x, check seen x = .ok () ↔ alone x ∧ key x ∉ seen)
    {seen consumed : List Text} {xs : List α} :
    consumeEach key check seen xs = .ok consumed ↔
    consumed = (xs.map key).reverse ++ seen ∧ (∀ x ∈ xs, alone x) ∧ (xs.map key).Nodup ∧
    ∀ x ∈ xs, key x ∉ seen := by
  induction xs generalizing seen with
  | nil =>
    simp only [consumeEach, pure_eq_ok, map_nil, reverse_nil, nil_append,
      not_mem_nil, false_implies, implies_true, nodup_nil, and_true]
    exact eq_comm
  | cons _ _ ih =>
    simp only [consumeEach, steps_ok, spec, ih, map_cons, reverse_cons, append_assoc,
      singleton_append, mem_cons, forall_eq_or_imp, nodup_cons, mem_map, not_or, not_exists,
      not_and]
    constructor
    · rintro ⟨⟨first, hu⟩, hs, rest, hd, hf⟩
      exact ⟨hs, ⟨first, rest⟩, ⟨fun y hm => (hf y hm).1, hd⟩, hu,
        fun y hm => (hf y hm).2⟩
    · rintro ⟨hs, ⟨first, rest⟩, ⟨ha, hd⟩, hu, hf⟩
      exact ⟨⟨first, hu⟩, hs, rest, hd,
        fun y hm => ⟨ha y hm, hf y hm⟩⟩

theorem validateNodeConsumer_eq_ok (seen : List Text) (row : DesiredNodeState × Text) :
    validateNodeConsumer spec seen row = .ok () ↔
    validateNodeConsumer spec [] row = .ok () ∧ row.2 ∉ seen := by
  simp only [validateNodeConsumer, steps_ok, not_mem_nil, not_false_eq_true, true_and]
  grind

theorem validateObjectConsumer_eq_ok (seen : List Text) (item : RequiredObject) :
    validateObjectConsumer spec seen item = .ok () ↔
    validateObjectConsumer spec [] item = .ok () ∧ item.sourceSlotId ∉ seen := by
  simp only [validateObjectConsumer, steps_ok, not_mem_nil, not_false_eq_true, true_and]
  grind

def consumedSlots (spec : ReconciliationSpec) : List Text :=
  (preparedNodes spec.desired).map Prod.snd ++ spec.requiredObjects.map (·.sourceSlotId)

theorem validateSlotConsumers_eq_ok :
    validateSlotConsumers spec = .ok () ↔
    (∀ row ∈ preparedNodes spec.desired, validateNodeConsumer spec [] row = .ok ()) ∧
    (∀ item ∈ spec.requiredObjects, validateObjectConsumer spec [] item = .ok ()) ∧
    (consumedSlots spec).Nodup ∧
    ∀ slot ∈ spec.preparationSlots, slot.slotId ∈ consumedSlots spec := by
  simp only [validateSlotConsumers, steps_ok, consumeEach_eq_ok _ validateNodeConsumer_eq_ok,
    consumeEach_eq_ok _ validateObjectConsumer_eq_ok, consumedSlots, nodup_append', append_nil,
    not_mem_nil, not_false_eq_true, implies_true, and_true, not_exists, not_and, not_not]
  constructor
  · rintro ⟨_, ⟨rfl, nodes, slots⟩, _, ⟨rfl, objects, sources, ha⟩, he⟩
    refine ⟨nodes, objects, ⟨slots, sources, ?_⟩, ?_⟩
    · intro _ first second
      obtain ⟨item, hm, rfl⟩ := mem_map.mp second
      exact ha item hm (mem_reverse.mpr first)
    · intro slot hm
      simpa [or_comm] using he slot hm
  · rintro ⟨nodes, objects, ⟨slots, sources, ha⟩, he⟩
    refine ⟨_, ⟨rfl, nodes, slots⟩, _, ⟨rfl, objects, sources, ?_⟩, ?_⟩
    · intro item hm first
      exact ha (mem_reverse.mp first) (mem_map.mpr ⟨item, hm, rfl⟩)
    · intro slot hm
      simpa [or_comm] using he slot hm

theorem preparedNodes_arrange {desired : DesiredReplicaState} {order : ReplicaOrder NodeReference}
    (perm : order.Of desired) :
    (preparedNodes (desired.arrange order)).Perm (preparedNodes desired) :=
  (((((Perm.refl _).append perm.workingNodes).append (Perm.refl _)).append (Perm.refl _)).append
    ((perm.reflogs.append perm.unrelatedMetadata).filterMap _)).filterMap _

theorem installTargets_arrange (perm : order.Of spec) :
    (installTargets (spec.arrange order)).Perm (installTargets spec) :=
  ((preparedNodes_arrange perm.desired).map _).append ((missingObjects_arrange perm).map _)

theorem protectedLocations_arrange (perm : order.Of spec) :
    (protectedLocations (spec.arrange order)).Perm (protectedLocations spec) :=
  (perm.boundaries.flatMap_right _).map _

theorem desiredStorageFromConcrete_location (state : Storage NodeIdentity) :
    (desiredStorageFromConcrete state).location = state.location := by
  cases state <;> rfl

theorem reflogs_nodup {replica : Replica ρ}
    (hd : ((staticStorage replica).map (·.location)).Nodup) :
    (replica.refs.reflogs.map (·.location)).Nodup := by
  simp only [staticStorage, staticRegistrations, administrativeRegistrations, map_append,
    map_map, Function.comp_def, nodup_append'] at hd
  exact hd.1.1.2.1

theorem metadata_nodup {replica : Replica ρ}
    (hd : ((staticStorage replica).map (·.location)).Nodup) :
    (replica.refs.unrelatedMetadata.map (·.location)).Nodup := by
  simp only [staticStorage, staticRegistrations, administrativeRegistrations, map_append,
    map_map, Function.comp_def, nodup_append'] at hd
  exact hd.1.2.1

section Transitions
variable {H : Hashes} {spec : ReconciliationSpec} (valid : ValidSpec H spec) {order : SpecOrder}
  (perm : order.Of spec)
include valid perm

theorem ValidSpec.consumers_arrange : validateSlotConsumers (spec.arrange order) = .ok () := by
  obtain ⟨nodes, objects, hd, he⟩ := validateSlotConsumers_eq_ok.1 valid.consumers
  have consumed : (consumedSlots (spec.arrange order)).Perm (consumedSlots spec) :=
    ((preparedNodes_arrange perm.desired).map _).append (perm.requiredObjects.map _)
  have node : ∀ row, validateNodeConsumer (spec.arrange order) [] row =
      validateNodeConsumer spec [] row := fun row => by
    simp only [validateNodeConsumer, valid.slotAt_arrange perm]
  have object : ∀ item, validateObjectConsumer (spec.arrange order) [] item =
      validateObjectConsumer spec [] item := fun item => by
    simp only [validateObjectConsumer, valid.slotAt_arrange perm]
  refine validateSlotConsumers_eq_ok.2 ⟨?_, ?_, consumed.nodup_iff.mpr hd, ?_⟩
  · intro row hm
    rw [node]
    exact nodes row ((preparedNodes_arrange perm.desired).mem_iff.mp hm)
  · intro item hm
    rw [object]
    exact objects item (perm.requiredObjects.mem_iff.mp hm)
  · intro slot hm
    exact consumed.mem_iff.mpr (he slot (perm.preparationSlots.mem_iff.mp hm))

theorem ValidSpec.targets_arrange : validateInstallTargets (spec.arrange order) = .ok () := by
  have hc := valid.targets
  have targets := installTargets_arrange perm
  simp only [validateInstallTargets, steps_ok] at hc ⊢
  refine ⟨(eachFresh_perm targets.symm).mp hc.1, ?_⟩
  simp only [valid.slotAt_arrange perm, valid.immediate_arrange perm]
  exact (each_perm targets.symm).mp hc.2

theorem ValidSpec.parentBindings_arrange :
    eachAfter checkParentBinding [] (collectedParentBindings (spec.arrange order)) = .ok () := by
  refine eachAfter_perm checkParentBinding_eq_ok ?_ (collectedParents_arrange perm).symm valid.parentBindings
  rintro _ second ⟨sameLocation, sameReference⟩
  refine ⟨fun place => (sameLocation place.symm).symm, fun existing reference => ?_⟩
  have existing' : second.isExisting = true := by simpa [ParentBinding.isExisting, reference] using existing
  exact (sameReference existing' reference.symm).symm

theorem ValidSpec.absent_arrange :
    ∀ row ∈ requiredAbsentLocations (spec.arrange order),
      row.1 ∉ (physicalRegistrations (spec.arrange order)).map (·.location) ∧
      row.1 ∉ staticLocations (spec.arrange order) := by
  intro row hm
  obtain ⟨_, _⟩ := valid.absent row ((requiredAbsent_arrange perm).mem_iff.mp hm)
  refine ⟨?_, by rwa [mem_staticLocations_arrange perm]⟩
  rwa [((physicalRegistrations_arrange perm).map _).mem_iff]

theorem ValidSpec.filesystems_arrange : ∀ node ∈ baselineNodes (spec.arrange order),
    checkNodeFilesystem (spec.arrange order).boundaries node = .ok () := by
  intro node hm
  have hc := valid.filesystems node ((baselineNodes_arrange perm).mem_iff.mp hm)
  simpa only [checkNodeFilesystem, valid.filesystem_arrange perm] using hc

theorem ValidSpec.targetParents_arrange :
    validateTargetParents (spec.arrange order) (initialParents (spec.arrange order)) = .ok () := by
  have hc := valid.targetParents
  simp only [validateTargetParents, each_eq_ok, checkWhen_eq_ok, rejectIf_eq_ok,
    initialParents_arrange perm, mem_quarantineTransitions_arrange perm,
    (protectedLocations_arrange perm).mem_iff,
    (installTargets_arrange perm).mem_iff] at hc ⊢
  exact hc

theorem ValidSpec.reflogPresence_arrange : validateReflogPresence (spec.arrange order) = .ok () := by
  have hc := valid.reflogPresence
  have baseline : ∀ location, location ∈ (spec.arrange order).baseline.refs.reflogs.map
      (·.location) ↔ location ∈ spec.baseline.refs.reflogs.map (·.location) :=
    fun _ => (perm.baseline.reflogs.map _).mem_iff
  have desired : ∀ location, location ∈ (spec.arrange order).desired.refs.reflogs.map
      (·.location) ↔ location ∈ spec.desired.refs.reflogs.map (·.location) :=
    fun _ => (perm.desired.reflogs.map _).mem_iff
  have baselineLogs : ∀ state, state ∈ (spec.arrange order).baseline.refs.reflogs ↔
      state ∈ spec.baseline.refs.reflogs := fun _ => perm.baseline.reflogs.mem_iff
  have desiredLogs : ∀ state, state ∈ (spec.arrange order).desired.refs.reflogs ↔
      state ∈ spec.desired.refs.reflogs := fun _ => perm.desired.reflogs.mem_iff
  simp only [validateReflogPresence, steps_ok, baseline, desired, baselineLogs, desiredLogs] at hc ⊢
  exact hc

omit perm in
theorem ValidSpec.desiredReflogs : (spec.desired.refs.reflogs.map (·.location)).Nodup :=
  reflogs_nodup valid.desiredLocations

omit perm in
theorem ValidSpec.baselineReflogs : (spec.baseline.refs.reflogs.map (·.location)).Nodup :=
  reflogs_nodup valid.baselineLocations

theorem ValidSpec.immutableAdmin_arrange : validateImmutableAdmin (spec.arrange order) = .ok () := by
  have hc := valid.immutableAdmin
  have states : sameStates (spec.arrange order).desired.refs.unrelatedMetadata
      ((spec.arrange order).baseline.refs.unrelatedMetadata.map desiredStorageFromConcrete) ↔
      sameStates spec.desired.refs.unrelatedMetadata
        (spec.baseline.refs.unrelatedMetadata.map desiredStorageFromConcrete) := by
    have desired := metadata_nodup valid.desiredLocations
    have baseline : ((spec.baseline.refs.unrelatedMetadata.map desiredStorageFromConcrete).map
        (·.location)).Nodup := by
      simpa [Function.comp_def, desiredStorageFromConcrete_location] using metadata_nodup
        valid.baselineLocations
    have hs : ((spec.arrange order).baseline.refs.unrelatedMetadata.map desiredStorageFromConcrete).Perm
        (spec.baseline.refs.unrelatedMetadata.map desiredStorageFromConcrete) :=
          perm.baseline.unrelatedMetadata.map _
    have hs' : (spec.arrange order).desired.refs.unrelatedMetadata.Perm
        spec.desired.refs.unrelatedMetadata := perm.desired.unrelatedMetadata
    simp only [sameStates, storageAt_perm desired hs'.symm, storageAt_perm baseline hs.symm,
      hs.mem_iff, hs'.mem_iff]
  simp only [validateImmutableAdmin, steps_ok, states] at hc ⊢
  exact hc

theorem ValidSpec.workingNodeAt_arrange :
    workingNodeAt (spec.arrange order).desired.workingNodes =
      workingNodeAt spec.desired.workingNodes :=
  workingNodeAt_perm valid.desiredPaths perm.desired.workingNodes.symm

theorem ValidSpec.directlyChanged_arrange (node : NodeState) :
    directlyChanged (spec.arrange order) node ↔ directlyChanged spec node := by
  rw [directlyChanged, directlyChanged, valid.workingNodeAt_arrange perm]

theorem ValidSpec.insideReplaced_arrange (node : NodeState) :
    insideReplaced (spec.arrange order) node ↔ insideReplaced spec node := by
  have nodes : ∀ other, other ∈ (spec.arrange order).baseline.workingNodes ↔
      other ∈ spec.baseline.workingNodes := fun _ => perm.baseline.workingNodes.mem_iff
  simp only [insideReplaced, valid.directlyChanged_arrange perm, nodes]

theorem ValidSpec.reflogAt_arrange :
    storageAt (spec.arrange order).desired.refs.reflogs = storageAt spec.desired.refs.reflogs :=
  storageAt_perm valid.desiredReflogs perm.desired.reflogs.symm

theorem ValidSpec.expectedQuarantine_arrange :
    (expectedQuarantine (spec.arrange order)).Perm (expectedQuarantine spec) := by
  unfold expectedQuarantine
  simp only [valid.directlyChanged_arrange perm, valid.insideReplaced_arrange perm,
    valid.reflogAt_arrange perm]
  exact (((perm.baseline.workingNodes.filter _).append (Perm.refl _)).append
    (perm.baseline.reflogs.flatMap_right _)).append (Perm.refl _)

theorem ValidSpec.quarantineSet_arrange : validateQuarantineSet (spec.arrange order) = .ok () := by
  have hc := valid.quarantineSet
  have actual : (quarantineTransitions (spec.arrange order)).Perm (quarantineTransitions spec) :=
    perm.quarantineSlots.map _
  simp only [validateQuarantineSet, steps_ok, not_not,
    ((valid.expectedQuarantine_arrange perm).map _).mem_iff, actual.mem_iff, actual.nodup_iff]
    at hc ⊢
  exact hc

theorem ValidSpec.protectedTopology_arrange : validateProtectedTopology (spec.arrange order) = .ok () := by
  have hc := valid.protectedTopology
  have locations := protectedLocations_arrange perm
  have identities : (protectedIdentities (spec.arrange order)).Perm (protectedIdentities spec) :=
    (perm.boundaries.flatMap_right _).map _
  have mutated : (mutationLocations (spec.arrange order)).Perm (mutationLocations spec) :=
    (((perm.quarantineSlots.map _).append (((perm.preparationSlots.map _).append
      (perm.ownershipMarkers.map _)).append (perm.quarantineSlots.map _))).append
      (perm.destinationObjects.map _)).append ((preparedNodes_arrange perm.desired).map _)
  have sources : ((spec.arrange order).quarantineSlots.map (·.sourceIdentity)).Perm
      (spec.quarantineSlots.map (·.sourceIdentity)) := perm.quarantineSlots.map _
  have objects : (spec.arrange order).requiredObjects.length = spec.requiredObjects.length :=
    perm.requiredObjects.length_eq
  simp only [validateProtectedTopology, steps_ok, locations.mem_iff, identities.mem_iff,
    mutated.mem_iff, sources.mem_iff, objects] at hc ⊢
  exact ⟨hc.1, (each_perm perm.boundaries.symm).mp hc.2.1, hc.2.2⟩

end Transitions

theorem installStep_congr {other : ReconciliationSpec}
    (slots : slotAt other.preparationSlots = slotAt spec.preparationSlots) :
    installStep other = installStep spec := by
  funext stage kind label slotId
  simp only [installStep, slots]

section Orders
variable {spec : ReconciliationSpec} {order : SpecOrder} (perm : order.Of spec)
include perm

theorem workingQuarantines_arrange :
    (workingQuarantines (spec.arrange order)).Perm (workingQuarantines spec) :=
  perm.quarantineSlots.filter _

theorem reflogLocations_arrange : reflogLocations (spec.arrange order) = reflogLocations spec := by
  refine sortBy_eq_of_perm (Perm.dedup ?_) (nodup_dedup _ |>.map Location.key_injective)
  exact (perm.baseline.reflogs.map _).append (perm.desired.reflogs.map _)

end Orders

section Compile
variable {H : Hashes} {spec : ReconciliationSpec} (valid : ValidSpec H spec) {order : SpecOrder}
  (perm : order.Of spec)
include valid perm

theorem ValidSpec.installStep_arrange : installStep (spec.arrange order) = installStep spec :=
  installStep_congr (valid.slotAt_arrange perm)

theorem ValidSpec.promotions_arrange {promotions : List TransitionStep}
    (hc : compilePromotions spec = .ok promotions) :
    ∃ sorted, compilePromotions (spec.arrange order) = .ok sorted ∧ sorted.Perm promotions := by
  rw [compilePromotions, valid.installStep_arrange perm]
  exact mapM_perm (missingObjects_arrange perm).symm hc

omit perm in
theorem ValidSpec.workingSources : ((workingQuarantines spec).map (·.source.rawPath)).Nodup := by
  have spaces : ∀ slot ∈ workingQuarantines spec, slot.source.nameSpace = text "working" := by
    intro _ hm
    simpa using (List.mem_filter.mp hm).2
  have sources : ((workingQuarantines spec).map (·.source)).Nodup :=
    valid.sourceLocations.sublist (List.filter_sublist.map _)
  refine List.pairwise_map.mpr ((List.pairwise_map.mp sources).imp_of_mem ?_)
  intro first second hf hs ha same
  apply ha
  rw [← Location.key_injective.eq_iff]
  simp only [Location.key, spaces first hf, spaces second hs, same]

omit perm in
theorem ValidSpec.baselineWorkingIdentities : (spec.baseline.workingNodes.map (·.reference)).Nodup := by
  have nodes : spec.baseline.workingNodes.Sublist (baselineNodes spec) := by
    simp only [baselineNodes, staticStorage, staticRegistrations, List.map_append, List.map_map,
      List.filterMap_append]
    refine List.Sublist.trans ?_ (List.sublist_append_right _ _)
    rw [List.filterMap_map]
    exact (List.filterMap_some (l := spec.baseline.workingNodes)).symm ▸ List.Sublist.refl _
  exact valid.baselineIdentities.sublist (nodes.map _)

theorem ValidSpec.quarantines_compiled {quarantines : List TransitionStep}
    (hc : compileWorkingQuarantines spec = .ok quarantines) :
    compileWorkingQuarantines (spec.arrange order) = .ok quarantines := by
  have nodeAt : baselineNodeAt (spec.arrange order).baseline.workingNodes =
      baselineNodeAt spec.baseline.workingNodes := funext fun _ =>
    find?_perm _ valid.baselineWorkingIdentities perm.baseline.workingNodes.symm
  simp only [compileWorkingQuarantines, steps_ok, nodeAt] at hc ⊢
  obtain ⟨rows, hf, rfl⟩ := hc
  obtain ⟨rows', hf', hs⟩ := mapM_perm (workingQuarantines_arrange perm).symm hf
  refine ⟨rows', hf', ?_⟩
  have slots : rows.map (fun row => row.1.source.rawPath) =
        (workingQuarantines spec).map (·.source.rawPath) := by
    refine map_of_mapM ?_ hf
    intro _ _ single
    simp only [steps_ok] at single
    obtain ⟨_, -, rfl⟩ := single
    rfl
  have hd : (rows.map quarantineOrder).Nodup := by
    have paths := valid.workingSources
    rw [← slots] at paths
    refine pairwise_map.mpr ((pairwise_map.mp paths).imp ?_)
    intro _ _ ha hs
    simp only [quarantineOrder, EmbeddingLike.apply_eq_iff_eq, Prod.mk.injEq] at hs
    exact ha hs.2.2
  rw [sortBy_eq_of_perm hs.symm hd]

theorem ValidSpec.quarantineOf_arrange : quarantineOf (spec.arrange order) = quarantineOf spec := by
  have identities : ((workingQuarantines spec).map (·.sourceIdentity)).Nodup :=
    valid.sourceIdentities.sublist (filter_sublist.map _)
  exact funext fun _ => find?_perm _ identities (workingQuarantines_arrange perm).symm

theorem ValidSpec.installations_arrange :
    compileWorkingInstallations (spec.arrange order) = compileWorkingInstallations spec := by
  have needs : needsInstallation (spec.arrange order) = needsInstallation spec := by
    funext node
    simp only [needsInstallation, valid.quarantineOf_arrange perm]
  have sorted : workingInstallations (spec.arrange order) = workingInstallations spec := by
    rw [workingInstallations, needs]
    refine sortBy_eq_of_perm (perm.desired.workingNodes.filter _) ?_
    have paths : (((spec.arrange order).desired.workingNodes.filter
        (needsInstallation spec)).map (·.location.rawPath)).Nodup := by
      refine Nodup.sublist (filter_sublist.map _) ?_
      exact (perm.desired.workingNodes.map _).nodup_iff.mpr valid.desiredPaths
    refine pairwise_map.mpr ((pairwise_map.mp paths).imp ?_)
    intro _ _ ha hs
    simp only [installationOrder, EmbeddingLike.apply_eq_iff_eq, Prod.mk.injEq] at hs
    exact ha hs.2.2
  have step : compileWorkingInstallation (spec.arrange order) = compileWorkingInstallation spec := by
    funext node
    simp only [compileWorkingInstallation, valid.quarantineOf_arrange perm, valid.installStep_arrange perm]
  rw [compileWorkingInstallations, sorted, step]
  rfl

theorem ValidSpec.quarantineAt_arrange : quarantineAt (spec.arrange order) = quarantineAt spec := by
  funext node
  have hd : (spec.quarantineSlots.map fun slot => (slot.source, slot.sourceIdentity)).Nodup :=
    valid.quarantine_set.1
  have hs : (spec.arrange order).quarantineSlots.find?
      (fun slot => (slot.source, slot.sourceIdentity) = (node.location, node.reference)) =
      spec.quarantineSlots.find?
        (fun slot => (slot.source, slot.sourceIdentity) = (node.location, node.reference)) :=
    find?_perm _ hd perm.quarantineSlots.symm
  simpa only [quarantineAt, Prod.mk.injEq] using hs

theorem ValidSpec.compileQuarantine_arrange :
    compileQuarantine (spec.arrange order) = compileQuarantine spec := by
  funext stage kind state
  simp only [compileQuarantine, valid.quarantineAt_arrange perm]

theorem ValidSpec.compileInstallation_arrange :
    compileInstallation (spec.arrange order) = compileInstallation spec := by
  funext stage kind unprepared node
  simp only [compileInstallation, valid.installStep_arrange perm]

theorem ValidSpec.compileIndex_arrange : compileIndex (spec.arrange order) = compileIndex spec := by
  obtain ⟨baseline, desired⟩ := valid.canonicalEntries_arrange perm
  have hu : indexUnchanged (spec.arrange order) ↔ indexUnchanged spec := by
    simp only [indexUnchanged, indexAsDesired, ReconciliationSpec.arrange, Replica.arrange, baseline, desired]
  have parent : indexQuarantineParent (spec.arrange order) = indexQuarantineParent spec := by
    simp only [indexQuarantineParent, valid.quarantineAt_arrange perm]
    rfl
  simp only [compileIndex, compileIndexTarget, hu, parent,
    valid.compileQuarantine_arrange perm, valid.compileInstallation_arrange perm]
  rfl

theorem ValidSpec.compileReflog_arrange : compileReflog (spec.arrange order) = compileReflog spec := by
  have baseline :
      storageAt (spec.arrange order).baseline.refs.reflogs = storageAt spec.baseline.refs.reflogs :=
    storageAt_perm valid.baselineReflogs perm.baseline.reflogs.symm
  funext location
  have hu : reflogUnchanged (spec.arrange order) location ↔ reflogUnchanged spec location := by
    simp only [reflogUnchanged, baseline, valid.reflogAt_arrange perm]
  simp only [compileReflog, compileReflogTarget, hu, baseline, valid.reflogAt_arrange perm,
    valid.compileQuarantine_arrange perm, valid.compileInstallation_arrange perm]

theorem ValidSpec.compileSelectedRef_arrange :
    compileSelectedRef (spec.arrange order) = compileSelectedRef spec := by
  simp only [compileSelectedRef, compileSelectedTarget, valid.compileQuarantine_arrange perm,
    valid.compileInstallation_arrange perm]
  rfl

theorem ValidSpec.middle_arrange {middle : List TransitionStep}
    (hc : compileMiddle spec = .ok middle) : compileMiddle (spec.arrange order) = .ok middle := by
  simp only [compileMiddle, bind_eq_ok, valid.installations_arrange perm,
    valid.compileIndex_arrange perm, valid.compileReflog_arrange perm, reflogLocations_arrange perm,
    valid.compileSelectedRef_arrange perm] at hc ⊢
  obtain ⟨quarantines, hq, rest⟩ := hc
  exact ⟨quarantines, valid.quarantines_compiled perm hq, rest⟩

end Compile

theorem selectors_none (other : ReconciliationSpec) (targets : List (Text × Location))
    {step : TransitionStep} (member : step ∈ openingSteps spec ∨ step ∈ closingSteps spec) :
    installedSlot step = none ∧ installedTarget targets step = none ∧ restoredSlot step = none ∧
    quarantinedSource other step = none := by
  have outside : step.effectKind.rank ≤ 61 ∨ 120 ≤ step.effectKind.rank :=
    member.imp (fun h => ((openingSteps_range spec).2 step h).2)
      fun h => ((closingSteps_range spec).2 step h).1
  have kinds : step.effectKind ∉ installEffectKinds ∧ step.effectKind ≠ .restoreWorkingNode ∧
      step.effectKind ∉ quarantineEffectKinds := by
    revert outside
    cases step.effectKind <;> decide
  simp [installedSlot, installedTarget, restoredSlot, quarantinedSource, kinds.1, kinds.2.1, kinds.2.2]

section Steps
variable {spec : ReconciliationSpec} {order : SpecOrder} (perm : order.Of spec)
include perm

theorem openingSteps_arrange : (openingSteps (spec.arrange order)).Perm (openingSteps spec) :=
  ((((Perm.refl _).append (perm.ownershipMarkers.flatMap_right _)).append
    (Perm.refl _)).append (perm.preparationSlots.map _)).append (Perm.refl _)

theorem closingSteps_arrange : (closingSteps (spec.arrange order)).Perm (closingSteps spec) :=
  ((Perm.refl _).append (perm.ownershipMarkers.map _)).append (Perm.refl _)

theorem mem_graphEdges_arrange (edge : Edge) :
    edge ∈ graphEdges (spec.arrange order) ↔ edge ∈ graphEdges spec :=
  ((perm.preparationSlots.flatMap_right _).append (perm.quarantineSlots.flatMap_right _)).mem_iff

end Steps

section Graph
variable {H : Hashes} {spec : ReconciliationSpec} (valid : ValidSpec H spec) {order : SpecOrder}
  (perm : order.Of spec)
variable {promotions : List TransitionStep}
include valid perm

omit perm in
theorem ValidSpec.targetIds : ((installTargets spec).map Prod.fst).Nodup := by
  have hc := valid.targets
  simp only [validateInstallTargets, steps_ok, eachFresh_eq_ok] at hc
  exact hc.1.2.1

omit perm in
theorem ValidSpec.target_iff {slotId : Text} {target : Location} :
    (installTargets spec).lookup slotId = some target ↔ (slotId, target) ∈ installTargets spec :=
  lookup_eq_some_iff_mem valid.targetIds

theorem ValidSpec.lookup_arrange (slotId : Text) :
    (installTargets (spec.arrange order)).lookup slotId = (installTargets spec).lookup slotId := by
  have targets := installTargets_arrange perm
  have hd : ((installTargets (spec.arrange order)).map Prod.fst).Nodup :=
    (targets.map _).nodup_iff.mpr valid.targetIds
  ext target
  rw [lookup_eq_some_iff_mem hd, valid.target_iff, targets.mem_iff]

theorem ValidSpec.installedTarget_arrange :
    installedTarget (installTargets (spec.arrange order)) =
      installedTarget (installTargets spec) := by
  funext step
  simp only [installedTarget, valid.lookup_arrange perm]

theorem ValidSpec.quarantinedSource_arrange :
    quarantinedSource (spec.arrange order) = quarantinedSource spec := by
  have slots : quarantineSlotAt (spec.arrange order) = quarantineSlotAt spec := funext fun _ =>
    find?_perm _ valid.quarantineIds perm.quarantineSlots.symm
  funext step
  simp only [quarantinedSource, slots]

omit perm in
theorem ValidSpec.promoted_file {item : RequiredObject} (hm : item ∈ spec.requiredObjects) :
    ∃ slot, slotAt spec.preparationSlots item.sourceSlotId = some slot ∧
      slot.desiredKind = text "file" ∧ slot.executable = false := by
  obtain ⟨-, objects, -⟩ := validateSlotConsumers_eq_ok.1 valid.consumers
  have hc := objects item hm
  simp only [validateObjectConsumer, steps_ok, not_or, not_not, Bool.not_eq_true] at hc
  obtain ⟨-, slot, hf, file, hp⟩ := hc
  exact ⟨slot, hf, file, hp⟩

omit perm in
theorem ValidSpec.promotion_ne_parent (hc : compilePromotions spec = .ok promotions) {edge : Edge}
    (valid_edge : validateEdge spec (installTargets spec) edge = .ok ()) {step : TransitionStep}
    (member : step ∈ promotions) : installedSlot step ≠ some edge.parentSlotId := by
  obtain ⟨_, hm, slot, _, source, rfl⟩ := compilePromotions_steps hc member
  intro hs
  have parentId : slot.slotId = edge.parentSlotId := by simpa [installedSlot, installEffectKinds] using hs
  simp only [validateEdge, steps_ok, not_not] at valid_edge
  obtain ⟨_, -, _, hf, -, isDirectory, -⟩ := valid_edge
  obtain ⟨_, hf', file, -⟩ := valid.promoted_file (List.mem_filter.mp hm).1
  rw [← source, parentId, hf, Option.some.injEq] at hf'
  rw [← hf', isDirectory] at file
  exact absurd file (by decide)

omit perm in
theorem ValidSpec.promotion_target (hc : compilePromotions spec = .ok promotions)
    {step : TransitionStep} (member : step ∈ promotions) {target : Location}
    (selected : installedTarget (installTargets spec) step = some target) :
    target ∉ staticLocations spec := by
  obtain ⟨item, hm, slot, _, source, rfl⟩ := compilePromotions_steps hc member
  have place : (installTargets spec).lookup slot.slotId = some target := by
    simpa [installedTarget, installedSlot, installEffectKinds] using selected
  have ht : (slot.slotId, objectLocation item.objectId) ∈ installTargets spec :=
    List.mem_append_right _ (List.mem_map.mpr ⟨item, hm, by rw [source]⟩)
  rw [valid.target_iff.mpr ht, Option.some.injEq] at place
  rw [← place]
  refine (valid.absent (objectLocation item.objectId, "object destination") ?_).2
  exact List.mem_append_right _ (List.mem_map.mpr ⟨item, hm, rfl⟩)

theorem ValidSpec.edge_arrange (edge : Edge) :
    validateEdge (spec.arrange order) (installTargets (spec.arrange order)) edge =
      validateEdge spec (installTargets spec) edge := by
  simp only [validateEdge, valid.lookup_arrange perm, valid.slotAt_arrange perm]

theorem ValidSpec.graphValid_arrange {sorted middle : List TransitionStep}
    (hc : compilePromotions spec = .ok promotions) (hs : sorted.Perm promotions)
    (graph : GraphValid spec (openingSteps spec ++ promotions ++ middle ++ closingSteps spec)) :
    GraphValid (spec.arrange order) (openingSteps (spec.arrange order) ++ sorted ++ middle ++
        closingSteps (spec.arrange order)) := by
  have before := (openingSteps_arrange perm).append hs
  have all := (before.append (Perm.refl middle)).append (closingSteps_arrange perm)
  have length := before.length_eq
  have target := valid.installedTarget_arrange perm
  have source := valid.quarantinedSource_arrange perm
  have closing : ∀ step ∈ closingSteps spec, installedSlot step = none ∧ restoredSlot step = none ∧
      quarantinedSource spec step = none ∧ installedTarget (installTargets spec) step = none := by
    intro step hm
    obtain ⟨install, place, restore, quarantine⟩ :=
      selectors_none spec (installTargets spec) (.inr hm)
    exact ⟨install, restore, quarantine, place⟩
  have closing' : ∀ step ∈ closingSteps (spec.arrange order),
      installedTarget (installTargets spec) step = none := fun step hm =>
    (closing step ((closingSteps_arrange perm).mem_iff.mp hm)).2.2.2
  refine ⟨?_, ?_, ?_, ?_, ?_, ?_, ?_, ?_⟩
  · intro step hm
    obtain ⟨_, restore, _⟩ := graph.indexable step (all.mem_iff.mp hm)
    exact ⟨by rwa [target], restore, by rwa [source]⟩
  · exact (all.filterMap _).nodup_iff.mpr graph.installSlots
  · rw [target]
    exact (all.filterMap _).nodup_iff.mpr graph.targets
  · exact (all.filterMap _).nodup_iff.mpr graph.restoreSlots
  · rw [source]
    exact (all.filterMap _).nodup_iff.mpr graph.sources
  · intro edge hm
    rw [valid.edge_arrange perm]
    exact graph.edges edge ((mem_graphEdges_arrange perm edge).mp hm)
  · intro edge hm
    have hm := (mem_graphEdges_arrange perm edge).mp hm
    obtain ⟨parent, dependent, first, second, order⟩ := graph.edgeOrder edge hm
    have hi : (openingSteps spec ++ promotions).length ≤ parent := by
      refine (append_assoc (openingSteps spec ++ promotions) middle (closingSteps spec) ▸
        first).not_before ?_
      intro step isStep
      rcases mem_append.mp isStep with h | h
      · simp [(selectors_none spec [] (.inl h)).1]
      · exact valid.promotion_ne_parent hc (graph.edges edge hm) h
    refine ⟨parent, dependent, first.middle length hi fun step h => by simp [(closing step h).1], ?_, order⟩
    cases isDependent : edge.dependent with
    | preparation slot =>
      rw [isDependent] at second
      exact StepAt.middle second length (by omega) fun step h => by simp [(closing step h).1]
    | restoration slot =>
      rw [isDependent] at second
      exact StepAt.middle second length (by omega) fun step h => by simp [(closing step h).2.1]
  · intro place position installs node name hf
    rw [target] at installs
    have hr : (staticRegistrations spec.baseline).find? (·.1.location = place) = some (.node node, name) := by
      rw [← hf]
      refine (find?_perm (fun row : Storage NodeIdentity × String => row.1.location) ?_
        (static_arrange perm.baseline).symm).symm
      simpa [staticStorage, Function.comp_def] using valid.baselineLocations
    have isStatic : place ∈ staticLocations spec := by
      have hm := mem_of_find?_eq_some hr
      have located : (Storage.node node).location = place := by simpa using find?_some hr
      refine mem_append_left _ (mem_map.mpr ⟨.node node, ?_, located⟩)
      exact mem_map.mpr ⟨_, hm, rfl⟩
    have hi : (openingSteps (spec.arrange order) ++ sorted).length ≤ position := by
      refine (append_assoc (openingSteps (spec.arrange order) ++ sorted) middle
        (closingSteps (spec.arrange order)) ▸ installs).not_before ?_
      intro step isStep selected
      rcases mem_append.mp isStep with h | h
      · have none := (selectors_none spec (installTargets spec) (.inl h)).2.1
        simp [none] at selected
      · exact valid.promotion_target hc (hs.mem_iff.mp h) selected isStatic
    have installs : StepAt (installedTarget (installTargets spec))
        (openingSteps spec ++ promotions ++ middle ++ closingSteps spec) place position :=
      installs.middle length.symm hi fun step h => by simp [closing' step h]
    obtain ⟨earlier, quarantined, order⟩ :=
      graph.installOrder place position installs node name hr
    refine ⟨earlier, ?_, order⟩
    rw [source]
    refine quarantined.middle length ?_ fun step h => by simp [(closing step h).2.2.1]
    refine (append_assoc (openingSteps spec ++ promotions) middle (closingSteps spec) ▸
        quarantined).not_before ?_
    intro _ isStep selected
    rcases mem_append.mp isStep with h | h
    · simp [(selectors_none spec [] (.inl h)).2.2.2] at selected
    · obtain ⟨_, -, _, -, -, rfl⟩ := compilePromotions_steps hc h
      simp [quarantinedSource, quarantineEffectKinds] at selected

theorem ValidSpec.compiled_arrange {steps : List TransitionStep}
    (hc : compileTransitions spec = .ok steps) (graph : GraphValid spec steps) :
    ∃ steps', compileTransitions (spec.arrange order) = .ok steps' ∧
      GraphValid (spec.arrange order) steps' ∧ steps'.length = steps.length := by
  obtain ⟨_, middle, promoted, between, rfl, hw⟩ := compileTransitions_eq_ok.mp hc
  obtain ⟨sorted, promoted', hs⟩ := valid.promotions_arrange perm promoted
  have all := (((openingSteps_arrange perm).append hs).append (Perm.refl middle)).append
      (closingSteps_arrange perm)
  refine ⟨_, compileTransitions_eq_ok.mpr ⟨sorted, middle, promoted',
    valid.middle_arrange perm between, rfl, ?_⟩, valid.graphValid_arrange perm promoted hs graph,
    all.length_eq⟩
  rw [all.length_eq]
  exact hw

end Graph

theorem ValidSpec.arrange (hv : ValidSpec H spec) (perm : order.Of spec) :
    ValidSpec H (spec.arrange order) := by
  obtain ⟨_, hc, checked⟩ := hv.graph
  obtain ⟨steps', hc', graph, -⟩ := (hv.compiled_arrange perm) hc (validateTransitionGraph_eq_ok.mp checked)
  exact
    { requiredObjects := hv.requiredObjects_arrange perm
      coverage := hv.coverage_arrange perm
      destinations := fun item hm => (hv.destination_arrange perm) (perm.destinationObjects.mem_iff.mp hm)
      destinationIds := (perm.destinationObjects.map _).nodup_iff.mpr hv.destinationIds
      baselineLocations :=
        ((storage_arrange perm.baseline).map _).nodup_iff.mpr hv.baselineLocations
      desiredLocations :=
        ((storage_arrange perm.desired).map _).nodup_iff.mpr hv.desiredLocations
      fieldChanges := hv.fieldChanges_arrange perm
      parentBindings := hv.parentBindings_arrange perm
      parents := hv.parents_arrange perm
      physical := hv.physical.perm (physicalRegistrations_arrange perm).symm
      absent := hv.absent_arrange perm
      absentDistinct := ((requiredAbsent_arrange perm).map _).nodup_iff.mpr hv.absentDistinct
      objectLocations := hv.objectLocations_arrange perm
      limits := validateLimits_arrange perm hv.limits
      version := hv.version
      identity := hv.identity
      baseline := validateReplica_arrange perm.baseline hv.baseline
      generations := hv.generations
      boundaries := hv.boundaries_arrange perm
      preparations := eachAfter_perm validatePreparationSlot_eq_ok
        (fun h => ⟨h.1.symm, h.2.symm⟩) perm.preparationSlots.symm hv.preparations
      preparationParents := fun slot hm => by
        rw [hv.preparationParents_arrange perm]
        exact hv.preparationParents slot (perm.preparationSlots.mem_iff.mp hm)
      markers := hv.markers_arrange perm
      quarantines := hv.quarantines_arrange perm
      baselineStates := (baselineNodes_arrange perm).symm.pairwise_iff
        (fun h hs => (h hs.symm).symm) |>.mp hv.baselineStates
      filesystems := hv.filesystems_arrange perm
      desired := hv.desired_arrange perm
      baselineFiles := (each_perm (administrative_arrange perm.baseline)).mpr hv.baselineFiles
      desiredFiles := (each_perm (administrative_arrange perm.desired)).mpr hv.desiredFiles
      indexSemantics := hv.indexSemantics_arrange perm
      consumers := hv.consumers_arrange perm
      targets := hv.targets_arrange perm
      targetParents := hv.targetParents_arrange perm
      reflogPresence := hv.reflogPresence_arrange perm
      immutableAdmin := hv.immutableAdmin_arrange perm
      quarantineSet := hv.quarantineSet_arrange perm
      protectedTopology := hv.protectedTopology_arrange perm
      graph := ⟨steps', hc', validateTransitionGraph_eq_ok.mpr graph⟩ }

theorem ValidSpec.canonicalize (hv : ValidSpec H spec) : ValidSpec H (canonicalizeSpec spec) :=
  hv.arrange (canonicalizeSpec_of spec)

theorem canonicalizeReplica_idempotent (replica : Replica ρ) :
    canonicalizeReplica (canonicalizeReplica replica) = canonicalizeReplica replica := by
  have entries : canonicalIndexEntries (canonicalIndexEntries replica.index.entries) =
      canonicalIndexEntries replica.index.entries := sortBy_eq_self pairwise_sortBy
  have reflogs : sortStorage (sortStorage replica.refs.reflogs) = sortStorage replica.refs.reflogs :=
    sortBy_eq_self pairwise_sortBy
  have metadata : sortStorage (sortStorage replica.refs.unrelatedMetadata) =
      sortStorage replica.refs.unrelatedMetadata := sortBy_eq_self pairwise_sortBy
  have manifest : sortManifest (sortManifest replica.manifest) = sortManifest replica.manifest :=
    sortBy_eq_self pairwise_sortBy
  have nodes : sortNodes (sortNodes replica.workingNodes) = sortNodes replica.workingNodes :=
    sortBy_eq_self pairwise_sortBy
  simp only [canonicalizeReplica, entries, reflogs, metadata, manifest, nodes]

theorem canonicalizeSpec_idempotent (spec : ReconciliationSpec) :
    canonicalizeSpec (canonicalizeSpec spec) = canonicalizeSpec spec := by
  simp only [canonicalizeSpec, canonicalizeReplica_idempotent, sortBy_eq_self pairwise_sortBy]

theorem bindSpecification_eq_ok {bound : BoundSpecification} :
    bindSpecification H spec = .ok bound ↔ ValidSpec H spec ∧
      ((canonicalBytes (toValue (canonicalizeSpec spec))).length : Int) +
        semanticBytes (canonicalizeSpec spec) ≤ spec.limits.maxTotalBytes ∧
      ∃ steps, compileTransitions (canonicalizeSpec spec) = .ok steps ∧ bound = {
        spec := canonicalizeSpec spec
        fingerprint := protocolFingerprint H specDomain (toValue (canonicalizeSpec spec))
        baselineFingerprint := protocolFingerprint H (stateDomain "baseline")
          (toValue (canonicalizeSpec spec).baseline)
        desiredFingerprint := protocolFingerprint H (stateDomain "desired")
          (toValue (canonicalizeSpec spec).desired)
        transitionCount := steps.length } := by
  simp only [bindSpecification, steps_ok, not_lt, validateSpecification_eq_ok]
  constructor
  · rintro ⟨hv, hw, steps, hc, rfl⟩
    exact ⟨hv, hw, steps, hc, rfl⟩
  · rintro ⟨hv, hw, steps, hc, rfl⟩
    exact ⟨hv, hw, steps, hc, rfl⟩

section Bound
variable {H : Hashes} {spec : ReconciliationSpec} {bound : BoundSpecification}
  (binds : bindSpecification H spec = .ok bound)
include binds

theorem validSpec_of_bind : ValidSpec H bound.spec := by
  obtain ⟨hv, -, _, -, rfl⟩ := bindSpecification_eq_ok.1 binds
  exact hv.canonicalize

theorem bindSpecification_again : bindSpecification H bound.spec = .ok bound := by
  obtain ⟨hv, hw, steps, hc, rfl⟩ := bindSpecification_eq_ok.1 binds
  refine bindSpecification_eq_ok.2 ⟨hv.canonicalize, ?_, steps, ?_, ?_⟩
  · rw [canonicalizeSpec_idempotent]
    exact hw
  · rw [canonicalizeSpec_idempotent]
    exact hc
  · simp only [canonicalizeSpec_idempotent]

end Bound

end Yinshi.Reconcile
