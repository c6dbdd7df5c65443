import Mathlib.Data.List.Pairwise
import Yinshi.Reconcile.Reorder

/-! What a validated specification satisfies, as one structure. Loops over seen
elements become distinctness and pairwise agreement; the registry of physical
identities becomes one list without conflicts. -/

namespace Yinshi.Reconcile
open ByteText Keyed Checked Artifact List
variable {xs registry : List Registration} {H : Hashes} {spec : ReconciliationSpec}

theorem Registration.conflicts_symm {prior next : Registration} (h : prior.conflicts next) :
    next.conflicts prior := by
  rcases h with ⟨hs, ha⟩ | ⟨hs, ha⟩ | ⟨hs, hk, hk', ha⟩
  · exact .inl ⟨hs.symm, ha.symm⟩
  · exact .inr (.inl ⟨hs.symm, ha.symm⟩)
  · exact .inr (.inr ⟨hs.imp Eq.symm Eq.symm, hk', hk, ha.symm⟩)

def Consistent (registrations : List Registration) : Prop :=
  registrations.Pairwise fun prior next => ¬ prior.conflicts next

theorem Consistent.perm {ys : List Registration} (perm : xs.Perm ys) (h : Consistent xs) : Consistent ys :=
  (perm.pairwise_iff fun ha conflict => ha (Registration.conflicts_symm conflict)).mp h

theorem Consistent.not_conflicts (h : Consistent xs)
    {x y : Registration} (hx : x ∈ xs) (hy : y ∈ xs) : ¬ x.conflicts y := by
  have : Std.Symm fun prior next : Registration => ¬ prior.conflicts next :=
    ⟨fun _ _ ha conflict => ha (Registration.conflicts_symm conflict)⟩
  exact h.forall_of_forall
    (fun entry _ => by rintro (⟨-, ha⟩ | ⟨-, ha⟩ | ⟨-, -, -, ha⟩) <;> exact ha rfl) hx hy

theorem register_eq_ok {seen : List Registration} {next : Registration} {u : Unit} :
    register seen next = .ok u ↔ ∀ prior ∈ seen, ¬ prior.conflicts next := by
  simp [register]

theorem registerEach_eq_ok {α : Type} {entry : α → Registration} {before after : α → Checked Unit}
    {seen : List Registration} {xs : List α} :
    registerEach entry before after seen xs = .ok registry ↔
    registry = (xs.map entry).reverse ++ seen ∧ (∀ x ∈ xs, before x = .ok () ∧ after x = .ok ()) ∧
    (∀ prior ∈ seen, ∀ x ∈ xs, ¬ prior.conflicts (entry x)) ∧ Consistent (xs.map entry) := by
  induction xs generalizing seen with
  | nil =>
    simp only [registerEach, pure_eq_ok, map_nil, reverse_nil, nil_append,
      Consistent, List.Pairwise.nil, not_mem_nil, false_implies, implies_true, and_true]
    exact eq_comm
  | cons _ _ ih =>
    simp only [registerEach, steps_ok, register_eq_ok, ih, mem_cons, forall_eq_or_imp, map_cons,
      reverse_cons, append_assoc, singleton_append, Consistent, pairwise_cons, mem_map,
      forall_exists_index, and_imp, forall_apply_eq_imp_iff₂]
    constructor
    · rintro ⟨first, ha, last, hs, rest, ⟨next, earlier⟩, pairs⟩
      exact ⟨hs, ⟨⟨first, last⟩, rest⟩,
        fun prior hm => ⟨ha prior hm, earlier prior hm⟩, next, pairs⟩
    · rintro ⟨hs, ⟨⟨first, last⟩, rest⟩, earlier, next, pairs⟩
      exact ⟨first, fun prior hm => (earlier prior hm).1, last, hs, rest,
        ⟨next, fun prior hm => (earlier prior hm).2⟩, pairs⟩

structure DestinationValid (H : Hashes) (spec : ReconciliationSpec) (item : DestinationObject) :
    Prop where
  oid : validateOid item.objectId spec.identity.objectFormat "destination.object_id" = .ok ()
  required : item.objectId ∈ spec.requiredObjects.map (·.objectId)
  head : validateDestinationHead spec item = .ok ()
  tail : validateDestinationTail H spec item = .ok ()

def objectRegistration (item : DestinationObject) : Registration := nodeRegistration item.storage

theorem validateDestinationObjects_eq_ok {seen items : List DestinationObject}
    {seenPlaces : List Registration} :
    validateDestinationObjects H spec seen seenPlaces items = .ok registry ↔
    registry = (items.map objectRegistration).reverse ++ seenPlaces ∧
    (∀ item ∈ items, DestinationValid H spec item) ∧ (items.map (·.objectId)).Nodup ∧
    (∀ prior ∈ seen, ∀ item ∈ items, prior.objectId ≠ item.objectId) ∧
    (∀ prior ∈ seenPlaces, ∀ item ∈ items, ¬ prior.conflicts (objectRegistration item)) ∧
    Consistent (items.map objectRegistration) := by
  induction items generalizing seen seenPlaces with
  | nil =>
    simp only [validateDestinationObjects, pure_eq_ok, map_nil, reverse_nil,
      nil_append, Consistent, List.Pairwise.nil, not_mem_nil, false_implies,
      implies_true, and_true, nodup_nil]
    exact eq_comm
  | cons item _ ih =>
    simp only [validateDestinationObjects, steps_ok, register_eq_ok, ih, mem_cons, forall_eq_or_imp,
      map_cons, reverse_cons, append_assoc, singleton_append, Consistent, pairwise_cons,
      mem_map, forall_exists_index, and_imp, forall_apply_eq_imp_iff₂, nodup_cons, not_or, not_exists,
      not_and]
    constructor
    · rintro ⟨oid, ⟨required, unseen⟩, head, ha, tail, hs, hv, hd, ⟨hf, hu⟩, ⟨next, earlier⟩, pairs⟩
      have hl : item.objectId ∈ spec.requiredObjects.map (·.objectId) := by
        by_contra other
        exact required fun object hm equal => other (mem_map.mpr ⟨object, hm, equal⟩)
      exact ⟨hs, ⟨⟨oid, hl, head, tail⟩, hv⟩, ⟨fun other hm equal => hf other hm equal.symm, hd⟩,
        fun prior hm => ⟨unseen prior hm, hu prior hm⟩,
        fun prior hm => ⟨ha prior hm, earlier prior hm⟩, next, pairs⟩
    · rintro ⟨hs, ⟨first, hv⟩, ⟨hf, hd⟩, hu, earlier, next, pairs⟩
      obtain ⟨object, hm, equal⟩ := mem_map.mp first.required
      exact ⟨first.oid, ⟨fun none => none object hm equal,
          fun prior hm => (hu prior hm).1⟩,
        first.head, fun prior hm => (earlier prior hm).1, first.tail, hs, hv, hd,
        ⟨fun other hm equal => hf other hm equal.symm,
          fun prior hm => (hu prior hm).2⟩,
        ⟨next, fun prior hm => (earlier prior hm).2⟩, pairs⟩

theorem knownState_cons {entry : Registration} (unknown : entry.state = none)
    (registry : List Registration) (location : Location) :
    knownState (entry :: registry) location = knownState registry location := by
  rw [knownState, filter_cons]
  split
  · rw [findSome?_cons, unknown]
    rfl
  · rfl

structure ParentValid (spec : ReconciliationSpec) (registry : List Registration)
    (parent : ParentBinding) : Prop where
  existing : parent.isExisting = true
  present : parent.location ∉ staticAbsentLocations spec
  directory : ∀ state ∈ knownState registry parent.location, state.kind = directory

theorem ParentValid.cons {parent : ParentBinding} {entry : Registration}
    (unknown : entry.state = none) :
    ParentValid spec (entry :: registry) parent ↔ ParentValid spec registry parent := by
  constructor
  · rintro ⟨existing, hp, hk⟩
    exact ⟨existing, hp, by rwa [knownState_cons unknown] at hk⟩
  · rintro ⟨existing, hp, _⟩
    exact ⟨existing, hp, by rwa [knownState_cons unknown]⟩

theorem registerInitialParents_eq_ok {result : List Registration} {parents : List ParentBinding} :
    registerInitialParents spec registry parents = .ok result ↔
    result = (parents.flatMap parentRegistration).reverse ++ registry ∧
    (∀ parent ∈ parents, ParentValid spec registry parent) ∧
    (∀ prior ∈ registry, ∀ entry ∈ parents.flatMap parentRegistration, ¬ prior.conflicts entry) ∧
    Consistent (parents.flatMap parentRegistration) := by
  induction parents generalizing registry with
  | nil =>
    simp only [registerInitialParents, pure_eq_ok, flatMap_nil, reverse_nil,
      nil_append, Consistent, List.Pairwise.nil, not_mem_nil, false_implies,
      implies_true, and_true]
    exact eq_comm
  | cons parent _ ih =>
    cases reference : parent.reference with
    | prepared _ =>
      simp only [registerInitialParents, reference, reduceCtorEq, false_iff]
      rintro ⟨-, hv, -⟩
      have existing := (hv parent (by simp)).existing
      simp [ParentBinding.isExisting, reference] at existing
    | existing identity =>
      have places : parentRegistration parent = [⟨parent.location, identity, none⟩] := by
        simp [parentRegistration, reference]
      have kept : parent.isExisting = true := by simp [ParentBinding.isExisting, reference]
      simp only [registerInitialParents, reference, steps_ok, register_eq_ok, ih, flatMap_cons, places,
        singleton_append, reverse_cons, append_assoc, mem_cons, forall_eq_or_imp, Consistent,
        pairwise_cons, ParentValid.cons, not_exists, not_and, not_not]
      constructor
      · rintro ⟨hp, ha, hk, hs, hv, ⟨next, earlier⟩, pairs⟩
        exact ⟨hs, ⟨⟨kept, hp, hk⟩, hv⟩,
          fun prior hm => ⟨ha prior hm, earlier prior hm⟩, next, pairs⟩
      · rintro ⟨hs, ⟨first, hv⟩, earlier, next, pairs⟩
        exact ⟨first.present, fun prior hm => (earlier prior hm).1, first.directory,
          hs, hv, ⟨next, fun prior hm => (earlier prior hm).2⟩, pairs⟩

def baselineNodes (spec : ReconciliationSpec) : List NodeState :=
  (staticStorage spec.baseline).filterMap Storage.node?

def initialParents (spec : ReconciliationSpec) : List ParentBinding :=
  sortBy parentBindingKey (collectedParentBindings spec).dedup

def statedRegistrations (spec : ReconciliationSpec) : List Registration :=
  boundaryRegistrations spec.boundaries ++ (baselineNodes spec).map nodeRegistration ++
    spec.destinationObjects.map objectRegistration

def physicalRegistrations (spec : ReconciliationSpec) : List Registration :=
  statedRegistrations spec ++ (initialParents spec).flatMap parentRegistration

structure LocationsValid (H : Hashes) (spec : ReconciliationSpec) : Prop where
  requiredObjects : eachAfter (validateRequiredObject spec) [] spec.requiredObjects = .ok ()
  coverage : validateCoverage spec = .ok ()
  destinations : ∀ item ∈ spec.destinationObjects, DestinationValid H spec item
  destinationIds : (spec.destinationObjects.map (·.objectId)).Nodup
  baselineLocations : ((staticStorage spec.baseline).map (·.location)).Nodup
  desiredLocations : ((staticStorage spec.desired).map (·.location)).Nodup
  fieldChanges : validateFieldChanges spec (staticRegistrations spec.baseline)
    (staticRegistrations spec.desired) = .ok ()
  parentBindings : eachAfter checkParentBinding [] (collectedParentBindings spec) = .ok ()
  parents : ∀ parent ∈ initialParents spec, ParentValid spec (statedRegistrations spec) parent
  physical : Consistent (physicalRegistrations spec)
  absent : ∀ row ∈ requiredAbsentLocations spec,
    row.1 ∉ (physicalRegistrations spec).map (·.location) ∧ row.1 ∉ staticLocations spec
  absentDistinct : ((requiredAbsentLocations spec).map Prod.fst).Nodup
  objectLocations : validateObjectLocations spec = .ok ()

/-- Everything `validateSpecification` checks, without the order of its loops. -/
structure ValidSpec (H : Hashes) (spec : ReconciliationSpec) : Prop extends
    LocationsValid H spec where
  limits : validateLimits spec = .ok ()
  version : spec.version = 1
  identity : validateOperationIdentity spec.identity = .ok ()
  baseline : validateReplica spec.baseline spec.identity.objectFormat "baseline" = .ok ()
  generations : validateGenerations spec = .ok ()
  boundaries : validateBoundaries spec.boundaries = .ok ()
  preparations : eachAfter validatePreparationSlot [] spec.preparationSlots = .ok ()
  preparationParents : ∀ slot ∈ spec.preparationSlots, validatePreparationParents spec slot = .ok ()
  markers : eachAfter (validateOwnershipMarker spec) [] spec.ownershipMarkers = .ok ()
  quarantines : eachAfter (validateQuarantineSlot spec) [] spec.quarantineSlots = .ok ()
  baselineStates : (baselineNodes spec).Pairwise fun prior node =>
    prior.reference = node.reference → prior = node
  filesystems : ∀ node ∈ baselineNodes spec, checkNodeFilesystem spec.boundaries node = .ok ()
  desired : validateDesired spec.desired spec.identity.objectFormat (baselineNodes spec)
    spec.preparationSlots spec.boundaries = .ok ()
  baselineFiles : validateAdministrativeFiles spec.baseline "baseline" = .ok ()
  desiredFiles : validateAdministrativeFiles spec.desired "desired" = .ok ()
  indexSemantics : validateIndexSemantics spec = .ok ()
  consumers : validateSlotConsumers spec = .ok ()
  targets : validateInstallTargets spec = .ok ()
  targetParents : validateTargetParents spec (initialParents spec) = .ok ()
  reflogPresence : validateReflogPresence spec = .ok ()
  immutableAdmin : validateImmutableAdmin spec = .ok ()
  quarantineSet : validateQuarantineSet spec = .ok ()
  protectedTopology : validateProtectedTopology spec = .ok ()
  graph : ∃ transitions, compileTransitions spec = .ok transitions ∧
    validateTransitionGraph spec transitions (installTargets spec)
      (staticRegistrations spec.baseline) = .ok ()

theorem mem_knownState (consistent : Consistent registry) {location : Location}
    {state : NodeState} :
    state ∈ knownState registry location ↔
    ∃ entry ∈ registry, entry.location = location ∧ entry.state = some state := by
  have mem_of_found : ∀ {hf}, knownState registry location = some hf →
      ∃ entry ∈ registry, entry.location = location ∧ entry.state = some hf := by
    intro hf h
    obtain ⟨entry, hm, hk⟩ := exists_of_findSome?_eq_some h
    rw [mem_filter, decide_eq_true_eq] at hm
    exact ⟨entry, hm.1, hm.2, hk⟩
  refine ⟨mem_of_found, ?_⟩
  rintro ⟨entry, hm, place, hk⟩
  cases hf : knownState registry location with
  | none =>
    rw [knownState, findSome?_eq_none_iff] at hf
    have ha := hf entry (by simp [hm, place])
    rw [hk] at ha
    cases ha
  | some _ =>
    obtain ⟨_, hm', place', hk'⟩ := mem_of_found hf
    have apart := consistent.not_conflicts hm hm'
    by_contra differs
    refine apart (.inr (.inr ⟨.inr (place.trans place'.symm), by simp [hk], by simp [hk'], ?_⟩))
    rw [hk, hk']
    rintro equal
    exact differs equal.symm

theorem ParentValid.perm {ys : List Registration} {parent : ParentBinding} (perm : xs.Perm ys)
    (consistent : Consistent xs) (hv : ParentValid spec xs parent) :
    ParentValid spec ys parent := by
  refine ⟨hv.existing, hv.present, ?_⟩
  intro _ hm
  apply hv.directory
  rw [mem_knownState consistent]
  rw [mem_knownState (consistent.perm perm)] at hm
  simpa only [perm.mem_iff] using hm

theorem collectBaselineNodes_eq_ok {replica : ReplicaState} {nodes : List NodeState} :
    collectBaselineNodes replica = .ok nodes ↔
      nodes = (staticStorage replica).filterMap Storage.node? ∧
      ((staticStorage replica).filterMap Storage.node?).Pairwise fun prior node =>
        prior.reference = node.reference → prior = node := by
  have pairs : ∀ (hs : List NodeState) (node : NodeState),
      rejectIf (∃ prior ∈ hs, prior.reference = node.reference ∧ prior ≠ node)
        (reject "ambiguous_node_identity" "one node identity has two states") = .ok () ↔
      True ∧ ∀ prior ∈ hs, prior.reference = node.reference → prior = node := by
    intro _ _
    simp
  simp only [collectBaselineNodes, steps_ok, eachAfter_eq_ok _ _ pairs, implies_true, not_mem_nil,
    false_implies, true_and]
  rw [and_comm, eq_comm]

theorem staticLocationRegistry_eq_ok {ρ : Type} {replica : Replica ρ} {phase : String}
    {rows : List (Storage ρ × String)} :
    staticLocationRegistry replica phase = .ok rows ↔
    rows = staticRegistrations replica ∧ ((staticStorage replica).map (·.location)).Nodup := by
  simp only [staticLocationRegistry, steps_ok]
  rw [eachAfter_eq_ok (fun _ => True) fun prior row => prior.1.location ≠ row.1.location]
  · simp only [implies_true, not_mem_nil, false_implies, true_and]
    rw [and_comm, eq_comm]
    simp only [staticStorage, map_map, Nodup, pairwise_map, Function.comp_apply]
  · intro _ row
    split
    next prior hf =>
      have hm := mem_of_find?_eq_some hf
      have place : prior.1.location = row.1.location := by simpa using find?_some hf
      simp only [reduceCtorEq, true_and, false_iff, not_forall]
      exact ⟨prior, hm, not_not.mpr place⟩
    next missing =>
      simp only [true_and, true_iff]
      exact find?_eq_none_iff (fun prior : Storage ρ × String => prior.1.location) |>.mp missing

theorem initialParentBindings_eq_ok {parents : List ParentBinding} :
    initialParentBindings spec = .ok parents ↔
    parents = initialParents spec ∧
    eachAfter checkParentBinding [] (collectedParentBindings spec) = .ok () := by
  simp only [initialParentBindings, steps_ok]
  rw [and_comm, eq_comm]
  rfl

theorem validateAbsentLocations_eq_ok {rows : List (Location × String)} :
    eachAfter (validateAbsentLocation spec registry) [] rows = .ok () ↔
    (∀ row ∈ rows, row.1 ∉ registry.map (·.location) ∧ row.1 ∉ staticLocations spec) ∧
    (rows.map Prod.fst).Nodup := by
  rw [eachAfter_eq_ok (fun row => row.1 ∉ registry.map (·.location) ∧ row.1 ∉ staticLocations spec)
    fun prior row => prior.1 ≠ row.1]
  · simp only [not_mem_nil, false_implies, implies_true, true_and]
    rw [Nodup, pairwise_map]
  · intro _ row
    simp only [validateAbsentLocation, steps_ok]
    rw [and_assoc]
    refine and_congr_right fun _ => and_congr_right fun _ => ?_
    split
    next prior hf =>
      have hm := mem_of_find?_eq_some hf
      have place : prior.1 = row.1 := by simpa using find?_some hf
      simp only [reduceCtorEq, false_iff, not_forall]
      exact ⟨prior, hm, not_not.mpr place⟩
    next missing =>
      simp only [true_iff]
      exact find?_eq_none_iff (Prod.fst : Location × String → Location) |>.mp missing

theorem validateStates_eq_ok :
    validateStates spec = .ok registry ↔
    registry =
        ((baselineNodes spec).map nodeRegistration).reverse ++
          (boundaryRegistrations spec.boundaries).reverse ∧
    ((baselineNodes spec).Pairwise
      fun prior node => prior.reference = node.reference → prior = node) ∧
    (∀ node ∈ baselineNodes spec, checkNodeFilesystem spec.boundaries node = .ok ()) ∧
    Consistent
      (boundaryRegistrations spec.boundaries ++ (baselineNodes spec).map nodeRegistration) ∧
    validateDesired spec.desired spec.identity.objectFormat (baselineNodes spec)
        spec.preparationSlots spec.boundaries = .ok () ∧
    validateAdministrativeFiles spec.baseline "baseline" = .ok () ∧
    validateAdministrativeFiles spec.desired "desired" = .ok () ∧
    validateIndexSemantics spec = .ok () := by
  simp only [validateStates, steps_ok, collectBaselineNodes_eq_ok, registerEach_eq_ok, map_id,
    append_nil, not_mem_nil, false_implies, implies_true, true_and, and_true, id_eq]
  constructor
  · rintro ⟨_, ⟨rfl, states⟩, _, ⟨rfl, boundaries⟩, _, ⟨rfl, filesystems, ha, nodes⟩,
      desired, baselineFiles, desiredFiles, index, rfl⟩
    refine ⟨rfl, states, filesystems, ?_, desired, baselineFiles, desiredFiles, index⟩
    refine pairwise_append.mpr ⟨boundaries, nodes, ?_⟩
    intro prior earlier _ later
    obtain ⟨node, hm, rfl⟩ := mem_map.mp later
    exact ha prior (mem_reverse.mpr earlier) node hm
  · rintro ⟨rfl, states, filesystems, consistent, desired, baselineFiles, desiredFiles, index⟩
    obtain ⟨boundaries, nodes, ha⟩ := pairwise_append.mp consistent
    refine ⟨_, ⟨rfl, states⟩, _, ⟨rfl, boundaries⟩, _, ⟨rfl, filesystems, ?_, nodes⟩, desired,
      baselineFiles, desiredFiles, index, rfl⟩
    intro prior earlier node hm
    exact ha prior (mem_reverse.mp earlier) _ (mem_map.mpr ⟨node, hm, rfl⟩)

theorem stated_reverse (spec : ReconciliationSpec) :
    (spec.destinationObjects.map objectRegistration).reverse ++
        (((baselineNodes spec).map nodeRegistration).reverse ++
          (boundaryRegistrations spec.boundaries).reverse) =
      (statedRegistrations spec).reverse := by
  simp [statedRegistrations]

theorem validateLocations_eq_ok {rows : List (Storage NodeIdentity × String)}
    (states : Consistent
        (boundaryRegistrations spec.boundaries ++ (baselineNodes spec).map nodeRegistration)) :
    validateLocations H spec (((baselineNodes spec).map nodeRegistration).reverse ++
            (boundaryRegistrations spec.boundaries).reverse) = .ok rows ↔
    rows = staticRegistrations spec.baseline ∧ LocationsValid H spec := by
  have members : ∀ entry, entry ∈ ((baselineNodes spec).map nodeRegistration).reverse ++
      (boundaryRegistrations spec.boundaries).reverse ↔
      entry ∈ boundaryRegistrations spec.boundaries ++ (baselineNodes spec).map nodeRegistration := by
    intro entry
    simp only [mem_append, mem_reverse]
    exact or_comm
  simp only [validateLocations, steps_ok, validateDestinationObjects_eq_ok, staticLocationRegistry_eq_ok,
    initialParentBindings_eq_ok, registerInitialParents_eq_ok, validateAbsentLocations_eq_ok]
  constructor
  · rintro ⟨required, coverage, _, ⟨rfl, destinations, ids, -, ha, objects⟩, _, ⟨rfl, baseline⟩,
      _, ⟨rfl, desired⟩, changes, _, ⟨rfl, bindings⟩, _, ⟨rfl, parents, beside, places⟩,
      ⟨hab, hd⟩, locations, rfl⟩
    rw [stated_reverse] at parents beside hab
    have stated : Consistent (statedRegistrations spec) := by
      refine pairwise_append.mpr ⟨states, objects, ?_⟩
      intro prior earlier _ later
      obtain ⟨item, hm, rfl⟩ := mem_map.mp later
      exact ha prior ((members prior).mpr earlier) item hm
    have physical : Consistent (physicalRegistrations spec) := by
      refine pairwise_append.mpr ⟨stated, places, ?_⟩
      exact fun prior earlier => beside prior (mem_reverse.mpr earlier)
    refine ⟨rfl, required, coverage, destinations, ids, baseline, desired, changes, bindings, ?_,
      physical, ?_, hd, locations⟩
    · intro parent hm
      exact (parents parent hm).perm (reverse_perm _) (stated.perm (reverse_perm _).symm)
    · intro row hm
      simpa [physicalRegistrations, or_comm] using hab row hm
  · rintro ⟨rfl, hv⟩
    obtain ⟨stated, places, beside⟩ := pairwise_append.mp hv.physical
    obtain ⟨-, objects, ha⟩ := pairwise_append.mp stated
    refine ⟨hv.requiredObjects, hv.coverage, _, ⟨rfl, hv.destinations, hv.destinationIds,
      by simp, ?_, objects⟩, _, ⟨rfl, hv.baselineLocations⟩, _, ⟨rfl, hv.desiredLocations⟩,
      hv.fieldChanges, _, ⟨rfl, hv.parentBindings⟩, _, ⟨rfl, ?_, ?_, places⟩,
      ⟨?_, hv.absentDistinct⟩, hv.objectLocations, rfl⟩
    · intro prior earlier item hm
      exact ha prior ((members prior).mp earlier) _ (mem_map.mpr ⟨item, hm, rfl⟩)
    · rw [stated_reverse]
      intro parent hm
      exact (hv.parents parent hm).perm (reverse_perm _).symm stated
    · rw [stated_reverse]
      exact fun prior earlier => beside prior (mem_reverse.mp earlier)
    · rw [stated_reverse]
      intro row hm
      simpa [physicalRegistrations, or_comm] using hv.absent row hm

theorem validateSpecification_eq_ok : validateSpecification H spec = .ok () ↔ ValidSpec H spec := by
  simp only [validateSpecification, validateSlots, validateTransitions, steps_ok,
    validateStates_eq_ok, initialParentBindings_eq_ok, each_eq_ok, not_not, ne_eq]
  constructor
  · rintro ⟨limits, -, version, identity, baseline, generations, boundaries, ⟨preparations, parents,
      markers, quarantines⟩, _, ⟨rfl, states, filesystems, consistent, desired, baselineFiles,
      desiredFiles, index⟩, _, located, ⟨consumers, targets, _, ⟨rfl, -⟩, targetParents, reflogs,
      admin, quarantineSet, topology⟩, transitions, compiled, graph⟩
    obtain ⟨rfl, valid⟩ := (validateLocations_eq_ok consistent).mp located
    exact
      { toLocationsValid := valid
        limits, version, identity, baseline, generations, boundaries, preparations, markers
        quarantines, filesystems, desired, baselineFiles, desiredFiles, consumers, targets
        targetParents
        quarantineSet
        preparationParents := parents
        baselineStates := states
        indexSemantics := index
        reflogPresence := reflogs
        immutableAdmin := admin
        protectedTopology := topology
        graph := ⟨transitions, compiled, graph⟩ }
  · intro valid
    obtain ⟨transitions, compiled, graph⟩ := valid.graph
    have consistent : Consistent (boundaryRegistrations spec.boundaries ++
        (baselineNodes spec).map nodeRegistration) :=
      (pairwise_append.mp (pairwise_append.mp valid.physical).1).1
    refine ⟨valid.limits, ?_, valid.version, valid.identity, valid.baseline, valid.generations,
      valid.boundaries, ⟨valid.preparations, valid.preparationParents, valid.markers,
      valid.quarantines⟩, _, ⟨rfl, valid.baselineStates, valid.filesystems, consistent, valid.desired,
      valid.baselineFiles, valid.desiredFiles, valid.indexSemantics⟩, _,
      (validateLocations_eq_ok consistent).mpr ⟨rfl, valid.toLocationsValid⟩, ⟨valid.consumers,
      valid.targets, _, ⟨rfl, valid.parentBindings⟩, valid.targetParents,
      valid.reflogPresence, valid.immutableAdmin, valid.quarantineSet, valid.protectedTopology⟩,
      transitions, compiled, graph⟩
    rw [valid.version]
    decide

theorem validateBoundary_eq_ok (seen : List Boundary) (boundary : Boundary) :
    validateBoundary seen boundary = .ok () ↔
    validateBoundary [] boundary = .ok () ∧
    ∀ prior ∈ seen, prior.boundaryId ≠ boundary.boundaryId ∧ prior.role ≠ boundary.role := by
  simp only [validateBoundary, steps_ok, not_mem_nil, false_and, exists_false, or_false,
    not_false_eq_true, true_and, not_or, not_exists, not_and]
  grind

theorem validatePreparationSlot_eq_ok (seen : List PreparationSlot) (slot : PreparationSlot) :
    validatePreparationSlot seen slot = .ok () ↔
    validatePreparationSlot [] slot = .ok () ∧
    ∀ prior ∈ seen, prior.slotId ≠ slot.slotId ∧ prior.destination ≠ slot.destination := by
  simp only [validatePreparationSlot, steps_ok, not_mem_nil, false_and, exists_false,
    not_false_eq_true, true_and, not_exists, not_and, and_true]
  grind

theorem validateOwnershipMarker_eq_ok (seen : List OwnershipMarkerSpec)
    (marker : OwnershipMarkerSpec) :
    validateOwnershipMarker spec seen marker = .ok () ↔
    validateOwnershipMarker spec [] marker = .ok () ∧
    ∀ prior ∈ seen, prior.slotId ≠ marker.slotId ∧ prior.destination ≠ marker.destination := by
  simp only [validateOwnershipMarker, steps_ok, not_mem_nil, false_and, exists_false, or_false,
    not_or, not_exists, not_and]
  grind

theorem validateQuarantineSlot_eq_ok (seen : List QuarantineSlot) (slot : QuarantineSlot) :
    validateQuarantineSlot spec seen slot = .ok () ↔
    validateQuarantineSlot spec [] slot = .ok () ∧
    ∀ prior ∈ seen, prior.slotId ≠ slot.slotId ∧ prior.destination ≠ slot.destination := by
  simp only [validateQuarantineSlot, steps_ok, not_mem_nil, false_and, exists_false, false_or,
    not_or, not_exists, not_and]
  grind

theorem validateRequiredObject_eq_ok (seen : List RequiredObject) (item : RequiredObject) :
    validateRequiredObject spec seen item = .ok () ↔
    validateRequiredObject spec [] item = .ok () ∧
    ∀ prior ∈ seen, prior.objectId ≠ item.objectId := by
  simp only [validateRequiredObject, steps_ok, not_mem_nil, false_and, exists_false,
    not_false_eq_true, true_and, not_exists, not_and]
  grind

theorem checkParentBinding_eq_ok (seen : List ParentBinding) (binding : ParentBinding) :
    checkParentBinding seen binding = .ok () ↔
    True ∧
    ∀ prior ∈ seen,
      (prior.location = binding.location → prior = binding) ∧
      (binding.isExisting = true → prior.reference = binding.reference →
        prior.location = binding.location) := by
  simp only [checkParentBinding, steps_ok, checkWhen_eq_ok]
  grind

theorem roleNamespace_injective {first second : Text} (hf : first ∈ requiredRoles)
    (hs : second ∈ requiredRoles) (same : roleNamespace first = roleNamespace second) :
    first = second := by
  revert same
  have table : ∀ a ∈ requiredRoles, ∀ b ∈ requiredRoles, roleNamespace a = roleNamespace b → a = b := by
    decide
  exact table first hf second hs

theorem validateWorkingNodes_nodes {ρ : Type} {check : Node ρ → Checked Unit}
    {wrong duplicated incomplete mismatch : String} {replica : Replica ρ}
    (hv : validateWorkingNodes check wrong duplicated incomplete mismatch replica = .ok ()) :
    (replica.workingNodes.map (·.location.rawPath)).Nodup ∧
    ∀ node ∈ replica.workingNodes,
      check node = .ok () ∧ node.location.nameSpace = text "working" := by
  simp only [validateWorkingNodes, steps_ok, eachFresh_eq_ok, not_not] at hv
  exact ⟨hv.1.2.1, fun node hm => (hv.1.1 node hm).1⟩

theorem validateEntries_nodup {entries : List IndexEntry} {manifest : List ManifestEntry}
    {format : Text} (hv : validateEntries entries manifest format = .ok ()) :
    (entries.map indexEntryKey).Nodup ∧ (manifest.map (·.rawPath)).Nodup := by
  simp only [validateEntries, steps_ok, eachFresh_eq_ok] at hv
  obtain ⟨⟨-, pairs, -⟩, -, -, ⟨-, paths, -⟩, -⟩ := hv
  refine ⟨pairwise_map.mpr ((pairwise_map.mp pairs).imp ?_), paths⟩
  intro _ _ ha hs
  exact ha (toLex.injective hs)

theorem mem_baselineNodes_of_expected {node : NodeState}
    (hm : node ∈ expectedQuarantine spec) : node ∈ baselineNodes spec := by
  have hr : ∀ {state desired}, node ∈ replacedNode state desired → state = .node node := by
    intro state _ h
    cases state with
    | absent _ => simp [replacedNode] at h
    | node _ =>
      rw [replacedNode] at h
      split at h <;> simp_all
  simp only [expectedQuarantine, mem_append, mem_filter, mem_flatMap] at hm
  simp only [baselineNodes, mem_filterMap, staticStorage, staticRegistrations,
    administrativeRegistrations, mem_map, mem_append, mem_cons]
  rcases hm with ((⟨working, -⟩ | index) | ⟨state, reflog, moved⟩) | loose
  · exact ⟨.node node, ⟨(.node node, "working_nodes"), .inr ⟨node, working, rfl⟩, rfl⟩, rfl⟩
  · exact ⟨_, ⟨_, .inl (.inl (.inl (.inl rfl))), rfl⟩, by rw [hr index]; rfl⟩
  · exact ⟨state, ⟨(state, "refs.reflogs"), .inl (.inl (.inr ⟨state, reflog, rfl⟩)), rfl⟩, by rw [hr moved]; rfl⟩
  · exact ⟨_, ⟨_, .inl (.inl (.inl (.inr (.inr (.inl rfl))))), rfl⟩, by rw [hr loose]; rfl⟩

section Distinct
variable {H : Hashes} {spec : ReconciliationSpec} (valid : ValidSpec H spec)
include valid

theorem ValidSpec.boundary_pairs :
    (∀ boundary ∈ spec.boundaries, validateBoundary [] boundary = .ok ()) ∧
    spec.boundaries.Pairwise
      (fun prior next => prior.boundaryId ≠ next.boundaryId ∧ prior.role ≠ next.role) ∧
    ∀ role ∈ requiredRoles, role ∈ spec.boundaries.map (·.role) := by
  have hc := valid.boundaries
  simp only [validateBoundaries, steps_ok] at hc
  obtain ⟨alone, -, pairs⟩ := (eachAfter_eq_ok _ _ validateBoundary_eq_ok).mp hc.1
  exact ⟨alone, pairs, by simpa using hc.2⟩

theorem ValidSpec.boundaryIds : (spec.boundaries.map (·.boundaryId)).Nodup :=
  pairwise_map.mpr (valid.boundary_pairs.2.1.imp fun h => h.1)

theorem ValidSpec.boundary_space {boundary : Boundary} (hm : boundary ∈ spec.boundaries) :
    boundary.location.nameSpace = roleNamespace boundary.role ∧ boundary.role ∈ requiredRoles := by
  have alone := valid.boundary_pairs.1 boundary hm
  simp only [validateBoundary, steps_ok] at alone
  grind

theorem ValidSpec.boundarySpaces : (spec.boundaries.map (·.location.nameSpace)).Nodup := by
  refine pairwise_map.mpr (valid.boundary_pairs.2.1.imp_of_mem ?_)
  intro _ _ hp hn ha hs
  obtain ⟨space, role⟩ := valid.boundary_space hp
  obtain ⟨space', role'⟩ := valid.boundary_space hn
  rw [space, space'] at hs
  exact ha.2 (roleNamespace_injective role role' hs)

theorem ValidSpec.slot_pairs :
    (∀ slot ∈ spec.preparationSlots, validatePreparationSlot [] slot = .ok ()) ∧
    spec.preparationSlots.Pairwise
      fun prior next => prior.slotId ≠ next.slotId ∧ prior.destination ≠ next.destination := by
  obtain ⟨alone, -, pairs⟩ :=
    (eachAfter_eq_ok _ _ validatePreparationSlot_eq_ok).mp valid.preparations
  exact ⟨alone, pairs⟩

theorem ValidSpec.slotIds : (spec.preparationSlots.map (·.slotId)).Nodup :=
  pairwise_map.mpr (valid.slot_pairs.2.imp fun h => h.1)

theorem ValidSpec.marker_pairs :
    (∀ marker ∈ spec.ownershipMarkers, validateOwnershipMarker spec [] marker = .ok ()) ∧
    spec.ownershipMarkers.Pairwise fun prior next =>
      prior.slotId ≠ next.slotId ∧ prior.destination ≠ next.destination := by
  obtain ⟨alone, -, pairs⟩ :=
    (eachAfter_eq_ok _ _ validateOwnershipMarker_eq_ok).mp valid.markers
  exact ⟨alone, pairs⟩

theorem ValidSpec.markerIds : (spec.ownershipMarkers.map (·.slotId)).Nodup :=
  pairwise_map.mpr (valid.marker_pairs.2.imp fun h => h.1)

theorem ValidSpec.quarantine_pairs :
    (∀ slot ∈ spec.quarantineSlots, validateQuarantineSlot spec [] slot = .ok ()) ∧
    spec.quarantineSlots.Pairwise fun prior next =>
      prior.slotId ≠ next.slotId ∧ prior.destination ≠ next.destination := by
  obtain ⟨alone, -, pairs⟩ :=
    (eachAfter_eq_ok _ _ validateQuarantineSlot_eq_ok).mp valid.quarantines
  exact ⟨alone, pairs⟩

theorem ValidSpec.quarantineIds : (spec.quarantineSlots.map (·.slotId)).Nodup :=
  pairwise_map.mpr (valid.quarantine_pairs.2.imp fun h => h.1)

theorem ValidSpec.object_pairs :
    (∀ item ∈ spec.requiredObjects, validateRequiredObject spec [] item = .ok ()) ∧
    (spec.requiredObjects.map (·.objectId)).Nodup := by
  obtain ⟨alone, -, pairs⟩ :=
    (eachAfter_eq_ok _ _ validateRequiredObject_eq_ok).mp valid.requiredObjects
  exact ⟨alone, pairwise_map.mpr pairs⟩

theorem ValidSpec.desiredPaths : (spec.desired.workingNodes.map (·.location.rawPath)).Nodup := by
  have hc := valid.desired
  simp only [validateDesired, steps_ok] at hc
  exact (validateWorkingNodes_nodes hc.2.2.2.2.2.2.2.2.2.2.2.2.2.2.2.2).1

theorem ValidSpec.baselineEntries : (spec.baseline.index.entries.map indexEntryKey).Nodup ∧
    (spec.baseline.manifest.map (·.rawPath)).Nodup := by
  have hc := valid.baseline
  simp only [validateReplica, steps_ok] at hc
  exact validateEntries_nodup hc.2.2.2.2.1

theorem ValidSpec.desiredEntries : (spec.desired.index.entries.map indexEntryKey).Nodup ∧
    (spec.desired.manifest.map (·.rawPath)).Nodup := by
  have hc := valid.desired
  simp only [validateDesired, steps_ok] at hc
  exact validateEntries_nodup hc.2.2.2.1

theorem ValidSpec.baselinePlaces : ((baselineNodes spec).map (·.location)).Nodup := by
  have hs : (baselineNodes spec).map (·.location) =
      ((staticStorage spec.baseline).filter (·.node?.isSome)).map (·.location) := by
    rw [baselineNodes, map_filterMap, ← filterMap_eq_map, ← filterMap_eq_filter, filterMap_filterMap]
    refine filterMap_congr fun state _ => ?_
    cases state <;> rfl
  rw [hs]
  exact valid.baselineLocations.sublist (filter_sublist.map _)

theorem ValidSpec.baselineIdentities : ((baselineNodes spec).map (·.reference)).Nodup := by
  refine pairwise_map.mpr ?_
  refine ((pairwise_map.mp valid.baselinePlaces).and valid.baselineStates).imp ?_
  rintro _ _ ⟨ha, agree⟩ hs
  exact ha (congrArg (·.location) (agree hs))

theorem ValidSpec.quarantine_set :
    (quarantineTransitions spec).Nodup ∧
    ∀ transition, transition ∈ quarantineTransitions spec ↔
      ∃ node ∈ expectedQuarantine spec, (node.location, node.reference) = transition := by
  have hc := valid.quarantineSet
  simp only [validateQuarantineSet, steps_ok, not_not, not_exists, not_and, mem_map] at hc
  obtain ⟨hd, covered, he⟩ := hc
  refine ⟨hd, fun transition => ⟨fun hm => ?_, ?_⟩⟩
  · by_contra other
    exact he transition hm fun node expected hs => other ⟨node, expected, hs⟩
  · rintro ⟨node, expected, rfl⟩
    exact covered _ ⟨node, expected, rfl⟩

theorem ValidSpec.quarantined {slot : QuarantineSlot} (hm : slot ∈ spec.quarantineSlots) :
    ∃ node ∈ expectedQuarantine spec,
      node.location = slot.source ∧ node.reference = slot.sourceIdentity := by
  have transition : (slot.source, slot.sourceIdentity) ∈ quarantineTransitions spec :=
    mem_map.mpr ⟨slot, hm, rfl⟩
  obtain ⟨node, expected, hs⟩ := (valid.quarantine_set.2 _).mp transition
  exact ⟨node, expected, (Prod.mk.inj hs).1, (Prod.mk.inj hs).2⟩

theorem ValidSpec.sourceLocations : (spec.quarantineSlots.map (·.source)).Nodup := by
  refine pairwise_map.mpr ((pairwise_map.mp valid.quarantine_set.1).imp_of_mem ?_)
  intro _ _ hf hs ha same
  obtain ⟨node, expected, place, identity⟩ := valid.quarantined hf
  obtain ⟨node', expected', place', identity'⟩ := valid.quarantined hs
  have equal : node = node' := key_inj_of_nodup valid.baselinePlaces
    (mem_baselineNodes_of_expected expected) (mem_baselineNodes_of_expected expected')
    ((place.trans same).trans place'.symm)
  exact ha (by rw [same, ← identity, ← identity', equal])

theorem ValidSpec.sourceIdentities : (spec.quarantineSlots.map (·.sourceIdentity)).Nodup := by
  refine pairwise_map.mpr ((pairwise_map.mp valid.quarantine_set.1).imp_of_mem ?_)
  intro _ _ hf hs ha same
  obtain ⟨node, expected, place, identity⟩ := valid.quarantined hf
  obtain ⟨node', expected', place', identity'⟩ := valid.quarantined hs
  have equal : node = node' := key_inj_of_nodup valid.baselineIdentities
    (mem_baselineNodes_of_expected expected) (mem_baselineNodes_of_expected expected')
    ((identity.trans same).trans identity'.symm)
  exact ha (by rw [same, ← place, ← place', equal])

end Distinct

end Yinshi.Reconcile
