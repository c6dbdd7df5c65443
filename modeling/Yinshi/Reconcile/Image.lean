import Yinshi.Reconcile.Static

/-! What a checked image satisfies: no location is recorded twice, and identities and
locations of existing nodes determine each other. -/

namespace Yinshi.Reconcile
open ByteText Keyed Checked Artifact Ranked List Option
variable {image : ExpectedObservation}

def Agrees (prior next : Registration) : Prop :=
  (prior.identity = next.identity → prior.location = next.location) ∧
    (prior.location = next.location → prior.identity = next.identity)

theorem Agrees.symm {prior next : Registration} (h : Agrees prior next) : Agrees next prior :=
  ⟨fun hs => (h.1 hs.symm).symm, fun hs => (h.2 hs.symm).symm⟩

theorem Agrees.refl (entry : Registration) : Agrees entry entry := ⟨fun _ => rfl, fun _ => rfl⟩

theorem agree_of_mem {entries : List Registration} (h : entries.Pairwise Agrees)
    {first second : Registration} (hf : first ∈ entries) (hs : second ∈ entries) :
    Agrees first second := by
  have : Std.Symm Agrees := ⟨fun _ _ => Agrees.symm⟩
  exact h.forall_of_forall (fun entry _ => .refl entry) hf hs

theorem registerPlace_eq_ok {detail : String} (seen : List Registration) (next : Registration) :
    registerPlace detail seen next = .ok () ↔ True ∧ ∀ prior ∈ seen, Agrees prior next := by
  simp only [registerPlace, rejectIf_eq_ok, not_exists, not_and, not_or, not_not, true_and, Agrees, ne_eq]

def storageRegistrations (image : ExpectedObservation) : List Registration :=
  image.storage.flatMap storageRegistration

structure ImageValid (image : ExpectedObservation) : Prop where
  statics : ((staticStorage image.replica).map (·.location)).Nodup
  stored : (image.storage.map (·.location)).Nodup
  apart : ∀ state ∈ image.storage, state.location ∉ presentLocations image
  places : (imageRegistrations image ++ storageRegistrations image).Pairwise Agrees

theorem validateImageStorage_eq_ok (seen : List ExpectedStorage) (state : ExpectedStorage) :
    validateImageStorage image seen state = .ok () ↔
    (state.location ∉ presentLocations image ∧
        ∀ prior ∈ imageRegistrations image, ∀ next ∈ storageRegistration state, Agrees prior next) ∧
    ∀ prior ∈ seen, prior.location ≠ state.location ∧
      ∀ entry ∈ storageRegistration prior, ∀ next ∈ storageRegistration state,
        Agrees entry next := by
  simp only [validateImageStorage, steps_ok, each_eq_ok, registerPlace_eq_ok, true_and, mem_append,
    mem_flatMap, not_exists, not_and]
  constructor
  · rintro ⟨hd, ha, agree⟩
    exact ⟨⟨ha, fun prior hm next entry => agree next entry prior (.inr hm)⟩,
      fun prior hm => ⟨hd prior hm, fun entry hl next hn => agree next hn entry (.inl ⟨prior, hm, hl⟩)⟩⟩
  · rintro ⟨⟨ha, agree⟩, earlier⟩
    refine ⟨fun prior hm => (earlier prior hm).1, ha, ?_⟩
    rintro next hn entry (⟨prior, hm, hl⟩ | hm)
    · exact (earlier prior hm).2 entry hl next hn
    · exact agree entry hm next hn

theorem storageRegistration_pairwise (state : ExpectedStorage) :
    (storageRegistration state).Pairwise Agrees := by
  cases state with
  | concrete node =>
    simp [storageRegistration, ExpectedStorage.node?, imageRegistration, desiredNodeFromConcrete]
  | desired _ =>
    simp only [storageRegistration, ExpectedStorage.node?, toList_some, flatMap_cons,
      flatMap_nil, append_nil, imageRegistration]
    split <;> simp
  | absent _ => simp [storageRegistration, ExpectedStorage.node?]

theorem validateExpectedImage_eq_ok : validateExpectedImage image = .ok () ↔ ImageValid image := by
  simp only [validateExpectedImage, steps_ok, staticLocationRegistry_eq_ok, exists_and_left,
    eachAfter_eq_ok _ _ registerPlace_eq_ok, eachAfter_eq_ok _ _ validateImageStorage_eq_ok, implies_true,
    not_mem_nil, false_implies, true_and]
  constructor
  · rintro ⟨_, ⟨rfl, statics⟩, hr, alone, pairs⟩
    refine ⟨statics, pairwise_map.mpr (pairs.imp fun h => h.1), fun state h => (alone state h).1, ?_⟩
    refine pairwise_append.mpr ⟨hr, ?_, ?_⟩
    · refine pairwise_flatMap.mpr ⟨fun state _ => storageRegistration_pairwise state, ?_⟩
      exact pairs.imp fun h => h.2
    · intro prior hm next hl
      obtain ⟨state, hs, hn⟩ := mem_flatMap.mp hl
      exact (alone state hs).2 prior hm next hn
  · rintro ⟨statics, hs, ha, places⟩
    obtain ⟨hr, among, between⟩ := pairwise_append.mp places
    refine ⟨_, ⟨rfl, statics⟩, hr, fun state hm => ⟨ha state hm, ?_⟩, ?_⟩
    · intro prior hl next hn
      exact between prior hl next (mem_flatMap.mpr ⟨state, hm, hn⟩)
    · exact (pairwise_map.mp hs).and (pairwise_flatMap.mp among).2

theorem Reached.imageValid {bound : BoundSpecification} {steps done : List TransitionStep}
    (hr : Reached bound steps done image) : ImageValid image :=
  validateExpectedImage_eq_ok.1 hr.valid

section Uses
variable {image : ExpectedObservation}

theorem mem_presentLocations {location : Location} :
    location ∈ presentLocations image ↔
    ∃ node ∈ staticNodes image.replica, node.location = location :=
  mem_map

theorem registered_of_mem {node : DesiredNodeState} (hm : node ∈ imageNodes image)
    {identity : NodeIdentity} (reference : node.reference = .existing identity) :
    ⟨node.location, identity, none⟩ ∈ imageRegistrations image ++ storageRegistrations image := by
  have entry : ⟨node.location, identity, none⟩ ∈ imageRegistration node := by
    simp [imageRegistration, reference]
  rcases mem_append.mp hm with isStatic | isAuxiliary
  · refine mem_append_left _ (mem_append_left _ (mem_append_right _ ?_))
    exact mem_flatMap.mpr ⟨node, isStatic, entry⟩
  · obtain ⟨state, hs, hn⟩ := mem_filterMap.mp isAuxiliary
    refine mem_append_right _ (mem_flatMap.mpr ⟨state, hs, ?_⟩)
    exact mem_flatMap.mpr ⟨node, mem_toList.mpr hn, entry⟩

theorem nodup_present {σ ρ : Type} {place : σ → Location} {node? : σ → Option (Node ρ)}
    (located : ∀ state, ∀ node ∈ node? state, node.location = place state) {states : List σ}
    (hd : (states.map place).Nodup) : ((states.filterMap node?).map (·.location)).Nodup := by
  have hs : (states.filterMap node?).map (·.location) =
      (states.filter (fun state => (node? state).isSome)).map place := by
    rw [map_filterMap, ← filterMap_eq_map, ← filterMap_eq_filter, filterMap_filterMap]
    refine filterMap_congr fun state _ => ?_
    cases hp : node? state with
    | none => simp [Option.guard, hp]
    | some node => simp [Option.guard, hp, located state node (by simp [hp])]
  rw [hs]
  exact hd.sublist (filter_sublist.map _)

theorem staticNodes_nodup {ρ : Type} {replica : Replica ρ}
    (hd : ((staticStorage replica).map (·.location)).Nodup) :
    ((staticNodes replica).map (·.location)).Nodup := by
  refine nodup_present ?_ hd
  intro state node hn
  cases state with
  | node _ => rw [← some.inj hn]; rfl
  | absent _ => simp [Storage.node?] at hn

theorem ExpectedStorage.node_location {state : ExpectedStorage} {node : DesiredNodeState}
    (hn : state.node? = some node) : node.location = state.location := by
  cases state with
  | concrete inner | desired inner => rw [← some.inj hn]; rfl
  | absent _ => simp [ExpectedStorage.node?] at hn

theorem ImageValid.node_locations (hv : ImageValid image) : ((imageNodes image).map (·.location)).Nodup := by
  have hs : ((image.storage.filterMap ExpectedStorage.node?).map (·.location)).Nodup :=
    nodup_present (fun state node hn => ExpectedStorage.node_location hn) hv.stored
  rw [imageNodes, map_append, nodup_append']
  refine ⟨staticNodes_nodup hv.statics, hs, ?_⟩
  intro _ isStatic isStored
  obtain ⟨_, hl, rfl⟩ := mem_map.mp isStored
  obtain ⟨state, hm, hn⟩ := mem_filterMap.mp hl
  exact hv.apart state hm (ExpectedStorage.node_location hn ▸ isStatic)

end Uses

end Yinshi.Reconcile
