import Yinshi.Reconcile.Effect

/-! Auxiliary storage along a run. Every auxiliary location belongs to one marker,
preparation slot, quarantine slot or object, and the transitions done so far tell
what it holds. -/

namespace Yinshi.Reconcile
open ByteText Keyed Checked Artifact Ranked List
variable {kinds : List EffectKind} {done : List TransitionStep} {step : TransitionStep} {slotId : Text}

def auxAt (states : List ExpectedStorage) (location : Location) : Option ExpectedStorage :=
  states.find? (·.location = location)

section Writes
variable {states : List ExpectedStorage}
variable {writes : List ExpectedStorage}

theorem setStorage_locations (state : ExpectedStorage) :
    (setStorage states state.location state).map (·.location) =
      if state.location ∈ states.map (·.location) then states.map (·.location)
      else states.map (·.location) ++ [state.location] := by
  rw [setStorage]
  split
  next hp =>
    rw [map_map]
    refine map_congr_left fun other _ => ?_
    simp only [Function.comp_apply]
    split
    next hs => exact hs.symm
    next => rfl
  next => rw [map_append, map_singleton]

theorem writeStorage_nodup (hd : (states.map (·.location)).Nodup) (state : ExpectedStorage) :
    ((writeStorage states state).map (·.location)).Nodup := by
  rw [writeStorage, (sortBy_perm.map _).nodup_iff, setStorage_locations]
  split
  next => exact hd
  next ha => exact nodup_append'.mpr ⟨hd, by simp, by simpa using ha⟩

theorem writeStorage_places {state : ExpectedStorage}
    (hp : state.location ∈ states.map (·.location)) :
    ((writeStorage states state).map (·.location)).Perm (states.map (·.location)) := by
  refine (sortBy_perm.map _).trans ?_
  rw [setStorage_locations, if_pos hp]

theorem auxAt_writeStorage (hd : (states.map (·.location)).Nodup) (state : ExpectedStorage)
    (location : Location) :
    auxAt (writeStorage states state) location =
      if location = state.location then some state else auxAt states location := by
  have unsorted : ((setStorage states state.location state).map (·.location)).Nodup :=
    (sortBy_perm.map _).nodup_iff.mp (writeStorage_nodup hd state)
  have sorted : auxAt (writeStorage states state) location =
        auxAt (setStorage states state.location state) location :=
    find?_perm _ unsorted sortBy_perm.symm
  rw [sorted]
  split
  next hs =>
    subst hs
    refine (find?_eq_some_iff _ unsorted).mpr ⟨?_, rfl⟩
    rw [setStorage]
    split
    next hp =>
      obtain ⟨other, hm, place⟩ := mem_map.mp hp
      exact mem_map.mpr ⟨other, hm, if_pos place⟩
    next => simp
  next differs =>
    ext other
    rw [auxAt, auxAt, find?_eq_some_iff _ unsorted, find?_eq_some_iff _ hd]
    refine and_congr_left fun place => ?_
    subst place
    rw [setStorage]
    split
    next hp =>
      rw [mem_map]
      constructor
      · rintro ⟨_, hm, made⟩
        split at made
        next hs => exact absurd (made ▸ rfl) differs
        next => exact made ▸ hm
      · intro hm
        exact ⟨other, hm, if_neg differs⟩
    next =>
      rw [mem_append, mem_singleton]
      refine or_iff_left ?_
      rintro rfl
      exact differs rfl

theorem writeAll_frame (hd : (states.map (·.location)).Nodup) {location : Location}
    (hu : location ∉ writes.map (·.location)) :
    auxAt (writeAll states writes) location = auxAt states location := by
  induction writes generalizing states with
  | nil => rfl
  | cons state writes ih =>
    rw [map_cons, mem_cons, not_or] at hu
    rw [writeAll, foldl_cons]
    rw [show writes.foldl writeStorage (writeStorage states state) =
      writeAll (writeStorage states state) writes from rfl,
      ih (writeStorage_nodup hd state) hu.2, auxAt_writeStorage hd,
      if_neg hu.1]

theorem writeAll_hit (hd : (states.map (·.location)).Nodup) (ha : (writes.map (·.location)).Nodup)
    {state : ExpectedStorage} (hm : state ∈ writes) :
    auxAt (writeAll states writes) state.location = some state := by
  induction writes generalizing states with
  | nil => simp at hm
  | cons first _ ih =>
    rw [map_cons, nodup_cons] at ha
    rcases mem_cons.mp hm with rfl | later
    · have frame := writeAll_frame (writeStorage_nodup hd state) ha.1
      rw [auxAt_writeStorage hd, if_pos rfl] at frame
      exact frame
    · exact ih (writeStorage_nodup hd first) ha.2 later

theorem writeAll_places (hp : ∀ state ∈ writes, state.location ∈ states.map (·.location)) :
    ((writeAll states writes).map (·.location)).Perm (states.map (·.location)) := by
  induction writes generalizing states with
  | nil => exact Perm.refl _
  | cons state _ ih =>
    have first := writeStorage_places (hp state (by simp))
    refine (ih ?_).trans first
    intro other hm
    exact first.mem_iff.mpr (hp other (by simp [hm]))

end Writes

def slotOf (kinds : List EffectKind) (step : TransitionStep) : Option Text :=
  if step.effectKind ∈ kinds then step.preparedSlotId else none

def Did (kinds : List EffectKind) (done : List TransitionStep) (slotId : Text) : Prop :=
  slotId ∈ done.filterMap (slotOf kinds)

instance (kinds : List EffectKind) (done : List TransitionStep) (slotId : Text) :
    Decidable (Did kinds done slotId) := inferInstanceAs (Decidable (_ ∈ _))

theorem not_did_nil (kinds : List EffectKind) (slotId : Text) : ¬ Did kinds [] slotId := by
  simp [Did]

theorem did_concat :
    Did kinds (done ++ [step]) slotId ↔
    Did kinds done slotId ∨ slotOf kinds step = some slotId := by
  rw [Did, Did, filterMap_append, mem_append]
  refine or_congr_right ?_
  cases selected : slotOf kinds step <;> simp [selected, eq_comm]

theorem did_iff :
    Did kinds done slotId ↔
    ∃ step ∈ done, step.effectKind ∈ kinds ∧ step.preparedSlotId = some slotId := by
  simp only [Did, mem_filterMap, slotOf]
  refine exists_congr fun step => and_congr_right fun _ => ?_
  split <;> simp_all

section Order
variable {spec : ReconciliationSpec} {steps done : List TransitionStep} {step : TransitionStep}
  {kinds : List EffectKind} {slotId : Text}

theorem not_did_of_rank (blocks : CompiledBlocks spec steps) (next : Next steps done step)
    (ha : ∀ kind ∈ kinds, step.effectKind.rank < kind.rank) : ¬ Did kinds done slotId := by
  rw [did_iff]
  rintro ⟨_, hm, kind, -⟩
  have hb := next.rank_le blocks.sorted hm
  have higher := ha _ kind
  omega

theorem did_of_rank (hb : CompiledBlocks spec steps) (next : Next steps done step)
    {other : TransitionStep} (hm : other ∈ steps) (kind : other.effectKind ∈ kinds)
    (slot : other.preparedSlotId = some slotId)
    (below : other.effectKind.rank < step.effectKind.rank) : Did kinds done slotId :=
  did_iff.2 ⟨other, next.mem_done hb.sorted hm below, kind, slot⟩

end Order

inductive Place
  | preparation (slot : PreparationSlot)
  | ownership (marker : OwnershipMarkerSpec)
  | quarantine (slot : QuarantineSlot)
  | destination (item : DestinationObject)
  | object (item : RequiredObject)
  deriving DecidableEq

def Place.location : Place → Location
  | .preparation slot => slot.destination
  | .ownership marker => marker.destination
  | .quarantine slot => slot.destination
  | .destination item => item.storage.location
  | .object item => objectLocation item.objectId

def places (spec : ReconciliationSpec) : List Place :=
  spec.preparationSlots.map .preparation ++ spec.ownershipMarkers.map .ownership ++
  spec.quarantineSlots.map .quarantine ++ spec.destinationObjects.map .destination ++
  (missingObjects spec).map .object

def PlaceHolds (bound : BoundSpecification) (done : List TransitionStep) :
    Place → ExpectedStorage → Prop
  | .preparation slot, state => state =
      if Did [.materializePreparation] done slot.slotId ∧ ¬ Did installEffectKinds done slot.slotId
      then .desired (materializedNode slot) else .absent ⟨slot.destination⟩
  | .ownership marker, state => state =
      if Did [.createOwnershipMarker] done marker.slotId ∧
        ¬ Did [.removeOwnershipMarker] done marker.slotId
      then .desired (markerNode bound marker) else .absent ⟨marker.destination⟩
  | .quarantine slot, state =>
    if Did quarantineEffectKinds done slot.slotId ∧ ¬ Did [.restoreWorkingNode] done slot.slotId
    then ∃ node, state = .desired node ∧ node.location = slot.destination ∧
      node.reference = .existing slot.sourceIdentity
    else state = .absent ⟨slot.destination⟩
  | .destination item, state => state = .concrete item.storage
  | .object item, state =>
    if Did [.promoteRequiredObject] done item.sourceSlotId
    then ∃ slot ∈ bound.spec.preparationSlots, slot.slotId = item.sourceSlotId ∧
      state = .desired (slotNode slot (objectLocation item.objectId) 1)
    else state = .absent ⟨objectLocation item.objectId⟩

def Relevant (step : TransitionStep) : Place → Prop
  | .preparation slot => step.effectKind ∈ .materializePreparation :: installEffectKinds ∧
      step.preparedSlotId = some slot.slotId
  | .ownership marker => step.effectKind ∈ [.createOwnershipMarker, .removeOwnershipMarker] ∧
      step.preparedSlotId = some marker.slotId
  | .quarantine slot => step.effectKind ∈ .restoreWorkingNode :: quarantineEffectKinds ∧
      step.preparedSlotId = some slot.slotId
  | .destination _ => False
  | .object item => step.effectKind = .promoteRequiredObject ∧
      step.preparedSlotId = some item.sourceSlotId

theorem slotOf_eq_some :
    slotOf kinds step = some slotId ↔
    step.effectKind ∈ kinds ∧ step.preparedSlotId = some slotId := by
  rw [slotOf]
  split <;> simp_all

theorem PlaceHolds.concat {bound : BoundSpecification} {place : Place} {state : ExpectedStorage}
    (hh : PlaceHolds bound done place state) (irrelevant : ¬ Relevant step place) :
    PlaceHolds bound (done ++ [step]) place state := by
  cases place with
  | preparation slot | quarantine slot | ownership marker =>
    simp only [Relevant, mem_cons, not_and] at irrelevant
    simp only [PlaceHolds, did_concat, slotOf_eq_some] at hh ⊢
    grind
  | destination item => exact hh
  | object _ =>
    simp only [Relevant, not_and] at irrelevant
    simp only [PlaceHolds, did_concat, slotOf_eq_some] at hh ⊢
    grind

structure AuxTracks (bound : BoundSpecification) (done : List TransitionStep)
    (storage : List ExpectedStorage) : Prop where
  located : (storage.map (·.location)).Perm ((places bound.spec).map Place.location)
  holds : ∀ place ∈ places bound.spec, ∃ state, auxAt storage place.location = some state ∧
    PlaceHolds bound done place state

section Steps
variable {bound : BoundSpecification} {done : List TransitionStep} {step : TransitionStep}
  {storage : List ExpectedStorage}

theorem AuxTracks.write (tracks : AuxTracks bound done storage)
    (hd : (storage.map (·.location)).Nodup) (rows : List (Place × ExpectedStorage))
    (hk : ∀ row ∈ rows, row.1 ∈ places bound.spec ∧ row.2.location = row.1.location ∧
        PlaceHolds bound (done ++ [step]) row.1 row.2) (ha : (rows.map Prod.fst).Nodup)
    (irrelevant : ∀ place ∈ places bound.spec, place ∉ rows.map Prod.fst → ¬ Relevant step place) :
    AuxTracks bound (done ++ [step]) (writeAll storage (rows.map Prod.snd)) := by
  have separate : ((places bound.spec).map Place.location).Nodup :=
    tracks.located.nodup_iff.mp hd
  have locations : (rows.map Prod.snd).map (·.location) = (rows.map Prod.fst).map Place.location := by
    rw [map_map, map_map]
    exact map_congr_left fun row hm => (hk row hm).2.1
  have writesApart : ((rows.map Prod.snd).map (·.location)).Nodup := by
    rw [locations]
    refine pairwise_map.mpr (ha.imp_of_mem ?_)
    intro _ _ hf hs differs same
    obtain ⟨row, hm, rfl⟩ := mem_map.mp hf
    obtain ⟨row', hm', rfl⟩ := mem_map.mp hs
    exact differs (key_inj_of_nodup separate (hk row hm).1 (hk row' hm').1 same)
  refine ⟨(writeAll_places ?_).trans tracks.located, ?_⟩
  · intro state hm
    obtain ⟨row, hr, rfl⟩ := mem_map.mp hm
    rw [(hk row hr).2.1, tracks.located.mem_iff]
    exact mem_map.mpr ⟨row.1, (hk row hr).1, rfl⟩
  · intro place hm
    by_cases written : place ∈ rows.map Prod.fst
    · obtain ⟨row, hr, rfl⟩ := mem_map.mp written
      refine ⟨row.2, ?_, (hk row hr).2.2⟩
      rw [← (hk row hr).2.1]
      exact writeAll_hit hd writesApart (mem_map.mpr ⟨row, hr, rfl⟩)
    · obtain ⟨state, found, hh⟩ := tracks.holds place hm
      refine ⟨state, ?_, hh.concat (irrelevant place hm written)⟩
      rw [writeAll_frame hd, found]
      rw [locations]
      intro ht
      obtain ⟨_, hl, same⟩ := mem_map.mp ht
      obtain ⟨row, hr, rfl⟩ := mem_map.mp hl
      have equal := key_inj_of_nodup separate (hk row hr).1 hm same
      exact written (equal ▸ hl)

end Steps

section Places
variable {spec : ReconciliationSpec}
variable {place : Place}

theorem mem_places : place ∈ places spec ↔ match place with
    | .preparation slot => slot ∈ spec.preparationSlots
    | .ownership marker => marker ∈ spec.ownershipMarkers
    | .quarantine slot => slot ∈ spec.quarantineSlots
    | .destination item => item ∈ spec.destinationObjects
    | .object item => item ∈ missingObjects spec := by
  cases place <;> simp [places]

variable {H : Hashes} (valid : ValidSpec H spec)
include valid

theorem ValidSpec.relevant_slot {slot : PreparationSlot} (hm : slot ∈ spec.preparationSlots)
    {stage : Nat} {kind : EffectKind} {label : Text} (hl : place ∈ places spec)
    (relevant : Relevant (slotStep stage kind label slot) place)
    (installs : kind ∈ installEffectKinds) :
    place = .preparation slot ∨
    ∃ item ∈ missingObjects spec,
      place = .object item ∧ kind = .promoteRequiredObject ∧ item.sourceSlotId = slot.slotId := by
  have kinds : kind ∉ [.createOwnershipMarker, .removeOwnershipMarker] ∧
      kind ∉ .restoreWorkingNode :: quarantineEffectKinds := by
    revert installs
    cases kind <;> decide
  rw [mem_places] at hl
  cases place with
  | preparation other =>
    have hs : slot.slotId = other.slotId := by simpa using relevant.2
    exact .inl (congrArg _ (key_inj_of_nodup valid.slotIds hl hm hs.symm))
  | ownership _ => exact absurd relevant.1 kinds.1
  | quarantine _ => exact absurd relevant.1 kinds.2
  | destination item => exact relevant.elim
  | object item => exact .inr ⟨item, hl, rfl, relevant.1, by simpa [eq_comm] using relevant.2⟩

theorem ValidSpec.relevant_quarantine {slot : QuarantineSlot} (hm : slot ∈ spec.quarantineSlots)
    {step : TransitionStep} (hl : place ∈ places spec) (relevant : Relevant step place)
    (kind : step.effectKind ∈ .restoreWorkingNode :: quarantineEffectKinds)
    (isSlot : step.preparedSlotId = some slot.slotId) : place = .quarantine slot := by
  have kinds : step.effectKind ∉ [.createOwnershipMarker, .removeOwnershipMarker] ∧
      step.effectKind ∉ .materializePreparation :: installEffectKinds ∧
      step.effectKind ≠ .promoteRequiredObject := by
    revert kind
    cases step.effectKind <;> decide
  rw [mem_places] at hl
  cases place with
  | preparation other => exact absurd relevant.1 kinds.2.1
  | ownership _ => exact absurd relevant.1 kinds.1
  | quarantine other =>
    have hs : slot.slotId = other.slotId := by simpa [isSlot] using relevant.2
    exact congrArg _ (key_inj_of_nodup valid.quarantineIds hl hm hs.symm)
  | destination item => exact relevant.elim
  | object _ => exact absurd relevant.1 kinds.2.2

theorem ValidSpec.relevant_marker {marker : OwnershipMarkerSpec}
    (hm : marker ∈ spec.ownershipMarkers) {step : TransitionStep} (hl : place ∈ places spec)
    (relevant : Relevant step place)
    (kind : step.effectKind ∈ [.createOwnershipMarker, .removeOwnershipMarker])
    (isSlot : step.preparedSlotId = some marker.slotId) : place = .ownership marker := by
  have kinds : step.effectKind ∉ .restoreWorkingNode :: quarantineEffectKinds ∧
      step.effectKind ∉ .materializePreparation :: installEffectKinds ∧
      step.effectKind ≠ .promoteRequiredObject := by
    revert kind
    cases step.effectKind <;> decide
  rw [mem_places] at hl
  cases place with
  | preparation other => exact absurd relevant.1 kinds.2.1
  | ownership other =>
    have hs : marker.slotId = other.slotId := by simpa [isSlot] using relevant.2
    exact congrArg _ (key_inj_of_nodup valid.markerIds hl hm hs.symm)
  | quarantine _ => exact absurd relevant.1 kinds.1
  | destination item => exact relevant.elim
  | object _ => exact absurd relevant.1 kinds.2.2

theorem ValidSpec.relevant_materialization {slot : PreparationSlot}
    (hm : slot ∈ spec.preparationSlots) (listed : place ∈ places spec)
    (relevant : Relevant (materializationStep slot) place) : place = .preparation slot := by
  rw [mem_places] at listed
  cases place with
  | preparation other =>
    have hs : slot.slotId = other.slotId := by simpa using relevant.2
    exact congrArg _ (key_inj_of_nodup valid.slotIds listed hm hs.symm)
  | ownership marker | object item => exact absurd relevant.1 (by simp)
  | quarantine _ => exact absurd relevant.1 (by simp [quarantineEffectKinds])
  | destination _ => exact relevant.elim

end Places

section Restored
variable {H : Hashes} {spec : ReconciliationSpec} {steps done : List TransitionStep}

theorem did_restore {slotId : Text} (hb : CompiledBlocks spec steps) (prefix_ : done <+: steps)
    (did : Did [.restoreWorkingNode] done slotId) :
    ∃ slot ∈ workingQuarantines spec, slot.slotId = slotId := by
  obtain ⟨step, hm, kind, hs⟩ := did_iff.1 did
  rw [mem_singleton] at kind
  have hc := hb.step (prefix_.subset hm)
  cases hc with
  | control hl =>
    have others : ∀ step ∈ controlSteps, step.effectKind ≠ .restoreWorkingNode := by decide
    exact absurd kind (others step hl)
  | restoreWorking _ _ slot hl _ _ _ => exact ⟨slot, hl, by simpa using hs⟩
  | _ => simp at kind

theorem ValidSpec.administrative_space (hv : ValidSpec H spec) {state : Storage NodeIdentity}
    {name : String} (hm : (state, name) ∈ administrativeRegistrations spec.baseline) :
    state.location.nameSpace = text "admin" := by
  have hc := hv.baseline
  simp only [validateReplica, steps_ok, each_eq_ok, requireAdminNamespace, not_not] at hc
  exact hc.2.2.2.2.2.2.2.2.1 (state, name) hm

theorem ValidSpec.not_did_restore (hv : ValidSpec H spec) (hb : CompiledBlocks spec steps)
    (prefix_ : done <+: steps) {slot : QuarantineSlot} {node : NodeState}
    (hq : Quarantines spec slot node) (name : String)
    (hm : (.node node, name) ∈ administrativeRegistrations spec.baseline) :
    ¬ Did [.restoreWorkingNode] done slot.slotId := by
  intro did
  obtain ⟨other, hl, hs⟩ := did_restore hb prefix_ did
  obtain ⟨hp, isWorking⟩ := mem_filter.mp hl
  obtain rfl : other = slot := key_inj_of_nodup hv.quarantineIds hp hq.1 hs
  have space := hv.administrative_space hm
  rw [show (Storage.node node).location = node.location from rfl, ← hq.2.1] at space
  rw [decide_eq_true_eq, space] at isWorking
  exact absurd isWorking (by decide)

end Restored

section Runs
variable {H : Hashes} {bound : BoundSpecification} {steps done : List TransitionStep}
  {step : TransitionStep} {pre post : ExpectedObservation}
variable {image : ExpectedObservation}

theorem currentExistingState_spec {location : Location} {identity : NodeIdentity}
    {source : DesiredNodeState}
    (found : currentExistingState image location identity = .ok source) :
    source.location = location ∧ source.reference = .existing identity := by
  rw [currentExistingState, orRaise_eq_ok] at found
  simpa using find?_some found

theorem did_self {kinds : List EffectKind} {slotId : Text} (kind : step.effectKind ∈ kinds)
    (hs : step.preparedSlotId = some slotId) : Did kinds (done ++ [step]) slotId :=
  did_concat.2 (.inr (slotOf_eq_some.2 ⟨kind, hs⟩))

theorem not_did_concat {kinds : List EffectKind} {slotId : Text} (before : ¬ Did kinds done slotId)
    (other : step.effectKind ∉ kinds) : ¬ Did kinds (done ++ [step]) slotId := by
  rw [did_concat, not_or, slotOf_eq_some, not_and]
  exact ⟨before, fun kind => absurd kind other⟩

theorem AuxTracks.idle (ht : AuxTracks bound done pre.storage)
    (hd : (pre.storage.map (·.location)).Nodup) {replica : DesiredReplicaState}
    {parents : List ParentBinding} (change : Change pre post replica [] parents)
    (other : step.effectKind ∉
        .materializePreparation :: .createOwnershipMarker :: .removeOwnershipMarker ::
          .restoreWorkingNode :: installEffectKinds ++ quarantineEffectKinds) :
    AuxTracks bound (done ++ [step]) post.storage := by
  rw [change.storage]
  refine ht.write hd [] (by simp) (by simp) ?_
  intro place _ _ relevant
  apply other
  cases place with
  | preparation slot
  | quarantine slot
  | ownership _ => have := relevant.1; simp only [mem_append, mem_cons] at this ⊢; tauto
  | destination item => exact relevant.elim
  | object _ => rw [relevant.1]; decide

theorem AuxTracks.single (ht : AuxTracks bound done pre.storage)
    (hd : (pre.storage.map (·.location)).Nodup) {replica : DesiredReplicaState}
    {parents : List ParentBinding} {state : ExpectedStorage}
    (change : Change pre post replica [state] parents) (place : Place)
    (hl : place ∈ places bound.spec) (located : state.location = place.location)
    (hh : PlaceHolds bound (done ++ [step]) place state)
    (only : ∀ other ∈ places bound.spec, Relevant step other → other = place) :
    AuxTracks bound (done ++ [step]) post.storage := by
  rw [change.storage]
  refine ht.write hd [(place, state)] (by simpa using ⟨hl, located, hh⟩) (by simp) ?_
  intro other hm differs relevant
  exact differs (by simp [only other hm relevant])

attribute [local simp] installEffectKinds

theorem auxTracks_step (hv : ValidSpec H bound.spec) (hb : CompiledBlocks bound.spec steps)
    (next : Next steps done step) (hd : (pre.storage.map (·.location)).Nodup)
    (effect : Effect bound pre post step) (tracks : AuxTracks bound done pre.storage) :
    AuxTracks bound (done ++ [step]) post.storage := by
  have quarantine : ∀ {kind : EffectKind} {stage : Nat} {slot : QuarantineSlot}
      {source : DesiredNodeState} {replica : DesiredReplicaState} {parents : List ParentBinding},
      step = quarantineStep stage kind slot → kind ∈ quarantineEffectKinds →
      slot ∈ bound.spec.quarantineSlots →
      currentExistingState pre slot.source slot.sourceIdentity = .ok source →
      ¬ Did [.restoreWorkingNode] done slot.slotId →
      Change pre post replica [.desired { source with location := slot.destination }] parents →
      AuxTracks bound (done ++ [step]) post.storage := by
    rintro kind stage slot source replica parents rfl hk hm hf unrestored change
    have isRestore : (quarantineStep stage kind slot).effectKind ∉ [.restoreWorkingNode] := by
      show kind ∉ [EffectKind.restoreWorkingNode]
      revert hk
      cases kind <;> decide
    refine tracks.single hd change (.quarantine slot) (mem_places.2 hm) rfl ?_ ?_
    · rw [PlaceHolds, if_pos ⟨did_self hk rfl, not_did_concat unrestored isRestore⟩]
      exact ⟨_, rfl, rfl, (currentExistingState_spec hf).2⟩
    · intro other hl relevant
      exact hv.relevant_quarantine hm hl relevant (mem_cons_of_mem _ hk) rfl
  have install : ∀ {kind : EffectKind} {stage : Nat} {label : Text} {slot : PreparationSlot}
      {replica : DesiredReplicaState} {parents : List ParentBinding},
      step = slotStep stage kind label slot → kind ∈ installEffectKinds →
      kind ≠ .promoteRequiredObject → slot ∈ bound.spec.preparationSlots →
      Change pre post replica [.absent ⟨slot.destination⟩] parents →
      AuxTracks bound (done ++ [step]) post.storage := by
    rintro _ _ _ slot _ _ rfl hk unpromoted hm change
    refine tracks.single hd change (.preparation slot) (mem_places.2 hm) rfl ?_ ?_
    · rw [PlaceHolds, if_neg]
      exact fun h => h.2 (did_self hk rfl)
    · intro other hl relevant
      rcases hv.relevant_slot hm hl relevant hk with h | ⟨item, -, -, promoted, -⟩
      · exact h
      · exact absurd promoted unpromoted
  have prefix_ : done <+: steps := IsPrefix.trans (prefix_append _ _) next
  cases effect with
  | control hl _ _ index _ change =>
    have others : ∀ step ∈ controlSteps, step.effectKind ∉ .materializePreparation ::
        .createOwnershipMarker :: .removeOwnershipMarker :: .restoreWorkingNode ::
        installEffectKinds ++ quarantineEffectKinds := by decide
    exact tracks.idle hd change (others step hl)
  | publish change => exact tracks.idle hd change (by decide)
  | create marker hm change =>
    refine tracks.single hd change (.ownership marker) (mem_places.2 hm) rfl ?_ ?_
    · rw [PlaceHolds, if_pos]
      refine ⟨did_self (by simp) rfl, not_did_concat ?_ (by simp)⟩
      exact not_did_of_rank hb next (by simp [EffectKind.rank])
    · exact fun other hl relevant => hv.relevant_marker hm hl relevant (by simp) rfl
  | exclusion marker hm change =>
    exact tracks.idle hd change (by simp [quarantineEffectKinds])
  | removal marker hm change =>
    refine tracks.single hd change (.ownership marker) (mem_places.2 hm) rfl ?_ ?_
    · rw [PlaceHolds, if_neg]
      exact fun h => h.2 (did_self (by simp) rfl)
    · exact fun other hl relevant => hv.relevant_marker hm hl relevant (by simp) rfl
  | materialization slot hm change =>
    refine tracks.single hd change (.preparation slot) (mem_places.2 hm) rfl ?_ ?_
    · rw [PlaceHolds, if_pos]
      refine ⟨did_self (by simp) rfl, not_did_concat ?_ (by simp)⟩
      refine not_did_of_rank hb next ?_
      simp [EffectKind.rank]
    · exact fun other hl relevant => hv.relevant_materialization hm hl relevant
  | promotion item missing slot hm source change =>
    rw [change.storage]
    refine tracks.write hd [(.preparation slot, .absent ⟨slot.destination⟩),
      (.object item, .desired (slotNode slot (objectLocation item.objectId) 1))] ?_ (by simp) ?_
    · intro _ hr
      simp only [mem_cons, not_mem_nil, or_false] at hr
      rcases hr with rfl | rfl
      · refine ⟨mem_places.2 hm, rfl, ?_⟩
        rw [PlaceHolds, if_neg]
        exact fun h => h.2 (did_self (by simp) rfl)
      · refine ⟨mem_places.2 missing, rfl, ?_⟩
        rw [PlaceHolds, if_pos]
        · exact ⟨slot, hm, source, rfl⟩
        · exact did_self (by simp) (by rw [← source]; rfl)
    · intro place hl unwritten relevant
      rcases hv.relevant_slot hm hl relevant (by decide) with rfl |
        ⟨other, isMissing, rfl, -, same⟩
      · simp at unwritten
      · obtain rfl : other = item := hv.required_unique (mem_filter.mp isMissing).1
          (mem_filter.mp missing).1 (same.trans source)
        simp at unwritten
  | quarantineWorking slot node hm hl identity source hf _ change =>
    refine quarantine rfl (by decide) (mem_filter.mp hl).1 hf ?_ change
    exact not_did_of_rank hb next (by simp [EffectKind.rank])
  | installWorking node hm slot hp entry described placeable change =>
    exact install rfl (by decide) (by decide) hp.1 change
  | restoreWorking node hm slot hl identity parent restoration stored hf entry described placeable change =>
      have hs := (mem_filter.mp hl).1
      refine tracks.single hd change (.quarantine slot) (mem_places.2 hs) rfl ?_ ?_
      · rw [PlaceHolds, if_neg]
        exact fun h => h.2 (did_self (by simp) rfl)
      · exact fun other hl relevant => hv.relevant_quarantine hs hl relevant (by simp) rfl
  | quarantineIndex node slot storage hq source hf change =>
    refine quarantine rfl (by decide) hq.1 hf ?_ change
    exact hv.not_did_restore hb prefix_ hq "index.storage" (by simp [administrativeRegistrations, storage])
  | installIndex node slot storage hp change | installSelected node slot storage hp change
  | installReflog node slot hm hp change => exact install rfl (by decide) (by decide) hp.1 change
  | finalizeIndex node slot storage hq ha change =>
    exact tracks.idle hd change (by simp [quarantineEffectKinds])
  | quarantineReflog node slot hm hq source hf change =>
    refine quarantine rfl (by decide) hq.1 hf ?_ change
    exact hv.not_did_restore hb prefix_ hq "refs.reflogs" (by simp [administrativeRegistrations, hm])
  | quarantineSelected _ _ storage hq _ hf change =>
    refine quarantine rfl (by decide) hq.1 hf ?_ change
    exact hv.not_did_restore hb prefix_ hq "refs.loose_ref" (by simp [administrativeRegistrations, storage])
  | selectPacked _ _ change => exact tracks.idle hd change (by decide)

def Place.initial : Place → ExpectedStorage
  | .preparation slot => .ofStorage slot.initial
  | .ownership marker => .absent marker.initial
  | .quarantine slot => .absent slot.initial
  | .destination item => .concrete item.storage
  | .object item => .absent ⟨objectLocation item.objectId⟩

theorem initialStorage_eq (spec : ReconciliationSpec) :
    initialStorage spec = (places spec).map Place.initial := by
  simp [initialStorage, places, Place.initial, Function.comp_def]

theorem ValidSpec.initial_holds {bound : BoundSpecification} (hv : ValidSpec H bound.spec)
    {place : Place} (hl : place ∈ places bound.spec) :
    place.initial.location = place.location ∧ PlaceHolds bound [] place place.initial := by
  rw [mem_places] at hl
  cases place with
  | preparation slot =>
    have hc := hv.slot_pairs.1 slot hl
    simp only [validatePreparationSlot, steps_ok, not_not] at hc
    have initial : slot.initial = .absent ⟨slot.destination⟩ := by tauto
    simp only [Place.initial, initial, PlaceHolds, not_did_nil, false_and, if_false]
    exact ⟨rfl, rfl⟩
  | ownership marker =>
    have hc := hv.marker_pairs.1 marker hl
    simp only [validateOwnershipMarker, steps_ok, not_or, not_not] at hc
    have initial : marker.initial.location = marker.destination := by tauto
    simp only [Place.initial, PlaceHolds, not_did_nil, false_and, if_false]
    exact ⟨initial, by rw [← initial]⟩
  | quarantine slot =>
    have hc := hv.quarantine_pairs.1 slot hl
    simp only [validateQuarantineSlot, steps_ok, not_or, not_not] at hc
    have initial : slot.initial.location = slot.destination := by tauto
    simp only [Place.initial, PlaceHolds, not_did_nil, false_and, if_false]
    exact ⟨initial, by rw [← initial]⟩
  | destination item => exact ⟨rfl, rfl⟩
  | object _ =>
    simp only [Place.initial, PlaceHolds, not_did_nil, if_false]
    exact ⟨rfl, trivial⟩

theorem storage_nodup (hc : validateExpectedImage image = .ok ()) :
    (image.storage.map (·.location)).Nodup := by
  simp only [validateExpectedImage, steps_ok] at hc
  obtain ⟨_, -, -, storage⟩ := hc
  have spec : ∀ seen state, validateImageStorage image seen state = .ok () →
      ∀ prior ∈ seen, prior.location ≠ state.location := by
    intro _ _ h
    simp only [validateImageStorage, steps_ok, not_exists, not_and] at h
    exact h.1
  exact eachAfter_distinct spec storage

theorem auxTracks_initial (hv : ValidSpec H bound.spec)
    (starts : initialExpected bound.spec = .ok image)
    (checked : validateExpectedImage image = .ok ()) : AuxTracks bound [] image.storage := by
  have hd := storage_nodup checked
  simp only [initialExpected, steps_ok] at starts
  obtain ⟨_, -, rfl⟩ := starts
  have hs : (sortBy (·.location.key) (initialStorage bound.spec)).Perm
        ((places bound.spec).map Place.initial) := by
    rw [← initialStorage_eq]
    exact sortBy_perm
  refine ⟨(hs.map _).trans ?_, ?_⟩
  · rw [map_map]
    refine Perm.of_eq (map_congr_left fun place hl => ?_)
    exact (hv.initial_holds hl).1
  · intro place hl
    obtain ⟨located, hh⟩ := hv.initial_holds hl
    refine ⟨place.initial, (find?_eq_some_iff _ hd).mpr ⟨?_, located⟩, hh⟩
    exact hs.mem_iff.mpr (mem_map.mpr ⟨place, hl, rfl⟩)

theorem Reached.auxTracks (hv : ValidSpec H bound.spec) (hb : CompiledBlocks bound.spec steps)
    (hr : Reached bound steps done image) : AuxTracks bound done image.storage := by
  induction hr with
  | initial hs hc => exact auxTracks_initial hv hs hc
  | step hr next ha ih =>
    exact auxTracks_step hv hb next (storage_nodup hr.valid) (advanceStep_effect hv (hb.step next.mem) ha) ih

end Runs

end Yinshi.Reconcile
