import Yinshi.Reconcile.Once

/-! Index, refs, reflogs and generations along a run, as functions of the transitions
done so far. -/

namespace Yinshi.Reconcile
open ByteText Keyed Checked Artifact Ranked List

def DidKind (kinds : List EffectKind) (done : List TransitionStep) : Prop :=
  ∃ step ∈ done, step.effectKind ∈ kinds

instance (kinds : List EffectKind) (done : List TransitionStep) : Decidable (DidKind kinds done) :=
  inferInstanceAs (Decidable (∃ _ ∈ _, _))

section DidKind
variable {spec : ReconciliationSpec} {kinds : List EffectKind} {steps done : List TransitionStep}
  {step : TransitionStep}

theorem not_didKind_nil : ¬ DidKind kinds [] := by simp [DidKind]

theorem didKind_concat : DidKind kinds (done ++ [step]) ↔ DidKind kinds done ∨ step.effectKind ∈ kinds := by
  simp only [DidKind, mem_append, mem_singleton, or_and_right, exists_or, exists_eq_left]

theorem not_didKind_of_rank (blocks : CompiledBlocks spec steps) (next : Next steps done step)
    (ha : ∀ kind ∈ kinds, step.effectKind.rank < kind.rank) : ¬ DidKind kinds done := by
  rintro ⟨_, hm, kind⟩
  have hb := next.rank_le blocks.sorted hm
  have higher := ha _ kind
  omega

theorem didKind_of_rank (blocks : CompiledBlocks spec steps) (next : Next steps done step)
    {other : TransitionStep} (hm : other ∈ steps) (kind : other.effectKind ∈ kinds)
    (hb : other.effectKind.rank < step.effectKind.rank) : DidKind kinds done :=
  ⟨other, next.mem_done blocks.sorted hm hb, kind⟩

end DidKind

section After
variable (spec : ReconciliationSpec) (done : List TransitionStep)

def generationAfter : Int :=
  if DidKind [.publishGeneration] done then spec.desired.generation else spec.baseline.generation

def indexAfter : Index NodeReference :=
  if DidKind [.installIndex, .finalizeIndexAbsence] done then spec.desired.index
  else if DidKind [.quarantineIndex] done then
    ⟨.absent ⟨spec.baseline.index.storage.location⟩, [], false⟩
  else (replicaAsDesired spec.baseline).index

def selectedAfter : Storage NodeReference × Option Text :=
  if DidKind [.installSelectedRef] done then
    (spec.desired.refs.looseRef, spec.desired.refs.resolvedOid)
  else if DidKind [.quarantineSelectedRef] done then
    (.absent ⟨spec.baseline.refs.looseRef.location⟩, spec.baseline.refs.packedFallbackOid)
  else (desiredStorageFromConcrete spec.baseline.refs.looseRef, spec.baseline.refs.resolvedOid)

def LogInstalled (location : Location) : Prop :=
  ∃ node, .node node ∈ spec.desired.refs.reflogs ∧ node.location = location ∧
    ∃ slotId, node.reference = .prepared slotId ∧ Did [.installReflog] done slotId

def LogVacated (location : Location) : Prop :=
  ∃ slot ∈ spec.quarantineSlots, slot.source = location ∧ Did [.quarantineReflog] done slot.slotId

def LogAfter (location : Location) (state : Option (Storage NodeReference)) : Prop :=
  (LogInstalled spec done location ∧ state = storageAt spec.desired.refs.reflogs location) ∨
  (¬ LogInstalled spec done location ∧ LogVacated spec done location ∧
    state = some (.absent ⟨location⟩)) ∨
  (¬ LogInstalled spec done location ∧ ¬ LogVacated spec done location ∧
    state = (storageAt spec.baseline.refs.reflogs location).map desiredStorageFromConcrete)

structure FixedRefs (refs : Refs NodeReference) : Prop where
  selectedRef : refs.selectedRef = spec.baseline.refs.selectedRef
  headBinding : refs.headBinding = spec.baseline.refs.headBinding
  packedFallbackOid : refs.packedFallbackOid = spec.baseline.refs.packedFallbackOid
  head : refs.head = desiredNodeFromConcrete spec.baseline.refs.head
  packedRefs : refs.packedRefs = desiredStorageFromConcrete spec.baseline.refs.packedRefs
  unrelatedMetadata : refs.unrelatedMetadata =
    spec.baseline.refs.unrelatedMetadata.map desiredStorageFromConcrete

structure FieldTracks (replica : DesiredReplicaState) : Prop where
  generation : replica.generation = generationAfter spec done
  replicaGeneration : replica.replicaGeneration = spec.baseline.replicaGeneration
  index : replica.index = indexAfter spec done
  fixed : FixedRefs spec replica.refs
  selected : (replica.refs.looseRef, replica.refs.resolvedOid) = selectedAfter spec done
  reflogs : ∀ location, LogAfter spec done location (storageAt replica.refs.reflogs location)

end After

section Steps
variable {H : Hashes} {bound : BoundSpecification} {steps done : List TransitionStep}
  {step : TransitionStep} {pre post : ExpectedObservation}
variable {spec : ReconciliationSpec} {location : Location}

theorem generationAfter_concat (other : step.effectKind ≠ .publishGeneration) :
    generationAfter spec (done ++ [step]) = generationAfter spec done := by
  simp [generationAfter, didKind_concat, other]

theorem indexAfter_concat (other : step.effectKind ∉ indexKinds) :
    indexAfter spec (done ++ [step]) = indexAfter spec done := by
  simp only [indexKinds, mem_cons, not_mem_nil, or_false, not_or] at other
  simp [indexAfter, didKind_concat, other]

theorem selectedAfter_concat
    (other : step.effectKind ∉ [.quarantineSelectedRef, .installSelectedRef]) :
    selectedAfter spec (done ++ [step]) = selectedAfter spec done := by
  simp only [mem_cons, not_mem_nil, or_false, not_or] at other
  simp [selectedAfter, didKind_concat, other]

theorem did_concat_other {kinds : List EffectKind} {slotId : Text}
    (other : step.effectKind ∉ kinds) :
    Did kinds (done ++ [step]) slotId ↔ Did kinds done slotId := by
  rw [did_concat, slotOf_eq_some]
  exact or_iff_left fun h => other h.1

theorem logInstalled_concat (other : step.effectKind ≠ .installReflog) :
    LogInstalled spec (done ++ [step]) location ↔ LogInstalled spec done location := by
  simp only [LogInstalled, did_concat_other (show step.effectKind ∉ [_] by simpa using other)]

theorem logVacated_concat (other : step.effectKind ≠ .quarantineReflog) :
    LogVacated spec (done ++ [step]) location ↔ LogVacated spec done location := by
  simp only [LogVacated, did_concat_other (show step.effectKind ∉ [_] by simpa using other)]

theorem logAfter_concat {state : Option (Storage NodeReference)}
    (other : step.effectKind ∉ [.quarantineReflog, .installReflog]) :
    LogAfter spec (done ++ [step]) location state ↔ LogAfter spec done location state := by
  simp only [mem_cons, not_mem_nil, or_false, not_or] at other
  simp only [LogAfter, logInstalled_concat other.2, logVacated_concat other.1]

section
variable (ht : FieldTracks bound.spec done pre.replica) (frame : Frame pre post step.effectKind)
include ht frame

theorem FieldTracks.of_index (isIndex : step.effectKind ∈ indexKinds)
    (index : post.replica.index = indexAfter bound.spec (done ++ [step])) :
    FieldTracks bound.spec (done ++ [step]) post.replica := by
  have others : step.effectKind ∉ refKinds ∧ step.effectKind ≠ .publishGeneration ∧
      step.effectKind ∉ [.quarantineSelectedRef, .installSelectedRef] ∧
      step.effectKind ∉ [.quarantineReflog, .installReflog] := by
    revert isIndex
    cases step.effectKind <;> decide
  have refs := frame.refs others.1
  refine ⟨?_, frame.replicaGeneration.trans ht.replicaGeneration, index, ?_, ?_, ?_⟩
  · rw [frame.generation others.2.1, ht.generation, generationAfter_concat others.2.1]
  · rw [refs]
    exact ht.fixed
  · rw [refs, selectedAfter_concat others.2.2.1]
    exact ht.selected
  · intro location
    rw [refs, logAfter_concat others.2.2.2]
    exact ht.reflogs location

theorem FieldTracks.of_refs (isRef : step.effectKind ∈ refKinds)
    (fixed : FixedRefs bound.spec post.replica.refs)
    (selected : (post.replica.refs.looseRef, post.replica.refs.resolvedOid) =
        selectedAfter bound.spec (done ++ [step]))
    (reflogs : ∀ location, LogAfter bound.spec (done ++ [step]) location
          (storageAt post.replica.refs.reflogs location)) :
    FieldTracks bound.spec (done ++ [step]) post.replica := by
  have others : step.effectKind ∉ indexKinds ∧ step.effectKind ≠ .publishGeneration := by
    revert isRef
    cases step.effectKind <;> decide
  refine ⟨?_, frame.replicaGeneration.trans ht.replicaGeneration, ?_, fixed, selected, reflogs⟩
  · rw [frame.generation others.2, ht.generation, generationAfter_concat others.2]
  · rw [frame.index others.1, ht.index, indexAfter_concat others.1]

theorem FieldTracks.keep (other : step.effectKind ∉ .publishGeneration :: indexKinds ++ refKinds) :
    FieldTracks bound.spec (done ++ [step]) post.replica := by
  have others : step.effectKind ∉ indexKinds ∧ step.effectKind ∉ refKinds ∧
      step.effectKind ≠ .publishGeneration ∧
      step.effectKind ∉ [.quarantineSelectedRef, .installSelectedRef] ∧
      step.effectKind ∉ [.quarantineReflog, .installReflog] := by
    revert other
    cases step.effectKind <;> decide
  have refs := frame.refs others.2.1
  refine ⟨?_, frame.replicaGeneration.trans ht.replicaGeneration, ?_, ?_, ?_, ?_⟩
  · rw [frame.generation others.2.2.1, ht.generation, generationAfter_concat others.2.2.1]
  · rw [frame.index others.1, ht.index, indexAfter_concat others.1]
  · rw [refs]
    exact ht.fixed
  · rw [refs, selectedAfter_concat others.2.2.2.1]
    exact ht.selected
  · intro location
    rw [refs, logAfter_concat others.2.2.2.2]
    exact ht.reflogs location

end

end Steps

section Reflogs
variable {H : Hashes} {spec : ReconciliationSpec} {steps done : List TransitionStep}
  {step : TransitionStep}
variable {base : NodeState}

theorem ValidSpec.prepared_slot (hv : ValidSpec H spec) {node : DesiredNodeState} {slotId : Text}
    (hm : node ∈ desiredNodes spec.desired) (reference : node.reference = .prepared slotId) :
    ∃ slot, Prepares spec slot node ∧ slot.slotId = slotId := by
  obtain ⟨_, hc⟩ := hv.desiredNode_valid hm
  simp only [validateDesiredNode, validateDesiredReference, reference, steps_ok] at hc
  obtain ⟨-, -, -, slot, hf, -⟩ := hc
  obtain ⟨hl, rfl⟩ := slotAt_mem hf
  exact ⟨slot, ⟨hl, reference⟩, rfl⟩

theorem Quarantines.unique (hv : ValidSpec H spec) {slot other : QuarantineSlot} {node : NodeState}
    (first : Quarantines spec slot node) (second : Quarantines spec other node) : slot = other :=
  key_inj_of_nodup hv.sourceLocations first.1 second.1 (first.2.1.trans second.2.1.symm)

theorem LogInstalled.vacated (hv : ValidSpec H spec) (graph : GraphValid spec steps)
    (prefix_ : done <+: steps) (isBase : base ∈ baselineNodes spec)
    (installed : LogInstalled spec done base.location) :
    ∃ slot, Quarantines spec slot base ∧ Did quarantineEffectKinds done slot.slotId := by
  obtain ⟨_, isLog, place, _, prepared, did⟩ := installed
  obtain ⟨step, hm, hk, hs⟩ := did_iff.mp did
  obtain ⟨_, hp, rfl⟩ := hv.prepared_slot (mem_desiredNodes_reflog isLog) prepared
  have installs : step.effectKind ∈ installEffectKinds := by
    rw [mem_singleton.mp hk]
    decide
  have target := hv.node_target (mem_desiredNodes_reflog isLog) hp installs hs
  rw [place] at target
  exact hv.quarantined_did graph prefix_ hm isBase target

theorem storageAt_eq_some {ρ : Type} {states : List (Storage ρ)} {location : Location}
    {state : Storage ρ} (hd : (states.map (·.location)).Nodup) :
    storageAt states location = some state ↔ state ∈ states ∧ state.location = location :=
  find?_eq_some_iff _ hd

theorem logAfter_quarantine (hv : ValidSpec H spec) (graph : GraphValid spec steps)
    {slot : QuarantineSlot} (next : Next steps done (quarantineStep 11 .quarantineReflog slot))
    (isLog : .node base ∈ spec.baseline.refs.reflogs) (hq : Quarantines spec slot base)
    {logs : List (Storage NodeReference)}
    (ht : ∀ location, LogAfter spec done location (storageAt logs location)) (location : Location) :
    LogAfter spec (done ++ [quarantineStep 11 .quarantineReflog slot]) location
      (storageAt (logs.map
          fun state => if state.location = slot.source then .absent ⟨slot.source⟩ else state)
        location) := by
  have isBase :=
    @administrative_baseline spec base "refs.reflogs" (by simp [administrativeRegistrations, isLog])
  have prefix_ : done <+: steps := IsPrefix.trans (prefix_append _ _) next
  have unmoved := graph.not_did_quarantine hv next hq.1 (by simp [quarantineEffectKinds]) rfl
  have hf : storageAt (logs.map fun state =>
      if state.location = slot.source then Storage.absent ⟨slot.source⟩ else state) location =
      (storageAt logs location).map fun state =>
        if state.location = slot.source then .absent ⟨slot.source⟩ else state := by
    have hs : (fun state : Storage NodeReference => decide (state.location = location)) ∘
        (fun state => if state.location = slot.source then Storage.absent ⟨slot.source⟩ else state) =
        fun state => decide (state.location = location) := by
      funext state
      simp only [Function.comp_apply]
      split
      next place =>
        rw [place]
        rfl
      next => rfl
    rw [storageAt, find?_map, hs]
    rfl
  have installs : ∀ other, LogInstalled spec (done ++ [quarantineStep 11 .quarantineReflog slot]) other ↔
      LogInstalled spec done other := fun other =>
    logInstalled_concat (by simp)
  rw [hf]
  by_cases hh : location = slot.source
  · subst hh
    have uninstalled : ¬ LogInstalled spec done slot.source := by
      intro installed
      rw [hq.2.1] at installed
      obtain ⟨other, hq', did⟩ := installed.vacated hv graph prefix_ isBase
      exact unmoved (hq'.unique hv hq ▸ did)
    have unvacated : ¬ LogVacated spec done slot.source := by
      rintro ⟨other, hm, hs, did⟩
      obtain rfl := key_inj_of_nodup hv.sourceLocations hm hq.1 hs
      obtain ⟨step, hl, hk, isSlot⟩ := did_iff.mp did
      refine unmoved (did_iff.mpr ⟨step, hl, ?_, isSlot⟩)
      rw [mem_singleton.mp hk]
      decide
    have stored : storageAt spec.baseline.refs.reflogs slot.source = some (.node base) :=
      (storageAt_eq_some hv.baselineReflogs).mpr ⟨isLog, hq.2.1.symm⟩
    refine .inr (.inl ⟨(installs _).not.mpr uninstalled, ⟨slot, hq.1, rfl, did_self (by simp) rfl⟩, ?_⟩)
    rcases ht slot.source with ⟨h, -⟩ | ⟨-, h, -⟩ | ⟨-, -, hs⟩
    · exact absurd h uninstalled
    · exact absurd h unvacated
    · rw [hs, stored]
      have place : (desiredStorageFromConcrete (.node base)).location = slot.source :=
        hq.2.1.symm
      simp [place]
  · have vacates : LogVacated spec (done ++ [quarantineStep 11 .quarantineReflog slot]) location ↔
        LogVacated spec done location := by
      refine exists_congr fun other => and_congr_right fun hm => and_congr_right fun place => ?_
      rw [did_concat]
      refine or_iff_left fun selected => ?_
      have hs : slot.slotId = other.slotId := by simpa [slotOf] using selected
      obtain rfl := key_inj_of_nodup hv.quarantineIds hq.1 hm hs
      exact hh place.symm
    have kept : (storageAt logs location).map (fun state =>
        if state.location = slot.source then Storage.absent ⟨slot.source⟩ else state) =
        storageAt logs location := by
      cases state : storageAt logs location with
      | none => rfl
      | some state' =>
        have place : state'.location = location := by simpa using find?_some state
        rw [Option.map_some, if_neg (by rw [place]; exact hh)]
    rw [kept, LogAfter, installs, vacates]
    exact ht location

theorem logAfter_install (hv : ValidSpec H spec) {node : DesiredNodeState} {slot : PreparationSlot}
    (isLog : .node node ∈ spec.desired.refs.reflogs) (hp : Prepares spec slot node)
    {logs : List (Storage NodeReference)} (hd : (logs.map (·.location)).Nodup)
    (ht : ∀ location, LogAfter spec done location (storageAt logs location))
    (isKind : step.effectKind = .installReflog) (isSlot : step.preparedSlotId = some slot.slotId)
    (location : Location) :
    LogAfter spec (done ++ [step]) location (storageAt
        (sortStorage (logs.filter (·.location ≠ node.location) ++ [.node node])) location) := by
  have hk : ((logs.filter (·.location ≠ node.location) ++ [Storage.node node]).map (·.location)).Nodup := by
    rw [map_append, nodup_append']
    refine ⟨hd.sublist (filter_sublist.map _), by simp, ?_⟩
    intro place ho hn
    obtain ⟨state, hm, rfl⟩ := mem_map.mp ho
    rw [map_singleton, mem_singleton] at hn
    have other := (mem_filter.mp hm).2
    exact (of_decide_eq_true other) hn
  have hs : storageAt (sortStorage (logs.filter (·.location ≠ node.location) ++
      [Storage.node node])) location = storageAt (logs.filter (·.location ≠ node.location) ++
      [Storage.node node]) location := find?_perm _ hk sortBy_perm.symm
  have vacates : ∀ other, LogVacated spec (done ++ [step]) other ↔ LogVacated spec done other :=
    fun other => logVacated_concat (by simp [isKind])
  rw [hs]
  by_cases hh : location = node.location
  · subst hh
    refine .inl ⟨⟨node, isLog, rfl, slot.slotId, hp.2, did_self (by simp [isKind]) isSlot⟩, ?_⟩
    have wanted : storageAt spec.desired.refs.reflogs node.location = some (.node node) :=
      (storageAt_eq_some hv.desiredReflogs).mpr ⟨isLog, rfl⟩
    rw [wanted]
    exact (storageAt_eq_some hk).mpr ⟨by simp, rfl⟩
  · have hf : storageAt (logs.filter (·.location ≠ node.location) ++ [Storage.node node]) location =
        storageAt logs location := by
      ext state
      rw [storageAt_eq_some hk, storageAt_eq_some hd]
      refine and_congr_left fun place => ?_
      simp only [mem_append, mem_filter, mem_singleton, decide_not, Bool.not_eq_true',
        decide_eq_false_iff_not]
      constructor
      · rintro (h | rfl)
        · exact h.1
        · exact absurd place.symm hh
      · intro hm
        exact .inl ⟨hm, by rw [place]; exact hh⟩
    have installs : LogInstalled spec (done ++ [step]) location ↔ LogInstalled spec done location := by
      refine exists_congr fun other => and_congr_right fun hl => and_congr_right fun place =>
        exists_congr fun slotId => and_congr_right fun reference => ?_
      rw [did_concat]
      refine or_iff_left fun selected => ?_
      have same : slot.slotId = slotId := by simpa [slotOf, isKind, isSlot] using selected
      obtain rfl := hv.prepared_unique (mem_desiredNodes_reflog isLog)
        (mem_desiredNodes_reflog hl) hp.2 (same ▸ reference)
      exact hh place.symm
    rw [hf, LogAfter, installs, vacates]
    exact ht location

end Reflogs

section Selected
variable {H : Hashes} {spec : ReconciliationSpec} (valid : ValidSpec H spec)
include valid

theorem ValidSpec.selectedRef_same :
    spec.desired.refs.selectedRef = spec.baseline.refs.selectedRef ∧
    spec.desired.refs.headBinding = spec.baseline.refs.headBinding ∧
    spec.desired.refs.looseRef.location = spec.baseline.refs.looseRef.location := by
  have admin := valid.immutableAdmin
  simp only [validateImmutableAdmin, steps_ok, not_or, not_not] at admin
  have first := valid.baseline
  simp only [validateReplica, validateRefState, validateRefSemantics, steps_ok, not_or, not_not] at first
  have second := valid.desired
  simp only [validateDesired, validateRefSemantics, steps_ok, not_or, not_not] at second
  obtain ⟨⟨binding, content, space, path⟩, -⟩ := first.2.2.2.2.2.2.1.2.2.2.2.2.2.2
  obtain ⟨⟨binding', content', space', path'⟩, -⟩ := second.2.2.2.2.2.2.2.2.2.2.2.2.2.2.2.1
  have contents : spec.desired.refs.head.content = spec.baseline.refs.head.content := by
    rw [admin.1.1]
    rfl
  have bindings : spec.desired.refs.headBinding = spec.baseline.refs.headBinding := by
    rw [← content, ← content', contents]
  have refs : spec.desired.refs.selectedRef = spec.baseline.refs.selectedRef := by
    rw [binding, binding'] at bindings
    exact append_cancel_left bindings
  refine ⟨refs, bindings, ?_⟩
  rw [Location.mk.injEq]
  exact ⟨space'.trans space.symm, by rw [path', path, refs]⟩

theorem ValidSpec.looseRef_present (ha : spec.desired.refs.looseRef.node? = none)
    (hc : spec.desired.refs.looseRef ≠ desiredStorageFromConcrete spec.baseline.refs.looseRef) :
    ∃ node, spec.baseline.refs.looseRef = .node node := by
  have place := valid.selectedRef_same.2.2
  cases first : spec.baseline.refs.looseRef with
  | node node => exact ⟨node, rfl⟩
  | absent state =>
    cases second : spec.desired.refs.looseRef with
    | node _ => simp [second, Storage.node?] at ha
    | absent state' =>
      rw [first, second] at place hc
      have hs : state'.location = state.location := place
      refine absurd ?_ hc
      rw [desiredStorageFromConcrete, Storage.absent.injEq, AbsentState.mk.injEq]
      exact hs

end Selected

theorem CompiledBlocks.selectedQuarantine {spec : ReconciliationSpec} {steps : List TransitionStep}
    (blocks : CompiledBlocks spec steps) {node : NodeState}
    (storage : spec.baseline.refs.looseRef = .node node)
    (changed :
      spec.desired.refs.looseRef ≠ desiredStorageFromConcrete spec.baseline.refs.looseRef) :
    ∃ slot, Quarantines spec slot node ∧ quarantineStep 11 .quarantineSelectedRef slot ∈ steps := by
  obtain ⟨same, -⟩ | ⟨-, _, _, first, -, hw⟩ := changed_eq_ok blocks.referred
  · exact absurd same changed
  · obtain ⟨node', slot, hs, hq, rfl⟩ | ⟨none, -⟩ := compileQuarantine_eq_ok first
    · obtain rfl : node' = node := by
        rw [storage] at hs
        exact (Storage.node.inj (Option.some.inj hs)).symm
      refine ⟨slot, hq, blocks.mem_middle ?_⟩
      rw [hw]
      simp
    · exact absurd (congrArg some storage) (none node)

section Runs
variable {H : Hashes} {bound : BoundSpecification} {steps done : List TransitionStep}
  {step : TransitionStep} {pre post : ExpectedObservation}

theorem fieldTracks_step (hv : ValidSpec H bound.spec) (blocks : CompiledBlocks bound.spec steps)
    (graph : GraphValid bound.spec steps) (next : Next steps done step) (image : ImageValid pre)
    (effect : Effect bound pre post step)
    (bodies : ∀ node ∈ imageNodes pre, KnownBody bound.spec node)
    (ht : FieldTracks bound.spec done pre.replica) :
    FieldTracks bound.spec (done ++ [step]) post.replica := by
  have frame := frame_step hv effect bodies
  cases effect with
  | control hl unpublished _ index _ change =>
    have others : ∀ step ∈ controlSteps, step.effectKind ≠ .publishGeneration →
        step.effectKind ∉ .publishGeneration :: indexKinds ++ refKinds := by decide
    exact ht.keep frame (others step hl unpublished)
  | publish change =>
    refine ⟨?_, frame.replicaGeneration.trans ht.replicaGeneration, ?_, ?_, ?_, ?_⟩
    · rw [change.replica, generationAfter, if_pos (didKind_concat.2 (.inr (by decide)))]
    · rw [change.replica, indexAfter_concat (by decide)]
      exact ht.index
    · rw [change.replica]
      exact ht.fixed
    · rw [change.replica, selectedAfter_concat (by decide)]
      exact ht.selected
    · intro location
      rw [change.replica, logAfter_concat (by decide)]
      exact ht.reflogs location
  | create _ _ change | exclusion _ _ change | removal _ _ change | materialization _ _ change =>
    exact ht.keep frame (by simp [indexKinds, refKinds])
  | promotion _ _ _ _ _ change | quarantineWorking _ _ _ _ _ _ _ _ change
  | installWorking _ _ _ _ _ _ _ change | restoreWorking _ _ _ _ _ _ _ _ _ _ _ _ change =>
    exact ht.keep frame (by simp [indexKinds, refKinds])
  | quarantineIndex node slot storage hq source hf change =>
    have file := hv.administrative_source "index.storage"
      (by simp [administrativeRegistrations, storage]) hq bodies hf
    have early : ¬ DidKind [.installIndex, .finalizeIndexAbsence] (done ++
        [quarantineStep 10 .quarantineIndex slot]) := by
      rw [didKind_concat, not_or]
      exact ⟨not_didKind_of_rank blocks next (by simp [EffectKind.rank]), by simp⟩
    refine ht.of_index frame (by simp [indexKinds]) ?_
    rw [indexAfter, if_neg early, if_pos (didKind_concat.2 (.inr (by
      simp))), change.replica, quarantinedReplica, if_neg file, storage,
      withoutSource, hq.2.1]
    rfl
  | installIndex node slot storage hp change =>
    refine ht.of_index frame (by simp [indexKinds]) ?_
    rw [indexAfter, if_pos (didKind_concat.2 (.inr (by simp))), change.replica]
  | finalizeIndex node slot storage hq ha change =>
    refine ht.of_index frame (by simp [indexKinds]) ?_
    rw [indexAfter, if_pos (didKind_concat.2 (.inr (by simp))), change.replica]
  | quarantineReflog node slot isLog hq source hf change =>
    have file := hv.administrative_source "refs.reflogs"
        (by simp [administrativeRegistrations, isLog]) hq bodies hf
    have refs : post.replica.refs = { pre.replica.refs with
        reflogs := pre.replica.refs.reflogs.map fun state =>
          if state.location = slot.source then .absent ⟨slot.source⟩ else state } := by
      rw [change.replica, quarantinedReplica, if_neg file]
      rfl
    refine ht.of_refs frame (by simp [refKinds]) ?_ ?_ ?_
    · rw [refs]
      exact ⟨ht.fixed.1, ht.fixed.2, ht.fixed.3, ht.fixed.4, ht.fixed.5, ht.fixed.6⟩
    · rw [refs, selectedAfter_concat (by simp)]
      exact ht.selected
    · rw [refs]
      exact logAfter_quarantine hv graph next isLog hq ht.reflogs
  | installReflog node slot isLog hp change =>
    refine ht.of_refs frame (by simp [refKinds]) ?_ ?_ ?_
    · rw [change.replica]
      exact ⟨ht.fixed.1, ht.fixed.2, ht.fixed.3, ht.fixed.4, ht.fixed.5, ht.fixed.6⟩
    · rw [change.replica, selectedAfter_concat (by simp)]
      exact ht.selected
    · rw [change.replica]
      exact logAfter_install hv isLog hp (reflogs_nodup image.statics) ht.reflogs rfl rfl
  | quarantineSelected node slot storage hq _ hf change =>
    have file := hv.administrative_source "refs.loose_ref"
      (by simp [administrativeRegistrations, storage]) hq bodies hf
    have refs : post.replica.refs = { pre.replica.refs with
        resolvedOid := pre.replica.refs.packedFallbackOid
        looseRef := .absent ⟨slot.source⟩ } := by
      rw [change.replica, quarantinedReplica, if_neg file]
      rfl
    have early : ¬ DidKind [.installSelectedRef] (done ++ [quarantineStep 11 .quarantineSelectedRef slot]) := by
      rw [didKind_concat, not_or]
      exact ⟨not_didKind_of_rank blocks next (by simp [EffectKind.rank]), by simp⟩
    refine ht.of_refs frame (by simp [refKinds]) ?_ ?_ ?_
    · rw [refs]
      exact ⟨ht.fixed.1, ht.fixed.2, ht.fixed.3, ht.fixed.4, ht.fixed.5, ht.fixed.6⟩
    · rw [refs, selectedAfter, if_neg early, if_pos (didKind_concat.2 (.inr (by simp))), storage, hq.2.1]
      exact Prod.ext rfl ht.fixed.packedFallbackOid
    · intro location
      rw [refs, logAfter_concat (by simp)]
      exact ht.reflogs location
  | installSelected node slot storage _ change =>
    refine ht.of_refs frame (by simp [refKinds]) ?_ ?_ ?_
    · rw [change.replica]
      exact ⟨ht.fixed.1, ht.fixed.2, ht.fixed.3, ht.fixed.4, ht.fixed.5, ht.fixed.6⟩
    · rw [change.replica, selectedAfter, if_pos (didKind_concat.2 (.inr (by simp)))]
    · intro location
      rw [change.replica, logAfter_concat (by simp)]
      exact ht.reflogs location
  | selectPacked ha hc change =>
    -- The ref resolves through the packed refs since its loose file has left.
    obtain ⟨_, storage⟩ := hv.looseRef_present ha hc
    obtain ⟨_, -, hl⟩ := blocks.selectedQuarantine storage hc
    have vacated : DidKind [.quarantineSelectedRef] done :=
      didKind_of_rank blocks next hl (by simp) (by simp [EffectKind.rank])
    have uninstalled : ¬ DidKind [.installSelectedRef] done := by
      rintro ⟨other, hm, hk⟩
      have compiled := blocks.step (next.done_subset hm)
      rw [mem_singleton] at hk
      cases compiled with
      | control hl =>
        have others : ∀ step ∈ controlSteps, step.effectKind ≠ .installSelectedRef := by decide
        exact others other hl hk
      | installSelected _ _ storage' _ => simp [storage', Storage.node?] at ha
      | _ => simp at hk
    have selected := ht.selected
    rw [selectedAfter, if_neg uninstalled, if_pos vacated, Prod.mk.injEq] at selected
    refine ht.of_refs frame (by simp [refKinds]) ?_ ?_ ?_
    · rw [change.replica]
      exact ⟨ht.fixed.1, ht.fixed.2, ht.fixed.3, ht.fixed.4, ht.fixed.5, ht.fixed.6⟩
    · rw [change.replica, selectedAfter_concat (by simp), selectedAfter, if_neg uninstalled, if_pos vacated]
      exact Prod.ext selected.1 ht.fixed.packedFallbackOid
    · intro location
      rw [change.replica, logAfter_concat (by simp)]
      exact ht.reflogs location

theorem fieldTracks_initial {image : ExpectedObservation}
    (starts : initialExpected bound.spec = .ok image) :
    FieldTracks bound.spec [] image.replica := by
  simp only [initialExpected, steps_ok] at starts
  obtain ⟨_, -, rfl⟩ := starts
  have replica : ∀ state : ExpectedObservation, state.replicaState = .concrete bound.spec.baseline →
      state.replica = replicaAsDesired bound.spec.baseline := by
    intro state hs
    rw [ExpectedObservation.replica, hs]
    rfl
  rw [replica _ rfl]
  refine ⟨?_, rfl, ?_, ⟨rfl, rfl, rfl, rfl, rfl, rfl⟩, ?_, ?_⟩
  · rfl
  · rw [indexAfter, if_neg not_didKind_nil, if_neg not_didKind_nil]
  · rfl
  · intro _
    refine .inr (.inr ⟨?_, ?_, ?_⟩)
    · rintro ⟨_, -, -, _, -, did⟩
      exact not_did_nil _ _ did
    · rintro ⟨_, -, -, did⟩
      exact not_did_nil _ _ did
    · show find? _ (map _ _) = _
      rw [find?_map, storageAt]
      congr 2
      funext state
      simp [desiredStorageFromConcrete_location]

theorem Reached.fieldTracks (hv : ValidSpec H bound.spec) (hb : CompiledBlocks bound.spec steps)
    (graph : GraphValid bound.spec steps) {image : ExpectedObservation}
    (hr : Reached bound steps done image) : FieldTracks bound.spec done image.replica := by
  induction hr with
  | initial hs _ => exact fieldTracks_initial hs
  | step hr next ha ih =>
    exact fieldTracks_step hv hb graph next hr.imageValid
      (advanceStep_effect hv (hb.step next.mem) ha) (hr.bodies hv hb) ih

end Runs

end Yinshi.Reconcile
