import Yinshi.Artifact.Canonicity
import Yinshi.Reconcile.Custody

/-! The last image of a plan: the replica is the desired one, markers and slots are
empty and promoted objects are in place. -/

namespace Yinshi.Reconcile
open ByteText Keyed Checked Artifact Ranked List

section Runs
variable {H : Hashes} {bound : BoundSpecification} {steps done : List TransitionStep}
  {step : TransitionStep} {pre post image : ExpectedObservation}

theorem effect_acknowledges (effect : Effect bound pre post step) :
    (step.effectKind = .acknowledgeWorkingInstall →
        pre.replica.manifest = bound.spec.desired.manifest ∧
        pre.replica.workingNodes = bound.spec.desired.workingNodes) ∧
    (step.effectKind = .acknowledgeIndex → pre.replica.index = bound.spec.desired.index) ∧
    (step.effectKind = .acknowledgeMetadata → pre.replica.refs = bound.spec.desired.refs) := by
  cases effect with
  | control _ _ working index metadata _ => exact ⟨working, index, metadata⟩
  | _ => simp

structure Acknowledged (spec : ReconciliationSpec) (done : List TransitionStep)
    (replica : DesiredReplicaState) : Prop where
  working : DidKind [.acknowledgeWorkingInstall] done →
    replica.manifest = spec.desired.manifest ∧ replica.workingNodes = spec.desired.workingNodes
  index : DidKind [.acknowledgeIndex] done → replica.index = spec.desired.index
  metadata : DidKind [.acknowledgeMetadata] done → replica.refs = spec.desired.refs

theorem CompiledBlocks.rank_after {spec : ReconciliationSpec} {kind : EffectKind}
    (hb : CompiledBlocks spec steps) (next : Next steps done step) (did : DidKind [kind] done) :
    kind.rank ≤ step.effectKind.rank := by
  obtain ⟨_, hm, hk⟩ := did
  rw [← mem_singleton.mp hk]
  exact next.rank_le hb.sorted hm

section
variable (hv : ValidSpec H bound.spec) (hb : CompiledBlocks bound.spec steps)
include hv hb

theorem acknowledged_step (next : Next steps done step) (effect : Effect bound pre post step)
    (bodies : ∀ node ∈ imageNodes pre, KnownBody bound.spec node)
    (acknowledged : Acknowledged bound.spec done pre.replica) :
    Acknowledged bound.spec (done ++ [step]) post.replica := by
  have frame := frame_step hv effect bodies
  obtain ⟨working, index, metadata⟩ := effect_acknowledges effect
  refine ⟨fun did => ?_, fun did => ?_, fun did => ?_⟩
  · rcases didKind_concat.mp did with did | hk
    · have other : step.effectKind ∉ workingKinds := by
        have ha := hb.rank_after next did
        revert ha
        cases step.effectKind <;> decide
      rw [(frame.working other).1, (frame.working other).2]
      exact acknowledged.working did
    · rw [mem_singleton] at hk
      have other : step.effectKind ∉ workingKinds := by rw [hk]; decide
      rw [(frame.working other).1, (frame.working other).2]
      exact working hk
  · rcases didKind_concat.mp did with did | hk
    · have other : step.effectKind ∉ indexKinds := by
        have ha := hb.rank_after next did
        revert ha
        cases step.effectKind <;> decide
      rw [frame.index other]
      exact acknowledged.index did
    · rw [mem_singleton] at hk
      rw [frame.index (by rw [hk]; decide)]
      exact index hk
  · rcases didKind_concat.mp did with did | hk
    · have other : step.effectKind ∉ refKinds := by
        have ha := hb.rank_after next did
        revert ha
        cases step.effectKind <;> decide
      rw [frame.refs other]
      exact acknowledged.metadata did
    · rw [mem_singleton] at hk
      rw [frame.refs (by rw [hk]; decide)]
      exact metadata hk

theorem Reached.acknowledged (hr : Reached bound steps done image) :
    Acknowledged bound.spec done image.replica := by
  induction hr with
  | initial _ _ =>
    exact ⟨fun did => absurd did not_didKind_nil, fun did => absurd did not_didKind_nil,
      fun did => absurd did not_didKind_nil⟩
  | step hr next ha ih =>
    exact acknowledged_step hv hb next (advanceStep_effect hv (hb.step next.mem) ha) (hr.bodies hv hb) ih

theorem Reached.identity (hr : Reached bound steps done image) :
    image.identity = bound.spec.identity ∧ image.boundaries = bound.spec.boundaries := by
  induction hr with
  | initial starts _ =>
    simp only [initialExpected, steps_ok] at starts
    obtain ⟨_, -, rfl⟩ := starts
    exact ⟨rfl, rfl⟩
  | step _ next ha ih =>
    have hs := effect_identity (advanceStep_effect hv (hb.step next.mem) ha)
    rw [hs.1, hs.2]
    exact ih

end

theorem CompiledBlocks.didKind_control {spec : ReconciliationSpec} (hb : CompiledBlocks spec steps)
    {kind : EffectKind} (hl : ∃ step ∈ controlSteps, step.effectKind = kind) :
    DidKind [kind] steps := by
  obtain ⟨step, hm, rfl⟩ := hl
  exact ⟨step, hb.control hm, by simp⟩

theorem Reached.final_replica (hv : ValidSpec H bound.spec) (hb : CompiledBlocks bound.spec steps)
    (graph : GraphValid bound.spec steps) (hr : Reached bound steps steps image) :
    image.replica = bound.spec.desired := by
  have fields := hr.fieldTracks hv hb graph
  have acknowledged := hr.acknowledged hv hb
  have working := acknowledged.working (hb.didKind_control (by decide))
  have index := acknowledged.index (hb.didKind_control (by decide))
  have metadata := acknowledged.metadata (hb.didKind_control (by decide))
  have generation := fields.generation
  rw [generationAfter, if_pos (hb.didKind_control (by decide))] at generation
  have generations := hv.generations
  simp only [validateGenerations, steps_ok, not_not] at generations
  have replicaGeneration := fields.replicaGeneration.trans generations.2.2.2.symm
  cases replica : image.replica
  rw [replica] at working index metadata generation replicaGeneration
  simp only at working index metadata generation replicaGeneration
  rw [working.1, working.2, index, metadata, generation, replicaGeneration]

theorem Reached.final_storage (hv : ValidSpec H bound.spec) (hb : CompiledBlocks bound.spec steps)
    (reached : Reached bound steps steps image) :
    (∀ marker ∈ bound.spec.ownershipMarkers,
        auxAt image.storage marker.destination = some (.absent ⟨marker.destination⟩)) ∧
    (∀ slot ∈ bound.spec.preparationSlots, Did installEffectKinds steps slot.slotId →
      auxAt image.storage slot.destination = some (.absent ⟨slot.destination⟩)) ∧
    ∀ item ∈ missingObjects bound.spec, ∃ slot ∈ bound.spec.preparationSlots,
      slot.slotId = item.sourceSlotId ∧
      auxAt image.storage (objectLocation item.objectId) =
        some (.desired (slotNode slot (objectLocation item.objectId) 1)) := by
  have ht := reached.auxTracks hv hb
  refine ⟨fun marker hm => ?_, fun slot hm did => ?_, fun item missing => ?_⟩
  · obtain ⟨state, hf, hh⟩ := ht.holds (.ownership marker) (mem_places.mpr hm)
    have removed : Did [.removeOwnershipMarker] steps marker.slotId :=
      did_iff.mpr ⟨_, hb.removal hm, by simp, rfl⟩
    rw [PlaceHolds, if_neg fun h => h.2 removed] at hh
    exact hf.trans (congrArg some hh)
  · obtain ⟨state, hf, hh⟩ := ht.holds (.preparation slot) (mem_places.mpr hm)
    rw [PlaceHolds, if_neg fun h => h.2 did] at hh
    exact hf.trans (congrArg some hh)
  · obtain ⟨_, hf, hh⟩ := ht.holds (.object item) (mem_places.mpr missing)
    obtain ⟨_, _, source, promoted⟩ := hb.promotion missing
    have did : Did [.promoteRequiredObject] steps item.sourceSlotId :=
      did_iff.mpr ⟨_, promoted, by simp, by rw [← source]; rfl⟩
    rw [PlaceHolds, if_pos did] at hh
    obtain ⟨slot', hm, hs, rfl⟩ := hh
    exact ⟨slot', hm, hs, hf⟩

end Runs

section Plans
variable {H : Hashes} {spec : ReconciliationSpec} {bound : BoundSpecification}
  {plan : ReconciliationPlan} {steps : List TransitionStep}

theorem ValidSpec.generation_advances (hv : ValidSpec H spec) :
    spec.desired.generation = spec.baseline.generation + 1 := by
  have generations := hv.generations
  simp only [validateGenerations, steps_ok, not_not] at generations
  exact generations.2.2.1

theorem Planned.advances_iff (hp : Planned H bound plan steps) {position : Nat}
    {action : ActionContract} (isAction : plan.actions[position]? = some action) :
    action.completionPostimage.replica.generation ≠ action.preimage.replica.generation ↔
    DidKind [.publishGeneration] (steps.take (position + 1)) ∧
    ¬ DidKind [.publishGeneration] (steps.take position) := by
  obtain ⟨hb⟩ := hp.blocks
  obtain ⟨_, contract⟩ := hp.contract position action isAction
  have ha := hp.valid.generation_advances
  rw [(contract.reached_post.fieldTracks hp.valid hb hp.graph).generation,
    (contract.reached.fieldTracks hp.valid hb hp.graph).generation, generationAfter,
    generationAfter]
  rw [← take_concat contract.found]
  split
  next after =>
    split
    next before => simp [before]
    next before => simp [after, before, ha]
  next after =>
    have before : ¬ DidKind [.publishGeneration] (steps.take position) := fun did =>
      after (didKind_concat.mpr (.inl did))
    simp [before, after]

theorem Planned.generation_once (planned : Planned H bound plan steps) :
    ∃! position : Nat, ∃ action : ActionContract, plan.actions[position]? = some action ∧
      action.completionPostimage.replica.generation ≠ action.preimage.replica.generation := by
  obtain ⟨hb⟩ := planned.blocks
  obtain ⟨first, isFirst⟩ : ∃ first, steps.findIdx (·.effectKind = .publishGeneration) = first := ⟨_, rfl⟩
  have hw : first < steps.length := by
    have hp : DidKind [.publishGeneration] steps := hb.didKind_control (by decide)
    rw [← isFirst, findIdx_lt_length]
    simpa [DidKind] using hp
  have unpublished : ∀ n ≤ first, ¬ DidKind [.publishGeneration] (steps.take n) := by
    rintro _ _ ⟨step, hm, hk⟩
    obtain ⟨place, _, rfl⟩ := mem_take_iff_getElem.mp hm
    have early : place < steps.findIdx (·.effectKind = .publishGeneration) := by omega
    have other := not_of_lt_findIdx early
    simp [mem_singleton.mp hk] at other
  have hp : DidKind [.publishGeneration] (steps.take (first + 1)) := by
    have hf := @List.findIdx_getElem _ (fun step => decide (step.effectKind = .publishGeneration))
      steps (isFirst ▸ hw)
    simp only [isFirst] at hf
    refine ⟨steps.get ⟨first, hw⟩, ?_, by simpa using hf⟩
    exact mem_take_iff_getElem.mpr ⟨first, by omega, rfl⟩
  refine ⟨first, ?_, ?_⟩
  · have isAction := getElem?_eq_getElem (show first < plan.actions.length by
      rw [planned.length]
      exact hw)
    exact ⟨_, isAction, (planned.advances_iff isAction).mpr ⟨hp, unpublished _ (le_refl _)⟩⟩
  · rintro position ⟨_, isAction, changes⟩
    obtain ⟨after, before⟩ := (planned.advances_iff isAction).mp changes
    have later : first < position + 1 := by
      by_contra early
      exact unpublished _ (not_lt.mp early) after
    have sooner : position < first + 1 := by
      by_contra late
      obtain ⟨step, hm, hk⟩ := hp
      refine before ⟨step, ?_, hk⟩
      exact (take_subset_take_left steps (not_lt.mp late)) hm
    omega

structure ReachesDesired (bound : BoundSpecification) (plan : ReconciliationPlan)
    (last : ActionContract) : Prop where
  replica : ensureDesiredReplica last.completionPostimage.replicaState = bound.spec.desired
  generation : bound.spec.desired.generation = bound.spec.baseline.generation + 1
  advance : ∃! position : Nat, ∃ action : ActionContract,
    plan.actions[position]? = some action ∧
    action.completionPostimage.replica.generation ≠ action.preimage.replica.generation
  markers : ∀ marker ∈ bound.spec.ownershipMarkers,
    auxAt last.completionPostimage.storage marker.destination = some (.absent ⟨marker.destination⟩)
  prepared : ∀ slot ∈ bound.spec.preparationSlots,
    (∃ action ∈ plan.actions,
      action.effectKind ∈ installEffectKinds ∧ action.preparedSlotId = some slot.slotId) →
    auxAt last.completionPostimage.storage slot.destination = some (.absent ⟨slot.destination⟩)
  objects : ∀ item ∈ missingObjects bound.spec, ∃ slot ∈ bound.spec.preparationSlots,
    slot.slotId = item.sourceSlotId ∧
    auxAt last.completionPostimage.storage (objectLocation item.objectId) =
      some (.desired (slotNode slot (objectLocation item.objectId) 1))
  boundaries : last.completionPostimage.boundaries = bound.spec.boundaries
  identity : last.completionPostimage.identity = bound.spec.identity

/-- Every plan ends in the desired state. -/
theorem plan_reaches_desired (binds : bindSpecification H spec = .ok bound)
    (derives : deriveProtocolPlan bound = .ok plan) :
    ∃ last, plan.actions.getLast? = some last ∧ ReachesDesired bound plan last := by
  obtain ⟨_, planned⟩ := planned binds derives
  obtain ⟨blocks⟩ := planned.blocks
  obtain ⟨last, isLast, reached⟩ := planned.last
  obtain ⟨markers, slots, objects⟩ := reached.final_storage planned.valid blocks
  obtain ⟨identity, boundaries⟩ := reached.identity planned.valid blocks
  refine ⟨last, isLast, reached.final_replica planned.valid blocks planned.graph,
    planned.valid.generation_advances, planned.generation_once, markers, ?_, objects, boundaries,
    identity⟩
  rintro slot member ⟨action, isAction, isKind, isSlot⟩
  obtain ⟨position, found⟩ := mem_iff_getElem?.mp isAction
  obtain ⟨step, contract⟩ := planned.contract position action found
  rw [contract.effectKind] at isKind
  rw [contract.slot] at isSlot
  exact slots slot member (did_iff.mpr ⟨step, contract.mem, isKind, isSlot⟩)

end Plans

section Sample

def sampleIdentity (nodeId : String) : NodeIdentity := ⟨text "fs", text nodeId⟩

def sampleBoundary (role space path : String) : Boundary where
  boundaryId := text role
  role := text role
  location := ⟨text space, bytes path⟩
  identity := sampleIdentity role
  ancestors := []

def sampleFile (location : Location) (nodeId : String) (content : Bytes) : NodeState :=
  ⟨location, sampleIdentity nodeId, text "file", content, false, 1, false⟩

def sampleHead : NodeState :=
  sampleFile ⟨text "admin", bytes "HEAD"⟩ "head" (bytes "symbolic:refs/heads/main")

def sampleRefs : Refs NodeIdentity where
  selectedRef := bytes "refs/heads/main"
  headBinding := bytes "symbolic:refs/heads/main"
  resolvedOid := none
  packedFallbackOid := none
  head := sampleHead
  looseRef := .absent ⟨⟨text "admin", bytes "refs/heads/main"⟩⟩
  packedRefs := .absent ⟨⟨text "admin", bytes "packed-refs"⟩⟩
  reflogs := []
  unrelatedMetadata := []

def sampleNotes : Location := ⟨text "working", bytes "notes"⟩

def sampleEntry (content : Bytes) : ManifestEntry := ⟨bytes "notes", text "file", content, false, 1, false⟩

def sampleBaseline : ReplicaState where
  generation := 7
  replicaGeneration := 1
  index := ⟨.absent ⟨⟨text "admin", bytes "index"⟩⟩, [], false⟩
  refs := sampleRefs
  manifest := [sampleEntry (bytes "old")]
  workingNodes := [sampleFile sampleNotes "notes" (bytes "old")]

def sampleDesired : DesiredReplicaState :=
  { replicaAsDesired sampleBaseline with
    generation := 8
    manifest := [sampleEntry (bytes "new")]
    workingNodes := [⟨sampleNotes, .prepared (text "notes-new"), text "file", bytes "new", false, 1,
      false⟩] }

def sampleParent (role space path : String) : ParentBinding :=
  ⟨⟨text space, bytes path⟩, .existing (sampleIdentity role)⟩

def sampleOperation : OperationIdentity where
  incarnation := text "incarnation"
  bindingId := text "binding"
  selectedAuthority := text "authority"
  operationId := text "operation"
  reservationId := text "reservation"
  destinationBinding := text "destination"
  physicalTargetId := text "target"
  generation := 7
  replicaGeneration := 1
  acknowledgmentReceiptId := text "acknowledgment"
  drainReceiptId := text "drain"
  exportReceiptId := text "export"
  objectFormat := text "sha1"
  inventoryReceiptId := text "inventory"

def sampleSpec : ReconciliationSpec where
  version := 1
  identity := sampleOperation
  baseline := sampleBaseline
  desired := sampleDesired
  boundaries := [sampleBoundary "admin" "admin" "git", sampleBoundary "excluded" "excluded" "excluded",
    sampleBoundary "private" "private" "private",
    sampleBoundary "registration" "registration" "registration",
    sampleBoundary "root" "working" "root"]
  preparationSlots := [⟨text "notes-new", ⟨text "private", bytes "notes-new"⟩,
    sampleParent "private" "private" "private", sampleParent "root" "working" "root",
    .absent ⟨⟨text "private", bytes "notes-new"⟩⟩, text "file", bytes "new", false⟩]
  quarantineSlots := [⟨text "notes-old", sampleNotes, sampleIdentity "notes",
    sampleParent "root" "working" "root", ⟨text "private", bytes "notes-old"⟩,
    sampleParent "private" "private" "private", none, ⟨⟨text "private", bytes "notes-old"⟩⟩⟩]
  ownershipMarkers := []
  requiredObjects := []
  destinationObjects := []
  limits := ⟨1000, 1000, 1000000, 100, 1000⟩

def sampleBound : BoundSpecification where
  spec := sampleSpec
  fingerprint := protocolFingerprint sampleHashes specDomain (toValue sampleSpec)
  baselineFingerprint := protocolFingerprint sampleHashes (stateDomain "baseline")
    (toValue sampleBaseline)
  desiredFingerprint := protocolFingerprint sampleHashes (stateDomain "desired")
    (toValue sampleDesired)
  transitionCount := 26

theorem sampleSpec_binds : bindSpecification sampleHashes sampleSpec = .ok sampleBound := by
  have accepted : validateSpecification sampleHashes sampleSpec = .ok () := by decide +kernel
  have canonical : canonicalizeSpec sampleSpec = sampleSpec := by decide +kernel
  have compiles : (compileTransitions sampleSpec).map (·.length) = .ok 26 := by decide +kernel
  have bounded : sizeBound (toValue sampleSpec) ≤ 1000000 := by decide +kernel
  have hb : ((canonicalBytes (toValue sampleSpec)).length : Int) + semanticBytes sampleSpec ≤
      sampleSpec.limits.maxTotalBytes := by
    have dumped := length_canonicalBytes_le (toValue sampleSpec)
    have nothing : semanticBytes sampleSpec = 0 := by decide
    have limit : sampleSpec.limits.maxTotalBytes = 1000000 := rfl
    omega
  obtain ⟨steps, compiled, hc⟩ : ∃ steps, compileTransitions sampleSpec = .ok steps ∧ steps.length = 26 := by
    cases hf : compileTransitions sampleSpec with
    | error _ => simp [hf, Except.map] at compiles
    | ok steps => exact ⟨steps, rfl, by simpa [hf, Except.map] using compiles⟩
  refine bindSpecification_eq_ok.mpr ⟨validateSpecification_eq_ok.mp accepted, hb, steps, compiled, ?_⟩
  rw [canonical, hc]
  rfl

theorem sampleBound_derives : ∃ plan, deriveProtocolPlan sampleBound = .ok plan := by
  have derived : (deriveProtocolPlan sampleBound).isOk = true := by decide +kernel
  cases hf : deriveProtocolPlan sampleBound with
  | error _ => simp [hf, Except.isOk, Except.toBool] at derived
  | ok plan => exact ⟨plan, rfl⟩

theorem plan_reaches_desired_sampleSpec :
    ∃ plan last, deriveProtocolPlan sampleBound = .ok plan ∧ plan.actions.getLast? = some last ∧
      ensureDesiredReplica last.completionPostimage.replicaState = sampleDesired := by
  obtain ⟨plan, derives⟩ := sampleBound_derives
  obtain ⟨last, hl, reaches, -⟩ := plan_reaches_desired sampleSpec_binds derives
  exact ⟨plan, last, derives, hl, reaches⟩

end Sample

end Yinshi.Reconcile
