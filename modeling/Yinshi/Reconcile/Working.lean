import Yinshi.Reconcile.Fields

/-! Working nodes along a run: a node of the baseline is in place unless it is in
quarantine, and a desired node from a slot is there once it has been installed. -/

namespace Yinshi.Reconcile
open ByteText Keyed Checked Artifact Ranked List

def Gone (spec : ReconciliationSpec) (done : List TransitionStep) (identity : NodeIdentity) : Prop :=
  ∃ slot ∈ spec.quarantineSlots, slot.sourceIdentity = identity ∧
    Did quarantineEffectKinds done slot.slotId ∧ ¬ Did [.restoreWorkingNode] done slot.slotId

def Installed (done : List TransitionStep) (node : DesiredNodeState) : Prop :=
  ∃ slotId, node.reference = .prepared slotId ∧ Did [.installWorkingNode] done slotId

def InPlace (spec : ReconciliationSpec) (done : List TransitionStep) (node : DesiredNodeState) : Prop :=
  (∃ base ∈ spec.baseline.workingNodes, node = desiredNodeFromConcrete base ∧
    ¬ Gone spec done base.reference) ∨
  (node ∈ spec.desired.workingNodes ∧ Installed done node)

structure WorkingTracks (spec : ReconciliationSpec) (done : List TransitionStep)
    (nodes : List DesiredNodeState) : Prop where
  sound : ∀ node ∈ nodes, ∃ known, InPlace spec done known ∧ Alike node known
  complete : ∀ known, InPlace spec done known → ∃ node ∈ nodes, Alike node known

section Gone
variable {H : Hashes} {spec : ReconciliationSpec} {steps done : List TransitionStep}
  {step : TransitionStep} {identity : NodeIdentity}
variable {slot : QuarantineSlot} {node : DesiredNodeState} {base : NodeState}

theorem not_gone_nil : ¬ Gone spec [] identity := by
  rintro ⟨_, -, -, did, -⟩
  exact not_did_nil _ _ did

theorem gone_concat_other (quarantine : step.effectKind ∉ quarantineEffectKinds)
    (restore : step.effectKind ≠ .restoreWorkingNode) :
    Gone spec (done ++ [step]) identity ↔ Gone spec done identity := by
  simp only [Gone, did_concat_other quarantine,
    did_concat_other (show step.effectKind ∉ [_] by simpa using restore)]

theorem gone_concat_quarantine (hv : ValidSpec H spec) (hm : slot ∈ spec.quarantineSlots)
    (isKind : step.effectKind ∈ quarantineEffectKinds)
    (isSlot : step.preparedSlotId = some slot.slotId)
    (unrestored : ¬ Did [.restoreWorkingNode] done slot.slotId) :
    Gone spec (done ++ [step]) identity ↔
    Gone spec done identity ∨ identity = slot.sourceIdentity := by
  have restore : step.effectKind ∉ [.restoreWorkingNode] := by
    revert isKind
    cases step.effectKind <;> decide
  constructor
  · rintro ⟨other, hl, rfl, did, hk⟩
    rw [did_concat_other restore] at hk
    rcases did_concat.mp did with did | selected
    · exact .inl ⟨other, hl, rfl, did, hk⟩
    · have hs : slot.slotId = other.slotId :=
        Option.some.inj (isSlot.symm.trans (slotOf_eq_some.mp selected).2)
      exact .inr (by rw [key_inj_of_nodup hv.quarantineIds hm hl hs])
  · rintro (⟨other, hl, rfl, did, _⟩ | rfl)
    · refine ⟨other, hl, rfl, did_concat.mpr (.inl did), ?_⟩
      rwa [did_concat_other restore]
    · refine ⟨slot, hm, rfl, did_self isKind isSlot, ?_⟩
      rwa [did_concat_other restore]

theorem gone_concat_restore (hv : ValidSpec H spec) (hm : slot ∈ spec.quarantineSlots)
    (isKind : step.effectKind = .restoreWorkingNode)
    (isSlot : step.preparedSlotId = some slot.slotId) :
    Gone spec (done ++ [step]) identity ↔
    Gone spec done identity ∧ identity ≠ slot.sourceIdentity := by
  have quarantine : step.effectKind ∉ quarantineEffectKinds := by
    rw [isKind]
    decide
  constructor
  · rintro ⟨other, hl, rfl, did, hk⟩
    rw [did_concat_other quarantine] at did
    rw [did_concat, not_or] at hk
    refine ⟨⟨other, hl, rfl, did, hk.1⟩, fun hs => hk.2 ?_⟩
    rw [slotOf_eq_some, key_inj_of_nodup hv.sourceIdentities hl hm hs]
    exact ⟨by simp [isKind], isSlot⟩
  · rintro ⟨⟨other, hl, rfl, did, hk⟩, ha⟩
    refine ⟨other, hl, rfl, did_concat.mpr (.inl did), ?_⟩
    rw [did_concat, not_or]
    refine ⟨hk, fun selected => ha ?_⟩
    have hs : slot.slotId = other.slotId :=
      Option.some.inj (isSlot.symm.trans (slotOf_eq_some.mp selected).2)
    rw [key_inj_of_nodup hv.quarantineIds hm hl hs]

theorem installed_concat_other (other : step.effectKind ≠ .installWorkingNode) :
    Installed (done ++ [step]) node ↔ Installed done node := by
  simp only [Installed, did_concat_other (show step.effectKind ∉ [_] by simpa using other)]

theorem mem_baselineNodes_working (hm : base ∈ spec.baseline.workingNodes) : base ∈ baselineNodes spec := by
  refine mem_filterMap.mpr ⟨.node base, ?_, rfl⟩
  refine mem_map.mpr ⟨(.node base, "working_nodes"), ?_, rfl⟩
  exact mem_append_right _ (mem_map.mpr ⟨base, hm, rfl⟩)

section
variable (hv : ValidSpec H spec)
include hv

theorem ValidSpec.working_space (hm : base ∈ spec.baseline.workingNodes) :
    base.location.nameSpace = text "working" := by
  have hc := hv.baseline
  simp only [validateReplica, steps_ok] at hc
  exact ((validateWorkingNodes_nodes hc.2.2.2.2.2.2.2.2.2).2 base hm).2

theorem ValidSpec.administrative_ne_working {node : NodeState} {name : String}
    (isBase : base ∈ spec.baseline.workingNodes)
    (hn : (.node node, name) ∈ administrativeRegistrations spec.baseline) :
    base.reference ≠ node.reference := by
  intro hs
  obtain rfl : base = node := key_inj_of_nodup hv.baselineIdentities
    (mem_baselineNodes_working isBase) (administrative_baseline hn) hs
  have space : base.location.nameSpace = text "admin" := hv.administrative_space hn
  rw [hv.working_space isBase] at space
  exact absurd space (by decide)

theorem ValidSpec.working_of_space (hm : base ∈ baselineNodes spec)
    (space : base.location.nameSpace = text "working") : base ∈ spec.baseline.workingNodes := by
  obtain ⟨_, hl, hn⟩ := mem_filterMap.mp hm
  obtain ⟨row, hr, rfl⟩ := mem_map.mp hl
  rcases mem_append.mp hr with administrative | working
  · have place : row.1.location = base.location := by
      cases first : row.1 with
      | node inner =>
        obtain rfl : inner = base := by simpa [first, Storage.node?] using hn
        rfl
      | absent _ => simp [first, Storage.node?] at hn
    have admin := hv.administrative_space (show (row.1, row.2) ∈ _ from administrative)
    rw [place, space] at admin
    exact absurd admin (by decide)
  · obtain ⟨node, isWorking, rfl⟩ := mem_map.mp working
    obtain rfl : node = base := by simpa [Storage.node?] using hn
    exact isWorking

theorem ValidSpec.desired_space (hm : node ∈ spec.desired.workingNodes) :
    node.location.nameSpace = text "working" := by
  have hc := hv.desired
  simp only [validateDesired, steps_ok] at hc
  exact ((validateWorkingNodes_nodes hc.2.2.2.2.2.2.2.2.2.2.2.2.2.2.2.2).2 node hm).2

theorem ValidSpec.desired_working (hm : node ∈ spec.desired.workingNodes)
    (reference : node.reference = .existing identity) :
    ∃ base ∈ spec.baseline.workingNodes,
      base.reference = identity ∧ node = desiredNodeFromConcrete base := by
  obtain ⟨base, isBase, hs, rfl⟩ := hv.desired_existing (mem_desiredNodes_working hm) reference
  exact ⟨base, hv.working_of_space isBase (hv.desired_space hm), hs, rfl⟩

theorem ValidSpec.working_source (hl : slot ∈ workingQuarantines spec) :
    ∃ base ∈ spec.baseline.workingNodes, base ∈ expectedQuarantine spec ∧
      base.location = slot.source ∧ base.reference = slot.sourceIdentity := by
  obtain ⟨hm, space⟩ := mem_filter.mp hl
  obtain ⟨base, expected, place, identity⟩ := hv.quarantined hm
  refine ⟨base, hv.working_of_space (mem_baselineNodes_of_expected expected) ?_, expected, place, identity⟩
  rw [place]
  exact of_decide_eq_true space

end

end Gone

section InPlace
variable {H : Hashes} {spec : ReconciliationSpec} {steps done : List TransitionStep}
  {step : TransitionStep} {known : DesiredNodeState}
variable {slot : QuarantineSlot}

theorem inPlace_concat_other (quarantine : step.effectKind ∉ quarantineEffectKinds)
    (others : step.effectKind ≠ .installWorkingNode ∧ step.effectKind ≠ .restoreWorkingNode) :
    InPlace spec (done ++ [step]) known ↔ InPlace spec done known := by
  simp only [InPlace, gone_concat_other quarantine others.2, installed_concat_other others.1]

theorem inPlace_concat_administrative (hv : ValidSpec H spec) {node : NodeState}
    (hq : Quarantines spec slot node) (name : String)
    (hn : (.node node, name) ∈ administrativeRegistrations spec.baseline)
    (isKind : step.effectKind ∈ quarantineEffectKinds)
    (isSlot : step.preparedSlotId = some slot.slotId)
    (unrestored : ¬ Did [.restoreWorkingNode] done slot.slotId) :
    InPlace spec (done ++ [step]) known ↔ InPlace spec done known := by
  have kind : step.effectKind ≠ .installWorkingNode := by
    revert isKind
    cases step.effectKind <;> decide
  have hs : ∀ base ∈ spec.baseline.workingNodes,
      (Gone spec (done ++ [step]) base.reference ↔ Gone spec done base.reference) := by
    intro base isBase
    rw [gone_concat_quarantine hv hq.1 isKind isSlot unrestored, hq.2.2]
    exact or_iff_left (hv.administrative_ne_working isBase hn)
  simp only [InPlace, installed_concat_other kind]
  refine or_congr_left (exists_congr fun base => and_congr_right fun isBase => and_congr_right fun _ => ?_)
  rw [hs base isBase]

theorem inPlace_concat_quarantine (hv : ValidSpec H spec) (hl : slot ∈ workingQuarantines spec)
    (isKind : step.effectKind = .quarantineWorkingNode)
    (isSlot : step.preparedSlotId = some slot.slotId)
    (unrestored : ¬ Did [.restoreWorkingNode] done slot.slotId)
    (uninstalled : ∀ slotId, ¬ Did [.installWorkingNode] done slotId) :
    InPlace spec (done ++ [step]) known ↔
    InPlace spec done known ∧ known.location ≠ slot.source := by
  obtain ⟨_, isSource, -, place, identity⟩ := hv.working_source hl
  have nothing : ∀ node, ¬ Installed done node := fun node ⟨slotId, _, did⟩ => uninstalled slotId did
  simp only [InPlace, installed_concat_other (show step.effectKind ≠ .installWorkingNode by simp [isKind]),
    nothing, and_false, or_false, gone_concat_quarantine hv (mem_filter.mp hl).1
      (by simp [isKind, quarantineEffectKinds]) isSlot unrestored, not_or]
  constructor
  · rintro ⟨base, isBase, rfl, hk, ha⟩
    refine ⟨⟨base, isBase, rfl, hk⟩, fun hs => ha ?_⟩
    rw [← identity, key_inj_of_nodup hv.baselinePlaces (mem_baselineNodes_working isBase)
      (mem_baselineNodes_working isSource) (hs.trans place.symm)]
  · rintro ⟨⟨base, isBase, rfl, hk⟩, ha⟩
    refine ⟨base, isBase, rfl, hk, fun hs => ha ?_⟩
    show base.location = slot.source
    rw [← place, key_inj_of_nodup hv.baselineIdentities (mem_baselineNodes_working isBase)
      (mem_baselineNodes_working isSource) (hs.trans identity.symm)]

theorem inPlace_concat_install (hv : ValidSpec H spec) {node : DesiredNodeState}
    {slot : PreparationSlot} (hm : node ∈ spec.desired.workingNodes) (hp : Prepares spec slot node)
    (isKind : step.effectKind = .installWorkingNode) (hs : step.preparedSlotId = some slot.slotId) :
    InPlace spec (done ++ [step]) known ↔ InPlace spec done known ∨ known = node := by
  have hk : ∀ identity, Gone spec (done ++ [step]) identity ↔ Gone spec done identity :=
    fun identity => gone_concat_other (by rw [isKind]; decide) (by rw [isKind]; decide)
  simp only [InPlace, hk]
  rw [or_assoc]
  refine or_congr_right ?_
  constructor
  · rintro ⟨hl, slotId, reference, did⟩
    rcases did_concat.mp did with did | selected
    · exact .inl ⟨hl, slotId, reference, did⟩
    · obtain rfl : slot.slotId = slotId :=
        Option.some.inj (hs.symm.trans (slotOf_eq_some.mp selected).2)
      exact .inr (hv.prepared_unique (mem_desiredNodes_working hl) (mem_desiredNodes_working hm)
          reference hp.2)
  · rintro (⟨hl, slotId, reference, did⟩ | rfl)
    · exact ⟨hl, slotId, reference, did_concat.mpr (.inl did)⟩
    · exact ⟨hm, slot.slotId, hp.2, did_self (by simp [isKind]) hs⟩

theorem inPlace_concat_restore (hv : ValidSpec H spec) {node : DesiredNodeState}
    (hm : node ∈ spec.desired.workingNodes) (hl : slot ∈ workingQuarantines spec)
    (identity : node.reference = .existing slot.sourceIdentity)
    (isKind : step.effectKind = .restoreWorkingNode)
    (isSlot : step.preparedSlotId = some slot.slotId) :
    InPlace spec (done ++ [step]) known ↔ InPlace spec done known ∨ known = node := by
  obtain ⟨source, isSource, hs, rfl⟩ := hv.desired_working hm identity
  simp only [InPlace, installed_concat_other (show step.effectKind ≠ .installWorkingNode by simp [isKind]),
    gone_concat_restore hv (mem_filter.mp hl).1 isKind isSlot]
  rw [or_right_comm]
  refine or_congr_left ?_
  constructor
  · rintro ⟨base, isBase, rfl, hk⟩
    by_cases hh : base.reference = slot.sourceIdentity
    · right
      rw [key_inj_of_nodup hv.baselineIdentities (mem_baselineNodes_working isBase)
        (mem_baselineNodes_working isSource) (hh.trans hs.symm)]
    · exact .inl ⟨base, isBase, rfl, fun gone => hk ⟨gone, hh⟩⟩
  · rintro (⟨base, isBase, rfl, hk⟩ | rfl)
    · exact ⟨base, isBase, rfl, fun gone => hk gone.1⟩
    · exact ⟨source, isSource, rfl, fun gone => gone.2 hs⟩

end InPlace

section Runs
variable {H : Hashes} {bound : BoundSpecification} {steps done : List TransitionStep}
  {step : TransitionStep} {pre post : ExpectedObservation}

theorem WorkingTracks.forall₂ {spec : ReconciliationSpec} {nodes nodes' : List DesiredNodeState}
    (tracks : WorkingTracks spec done nodes') (alike : List.Forall₂ Alike nodes nodes') :
    WorkingTracks spec done nodes := by
  constructor
  · intro node hm
    obtain ⟨other, hl, hs⟩ := forall₂_mem_left alike hm
    obtain ⟨hk, inPlace, hs'⟩ := tracks.sound other hl
    exact ⟨hk, inPlace, hs.trans hs'⟩
  · intro hk inPlace
    obtain ⟨_, hl, hs'⟩ := tracks.complete hk inPlace
    obtain ⟨node, hm, hs⟩ := forall₂_mem_right alike hl
    exact ⟨node, hm, hs.trans hs'⟩

theorem WorkingTracks.arrive {spec : ReconciliationSpec} {nodes : List DesiredNodeState}
    {node desired : DesiredNodeState} (ht : WorkingTracks spec done nodes)
    (alike : Alike node desired)
    (arrives :
      ∀ known, InPlace spec (done ++ [step]) known ↔ InPlace spec done known ∨ known = desired) :
    WorkingTracks spec (done ++ [step]) (sortNodes (nodes ++ [node])) := by
  constructor
  · intro other hm
    rcases mem_append.mp (mem_sortBy.mp hm) with h | h
    · obtain ⟨known, inPlace, hs⟩ := ht.sound other h
      exact ⟨known, (arrives known).mpr (.inl inPlace), hs⟩
    · exact ⟨desired, (arrives desired).mpr (.inr rfl), mem_singleton.mp h ▸ alike⟩
  · intro known inPlace
    rcases (arrives known).mp inPlace with h | rfl
    · obtain ⟨other, hl, hs⟩ := ht.complete known h
      exact ⟨other, mem_sortBy.mpr (mem_append_left _ hl), hs⟩
    · exact ⟨node, mem_sortBy.mpr (by simp), alike⟩

theorem WorkingTracks.keep (ht : WorkingTracks bound.spec done pre.replica.workingNodes)
    (same : post.replica.workingNodes = pre.replica.workingNodes)
    (hs : ∀ known, InPlace bound.spec (done ++ [step]) known ↔ InPlace bound.spec done known) :
    WorkingTracks bound.spec (done ++ [step]) post.replica.workingNodes := by
  rw [same]
  constructor
  · intro node hm
    obtain ⟨known, inPlace, alike⟩ := ht.sound node hm
    exact ⟨known, (hs known).mpr inPlace, alike⟩
  · intro known inPlace
    exact ht.complete known ((hs known).mp inPlace)

theorem workingTracks_step (hv : ValidSpec H bound.spec) (hb : CompiledBlocks bound.spec steps)
    (next : Next steps done step) (effect : Effect bound pre post step)
    (bodies : ∀ node ∈ imageNodes pre, KnownBody bound.spec node)
    (ht : WorkingTracks bound.spec done pre.replica.workingNodes) :
    WorkingTracks bound.spec (done ++ [step]) post.replica.workingNodes := by
  have frame := frame_step hv effect bodies
  have prefix_ : done <+: steps := IsPrefix.trans (prefix_append _ _) next
  cases effect with
  | control hl _ _ index _ change =>
    have others : ∀ step ∈ controlSteps, step.effectKind ∉ workingKinds ∧
        step.effectKind ∉ quarantineEffectKinds ∧ step.effectKind ≠ .installWorkingNode ∧
        step.effectKind ≠ .restoreWorkingNode := by decide
    obtain ⟨other, unmoved, ha⟩ := others step hl
    exact ht.keep (frame.working other).1 fun hk => inPlace_concat_other unmoved ha
  | publish change | selectPacked _ _ change =>
    exact ht.keep (frame.working (by decide)).1 fun hk => inPlace_concat_other (by decide) (by decide)
  | create _ _ change | exclusion _ _ change | removal _ _ change | materialization _ _ change
  | finalizeIndex _ _ _ _ _ change =>
    refine ht.keep (frame.working ?_).1 fun hk => inPlace_concat_other ?_ ?_ <;>
      simp [workingKinds, quarantineEffectKinds]
  | promotion _ _ _ _ _ change | installIndex _ _ _ _ change | installReflog _ _ _ _ change
  | installSelected _ _ _ _ change =>
    refine ht.keep (frame.working ?_).1 fun hk => inPlace_concat_other ?_ ?_ <;>
      simp [workingKinds, quarantineEffectKinds]
  | quarantineIndex node slot storage hq source hf change =>
    have hn : (.node node, "index.storage") ∈ administrativeRegistrations bound.spec.baseline := by
      simp [administrativeRegistrations, storage]
    refine ht.keep (frame.working (by simp [workingKinds])).1
      fun hk => ?_
    exact inPlace_concat_administrative hv hq "index.storage" hn (by simp [quarantineEffectKinds]) rfl
      (hv.not_did_restore hb prefix_ hq "index.storage" hn)
  | quarantineReflog node slot isLog hq source hf change =>
    have hn : (.node node, "refs.reflogs") ∈ administrativeRegistrations bound.spec.baseline := by
      simp [administrativeRegistrations, isLog]
    refine ht.keep (frame.working (by simp [workingKinds])).1
      fun hk => ?_
    exact inPlace_concat_administrative hv hq "refs.reflogs" hn (by simp [quarantineEffectKinds]) rfl
      (hv.not_did_restore hb prefix_ hq "refs.reflogs" hn)
  | quarantineSelected node slot storage hq source hf change =>
    have hn : (.node node, "refs.loose_ref") ∈ administrativeRegistrations bound.spec.baseline := by
      simp [administrativeRegistrations, storage]
    refine ht.keep (frame.working (by simp [workingKinds])).1
      fun hk => ?_
    exact inPlace_concat_administrative hv hq "refs.loose_ref" hn (by simp [quarantineEffectKinds]) rfl
      (hv.not_did_restore hb prefix_ hq "refs.loose_ref" hn)
  | quarantineWorking slot _ _ hl identity _ hf adjustable change =>
    rw [change.replica]
    refine WorkingTracks.forall₂ ?_ (quarantinedReplica_nodes adjustable)
    have leaves : ∀ hk, InPlace bound.spec (done ++ [quarantineStep 8 .quarantineWorkingNode slot]) hk ↔
        InPlace bound.spec done hk ∧ hk.location ≠ slot.source := fun hk =>
      inPlace_concat_quarantine hv hl rfl rfl (not_did_of_rank hb next (by simp [EffectKind.rank]))
        fun slotId => not_did_of_rank hb next (by simp [EffectKind.rank])
    constructor
    · intro node hm
      obtain ⟨hp, ha⟩ := mem_filter.mp hm
      obtain ⟨hk, inPlace, alike⟩ := ht.sound node hp
      exact ⟨hk, (leaves hk).mpr ⟨inPlace, alike.location ▸ of_decide_eq_true ha⟩, alike⟩
    · intro hk inPlace
      obtain ⟨before, ha⟩ := (leaves hk).mp inPlace
      obtain ⟨node, hp, alike⟩ := ht.complete hk before
      exact ⟨node, mem_filter.mpr ⟨hp, decide_eq_true (alike.location ▸ ha)⟩, alike⟩
  | installWorking desired isDesired slot prepares entry described placeable change =>
    rw [change.replica]
    refine (ht.arrive (freshNode_alike desired) fun hk =>
      inPlace_concat_install hv isDesired prepares rfl rfl).forall₂ (placedReplica_nodes ?_)
    intro isDirectory
    exact (placeable ((freshNode_alike desired).kind.symm.trans isDirectory)).adjustable
  | restoreWorking desired isDesired slot hl identity parent restoration stored hf entry described
      placeable change =>
      rw [change.replica]
      have alike := restored_alike hv bodies (mem_desiredNodes_working isDesired) identity hf
      exact (ht.arrive alike fun hk =>
        inPlace_concat_restore hv isDesired hl identity rfl rfl).forall₂
        (placedReplica_nodes fun isDirectory => (placeable isDirectory).adjustable)

theorem Reached.workingTracks (hv : ValidSpec H bound.spec) (hb : CompiledBlocks bound.spec steps)
    {image : ExpectedObservation} (hr : Reached bound steps done image) :
    WorkingTracks bound.spec done image.replica.workingNodes := by
  induction hr with
  | initial hs _ =>
    simp only [initialExpected, steps_ok] at hs
    obtain ⟨_, -, rfl⟩ := hs
    constructor
    · intro _ hm
      obtain ⟨base, isBase, rfl⟩ := mem_map.mp hm
      exact ⟨_, .inl ⟨base, isBase, rfl, not_gone_nil⟩, .refl _⟩
    · rintro _ (⟨base, isBase, rfl, -⟩ | ⟨-, _, -, did⟩)
      · exact ⟨_, mem_map.mpr ⟨base, isBase, rfl⟩, .refl _⟩
      · exact absurd did (not_did_nil _ _)
  | step hr next ha ih =>
    exact workingTracks_step hv hb next (advanceStep_effect hv (hb.step next.mem) ha) (hr.bodies hv hb) ih

end Runs

end Yinshi.Reconcile
