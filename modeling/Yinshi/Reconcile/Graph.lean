import Yinshi.Reconcile.Valid

/-! The transition graph without its tables: which step installs, restores or
quarantines what, and in which order. A table built along the list of transitions
maps a key to the only position whose step has that key. -/

namespace Yinshi.Reconcile
open ByteText Keyed Checked Artifact List
variable {spec : ReconciliationSpec} {targets : List (Text × Location)} {index : GraphIndex}
  {position : Nat} {steps : List TransitionStep}

section Tables
variable {κ : Type} (select : TransitionStep → Option κ)
variable {steps : List TransitionStep} {key : κ} {position : Nat}

/-- Keys and positions of a list of steps that starts at `position`. -/
def rowsFrom : Nat → List TransitionStep → List (κ × Nat)
  | _, [] => []
  | position, step :: steps =>
    (select step).toList.map (·, position) ++ rowsFrom (position + 1) steps

def StepAt (steps : List TransitionStep) (key : κ) (position : Nat) : Prop :=
  ∃ step, steps[position]? = some step ∧ select step = some key

def Fresh (table : List (κ × Nat)) (steps : List TransitionStep) : Prop :=
  (steps.filterMap select).Nodup ∧ ∀ key ∈ steps.filterMap select, key ∉ table.map Prod.fst

variable {select}

theorem fresh_nil (table : List (κ × Nat)) : Fresh select table [] := by
  simp [Fresh]

theorem fresh_cons [BEq κ] [LawfulBEq κ] {table : List (κ × Nat)} {step : TransitionStep}
    (position : Nat) :
    Fresh select table (step :: steps) ↔
    (∀ key ∈ select step, table.lookup key = none) ∧
    Fresh select ((select step).toList.map (·, position) ++ table) steps := by
  have missing : ∀ key, table.lookup key = none ↔ key ∉ table.map Prod.fst := by
    intro key
    rw [lookup_eq_none_iff]
    simp only [bne_iff_ne, mem_map, Prod.exists, exists_and_right, exists_eq_right, not_exists, Prod.forall]
    exact ⟨fun h value hm => h key value hm rfl,
      fun h key' value hm hs => h value (hs ▸ hm)⟩
  simp only [missing]
  cases selected : select step with
  | none => simp [Fresh, selected]
  | some key =>
    simp only [Fresh, filterMap_cons, selected, nodup_cons, mem_cons,
      forall_eq_or_imp, Option.mem_some_iff, forall_eq', Option.toList_some, map_cons,
      map_nil, cons_append, nil_append, not_or]
    constructor
    · rintro ⟨⟨ha, hd⟩, hu, rest⟩
      exact ⟨hu, hd, fun other hm => ⟨fun hs => ha (hs ▸ hm), rest other hm⟩⟩
    · rintro ⟨hu, hd, rest⟩
      exact ⟨⟨fun hm => (rest key hm).1 rfl, hd⟩, hu,
        fun other hm => (rest other hm).2⟩

theorem rowsFrom_keys (position : Nat) (steps : List TransitionStep) :
    (rowsFrom select position steps).map Prod.fst = steps.filterMap select := by
  induction steps generalizing position with
  | nil => rfl
  | cons step _ ih =>
    rw [rowsFrom, map_append, ih, filterMap_cons]
    cases select step <;> simp

theorem mem_rowsFrom {start : Nat} :
    (key, position) ∈ rowsFrom select start steps ↔
    start ≤ position ∧ StepAt select steps key (position - start) := by
  induction steps generalizing start with
  | nil => simp [rowsFrom, StepAt]
  | cons step _ ih =>
    rw [rowsFrom, mem_append, ih]
    simp only [mem_map, Option.mem_toList, Prod.mk.injEq, StepAt]
    constructor
    · rintro (⟨_, selected, rfl, rfl⟩ | ⟨later, step', hf, selected⟩)
      · exact ⟨le_refl _, step, by simp, selected⟩
      · refine ⟨by omega, step', ?_, selected⟩
        rw [show position - start = (position - (start + 1)) + 1 by omega]
        simpa using hf
    · rintro ⟨later, step', hf, selected⟩
      rcases Nat.eq_or_lt_of_le later with rfl | past
      · rw [Nat.sub_self, getElem?_cons_zero, Option.some.injEq] at hf
        subst hf
        exact .inl ⟨key, selected, rfl, rfl⟩
      · refine .inr ⟨past, step', ?_, selected⟩
        rw [show position - start = (position - (start + 1)) + 1 by omega] at hf
        simpa using hf

theorem StepAt.middle {pre pre' mid post post' : List TransitionStep}
    (h : StepAt select (pre ++ mid ++ post) key position) (hs : pre'.length = pre.length)
    (hi : pre.length ≤ position) (after : ∀ step ∈ post, select step ≠ some key) :
    StepAt select (pre' ++ mid ++ post') key position := by
  obtain ⟨step, hf, selected⟩ := h
  have hw : position < (pre ++ mid).length := by
    by_contra outside
    rw [getElem?_append_right (not_lt.mp outside)] at hf
    exact after step (mem_of_getElem? hf) selected
  have hw' : position < (pre' ++ mid).length := by simpa [hs] using hw
  refine ⟨step, ?_, selected⟩
  rw [getElem?_append_left hw, getElem?_append_right hi] at hf
  rw [getElem?_append_left hw', getElem?_append_right (by omega), hs]
  exact hf

theorem StepAt.not_before {pre rest : List TransitionStep}
    (h : StepAt select (pre ++ rest) key position) (before : ∀ step ∈ pre, select step ≠ some key) :
    pre.length ≤ position := by
  obtain ⟨step, hf, selected⟩ := h
  by_contra early
  rw [getElem?_append_left (not_le.mp early)] at hf
  exact before step (mem_of_getElem? hf) selected

theorem lookup_rows [BEq κ] [LawfulBEq κ] (hd : (steps.filterMap select).Nodup) :
    (rowsFrom select 0 steps).reverse.lookup key = some position ↔
    StepAt select steps key position := by
  have keys : ((rowsFrom select 0 steps).reverse.map Prod.fst).Nodup := by
    rw [map_reverse, rowsFrom_keys]
    exact nodup_reverse.mpr hd
  rw [lookup_eq_some_iff_mem keys, mem_reverse, mem_rowsFrom]
  simp

end Tables

def installedSlot (step : TransitionStep) : Option Text :=
  if step.effectKind ∈ installEffectKinds then step.preparedSlotId else none

def installedTarget (targets : List (Text × Location)) (step : TransitionStep) : Option Location :=
  (installedSlot step).bind fun slotId => targets.lookup slotId

def restoredSlot (step : TransitionStep) : Option Text :=
  if step.effectKind = .restoreWorkingNode then step.preparedSlotId else none

def quarantinedSource (spec : ReconciliationSpec) (step : TransitionStep) : Option Location :=
  if step.effectKind ∈ quarantineEffectKinds then
    (step.preparedSlotId.bind (quarantineSlotAt spec)).map (·.source)
  else none

structure Indexable (spec : ReconciliationSpec) (targets : List (Text × Location))
    (step : TransitionStep) : Prop where
  install : step.effectKind ∈ installEffectKinds → (installedTarget targets step).isSome
  restore : step.effectKind = .restoreWorkingNode → (restoredSlot step).isSome
  quarantine : step.effectKind ∈ quarantineEffectKinds → (quarantinedSource spec step).isSome

def GraphIndex.record (index : GraphIndex) (spec : ReconciliationSpec)
    (targets : List (Text × Location)) (position : Nat) (step : TransitionStep) : GraphIndex where
  installIndex := (installedSlot step).toList.map (·, position) ++ index.installIndex
  restoreIndex := (restoredSlot step).toList.map (·, position) ++ index.restoreIndex
  quarantineIndexBySource :=
    (quarantinedSource spec step).toList.map (·, position) ++ index.quarantineIndexBySource
  installIndexByTarget :=
    (installedTarget targets step).toList.map (·, position) ++ index.installIndexByTarget

structure Unindexed (index : GraphIndex) (spec : ReconciliationSpec)
    (targets : List (Text × Location)) (step : TransitionStep) : Prop where
  install : ∀ key ∈ installedSlot step, index.installIndex.lookup key = none
  target : ∀ key ∈ installedTarget targets step, index.installIndexByTarget.lookup key = none
  restore : ∀ key ∈ restoredSlot step, index.restoreIndex.lookup key = none
  quarantine : ∀ key ∈ quarantinedSource spec step,
    index.quarantineIndexBySource.lookup key = none

attribute [local simp] GraphIndex.record

theorem indexTransition_eq_ok {next : GraphIndex} {step : TransitionStep} :
    indexTransition spec targets index position step = .ok next ↔
    Indexable spec targets step ∧ Unindexed index spec targets step ∧
    next = index.record spec targets position step := by
  have kinds : step.effectKind ∈ installEffectKinds → step.effectKind ≠ .restoreWorkingNode ∧
      step.effectKind ∉ quarantineEffectKinds := by
    cases step.effectKind <;> decide
  have restore : step.effectKind = .restoreWorkingNode → step.effectKind ∉ quarantineEffectKinds := by
    cases step.effectKind <;> decide
  rw [indexTransition]
  split
  next install =>
    obtain ⟨other, other'⟩ := kinds install
    simp only [indexInstall, steps_ok, not_not]
    constructor
    · rintro ⟨slot, hs, hu, target, ht, free, rfl⟩
      refine ⟨⟨?_, ?_, ?_⟩, ⟨?_, ?_, ?_, ?_⟩, ?_⟩ <;>
        simp_all [-lookup_eq_none_iff, installedTarget, installedSlot, restoredSlot, quarantinedSource]
    · rintro ⟨⟨hk, -, -⟩, ⟨hu, free, -, -⟩, rfl⟩
      obtain ⟨target, hf⟩ := Option.isSome_iff_exists.mp (hk install)
      have hf' := hf
      rw [installedTarget, Option.bind_eq_some_iff] at hf'
      obtain ⟨slot, hs, ht⟩ := hf'
      refine ⟨slot, by simpa [installedSlot, install] using hs, hu slot hs, target, ht, free target hf, ?_⟩
      simp [hs, hf, restoredSlot, other, quarantinedSource, other']
  next notInstall =>
    split
    next isRestore =>
      have other' := restore isRestore
      simp only [indexRestore, steps_ok, not_not]
      constructor
      · rintro ⟨slot, hs, hu, rfl⟩
        refine ⟨⟨?_, ?_, ?_⟩, ⟨?_, ?_, ?_, ?_⟩, ?_⟩ <;>
          simp_all [-lookup_eq_none_iff, installedTarget, installedSlot, restoredSlot, quarantinedSource]
      · rintro ⟨⟨-, hk, -⟩, ⟨-, -, hu, -⟩, rfl⟩
        obtain ⟨slot, hs⟩ := Option.isSome_iff_exists.mp (hk isRestore)
        refine ⟨slot, by simpa [restoredSlot, isRestore] using hs, hu slot hs, ?_⟩
        simp [hs, installedSlot, installedTarget, notInstall, quarantinedSource, other']
    next notRestore =>
      split
      next isQuarantine =>
        simp only [indexQuarantine, steps_ok, not_not]
        constructor
        · rintro ⟨slotId, hs, slot, hf, hu, rfl⟩
          refine ⟨⟨?_, ?_, ?_⟩, ⟨?_, ?_, ?_, ?_⟩, ?_⟩ <;>
            simp_all [-lookup_eq_none_iff, installedTarget, installedSlot, restoredSlot, quarantinedSource]
        · rintro ⟨⟨-, -, hk⟩, ⟨-, -, -, hu⟩, rfl⟩
          obtain ⟨_, hs⟩ := Option.isSome_iff_exists.mp (hk isQuarantine)
          have hs' := hs
          rw [quarantinedSource, if_pos isQuarantine, Option.map_eq_some_iff] at hs'
          obtain ⟨slot, hf, rfl⟩ := hs'
          obtain ⟨slotId, isSlot, hf⟩ := Option.bind_eq_some_iff.mp hf
          refine ⟨slotId, isSlot, slot, hf, hu _ hs, ?_⟩
          simp [hs, installedSlot, installedTarget, notInstall, restoredSlot, notRestore]
      next notQuarantine =>
        simp only [pure_eq_ok]
        constructor
        · rintro rfl
          refine ⟨⟨?_, ?_, ?_⟩, ⟨?_, ?_, ?_, ?_⟩, ?_⟩ <;>
            simp_all [-lookup_eq_none_iff, installedTarget, installedSlot, restoredSlot, quarantinedSource]
        · rintro ⟨-, -, rfl⟩
          simp [installedSlot, installedTarget, notInstall, restoredSlot, notRestore,
            quarantinedSource, notQuarantine]

structure AllFresh (index : GraphIndex) (spec : ReconciliationSpec)
    (targets : List (Text × Location)) (steps : List TransitionStep) : Prop where
  install : Fresh installedSlot index.installIndex steps
  target : Fresh (installedTarget targets) index.installIndexByTarget steps
  restore : Fresh restoredSlot index.restoreIndex steps
  quarantine : Fresh (quarantinedSource spec) index.quarantineIndexBySource steps

theorem allFresh_cons {step : TransitionStep} (position : Nat) :
    AllFresh index spec targets (step :: steps) ↔
    Unindexed index spec targets step ∧
    AllFresh (index.record spec targets position step) spec targets steps := by
  constructor
  · rintro ⟨install, target, restore, quarantine⟩
    obtain ⟨i, install⟩ := (fresh_cons position).mp install
    obtain ⟨t, target⟩ := (fresh_cons position).mp target
    obtain ⟨r, restore⟩ := (fresh_cons position).mp restore
    obtain ⟨q, quarantine⟩ := (fresh_cons position).mp quarantine
    exact ⟨⟨i, t, r, q⟩, ⟨install, target, restore, quarantine⟩⟩
  · rintro ⟨⟨i, t, r, q⟩, ⟨install, target, restore, quarantine⟩⟩
    exact ⟨(fresh_cons position).mpr ⟨i, install⟩, (fresh_cons position).mpr ⟨t, target⟩,
      (fresh_cons position).mpr ⟨r, restore⟩, (fresh_cons position).mpr ⟨q, quarantine⟩⟩

theorem indexTransitions_eq_ok {next : GraphIndex} :
    indexTransitions spec targets index position steps = .ok next ↔
      (∀ step ∈ steps, Indexable spec targets step) ∧ AllFresh index spec targets steps ∧
      next = {
        installIndex := (rowsFrom installedSlot position steps).reverse ++ index.installIndex
        restoreIndex := (rowsFrom restoredSlot position steps).reverse ++ index.restoreIndex
        quarantineIndexBySource := (rowsFrom (quarantinedSource spec) position steps).reverse ++
          index.quarantineIndexBySource
        installIndexByTarget := (rowsFrom (installedTarget targets) position steps).reverse ++
          index.installIndexByTarget } := by
  induction steps generalizing index position with
  | nil =>
    have none : AllFresh index spec targets [] :=
      ⟨fresh_nil _, fresh_nil _, fresh_nil _, fresh_nil _⟩
    simp only [indexTransitions, pure_eq_ok, not_mem_nil, false_implies, implies_true,
      rowsFrom, reverse_nil, nil_append, none, true_and]
    exact eq_comm
  | cons _ _ ih =>
    have single : ∀ {κ : Type} (o : Option κ),
          (o.toList.map (·, position)).reverse = o.toList.map (·, position) := by
      intro κ o
      cases o <;> rfl
    simp only [indexTransitions, bind_eq_ok, indexTransition_eq_ok, ih, forall_mem_cons,
      allFresh_cons position, rowsFrom, reverse_append, single, append_assoc]
    constructor
    · rintro ⟨_, ⟨first, hu, rfl⟩, rest, hf, rfl⟩
      exact ⟨⟨first, rest⟩, ⟨hu, hf⟩, rfl⟩
    · rintro ⟨⟨first, rest⟩, ⟨hu, hf⟩, rfl⟩
      exact ⟨_, ⟨first, hu, rfl⟩, rest, hf, rfl⟩

def DependentAt (steps : List TransitionStep) (position : Nat) : Dependent → Prop
  | .preparation slot => StepAt installedSlot steps slot.slotId position
  | .restoration slot => StepAt restoredSlot steps slot.slotId position

structure GraphValid (spec : ReconciliationSpec) (steps : List TransitionStep) : Prop where
  indexable : ∀ step ∈ steps, Indexable spec (installTargets spec) step
  installSlots : (steps.filterMap installedSlot).Nodup
  targets : (steps.filterMap (installedTarget (installTargets spec))).Nodup
  restoreSlots : (steps.filterMap restoredSlot).Nodup
  sources : (steps.filterMap (quarantinedSource spec)).Nodup
  edges : ∀ edge ∈ graphEdges spec, validateEdge spec (installTargets spec) edge = .ok ()
  edgeOrder : ∀ edge ∈ graphEdges spec, ∃ parent dependent,
    StepAt installedSlot steps edge.parentSlotId parent ∧
    DependentAt steps dependent edge.dependent ∧ parent < dependent
  installOrder : ∀ target position, StepAt (installedTarget (installTargets spec)) steps target position →
    ∀ node name, (staticRegistrations spec.baseline).find? (·.1.location = target) =
      some (.node node, name) →
    ∃ earlier, StepAt (quarantinedSource spec) steps target earlier ∧ earlier < position

theorem StepAt.lt {κ : Type} {select : TransitionStep → Option κ}
    {key : κ} (h : StepAt select steps key position) : position < steps.length := by
  obtain ⟨_, hf, -⟩ := h
  exact (List.getElem?_eq_some_iff.mp hf).1

theorem visit_ok (rank : Text → Nat)
    (descends :
      ∀ slotId parentId, dependencyOf spec slotId = some parentId → rank parentId < rank slotId)
    (fuel : Nat) (resolving resolved : List Text) (slotId : Text) (enough : rank slotId < fuel)
    (ha : ∀ other ∈ resolving, rank slotId < rank other) :
    ∃ result, visit spec fuel resolving resolved slotId = .ok result := by
  induction fuel generalizing resolving resolved slotId with
  | zero => omega
  | succ _ ih =>
    rw [visit]
    split
    · exact ⟨resolved, rfl⟩
    · rw [if_neg fun hm => lt_irrefl _ (ha slotId hm)]
      cases dependency : dependencyOf spec slotId with
      | none => exact ⟨slotId :: resolved, rfl⟩
      | some parentId =>
        have lower := descends slotId parentId dependency
        obtain ⟨result, visited⟩ := ih (slotId :: resolving) resolved parentId (by omega) (by
          intro other hm
          rcases mem_cons.mp hm with rfl | hm
          · exact lower
          · exact lower.trans (ha other hm))
        exact ⟨slotId :: result, by simp [visited]⟩

theorem visitAll_ok (rank : Text → Nat)
    (descends :
      ∀ slotId parentId, dependencyOf spec slotId = some parentId → rank parentId < rank slotId)
    (fuel : Nat) (slots resolved : List Text) (enough : ∀ slotId ∈ slots, rank slotId < fuel) :
    visitAll spec fuel resolved slots = .ok () := by
  induction slots generalizing resolved with
  | nil => rfl
  | cons slotId slots ih =>
    obtain ⟨result, visited⟩ :=
      visit_ok rank descends fuel [] resolved slotId (enough slotId (by simp)) (by simp)
    simp only [visitAll, bind_eq_ok]
    exact ⟨result, visited, ih result fun other hm => enough other (by simp [hm])⟩

theorem mem_graphEdges_of_dependency {slotId parentId : Text}
    (dependency : dependencyOf spec slotId = some parentId) :
    ∃ slot ∈ spec.preparationSlots, slot.slotId = slotId ∧
      ⟨slot.installationParent, parentId, .preparation slot⟩ ∈ graphEdges spec := by
  obtain ⟨slot, hf, parent⟩ := Option.bind_eq_some_iff.mp dependency
  have hm := mem_of_find?_eq_some hf
  refine ⟨slot, hm, by simpa using find?_some hf, ?_⟩
  refine mem_append_left _ (mem_flatMap.mpr ⟨slot, hm, ?_⟩)
  simp [preparationEdges, parent]

theorem GraphValid.visits (hv : GraphValid spec steps) :
    visitAll spec (steps.length + 1) [] (dependentSlots spec) = .ok () := by
  let position (slotId : Text) : Nat :=
    ((rowsFrom installedSlot 0 steps).reverse.lookup slotId).getD 0
  have positioned : ∀ {slotId place}, StepAt installedSlot steps slotId place → position slotId = place := by
    intro slotId place h
    simp [position, (lookup_rows hv.installSlots).mpr h]
  apply visitAll_ok position
  · intro slotId _ dependency
    obtain ⟨_, -, rfl, hm⟩ := mem_graphEdges_of_dependency dependency
    obtain ⟨_, _, first, second, _⟩ := hv.edgeOrder _ hm
    rwa [positioned first, positioned second]
  · intro slotId _
    cases hf : (rowsFrom installedSlot 0 steps).reverse.lookup slotId with
    | none => simp [position, hf]
    | some _ =>
      have hb := ((lookup_rows hv.installSlots).mp hf).lt
      simp only [position, hf, Option.getD_some]
      omega

theorem validateEdgeOrder_eq_ok (installs : (steps.filterMap installedSlot).Nodup)
    (restores : (steps.filterMap restoredSlot).Nodup)
    (hi : index.installIndex = (rowsFrom installedSlot 0 steps).reverse)
    (hr : index.restoreIndex = (rowsFrom restoredSlot 0 steps).reverse) (edge : Edge) :
    validateEdgeOrder index edge = .ok () ↔
    ∃ parent dependent, StepAt installedSlot steps edge.parentSlotId parent ∧
      DependentAt steps dependent edge.dependent ∧ parent < dependent := by
  simp only [validateEdgeOrder, steps_ok, hi, lookup_rows installs]
  refine exists_congr fun parent => ?_
  cases edge.dependent with
  | preparation slot =>
    simp only [steps_ok, lookup_rows installs, DependentAt, not_le]
    exact exists_and_left.symm
  | restoration _ =>
    simp only [steps_ok, hr, lookup_rows restores, DependentAt, not_le]
    exact exists_and_left.symm

theorem validateInstallOrder_eq_ok (sources : (steps.filterMap (quarantinedSource spec)).Nodup)
    (hq : index.quarantineIndexBySource = (rowsFrom (quarantinedSource spec) 0 steps).reverse)
    (registry : List (Storage NodeIdentity × String)) (target : Location) (position : Nat) :
    validateInstallOrder index registry (target, position) = .ok () ↔
    ∀ node name, registry.find? (·.1.location = target) = some (.node node, name) →
      ∃ earlier, StepAt (quarantinedSource spec) steps target earlier ∧ earlier < position := by
  rw [validateInstallOrder]
  split
  next state name hf =>
    simp only [steps_ok, hq, lookup_rows sources, not_le]
    exact ⟨fun h _ _ _ => h, fun h => h state name hf⟩
  next other =>
    simp only [true_iff]
    intro node name hf
    exact absurd hf (other node name)

theorem validateTransitionGraph_eq_ok :
    validateTransitionGraph spec steps (installTargets spec) (staticRegistrations spec.baseline) =
      .ok () ↔ GraphValid spec steps := by
  simp only [validateTransitionGraph, steps_ok, each_eq_ok, indexTransitions_eq_ok, append_nil]
  constructor
  · rintro ⟨_, ⟨indexable, hf, rfl⟩, edges, -, order, installs⟩
    refine ⟨indexable, hf.install.1, hf.target.1, hf.restore.1, hf.quarantine.1, edges, ?_, ?_⟩
    · intro edge hm
      exact (validateEdgeOrder_eq_ok hf.install.1 hf.restore.1 rfl rfl edge).mp (order edge hm)
    · intro target position placed
      refine (validateInstallOrder_eq_ok hf.quarantine.1 rfl _ target position).mp
        (installs (target, position) ?_)
      simpa [mem_rowsFrom] using placed
  · intro hv
    have hf : AllFresh {} spec (installTargets spec) steps := by
      refine ⟨⟨hv.installSlots, ?_⟩, ⟨hv.targets, ?_⟩, ⟨hv.restoreSlots, ?_⟩, ⟨hv.sources, ?_⟩⟩ <;> simp
    refine ⟨_, ⟨hv.indexable, hf, rfl⟩, hv.edges, hv.visits, ?_, ?_⟩
    · intro edge hm
      exact (validateEdgeOrder_eq_ok hv.installSlots hv.restoreSlots rfl rfl edge).mpr (hv.edgeOrder edge hm)
    · rintro ⟨target, position⟩ hm
      refine (validateInstallOrder_eq_ok hv.sources rfl _ target position).mpr
        (hv.installOrder target position ?_)
      simpa [mem_rowsFrom] using hm

end Yinshi.Reconcile
