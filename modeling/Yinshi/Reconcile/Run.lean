import Yinshi.Reconcile.Recompile

/-! The plan as a run: the images of a derived plan are the states a list of
transitions reaches from the initial image. Invariants of the plan are proved on
runs, one step at a time, and read back on its actions. -/

namespace Yinshi.Reconcile
open ByteText Keyed Checked Artifact Ranked
variable {bound : BoundSpecification}

def advanceStep (bound : BoundSpecification) (image : ExpectedObservation) (step : TransitionStep) :
    Checked ExpectedObservation := do
  let payload ← effectPayload bound step
  let postimage ← advanceExpected image bound.spec step.owner step.effectKind payload
    step.preparedSlotId
  validateExpectedImage postimage
  pure postimage

theorem advanceStep_eq_ok {image post : ExpectedObservation} {step : TransitionStep} :
    advanceStep bound image step = .ok post ↔
    ∃ payload, effectPayload bound step = .ok payload ∧
      advanceExpected image bound.spec step.owner step.effectKind payload step.preparedSlotId =
        .ok post ∧ validateExpectedImage post = .ok () := by
  simp only [advanceStep, steps_ok]
  constructor
  · rintro ⟨payload, paid, _, ha, hv, rfl⟩
    exact ⟨payload, paid, ha, hv⟩
  · rintro ⟨payload, paid, ha, hv⟩
    exact ⟨payload, paid, post, ha, hv, rfl⟩

/-- `image` is the state of the run after the transitions `done`. -/
inductive Reached (bound : BoundSpecification) (steps : List TransitionStep) :
    List TransitionStep → ExpectedObservation → Prop
  | initial {image : ExpectedObservation} (starts : initialExpected bound.spec = .ok image)
      (valid : validateExpectedImage image = .ok ()) : Reached bound steps [] image
  | step {done : List TransitionStep} {step : TransitionStep} {image post : ExpectedObservation}
      (reached : Reached bound steps done image) (next : Next steps done step)
      (advanced : advanceStep bound image step = .ok post) :
      Reached bound steps (done ++ [step]) post

section Reached
variable {bound : BoundSpecification} {steps done : List TransitionStep}
  {image other : ExpectedObservation}

theorem Reached.valid (hr : Reached bound steps done image) : validateExpectedImage image = .ok () := by
  cases hr with
  | initial _ hv => exact hv
  | step _ _ ha =>
    obtain ⟨-, -, -, hv⟩ := advanceStep_eq_ok.1 ha
    exact hv

theorem Reached.done_prefix (hr : Reached bound steps done image) : done <+: steps := by
  cases hr with
  | initial => exact List.nil_prefix
  | step _ next => exact next

end Reached

structure Contract (bound : BoundSpecification) (steps : List TransitionStep) (position : Nat)
    (step : TransitionStep) (action : ActionContract) : Prop where
  found : steps[position]? = some step
  reached : Reached bound steps (steps.take position) action.preimage
  advanced : advanceStep bound action.preimage step = .ok action.completionPostimage
  payload : effectPayload bound step = .ok action.effectPayload
  actionId : action.actionId = actionIdOf bound.fingerprint position step.effectKind
  fingerprint : action.fingerprint = bound.fingerprint
  stage : action.stage = step.stage
  owner : action.owner = step.owner
  effectKind : action.effectKind = step.effectKind
  permitted : action.permittedEffectPostimages = [action.completionPostimage]
  synchronizations : action.synchronizationRequirements = step.synchronization
  parents : action.parentSynchronizations = step.parentSynchronizations
  slot : action.preparedSlotId = step.preparedSlotId
  creates : action.createsPreparedIdentity = createsPreparedIdentity step.effectKind

theorem take_concat {α : Type} {xs : List α} {position : Nat} {x : α}
    (hf : xs[position]? = some x) : xs.take position ++ [x] = xs.take (position + 1) := by
  rw [List.take_add_one, hf]
  rfl

section Contract
variable {bound : BoundSpecification} {steps : List TransitionStep} {position : Nat}
  {step : TransitionStep} {action : ActionContract}

theorem Contract.next (contract : Contract bound steps position step action) :
    Next steps (steps.take position) step := by
  rw [Next, take_concat contract.found]
  exact List.take_prefix _ _

theorem Contract.mem (contract : Contract bound steps position step action) : step ∈ steps :=
  List.mem_of_getElem? contract.found

theorem Contract.reached_post (contract : Contract bound steps position step action) :
    Reached bound steps (steps.take (position + 1)) action.completionPostimage := by
  rw [← take_concat contract.found]
  exact .step contract.reached contract.next contract.advanced

end Contract

theorem deriveActions_contracts {steps done rest : List TransitionStep}
    {image : ExpectedObservation} {actions : List ActionContract}
    (derives : deriveActions bound done.length image rest = .ok actions) (hw : steps = done ++ rest)
    (hr : Reached bound steps done image) :
    actions.length = rest.length ∧
    ∀ position action, actions[position]? = some action →
      ∃ step, Contract bound steps (done.length + position) step action := by
  induction rest generalizing done image actions with
  | nil =>
    rw [deriveActions, pure_eq_ok] at derives
    subst derives
    simp
  | cons step rest ih =>
    simp only [deriveActions, deriveAction, steps_ok] at derives
    obtain ⟨_, ⟨payload, paid, post, ha, hv, rfl⟩, _, derives, rfl⟩ := derives
    have next : Next steps done step := ⟨rest, by simp [hw]⟩
    have hp : advanceStep bound image step = .ok post :=
      advanceStep_eq_ok.2 ⟨payload, paid, ha, hv⟩
    have taken : steps.take done.length = done := by simp [hw]
    have hf : steps[done.length]? = some step := by simp [hw]
    have length : done.length + 1 = (done ++ [step]).length := by simp
    rw [length] at derives
    obtain ⟨hs, contracts⟩ := ih derives (by simp [hw]) (.step hr next hp)
    refine ⟨by simp [hs], ?_⟩
    intro position action isAction
    cases position with
    | zero =>
      obtain rfl : _ = action := by simpa using isAction
      exact ⟨step, hf, by simpa [taken] using hr, hp, paid, rfl, rfl, rfl, rfl, rfl, rfl,
        rfl, rfl, rfl, rfl⟩
    | succ position =>
      obtain ⟨step', contract⟩ := contracts position action (by simpa using isAction)
      refine ⟨step', ?_⟩
      rwa [← length, show done.length + 1 + position = done.length + (position + 1) by omega] at contract

theorem deriveProtocolPlan_contracts {plan : ReconciliationPlan}
    (derives : deriveProtocolPlan bound = .ok plan) :
    ∃ steps, compileTransitions bound.spec = .ok steps ∧ steps.length = bound.transitionCount ∧
      plan.fingerprint = bound.fingerprint ∧ plan.actions.length = steps.length ∧
      ∀ position action, plan.actions[position]? = some action →
        ∃ step, Contract bound steps position step action := by
  simp only [deriveProtocolPlan, steps_ok, not_not] at derives
  obtain ⟨steps, hc, count, image, hs, hv, actions, derived, rfl⟩ := derives
  obtain ⟨length, contracts⟩ := @deriveActions_contracts bound steps [] steps image actions derived
    rfl (.initial hs hv)
  refine ⟨steps, hc, count, rfl, length, ?_⟩
  intro position action isAction
  simpa using contracts position action isAction

end Yinshi.Reconcile
