import Yinshi.Orchestration.Flow

/-! What holds of a channel and its client together, whatever their speeds. -/

namespace Yinshi.Orchestration
open ByteText Checked Function Option
variable {frame : Frame} {value : Text}

variable {η : Type}

theorem requestFrame_type (channel : Channel) (call : Call) :
    (channel.requestFrame call).get "type" = some (.str requestType) := rfl

theorem requests_requestFrame (channel : Channel) (call : Call) : requests (channel.requestFrame call) := by
  refine ⟨?_, ?_, .inl (requestFrame_type channel call)⟩ <;> rw [requestFrame_type] <;> decide

theorem boundedRequestId_requestFrame (channel : Channel) {call : Call}
    (isId : call.requestId.length = 36) :
    boundedRequestId (channel.requestFrame call) = some call.requestId := by
  have string : (channel.requestFrame call).string "request_id" = some call.requestId := rfl
  have hp : call.requestId ≠ [] := by
    rintro none
    simp [none] at isId
  rw [boundedRequestId, string, Yinshi.Orchestration.present, filter_some]
  simp [hp]

theorem not_requests_of_cancel (isCancel : frame.get "type" = some (.str cancelType)) :
    ¬ requests frame := fun asks => asks.2.1 isCancel

/-- A response names the request that it answers, if it names one. -/
def Answers (frame : Frame) (response : OrchestrationResponse) : Prop :=
  response.requestId = [] ∨ boundedRequestId frame = some response.requestId

theorem boundedString_getD (value : Text) (limit : Nat) :
    (boundedString (some (.str value)) limit).getD [] = [] ∨
    value ≠ [] ∧ (boundedString (some (.str value)) limit).getD [] = value := by
  simp only [boundedString]
  split
  next hw =>
    refine .inr ⟨?_, rfl⟩
    rintro rfl
    exact Nat.lt_irrefl 0 hw.1
  next => exact .inl rfl

theorem boundedRequestId_of_string (string : frame.string "request_id" = some value)
    (hn : value ≠ []) : boundedRequestId frame = some value := by
  rw [boundedRequestId, string, present, filter_some]
  simp [hn]

theorem refuse_answers (task : HandlerTask) (code : ErrorCode) : Answers task.frame (task.refuse code) := by
  cases string : task.frame.string "request_id" with
  | none =>
    refine .inl ?_
    simp [HandlerTask.refuse, buildOrchestrationError, string, boundedString]
  | some value =>
    have hs : (task.refuse code).requestId = (boundedString (some (.str value)) 64).getD [] := by
      simp [HandlerTask.refuse, buildOrchestrationError, string]
    rcases boundedString_getD value 64 with hu | ⟨hn, hv⟩
    · exact .inl (hs.trans hu)
    · refine .inr ?_
      rw [hs, hv]
      exact boundedRequestId_of_string string hn

theorem boundedString_eq_some {field : Option FieldValue} {limit : Nat}
    (ha : boundedString field limit = some value) : field = some (.str value) ∧ value ≠ [] := by
  unfold boundedString at ha
  split at ha
  next text =>
    obtain ⟨hw, ⟨⟩⟩ := ite_none_right_eq_some.mp ha
    refine ⟨rfl, ?_⟩
    rintro rfl
    exact Nat.lt_irrefl 0 hw.1
  next => exact nomatch ha

theorem parse_requestId {frameBytes : Nat} {request : OrchestrationRequest}
    (parsed : parseOrchestrationRequest frame frameBytes = .ok request) :
    boundedRequestId frame = some request.requestId := by
  simp only [parseOrchestrationRequest, steps_ok] at parsed
  obtain ⟨-, _, -, -, -, -, _, -, _, ha, _, -, -, _, -, -, -, hm⟩ := parsed
  obtain ⟨field, hn⟩ := boundedString_eq_some ha
  cases hm
  refine boundedRequestId_of_string ?_ hn
  simp [Frame.string, field]

theorem handlerResponse_answers {request : OrchestrationRequest} (outcome : HandlerOutcome)
    (about : boundedRequestId frame = some request.requestId) :
    Answers frame (handlerResponse request outcome) := by
  have error : ∀ code, Answers frame (buildOrchestrationError request.sessionId request.requestId code) := by
    intro _
    rcases boundedString_getD request.requestId 64 with hu | ⟨-, hv⟩
    · exact .inl hu
    · exact .inr (about.trans (congrArg some hv.symm))
  unfold handlerResponse
  split
  next bytes =>
    split
    · exact error _
    · exact .inr about
  all_goals exact error _

def Addressed (task : HandlerTask) : Prop :=
  (∀ request, task.phase = .running request → boundedRequestId task.frame = some request.requestId) ∧
    ∀ response, task.phase = .sending response → Answers task.frame response

theorem TaskMove.addressed {client : Client η} {task next : HandlerTask}
    (move : TaskMove client task next) (addressed : Addressed task) : Addressed next := by
  cases move with
  | refused code => exact ⟨nofun, fun response hh => TaskPhase.sending.inj hh ▸ refuse_answers task code⟩
  | answered outcome hr =>
    refine ⟨nofun, fun response hh => ?_⟩
    exact TaskPhase.sending.inj hh ▸ handlerResponse_answers outcome (addressed.1 _ hr)
  | written | unsent | drained | interrupted => exact ⟨nofun, nofun⟩
  | cancelled =>
    have frame := task.later_cancel.frame
    unfold Addressed at addressed ⊢
    rwa [frame, task.cancel_phase]

theorem Change.addressed {client next : Client η} {event : Event η}
    (change : Change client event next)
    (before : ∀ number task, client.tasks number = some task → Addressed task) :
    ∀ number task, next.tasks number = some task → Addressed task := by
  cases change with
  | ignored | generated | returned | broke | completed | begun | claimed | moved => exact before
  | task hf move =>
    refine Runs.forall_update (fun number _ => before number) fun task hh => ?_
    exact some.inj hh ▸ move.addressed (before _ _ hf)
  | invoked hf _ _ parsed =>
    refine Runs.forall_update (fun number _ => before number) fun task hh => ?_
    refine some.inj hh ▸ ⟨fun request hr => ?_, nofun⟩
    exact TaskPhase.running.inj hr ▸ parse_requestId parsed
  | spawned =>
    refine Runs.forall_update (fun number _ => before number) fun task hh => ?_
    exact some.inj hh ▸ ⟨nofun, nofun⟩
  | torn | disconnected =>
    intro number _ hh
    cases hf : client.tasks number with
    | none => cases (Client.teardown_tasks_none hf).symm.trans hh
    | some task =>
      obtain ⟨left', hh', ⟨-, -, rfl⟩ | ⟨-, rfl⟩⟩ := Client.teardown_tasks hf
      · cases hh'.symm.trans hh
        have move : TaskMove client task task.cancel := .cancelled
        exact move.addressed (before number task hf)
      · obtain rfl := some.inj (hh'.symm.trans hh)
        exact before number left' hf

end Yinshi.Orchestration
