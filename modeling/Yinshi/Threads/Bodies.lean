import Yinshi.Threads.Store

/-! Request bodies and their normalization. What `_reserve` stores of a body normalizes to
itself, so a replayed body is compared with its own stored fields. -/

namespace Yinshi.Threads
open ByteText Checked

/-- `str.lower`, as far as an ASCII key can tell: the Kelvin sign is the only other code point
whose lower case is one ASCII character. -/
def lower (value : Text) : Text :=
  value.map fun c => if 65 ≤ c ∧ c ≤ 90 then c + 32 else if c = 0x212a then 107 else c

def stripOptional (value : Option Text) : Option Text :=
  (value.map strip).filter (· ≠ [])

@[simp] theorem stripOptional_stripOptional (value : Option Text) :
    stripOptional (stripOptional value) = stripOptional value := by
  cases value with
  | none => rfl
  | some value =>
    by_cases blank : strip value = []
    · simp [stripOptional, Option.filter_some, blank]
    · simp [stripOptional, Option.filter_some, blank]

def defaultSessionModel : Text := text "minimax/MiniMax-M2.7"

def legacyModelAliases : List (Text × Text) :=
  [(text "haiku", text "anthropic/claude-haiku-4-5-20251001"),
   (text "minimax", defaultSessionModel),
   (text "minimax-m2.5-highspeed", text "minimax/MiniMax-M2.5-highspeed"),
   (text "minimax-m2.7", defaultSessionModel),
   (text "minimax-m2.7-highspeed", text "minimax/MiniMax-M2.7-highspeed"),
   (text "opus", text "anthropic/claude-opus-4-20250514"),
   (text "sonnet", text "anthropic/claude-sonnet-4-20250514")]

def normalizeModelRef : Option Text → Except ThreadError Text
  | none => .ok defaultSessionModel
  | some model =>
    let normalized := strip model
    if normalized = [] then .error (.value "model must not be empty")
    else .ok ((legacyModelAliases.lookup (lower normalized)).getD normalized)

theorem aliases_canonical : ∀ row ∈ (text "default", defaultSessionModel) :: legacyModelAliases,
    strip row.2 = row.2 ∧ row.2 ≠ [] ∧ legacyModelAliases.lookup (lower row.2) = none := by
  decide

theorem normalizeModelRef_canonical {model : Text} (stripped : strip model = model)
    (filled : model ≠ []) (hp : legacyModelAliases.lookup (lower model) = none) :
    normalizeModelRef (some model) = .ok model := by
  simp [normalizeModelRef, stripped, filled, hp]

theorem normalizeModelRef_idem {model : Option Text} {canonical : Text}
    (normal : normalizeModelRef model = .ok canonical) :
    normalizeModelRef (some canonical) = .ok canonical := by
  cases model with
  | none =>
    cases normal
    obtain ⟨stripped, filled, hp⟩ := aliases_canonical (text "default", defaultSessionModel) (by simp)
    exact normalizeModelRef_canonical stripped filled hp
  | some model =>
    simp only [normalizeModelRef] at normal
    split at normal
    · simp at normal
    next filled =>
      cases normal
      cases hk : legacyModelAliases.lookup (lower (strip model)) with
      | none => exact normalizeModelRef_canonical (strip_strip model) filled hk
      | some target =>
        have hl : (lower (strip model), target) ∈ legacyModelAliases :=
          (lookup_eq_some_iff_mem (by decide)).mp hk
        obtain ⟨stripped, full, hp⟩ := aliases_canonical _ (List.mem_cons_of_mem _ hl)
        exact normalizeModelRef_canonical stripped full hp

/-- `ThreadChildCreate` with its canonical idempotency key. -/
structure Body where
  title : Text
  task : Text
  context : Option Text := none
  role : Role := .general
  model : Option Text := none
  thinking : Option Text := none
  startImmediately : Bool := true

/-- The fields `_assert_request_matches` compares. -/
structure Normalized where
  title : Text
  task : Text
  context : Option Text
  role : Role
  model : Text
  thinking : Option Text
  retryOfDelegationId : Option Text
  deriving DecidableEq

def Body.normalized (body : Body) (retryOf : Option Text) : Except ThreadError Normalized := do
  let model ← normalizeModelRef body.model
  pure ⟨strip body.title, strip body.task, stripOptional body.context, body.role, model,
    stripOptional body.thinking, retryOf⟩

def Delegation.normalized (row : Delegation) : Except ThreadError Normalized := do
  let model ← normalizeModelRef (some row.requestedModel)
  pure ⟨strip row.title, strip row.task, stripOptional row.context, row.role, model,
    stripOptional row.requestedThinking, row.retryOfDelegationId⟩

/-- `_assert_request_matches`: the stored side is evaluated first. -/
def assertRequestMatches (row : Delegation) (body : Body) (retryOf : Option Text) :
    Except ThreadError Unit := do
  let stored ← row.normalized
  let incoming ← body.normalized retryOf
  rejectIf (stored ≠ incoming) (.conflict "idempotency key was already used with a different request")

def assertSpawnReplayMatches (row : Delegation) (body : Body) (retryOf : Option Text)
    (caller : Option Caller) : Except ThreadError Unit := do
  assertRequestMatches row body retryOf
  match caller with
  | none => pure ()
  | some caller =>
    rejectIf (row.initiator ≠ .agent ∨ row.delegatedByRunId ≠ some caller.runId ∨
      row.delegatedByToolCallId ≠ some caller.toolCallId ∨ row.autoStart ≠ body.startImmediately)
      (.conflict "idempotency key was already used by a different initiator")

def Body.reservation (body : Body) (id : Text) (createdAt : Nat) (parentSessionId key : Text)
    (retryOf : Option Text) (caller : Option Caller) (model : Text) : Delegation where
  id := id
  createdAt := createdAt
  parentSessionId := parentSessionId
  idempotencyKey := key
  initiator := if caller.isSome then .agent else .user
  delegatedByRunId := caller.map (·.runId)
  delegatedByToolCallId := caller.map (·.toolCallId)
  title := strip body.title
  task := strip body.task
  context := stripOptional body.context
  role := body.role
  requestedModel := model
  requestedThinking := stripOptional body.thinking
  retryOfDelegationId := retryOf
  autoStart := body.startImmediately

theorem reservation_normalized {body : Body} {id parentSessionId key model : Text} {createdAt : Nat}
    {retryOf : Option Text} {caller : Option Caller}
    (normal : normalizeModelRef body.model = .ok model) :
    (body.reservation id createdAt parentSessionId key retryOf caller model).normalized =
      body.normalized retryOf := by
  have again := normalizeModelRef_idem normal
  simp only [Delegation.normalized, Body.normalized, Body.reservation, again, normal, strip_strip,
    stripOptional_stripOptional]

end Yinshi.Threads
