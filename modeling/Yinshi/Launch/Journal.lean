import Yinshi.Base.ByteText
import Yinshi.Base.Checked

/-! The journal of the launch broker: rows that are only appended, under the checks, the unique
indexes and the trigger of its schema, and the validation that every opening repeats. -/

namespace Yinshi.Launch
open ByteText Checked

inductive Stage
  | prepare
  | runtimeSetup
  | launch
  deriving DecidableEq

def stages : List Stage := [.prepare, .runtimeSetup, .launch]

inductive StageStatus
  | prepared
  | rejected
  | runtimeReady
  | launched
  deriving DecidableEq

def Stage.statuses : Stage → List StageStatus
  | .prepare => [.prepared, .rejected]
  | .runtimeSetup => [.runtimeReady]
  | .launch => [.launched, .rejected]

inductive UnresolvedReason
  | transportUnknown
  | timeoutUnknown
  | cancellationUnknown
  | verificationUnknown
  | sqliteCommitUnknown
  | brokerRestartUnknown
  deriving DecidableEq

structure Identity where
  databaseIncarnation : Text
  operationId : Text
  requestType : Text
  deriving DecidableEq

structure BrokerRequest where
  identity : Identity
  brokerIncarnation : Text
  connectionSequence : Nat
  nonce : Text
  payloadDigest : Text

/-- What a row of `broker_journal_events` says about its lifecycle. -/
inductive Entry
  | accepted (nonce : Text) (connectionSequence : Nat) (payloadDigest : Text) (requestFrame : Bytes)
  | lifecycleClaimed (brokerIncarnation ownerToken : Text)
  | stageStarted (stage : Stage) (ownerToken : Text)
  | stageOutcome (stage : Stage) (ownerToken : Text) (status : StageStatus) (error : Option Text)
      (responseFrame : Option Bytes)
  | stageUnresolved (stage : Stage) (ownerToken : Text) (reason : UnresolvedReason) (responseFrame : Bytes)
  deriving DecidableEq

namespace Entry

def isAccepted : Entry → Bool
  | accepted .. => true
  | _ => false

def claimant : Entry → Option Text
  | lifecycleClaimed _ ownerToken => some ownerToken
  | _ => none

def starts (stage : Stage) : Entry → Bool
  | stageStarted started _ => started = stage
  | _ => false

def hasOutcome (stage : Stage) : Entry → Bool
  | stageOutcome ended .. => ended = stage
  | _ => false

/-- What the index `broker_journal_one_stage_completion` holds. -/
def completes (stage : Stage) : Entry → Bool
  | stageOutcome ended .. | stageUnresolved ended .. => ended = stage
  | _ => false

def passes (stage : Stage) (status : StageStatus) : Entry → Bool
  | stageOutcome ended _ given _ _ => ended = stage ∧ given = status
  | _ => false

def isTerminal : Entry → Bool
  | stageOutcome stage _ status _ _ => stage = .launch ∨ status = .rejected
  | stageUnresolved .. => true
  | _ => false

def hasNonce (nonce : Text) : Entry → Bool
  | accepted used _ _ _ => used = nonce
  | _ => false

def reaches (connectionSequence : Nat) : Entry → Bool
  | accepted _ used _ _ => connectionSequence ≤ used
  | _ => false

def clashes : Entry → Entry → Bool
  | accepted nonce connectionSequence _ _, accepted nonce' connectionSequence' _ _ =>
    nonce = nonce' ∨ connectionSequence = connectionSequence'
  | _, _ => false

def WellFormed : Entry → Prop
  | stageOutcome stage _ status error responseFrame => (error.isSome ↔ status = .rejected) ∧
      (responseFrame.isSome ↔ stage = .launch ∨ status = .rejected)
  | _ => True

instance : ∀ entry : Entry, Decidable entry.WellFormed
  | accepted .. | lifecycleClaimed .. | stageStarted .. | stageUnresolved .. =>
    inferInstanceAs (Decidable True)
  | stageOutcome .. => inferInstanceAs (Decidable (_ ∧ _))

end Entry

structure Event where
  identity : Identity
  entry : Entry

abbrev Journal := List Event

def Journal.history (journal : Journal) (identity : Identity) : List Entry :=
  (journal.filter (·.identity = identity)).map (·.entry)

inductive JournalError
  | sync
  | protocol (message : String)
  | value (message : String)

def claimedBy (history : List Entry) (ownerToken : Text) : Bool := history.any (·.claimant = some ownerToken)

def RequireTransition (history : List Entry) : Entry → Prop
  | .accepted .. => True
  | .lifecycleClaimed .. => history.any Entry.isAccepted ∧ ¬ history.any Entry.isTerminal
  | .stageStarted stage ownerToken => history.any Entry.isAccepted ∧ claimedBy history ownerToken ∧
      (stage = .runtimeSetup → history.any (Entry.passes .prepare .prepared)) ∧
      (stage = .launch → history.any (Entry.passes .runtimeSetup .runtimeReady)) ∧
        ¬ history.any Entry.isTerminal
  | .stageOutcome stage ownerToken .. | .stageUnresolved stage ownerToken .. =>
      history.any Entry.isAccepted ∧ claimedBy history ownerToken ∧
        .stageStarted stage ownerToken ∈ history ∧ ¬ history.any Entry.isTerminal

def Unique (history : List Entry) (new : Entry) : Prop :=
  (new.isAccepted → ¬ history.any Entry.isAccepted) ∧
    (new.claimant.isSome → ¬ history.any (·.claimant.isSome)) ∧
    (∀ stage ∈ stages, new.starts stage → ¬ history.any (Entry.starts stage)) ∧
    (∀ stage ∈ stages, new.completes stage → ¬ history.any (Entry.completes stage)) ∧
    (new.isTerminal → ¬ history.any Entry.isTerminal)

def UniqueAcceptance (journal : Journal) (identity : Identity) (new : Entry) : Prop :=
  ∀ event ∈ journal,
    event.identity.databaseIncarnation = identity.databaseIncarnation → ¬ event.entry.clashes new

instance (history : List Entry) : ∀ new, Decidable (RequireTransition history new)
  | .accepted .. => inferInstanceAs (Decidable True)
  | .lifecycleClaimed .. | .stageStarted .. | .stageOutcome .. | .stageUnresolved .. =>
    inferInstanceAs (Decidable (_ ∧ _))

instance (history : List Entry) (new : Entry) : Decidable (Unique history new) :=
  inferInstanceAs (Decidable (_ ∧ _))

instance (journal : Journal) (identity : Identity) (new : Entry) :
    Decidable (UniqueAcceptance journal identity new) :=
  inferInstanceAs (Decidable (∀ _ ∈ _, _))

def insertEvent (event : Event) (journal : Journal) : Except JournalError Journal := do
  let history := journal.history event.identity
  rejectIf (¬ (event.entry.WellFormed ∧ RequireTransition history event.entry ∧
    Unique history event.entry ∧ UniqueAcceptance journal event.identity event.entry)) .sync
  pure (journal ++ [event])

def isTokenCharacter (c : Nat) : Bool :=
  (48 ≤ c ∧ c ≤ 57) ∨ (65 ≤ c ∧ c ≤ 90) ∨ (97 ≤ c ∧ c ≤ 122) ∨ c = 45 ∨ c = 95

def isToken (value : Text) : Bool := 16 ≤ value.length ∧ value.length ≤ 128 ∧ value.all isTokenCharacter

def isHex (length : Nat) (value : Text) : Bool :=
  value.length = length ∧ value.all fun c => (48 ≤ c ∧ c ≤ 57) ∨ (97 ≤ c ∧ c ≤ 102)

def isDigest (value : Text) : Bool := isHex 64 value

structure Protocol where
  storedMessage : Bytes → Option BrokerRequest
  /-- The frame is canonical JSON with the version and keys of a request, its payload has the
  digest that it names, and the signature is that of the caller. -/
  isAuthentic : Bytes → Bool
  isStoredJson : Bytes → Bool
  /-- The request type is supported and the payload has no forbidden control. -/
  isSupported : BrokerRequest → Bool
  unresolvedResponse : BrokerRequest → Stage → Bytes
  response_stored : ∀ request stage, isStoredJson (unresolvedResponse request stage)

def BrokerRequest.isValid (request : BrokerRequest) : Bool :=
  isToken request.brokerIncarnation ∧ isToken request.identity.databaseIncarnation ∧
  1 ≤ request.connectionSequence ∧ request.connectionSequence ≤ 2 ^ 63 - 1 ∧
  isHex 32 request.identity.operationId ∧
  1 ≤ request.identity.requestType.length ∧ request.identity.requestType.length ≤ 64 ∧
  isToken request.nonce ∧ isDigest request.payloadDigest

def Protocol.parseSignedRequest (protocol : Protocol) (frame : Bytes) : Option BrokerRequest :=
  (protocol.storedMessage frame).filter fun request => protocol.isAuthentic frame ∧ request.isValid

theorem Protocol.stored_of_parsed {protocol : Protocol} {frame : Bytes} {request : BrokerRequest}
    (parsed : protocol.parseSignedRequest frame = some request) :
    protocol.storedMessage frame = some request ∧ isDigest request.payloadDigest := by
  obtain ⟨stored, checked⟩ := Option.filter_eq_some_iff.mp parsed
  simp only [BrokerRequest.isValid, decide_eq_true_eq] at checked
  exact ⟨stored, checked.2.2.2.2.2.2.2.2.2⟩

def validStageStart : List Entry → Stage → Bool
  | .accepted .. :: .lifecycleClaimed .. :: rest, .prepare => rest = []
  | .accepted .. :: .lifecycleClaimed .. :: rest, .runtimeSetup =>
    rest.getLast?.any (Entry.passes .prepare .prepared)
  | .accepted .. :: .lifecycleClaimed .. :: rest, .launch =>
    rest.getLast?.any (Entry.passes .runtimeSetup .runtimeReady)
  | _, _ => false

/-- The checks of `_validate_events` on a row after the earlier rows of its lifecycle. -/
def Protocol.validRow (protocol : Protocol) (identity : Identity) (history : List Entry) : Entry → Bool
  | .accepted nonce connectionSequence payloadDigest requestFrame => history = [] ∧
      isDigest payloadDigest ∧ (protocol.storedMessage requestFrame).any
        fun message => message.identity = identity ∧ message.nonce = nonce ∧
        message.payloadDigest = payloadDigest ∧ message.connectionSequence = connectionSequence
  | .lifecycleClaimed brokerIncarnation ownerToken => (history.map Entry.isAccepted = [true]) ∧
      isToken brokerIncarnation ∧ isToken ownerToken
  | .stageStarted stage ownerToken =>
    history.findSome? Entry.claimant = some ownerToken ∧ validStageStart history stage
  | .stageOutcome stage ownerToken status _ responseFrame =>
    history.findSome? Entry.claimant = some ownerToken ∧
      history.any (Entry.starts stage) ∧ status ∈ stage.statuses ∧ responseFrame.all protocol.isStoredJson
  | .stageUnresolved stage ownerToken _ responseFrame => history.findSome? Entry.claimant = some ownerToken ∧
      history.any (Entry.starts stage) ∧ protocol.isStoredJson responseFrame

section Operations
variable (protocol : Protocol)

def validateEvents (before : Journal) : Journal → Except JournalError Unit
  | [] => pure ()
  | event :: rest => do
    rejectIf (¬ protocol.validRow event.identity (before.history event.identity) event.entry) .sync
    validateEvents (before ++ [event]) rest

/-- `_open` of a journal whose file, schema and metadata are intact. -/
def openJournal (journal : Journal) : Except JournalError Unit := validateEvents protocol [] journal

inductive JournalDecision
  | accepted
  | claimed (brokerIncarnation : Text)
  | inFlight (brokerIncarnation : Text)
  | terminal (stage : Stage) (responseFrame : Option Bytes)
  | unresolved (stage : Stage) (responseFrame : Bytes)

def terminalDecision (history : List Entry) : Option JournalDecision :=
  (history.reverse.find? Entry.isTerminal).bind fun
    | .stageOutcome stage _ _ _ responseFrame => some (.terminal stage responseFrame)
    | .stageUnresolved stage _ _ responseFrame => some (.unresolved stage responseFrame)
    | _ => none

def accept (request : BrokerRequest) (requestFrame : Bytes) (journal : Journal) :
    Except JournalError (Journal × JournalDecision) := do
  let history := journal.history request.identity
  let new := Entry.accepted request.nonce request.connectionSequence request.payloadDigest requestFrame
  let sameDatabase := journal.filter (·.identity.databaseIncarnation = request.identity.databaseIncarnation)
  openJournal protocol journal
  match history.find? Entry.isAccepted with
  | some stored =>
    rejectIf (stored ≠ new) (.protocol "operation payload mismatch")
    pure (journal, (terminalDecision history).getD .accepted)
  | none =>
    rejectIf (sameDatabase.any (·.entry.hasNonce request.nonce)) (.protocol "duplicate nonce")
    rejectIf (sameDatabase.any (·.entry.reaches request.connectionSequence))
      (.protocol "stale connection sequence")
    let journal ← insertEvent ⟨request.identity, new⟩ journal
    pure (journal, .accepted)

def claimLifecycle (request : BrokerRequest) (ownerToken brokerIncarnation : Text)
    (journal : Journal) : Except JournalError (Journal × JournalDecision) := do
  rejectIf (¬ isToken ownerToken ∨ ¬ isToken brokerIncarnation) (.value "broker lifecycle owner is invalid")
  openJournal protocol journal
  let history := journal.history request.identity
  let claims := history.filterMap fun
    | .lifecycleClaimed owner _ => some owner
    | _ => none
  match terminalDecision history, claims.head? with
  | some terminal, _ => pure (journal, terminal)
  | none, some owner => pure (journal, .inFlight owner)
  | none, none =>
    let journal ← insertEvent ⟨request.identity, .lifecycleClaimed brokerIncarnation ownerToken⟩ journal
    pure (journal, .claimed brokerIncarnation)

def beginStage (request : BrokerRequest) (ownerToken : Text) (stage : Stage) (journal : Journal) :
    Except JournalError Journal := do
  openJournal protocol journal
  insertEvent ⟨request.identity, .stageStarted stage ownerToken⟩ journal

def recordStageOutcome (request : BrokerRequest) (ownerToken : Text) (stage : Stage)
    (status : StageStatus) (error : Option Text) (responseFrame : Option Bytes)
    (journal : Journal) : Except JournalError Journal := do
  rejectIf (status ∉ stage.statuses) (.value "broker lifecycle outcome is invalid")
  openJournal protocol journal
  insertEvent ⟨request.identity, .stageOutcome stage ownerToken status error responseFrame⟩ journal

def recordStageUnresolved (request : BrokerRequest) (ownerToken : Text) (stage : Stage)
    (reason : UnresolvedReason) (responseFrame : Bytes) (journal : Journal) :
    Except JournalError Journal := do
  let new := Entry.stageUnresolved stage ownerToken reason responseFrame
  let history := journal.history request.identity
  openJournal protocol journal
  if (terminalDecision history).isSome then
    rejectIf (new ∉ history) .sync
    pure journal
  else insertEvent ⟨request.identity, new⟩ journal

structure IncompleteLifecycle where
  requestFrame : Bytes
  ownerToken : Text
  stage : Stage
  stageStarted : Bool

/-- The stage that a restart interrupted, and whether it has started. -/
def interrupted (history : List Entry) : Stage × Bool :=
  let completed := fun stage => history.any (Entry.hasOutcome stage)
  match stages.find? fun stage => history.any (Entry.starts stage) ∧ ¬ completed stage with
  | some stage => (stage, true)
  | none =>
    if completed .runtimeSetup then (.launch, false)
    else if completed .prepare then (.runtimeSetup, false)
    else (.prepare, false)

def incompleteAt (journal : Journal) (event : Event) : List IncompleteLifecycle :=
  let history := journal.history event.identity
  match event.entry with
  | .accepted _ _ _ requestFrame =>
    if history.any Entry.isTerminal then []
    else (history.filterMap Entry.claimant).map fun ownerToken =>
      ⟨requestFrame, ownerToken, (interrupted history).1, (interrupted history).2⟩
  | _ => []

def incompleteLifecycles (journal : Journal) : Except JournalError (List IncompleteLifecycle) := do
  openJournal protocol journal
  pure (journal.flatMap (incompleteAt journal))

end Operations

structure BrokerService where
  brokerIncarnation : Text
  databaseIncarnation : Text
  applicationUid : Nat
  ownerToken : Text

section Service
variable (protocol : Protocol) (service : BrokerService)

def authenticate (frame : Bytes) (peerUid : Nat) : Except JournalError BrokerRequest := do
  rejectIf (peerUid ≠ service.applicationUid) (.protocol "broker peer UID is not authorized")
  let request ← orRaise (.protocol "broker request is invalid") (protocol.parseSignedRequest frame)
  rejectIf (request.brokerIncarnation ≠ service.brokerIncarnation) (.protocol "broker incarnation is stale")
  rejectIf (request.identity.databaseIncarnation ≠ service.databaseIncarnation)
    (.protocol "database incarnation is stale")
  rejectIf (¬ protocol.isSupported request) (.protocol "broker request is not supported")
  pure request

def recoverEach : List IncompleteLifecycle → Journal → Journal × Except JournalError Unit
  | [], journal => (journal, .ok ())
  | incomplete :: rest, journal =>
    match authenticate protocol service incomplete.requestFrame service.applicationUid with
    | .error error => (journal, .error error)
    | .ok request =>
      let begun := if incomplete.stageStarted then .ok journal
        else beginStage protocol request incomplete.ownerToken incomplete.stage journal
      match begun with
      | .error error => (journal, .error error)
      | .ok begun =>
        let response := protocol.unresolvedResponse request incomplete.stage
        match recordStageUnresolved protocol request incomplete.ownerToken incomplete.stage
          .brokerRestartUnknown
          response begun with
        | .error error => (begun, .error error)
        | .ok closed => recoverEach rest closed

def recoverStartup (journal : Journal) : Journal × Except JournalError Unit :=
  match incompleteLifecycles protocol journal with
  | .error error => (journal, .error error)
  | .ok lifecycles => recoverEach protocol service lifecycles journal

end Service

end Yinshi.Launch
