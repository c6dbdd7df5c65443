import Mathlib.Logic.Function.Basic
import Yinshi.Base.Rows
import Yinshi.Capability.Claims

/-! The replay store of the runner and its Noise sessions. The store forgets a token by the
clock value of some later call, so a call whose clock value is older than a removal can
meet a store that has forgotten its token. -/

namespace Yinshi.Capability
open ByteText Checked Function

structure Row where
  tokenId : Text
  expiresAt : Int
  consumedAt : Nat
  deriving DecidableEq

inductive Refusal
  | runtime (message : String)
  | value (message : String)
  /-- `UnicodeDecodeError`. -/
  | decode
  /-- `sqlite3.OperationalError`. -/
  | database

/-- The refusals after which a session is failed: `UnicodeDecodeError` and `ValueError`. -/
def Refusal.isValue : Refusal → Bool
  | .value _ | .decode => true
  | .runtime _ | .database => false

/-- `RunnerCapabilityReplayStore.consume`: a replay rolls its removals back. -/
def consume (rows : List Row) (tokenId : Text) (expiresAt : Int) (currentTime : Nat) :
    Except Refusal (List Row × Bool) := do
  rejectIf (tokenId = []) (.value "token_id must not be empty")
  rejectIf (128 < tokenId.length) (.value "token_id is too large")
  rejectIf (expiresAt ≤ currentTime) (.value "capability must be unexpired when consumed")
  let kept := Rows.delete (fun row : Row => row.expiresAt ≤ currentTime) rows
  pure (if kept.any (·.tokenId = tokenId) then (rows, false) else
      (kept ++ [⟨tokenId, expiresAt, currentTime⟩], true))

inductive Outcome
  | done
  | locked
  | lost

/-- Noise between ideal parties: the initiator and payload of a first message for a runner key,
and the transport ciphers of a session at a message number. -/
structure Noise where
  read : Text → Bytes → Option (Bytes × Bytes)
  write : Bytes → Text → Bytes
  encrypt : Bytes → Nat → Bytes → Bytes
  decrypt : Bytes → Nat → Bytes → Option Bytes

/-- `RunnerNoiseSession` with its `NoiseIkResponder`. -/
structure Session where
  runnerId : Text
  runnerPublicKey : Text
  signingKey : Bytes
  firstMessageRead : Bool := false
  handshakeComplete : Bool := false
  initiator : Bytes := []
  capability : Option VerifiedRunnerCapability := none
  failed : Bool := false
  messagesSent : Nat := 0
  messagesReceived : Nat := 0
  ciphertextBytes : Nat := 0

def messagesBeforeRehandshake : Nat := 1048576

namespace Session
variable (usable : Bytes → Bool) (noise : Noise) (issued : List Issued) (session : Session)

def fail (refusal : Refusal) : Session := if refusal.isValue then { session with failed := true } else session

def readHandshakeMessage (message : Bytes) : Except Refusal (Session × Bytes) := do
  rejectIf session.firstMessageRead (.runtime "Noise IK initiator message was already read")
  rejectIf (message.length < 96 ∨ 65535 < message.length)
    (.value "Noise IK initiator message has an invalid length")
  let opened ←
    orRaise (.value "Noise IK initiator message failed authentication")
      (noise.read session.runnerPublicKey message)
  rejectIf (opened.1.length ≠ 32) (.value "Noise IK initiator public key must contain exactly 32 bytes")
  pure ({ session with firstMessageRead := true, initiator := opened.1 }, opened.2)

def authorize (payload : Bytes) (currentTime : Nat) : Except Refusal VerifiedRunnerCapability := do
  rejectIf (payload.any (128 ≤ ·.toNat)) .decode
  let verified ← orRaise (.value "Runner capability is invalid or expired")
    (verifyRunnerCapability usable issued (asciiText payload) session.signingKey session.runnerId
      session.runnerPublicKey currentTime)
  rejectIf (encodeBase64url session.initiator ≠ verified.initiatorPublicKey)
    (.value "Runner capability initiator identity does not match")
  pure verified

def present (message : Bytes) (currentTime : Nat) : Session × Except Refusal VerifiedRunnerCapability :=
  match session.readHandshakeMessage noise message with
  | .error refusal => (session, .error refusal)
  | .ok (read, payload) => (read, read.authorize usable issued payload currentTime)

def responsePayload (transferId : Text) : Text :=
  text "\x7b\"protocol\":\"yinshi-runner-v1\",\"transfer_id\":\"" ++ transferId ++ text "\"\x7d"

def redeem (verified : VerifiedRunnerCapability) (rows : List Row) (currentTime : Nat)
    (outcome : Outcome) : Session × List Row × Except Refusal Bytes :=
  match consume rows verified.tokenId verified.expiresAt currentTime, outcome with
  | .error refusal, _ => (session.fail refusal, rows, .error refusal)
  | .ok _, .locked => (session, rows, .error .database)
  | .ok (stored, _), .lost => (session, stored, .error .database)
  | .ok (stored, consumed), .done =>
    let replayed : Refusal := .value "Runner capability has already been consumed"
    if ¬ consumed then (session.fail replayed, stored, .error replayed)
    else if ¬ session.firstMessageRead ∨ session.handshakeComplete then
      (session, stored, .error (.runtime "Noise IK responder is not ready to finish the handshake"))
    else
      ({ session with handshakeComplete := true, capability := some verified }, stored,
        .ok (noise.write session.initiator (responsePayload verified.transferId)))

def acceptHandshake (rows : List Row) (message : Bytes) (currentTime : Nat) (outcome : Outcome) :
    Session × List Row × Except Refusal Bytes :=
  if session.failed ∨ session.capability.isSome then
    (session, rows, .error (.runtime "Runner Noise session cannot accept another handshake"))
  else
    match session.present usable noise issued message currentTime with
    | (read, .error refusal) => (read.fail refusal, rows, .error refusal)
    | (read, .ok verified) => read.redeem noise verified rows currentTime outcome

def requireTransport : Except Refusal VerifiedRunnerCapability := do
  rejectIf session.failed (.runtime "Runner Noise transport failed and cannot be reused")
  orRaise (.runtime "Runner Noise transport is not ready") session.capability

def requireSessionCapacity (capability : VerifiedRunnerCapability) (ciphertextLength : Nat) :
    Except Refusal Unit := do
  rejectIf (ciphertextLength < 16 ∨ capability.maxFrameBytes < ciphertextLength)
    (.value "Runner Noise ciphertext exceeds the frame limit")
  rejectIf (capability.maxSessionBytes < session.ciphertextBytes + ciphertextLength)
    (.value "Runner Noise session exceeds the byte limit")

def maySend (plaintext : Bytes) : Except Refusal Unit := do
  let capability ← session.requireTransport
  rejectIf (messagesBeforeRehandshake ≤ session.messagesSent)
    (.runtime "Runner Noise transport requires a fresh handshake")
  session.requireSessionCapacity capability (plaintext.length + 16)

def encrypt (plaintext : Bytes) : Session × Except Refusal Bytes :=
  match session.maySend plaintext with
  | .error refusal => (session, .error refusal)
  | .ok _ =>
    if ¬ session.handshakeComplete then
      ({ session with failed := true }, .error (.runtime "Noise IK transport is not ready"))
    else if 65535 - 16 < plaintext.length then
      ({ session with failed := true }, .error (.value "Noise transport plaintext is too large"))
    else
      let ciphertext := noise.encrypt session.initiator session.messagesSent plaintext
      ({ session with
          ciphertextBytes := session.ciphertextBytes + ciphertext.length,
          messagesSent := session.messagesSent + 1 },
        .ok ciphertext)

def mayReceive (ciphertext : Bytes) : Except Refusal Unit := do
  let capability ← session.requireTransport
  rejectIf (messagesBeforeRehandshake ≤ session.messagesReceived)
    (.runtime "Runner Noise transport requires a fresh handshake")
  session.requireSessionCapacity capability ciphertext.length

def decrypt (ciphertext : Bytes) : Session × Except Refusal Bytes :=
  match session.mayReceive ciphertext with
  | .error refusal => (session, .error refusal)
  | .ok _ =>
    if ¬ session.handshakeComplete then
      ({ session with failed := true }, .error (.runtime "Noise IK transport is not ready"))
    else if ciphertext.length < 16 ∨ 65535 < ciphertext.length then
      ({ session with failed := true }, .error (.value "Noise transport ciphertext has an invalid length"))
    else
      match noise.decrypt session.initiator session.messagesReceived ciphertext with
      | none =>
        ({ session with failed := true },
          .error (.value "Noise transport ciphertext failed authentication"))
      | some plaintext =>
        ({ session with
            ciphertextBytes := session.ciphertextBytes + ciphertext.length
            messagesReceived := session.messagesReceived + 1 }, .ok plaintext)

end Session

/-- A call of `accept_handshake` that has read the clock. -/
structure Call where
  session : Nat
  message : Bytes
  currentTime : Nat

structure Acceptance where
  session : Nat
  capability : VerifiedRunnerCapability
  currentTime : Nat

structure System where
  now : Nat := 0
  issued : List Issued := []
  rows : List Row := []
  sessions : Nat → Option Session := fun _ => none
  calls : Nat → Option Call := fun _ => none
  /-- The calls that returned, and the sessions whose handshake was refused or that have sent or
  received. -/
  accepted : List Acceptance := []
  refused : List Nat := []
  transported : List Nat := []
  clocks : List Nat := []

inductive Event
  | tick (seconds : Nat)
  | issue (entry : Issued)
  | connect (number : Nat) (runnerId runnerPublicKey : Text) (signingKey : Bytes)
  | call (number session : Nat) (message : Bytes)
  | run (number : Nat) (outcome : Outcome)
  | encrypt (session : Nat) (plaintext : Bytes)
  | decrypt (session : Nat) (ciphertext : Bytes)

namespace System
variable (usable : Bytes → Bool) (noise : Noise) (s : System)

def initial : System := {}

def isOk {α : Type} : Except Refusal α → Bool
  | .ok _ => true
  | .error _ => false

def finish (number : Nat) (call : Call) (session : Session) (outcome : Outcome) : System :=
  let done := session.acceptHandshake usable noise s.issued s.rows call.message call.currentTime outcome
  { s with
    calls := update s.calls number none
    sessions := update s.sessions call.session (some done.1)
    rows := done.2.1
    clocks := if s.rows.any (· ∉ done.2.1) then call.currentTime :: s.clocks else s.clocks
    accepted := if isOk done.2.2 then (done.1.capability.map fun capability =>
      ⟨call.session, capability, call.currentTime⟩).toList ++ s.accepted else s.accepted
    refused := if isOk done.2.2 ∨ session.capability.isSome then s.refused else call.session :: s.refused }

def transport (number : Nat) (done : Session × Except Refusal Bytes) : System :=
  { s with
    sessions := update s.sessions number (some done.1)
    transported := if isOk done.2 then number :: s.transported else s.transported }

/-- The next state: token identifiers are random and never drawn twice, and neither are tokens. -/
def step : Event → Option System
  | .tick seconds => some { s with now := s.now + seconds }
  | .issue entry =>
    if s.issued.any
      fun other => other.token = entry.token ∨ other.claims.tokenId = entry.claims.tokenId then none
    else some { s with issued := entry :: s.issued }
  | .connect number runnerId runnerPublicKey signingKey =>
    if (s.sessions number).isSome then none
    else some { s with sessions := update s.sessions number (some { runnerId, runnerPublicKey, signingKey }) }
  | .call number session message =>
    if (s.calls number).isSome then none
    else some { s with calls := update s.calls number (some ⟨session, message, s.now⟩) }
  | .run number outcome => (s.calls number).bind fun call => (s.sessions call.session).map fun session =>
    s.finish usable noise number call session outcome
  | .encrypt number plaintext => (s.sessions number).map fun session =>
    s.transport number (session.encrypt noise plaintext)
  | .decrypt number ciphertext => (s.sessions number).map fun session =>
    s.transport number (session.decrypt noise ciphertext)

/-- The call comes in time: whatever it may consume expires after every clock value by which
rows have been removed. -/
def timely (call : Call) (session : Session) : Prop :=
  ∀ verified, (session.present usable noise s.issued call.message call.currentTime).2 = .ok verified →
    ∀ clock ∈ s.clocks, (clock : Int) < verified.expiresAt

end System

def Timely (usable : Bytes → Bool) (noise : Noise) (s : System) : Event → Prop
  | .run number _ =>
    ∀ call ∈ s.calls number, ∀ session ∈ s.sessions call.session, s.timely usable noise call session
  | _ => True

inductive Reached (usable : Bytes → Bool) (noise : Noise) (allowed : System → Event → Prop) : System → Prop
  | initial : Reached usable noise allowed .initial
  | step {s s' : System} {event : Event} (before : Reached usable noise allowed s) (fits : allowed s event)
      (next : s.step usable noise event = some s') : Reached usable noise allowed s'

end Yinshi.Capability
