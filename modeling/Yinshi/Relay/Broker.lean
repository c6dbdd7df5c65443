import Mathlib.Logic.Function.Basic
import Mathlib.Data.List.Perm.Basic
import Yinshi.Base.ByteText

/-! The connection broker of the runner relay. Every section under the broker's lock is a
function; what happens between two sections of one call is a step of its own. -/

namespace Yinshi.Relay
open ByteText Function

def runnerPrefixLength : Nat := 16
def relayFrameBytesMax : Nat := 65535
def relayQueueFramesMax : Nat := 16
def runnerSessionsMax : Nat := 32
def retiredTransfersMax : Nat := 128
def retiredTransferTtl : Int := 300000

abbrev Uuid := Bytes

inductive RelayError
  | value (message : String)
  | authorization (message : String)

structure RunnerTransferGrant where
  transferId : Uuid
  runnerId : Text
  expiresAt : Nat
  maxSessionBytes : Nat

/-- A `_RunnerConnection`; `ref` is the identity of the object. -/
structure RunnerConnection where
  ref : Nat
  websocket : Nat
  ready : Bool := false
  sessions : List Uuid := []
  retiredTransfers : List (Uuid × Int) := []
  deriving DecidableEq

/-- A `_RunnerMaintenance`; `done` is the state of its future. -/
structure RunnerMaintenance where
  ref : Nat
  jobId : Uuid
  done : Bool

/-- A `_ClientConnection`, with the frames accepted for it, those of a runner with its name,
and the frames its senders have taken. -/
structure ClientConnection where
  websocket : Nat
  grant : RunnerTransferGrant
  outboundQueue : List Bytes := []
  ciphertextBytes : Nat := 0
  accepted : List (Option Text × Bytes) := []
  handed : List Bytes := []

inductive Output
  | close (websocket code : Nat) (reason : String)
  | openTransfer (websocket : Nat) (transferId : Uuid)
  | closeTransfer (websocket : Nat) (transferId : Uuid)
  | quiesce (websocket : Nat) (jobId : Uuid)
  | frame (websocket : Nat) (bytes : Bytes)

/-- The broker with the objects it has made and the calls that wait between two sections. -/
structure Broker where
  runners : Text → Option RunnerConnection := fun _ => none
  maintenance : Text → Option RunnerMaintenance := fun _ => none
  clients : Uuid → Option Nat := fun _ => none
  objects : Nat → Option ClientConnection := fun _ => none
  registering : List (Text × Nat) := []
  quiescing : List (Text × Nat) := []
  senders : List Nat := []
  nextRef : Nat := 0

def closeClientQueue : List Bytes → List Bytes
  | [] => [[]]
  | frame :: queue =>
    if queue.length + 1 < relayQueueFramesMax then frame :: queue ++ [[]] else closeClientQueue queue

def pruneRetiredTransfers (now : Int) : List (Uuid × Int) → List (Uuid × Int)
  | [] => []
  | (transferId, retiredAt) :: rest =>
    if now - retiredAt ≤ retiredTransferTtl then (transferId, retiredAt) :: rest
    else pruneRetiredTransfers now rest

/-- `_retire_transfer`: the marker moves to the end and the oldest ones go. -/
def retireTransfer (retired : List (Uuid × Int)) (transferId : Uuid) (now : Int) : List (Uuid × Int) :=
  let marked := (pruneRetiredTransfers now retired).filter (·.1 ≠ transferId) ++ [(transferId, now)]
  marked.drop (marked.length - retiredTransfersMax)

def ClientConnection.recordBytes (client : ClientConnection) (origin : Option Text)
    (ciphertext : Bytes) : Except RelayError ClientConnection :=
  if ciphertext.length < 1 then .error (.value "Relay ciphertext byte count must be positive")
  else if client.grant.maxSessionBytes < client.ciphertextBytes + ciphertext.length then
    .error (.authorization "Runner relay session exceeded byte limit")
  else .ok { client with
    ciphertextBytes := client.ciphertextBytes + ciphertext.length
    accepted := client.accepted ++ [(origin, ciphertext)] }

def ClientConnection.closeQueue (client : ClientConnection) : ClientConnection :=
  { client with outboundQueue := closeClientQueue client.outboundQueue }

namespace Broker

def client (broker : Broker) (transferId : Uuid) : Option (Nat × ClientConnection) := do
  let ref ← broker.clients transferId
  let client ← broker.objects ref
  return (ref, client)

def setClient (broker : Broker) (ref : Nat) (client : ClientConnection) : Broker :=
  { broker with objects := update broker.objects ref (some client) }

def popClient (broker : Broker) (transferId : Uuid) : Broker :=
  match broker.client transferId with
  | none => broker
  | some (ref, client) =>
    { broker.setClient ref client.closeQueue with clients := update broker.clients transferId none }

/-- The sessions of a runner's transfer end: `discard` and `_retire_transfer`. -/
def retire (broker : Broker) (runnerId : Text) (transferId : Uuid) (now : Int) : Broker :=
  match broker.runners runnerId with
  | none => broker
  | some runner =>
    { broker with runners := update broker.runners runnerId (some { runner with
        sessions := runner.sessions.filter (· ≠ transferId)
        retiredTransfers := retireTransfer runner.retiredTransfers transferId now }) }

def closeTransfer (broker : Broker) (runnerId : Text) (transferId : Uuid) (now : Int) : Broker :=
  (broker.popClient transferId).retire runnerId transferId now

def closes (broker : Broker) (order : List Uuid) (code : Nat) (reason : String) : List Output :=
  order.filterMap fun transferId => (broker.client transferId).map fun found =>
    .close found.2.websocket code reason

/-- The first section of `register_runner`; `order` lists the sessions of the connection
that is replaced. -/
def registerRunner (broker : Broker) (runnerId : Text) (websocket : Nat)
    (durableJobId : Option Uuid) (order : List Uuid) : Broker × List Output :=
  let previous := broker.runners runnerId
  let popped := order.foldl popClient broker
  let candidate : RunnerConnection := { ref := broker.nextRef, websocket := websocket }
  let maintenance : Option RunnerMaintenance :=
    match broker.maintenance runnerId, durableJobId with
    | none, some jobId => some ⟨broker.nextRef + 1, jobId, false⟩
    | maintenance, _ => maintenance
  ({ popped with
      runners := update popped.runners runnerId (some candidate)
      maintenance := update popped.maintenance runnerId maintenance
      registering := (runnerId, broker.nextRef) :: popped.registering
      nextRef := broker.nextRef + 2 },
    (previous.map fun runner => Output.close runner.websocket 4001 "Runner connection replaced").toList ++
      broker.closes order 4002 "Runner connection replaced" ++
      (maintenance.map fun maintenance => Output.quiesce websocket maintenance.jobId).toList)

def registered (broker : Broker) (runnerId : Text) (ref : Nat) : Broker :=
  let runners := match broker.runners runnerId with
    | some runner => if runner.ref = ref then update broker.runners runnerId (some { runner with ready := true })
        else broker.runners
    | none => broker.runners
  { broker with runners := runners, registering := broker.registering.erase (runnerId, ref) }

/-- The section of `register_runner` after a send that failed. -/
def registerFailed (broker : Broker) (runnerId : Text) (ref : Nat) : Broker :=
  let runners := match broker.runners runnerId with
    | some runner => if runner.ref = ref then update broker.runners runnerId none else broker.runners
    | none => broker.runners
  { broker with runners := runners, registering := broker.registering.erase (runnerId, ref) }

def unregisterRunner (broker : Broker) (runnerId : Text) (websocket : Nat) (order : List Uuid) :
    Broker × List Output :=
  match broker.runners runnerId with
  | none => (broker, [])
  | some runner =>
    if runner.websocket ≠ websocket then (broker, [])
    else
      let popped := order.foldl popClient broker
      ({ popped with runners := update popped.runners runnerId none },
        broker.closes order 4002 "Runner disconnected")

def disconnectRunner (broker : Broker) (runnerId : Text) (order : List Uuid) : Broker × List Output :=
  let fenceless := { broker with maintenance := update broker.maintenance runnerId none }
  match broker.runners runnerId with
  | none => (fenceless, [])
  | some runner =>
    let popped := order.foldl popClient fenceless
    ({ popped with runners := update popped.runners runnerId none },
      Output.close runner.websocket 4003 "Runner revoked" :: broker.closes order 4003 "Runner revoked")

/-- The loop of `quiesce_runner`; the clock is read for every transfer. -/
def endSessions (broker : Broker) (runnerId : Text) (order : List Uuid) (clock : Uuid → Int) : Broker :=
  order.foldl (fun broker transferId => broker.closeTransfer runnerId transferId (clock transferId)) broker

/-- The section of `quiesce_runner` behind the choice of its maintenance. -/
def quiesce (broker : Broker) (runnerId : Text) (runner : RunnerConnection)
    (maintenance : RunnerMaintenance) (order : List Uuid) (clock : Uuid → Int) :
    Broker × Except RelayError (List Output) :=
  let fenced := { broker with
    maintenance := update broker.maintenance runnerId (some maintenance)
    quiescing := (runnerId, maintenance.ref) :: broker.quiescing }
  (fenced.endSessions runnerId order clock,
    .ok (broker.closes order 4006 "Runner entered maintenance" ++
      [.quiesce runner.websocket maintenance.jobId]))

def quiesceRunner (broker : Broker) (runnerId : Text) (jobId : Uuid) (order : List Uuid)
    (clock : Uuid → Int) : Broker × Except RelayError (List Output) :=
  match broker.runners runnerId with
  | none => (broker, .error (.authorization "Runner is not connected"))
  | some runner =>
    match broker.maintenance runnerId with
    | some maintenance =>
      if maintenance.jobId ≠ jobId then
        (broker, .error (.authorization "Runner maintenance is already active"))
      else if maintenance.done then (broker, .ok [])
      else broker.quiesce runnerId runner maintenance order clock
    | none =>
      let fresh := { broker with nextRef := broker.nextRef + 1 }
      fresh.quiesce runnerId runner ⟨broker.nextRef, jobId, false⟩ order clock

/-- The section of `quiesce_runner` after a send or a wait that failed. -/
def quiesceFailed (broker : Broker) (runnerId : Text) (ref : Nat) : Broker :=
  let maintenance := match broker.maintenance runnerId with
    | some maintenance => if maintenance.ref = ref then update broker.maintenance runnerId none
        else broker.maintenance
    | none => broker.maintenance
  { broker with maintenance := maintenance, quiescing := broker.quiescing.erase (runnerId, ref) }

def runnerQuiesced (broker : Broker) (runnerId : Text) (jobId : Uuid) : Broker × Except RelayError Unit :=
  match broker.maintenance runnerId with
  | none => (broker, .error (.authorization "Runner maintenance acknowledgement mismatched"))
  | some maintenance =>
    if maintenance.jobId ≠ jobId then
      (broker, .error (.authorization "Runner maintenance acknowledgement mismatched"))
    else
      let acknowledged := update broker.maintenance runnerId (some { maintenance with done := true })
      ({ broker with maintenance := acknowledged }, .ok ())

def releaseMaintenance (broker : Broker) (runnerId : Text) (jobId : Uuid) : Broker × Except RelayError Unit :=
  match broker.maintenance runnerId with
  | none => (broker, .error (.authorization "Runner maintenance release mismatched"))
  | some maintenance =>
    if maintenance.jobId ≠ jobId then
      (broker, .error (.authorization "Runner maintenance release mismatched"))
    else if ¬ maintenance.done then (broker, .error (.authorization "Runner maintenance is not quiesced"))
    else ({ broker with maintenance := update broker.maintenance runnerId none }, .ok ())

def attachClient (broker : Broker) (grant : RunnerTransferGrant) (websocket : Nat) :
    Broker × Except RelayError (List Output) :=
  match broker.runners grant.runnerId with
  | none => (broker, .error (.authorization "Runner is not connected"))
  | some runner =>
    if ¬ runner.ready then (broker, .error (.authorization "Runner is not connected"))
    else if (broker.maintenance grant.runnerId).isSome then
      (broker, .error (.authorization "Runner maintenance is active"))
    else if runnerSessionsMax ≤ runner.sessions.length then
      (broker, .error (.authorization "Runner session limit was reached"))
    else if (broker.clients grant.transferId).isSome then
      (broker, .error (.authorization "Runner relay client is already attached"))
    else
      ({ broker with
          runners := update broker.runners grant.runnerId
            (some { runner with sessions := runner.sessions ++ [grant.transferId] })
          clients := update broker.clients grant.transferId (some broker.nextRef)
          objects := update broker.objects broker.nextRef (some { websocket := websocket, grant := grant })
          nextRef := broker.nextRef + 1 },
        .ok [.openTransfer runner.websocket grant.transferId])

/-- `detach_client`, also the end of an `attach_client` whose send failed. -/
def detachClient (broker : Broker) (transferId : Uuid) (websocket : Nat) (now : Int) : Broker × List Output :=
  match broker.client transferId with
  | none => (broker, [])
  | some (_, client) =>
    if client.websocket ≠ websocket then (broker, [])
    else
      (broker.closeTransfer client.grant.runnerId transferId now,
        ((broker.runners client.grant.runnerId).map fun runner =>
          Output.closeTransfer runner.websocket transferId).toList)

def clientFrame (broker : Broker) (transferId : Uuid) (ciphertext : Bytes) :
    Broker × Except RelayError (List Output) :=
  if ¬ (1 ≤ ciphertext.length ∧ ciphertext.length ≤ relayFrameBytesMax) then
    (broker, .error (.value "Relay ciphertext frame has an invalid length"))
  else
    match broker.client transferId with
    | none => (broker, .error (.authorization "Runner relay client is not attached"))
    | some (ref, client) =>
      match broker.runners client.grant.runnerId with
      | none => (broker, .error (.authorization "Runner is not connected"))
      | some runner =>
        match client.recordBytes none ciphertext with
        | .error error => (broker, .error error)
        | .ok client =>
          (broker.setClient ref client, .ok [.frame runner.websocket (transferId ++ ciphertext)])

def runnerClosedTransfer (broker : Broker) (runnerId : Text) (transferId : Uuid) (now : Int) :
    Broker × Except RelayError (List Output) :=
  match broker.runners runnerId with
  | none => (broker, .error (.authorization "Runner relay transfer is not attached"))
  | some _ =>
    match broker.client transferId with
    | none => (broker, .ok [])
    | some (_, client) =>
      if client.grant.runnerId ≠ runnerId then
        (broker, .error (.authorization "Runner relay transfer is not attached"))
      else
        (broker.closeTransfer runnerId transferId now,
          .ok [.close client.websocket 4004 "Runner rejected transfer"])

def isRetiredTransfer (broker : Broker) (runnerId : Text) (runner : RunnerConnection)
    (transferId : Uuid) (now : Int) : Broker × Bool :=
  let retired := pruneRetiredTransfers now runner.retiredTransfers
  ({ broker with runners := update broker.runners runnerId (some { runner with retiredTransfers := retired }) },
    retired.any (·.1 == transferId))

def lateFrame (broker : Broker) (runnerId : Text) (runner : RunnerConnection) (transferId : Uuid)
    (now : Int) : Broker × Except RelayError (List Output) :=
  let (pruned, isRetired) := broker.isRetiredTransfer runnerId runner transferId now
  (pruned, if isRetired then .ok []
    else .error (.authorization "Runner relay frame has no attached client"))

def runnerFrame (broker : Broker) (runnerId : Text) (framedCiphertext : Bytes) (now : Int) :
    Broker × Except RelayError (List Output) :=
  if ¬ (runnerPrefixLength < framedCiphertext.length ∧
      framedCiphertext.length ≤ runnerPrefixLength + relayFrameBytesMax) then
    (broker, .error (.value "Runner relay frame has an invalid length"))
  else
    let transferId := framedCiphertext.take runnerPrefixLength
    let ciphertext := framedCiphertext.drop runnerPrefixLength
    match broker.runners runnerId with
    | none => (broker, .error (.authorization "Runner relay frame has no attached client"))
    | some runner =>
      match broker.client transferId with
      | none => broker.lateFrame runnerId runner transferId now
      | some (ref, client) =>
        if client.grant.runnerId ≠ runnerId then broker.lateFrame runnerId runner transferId now
        else
          let closing (reason : String) : Broker × Except RelayError (List Output) :=
            (broker.closeTransfer runnerId transferId now,
              .ok [.closeTransfer runner.websocket transferId, .close client.websocket 4005 reason])
          if client.grant.maxSessionBytes < client.ciphertextBytes + ciphertext.length then
            closing "Runner relay session exceeded byte limit"
          else if relayQueueFramesMax ≤ client.outboundQueue.length then
            closing "Runner relay client exceeded backpressure"
          else
            match client.recordBytes (some runnerId) ciphertext with
            | .error error => (broker, .error error)
            | .ok client =>
              (broker.setClient ref { client with outboundQueue := client.outboundQueue ++ [ciphertext] },
                .ok [])

/-- The section of `send_client_frames`: the sender waits on the queue of the client it
finds. -/
def senderWaits (broker : Broker) (transferId : Uuid) : Broker :=
  match broker.clients transferId with
  | none => broker
  | some ref => { broker with senders := ref :: broker.senders }

def senderTakes (broker : Broker) (ref : Nat) : Broker × List Output :=
  match broker.objects ref with
  | none => (broker, [])
  | some client =>
    match client.outboundQueue with
    | [] => (broker, [])
    | frame :: queue =>
      let taken := broker.setClient ref
          { client with outboundQueue := queue, handed := client.handed ++ [frame] }
      ({ taken with senders := taken.senders.erase ref },
        if frame = [] then [] else [.frame client.websocket frame])

end Broker

end Yinshi.Relay
