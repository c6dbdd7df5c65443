import Yinshi.Base.ByteText
import Yinshi.Base.Links

/-! Admission markers, their files, and the calls of any number of processes on them.
Every operating-system call is one step; a process may stop between any two. The calls
`fsync` and `close` of a file that is only read or written are part of the step before. -/

namespace Yinshi.Admission
open ByteText Links Function

inductive Kind
  | integration | prompt | legacy | deletion
  deriving DecidableEq

def Kind.name : Kind → Text
  | .integration => text "integration"
  | .prompt => text "prompt"
  | .legacy => text "legacy"
  | .deletion => text "deletion"

inductive Role
  | admission | deletion
  deriving DecidableEq

def Role.allows : Role → Kind → Bool
  | .admission, kind => kind != .deletion
  | .deletion, kind => kind == .deletion

structure Payload where
  authority : Text
  operation : Text
  kind : Kind
  deriving DecidableEq

def isHexText (length : Nat) (value : Text) : Bool :=
  value.length == length && value.all fun c => 48 ≤ c && c ≤ 57 || 97 ≤ c && c ≤ 102

/-- What the calls ask of their arguments and the readers of a marker's text. -/
def Payload.isOwner (payload : Payload) (role : Role) : Bool :=
  role.allows payload.kind && isHexText 64 payload.authority && isHexText 32 payload.operation

def Payload.dumps (payload : Payload) : Text :=
  text "\x7b\"authority\":\"" ++ payload.authority ++ text "\",\"kind\":\"" ++ payload.kind.name ++
    text "\",\"operation\":\"" ++ payload.operation ++ text "\",\"version\":1\x7d"

inductive Content
  | empty
  | start (payload : Payload) (written : Nat)
  deriving DecidableEq

def Content.size : Content → Nat
  | .empty => 0
  | .start payload written => min written payload.dumps.length

/-- `json.loads`: no proper part of a marker's text is JSON. -/
def Content.loads : Content → Option Payload
  | .empty => none
  | .start payload written => if payload.dumps.length ≤ written then some payload else none

def Content.whole (payload : Payload) : Content := .start payload payload.dumps.length

/-- `_validate_file`; every file here is regular, of mode 0600 and of one user. -/
def validateFile (file : Inode Content) : Bool := file.links == 1 && file.content.size ≤ 1024

def readMarker (role : Role) (content : Content) : Option Payload :=
  content.loads.filter fun payload => payload.isOwner role

inductive Name
  | marker (role : Role) (key : Text)
  | live (key : Text)
  | temporary (uuid : Nat)
  deriving DecidableEq

def Name.isTemporary : Name → Bool
  | .temporary _ => true
  | _ => false

abbrev Files := Directory Name Content

inductive Task
  | claim (resume : Bool)
  | release (lease : Nat)
  | publish
  | remove
  deriving DecidableEq

def Task.role : Task → Role
  | .claim _ | .release _ => .admission
  | .publish | .remove => .deletion

inductive Stage
  | waiting
  | checkingLease
  | opening (role : Role)
  | checking (role : Role) (number : Nat)
  | reading (role : Role) (number : Nat)
  | openingLive
  | checkingLive (number : Nat)
  | locking (number : Nat)
  | creating
  | writing (uuid number written : Nat)
  | linking (uuid number : Nat)
  | unlinking (uuid : Nat) (linked : Bool)
  | removing
  | syncing
  | closing (ok : Bool)
  | granted
  | ended (ok : Bool)
  | stopped
  deriving DecidableEq

def Stage.isWorking : Stage → Bool
  | .waiting | .granted | .ended _ | .stopped => false
  | _ => true

structure Call where
  process : Nat
  key : Text
  owner : Payload
  task : Task
  stage : Stage
  /-- The descriptor of the `.live` file. -/
  live : Option Nat
  cancelled : Bool

def Task.first : Task → Stage
  | .release _ => .checkingLease
  | _ => .opening .deletion

def Call.granting (call : Call) : Stage := if call.cancelled then .closing true else .granted

def Call.found (call : Call) (role : Role) (existing : Option Payload) : Stage :=
  match call.task, role with
  | .claim _, .deletion => if existing.isSome then .closing false else .openingLive
  | .claim resume, .admission =>
    match existing with
    | none => .creating
    | some payload => if resume ∧ payload = call.owner then call.granting else .closing false
  | .release _, _ => if existing = some call.owner then .removing else .closing false
  | .publish, _ =>
    match existing with
    | none => .creating
    | some payload => .closing (payload = call.owner)
  | .remove, _ =>
    match existing with
    | none => .syncing
    | some payload => if payload = call.owner then .removing else .closing false

/-- The calls have numbers; a lock knows the number of its holder, and the lock of a
`.live` file belongs to the inode. -/
structure System where
  directory : Files
  lifecycle : Text → Option Nat
  flock : Nat → Option Nat
  calls : Nat → Option Call

namespace System

def initial : System := ⟨.empty .empty, fun _ => none, fun _ => none, fun _ => none⟩

def put (s : System) (number : Nat) (call : Call) : System :=
  { s with calls := update s.calls number (some call) }

def move (s : System) (number : Nat) (call : Call) (stage : Stage) : System :=
  s.put number { call with stage := stage }

def unlock (s : System) (number : Nat) : System :=
  { s with flock := fun inode => (s.flock inode).filter fun holder => holder != number }

def isOpen (s : System) (lease : Nat) : Bool := (s.calls lease).any fun call => call.stage == .granted

def closeLease (s : System) (lease : Nat) : System :=
  match s.calls lease with
  | some call => if call.stage = .granted then (s.unlock lease).move lease call (.ended true) else s
  | none => s

/-- The next operating-system call of `call`. A new file takes the name `uuid`, and a
write takes `count` characters. -/
def act (s : System) (number : Nat) (call : Call) (uuid count : Nat) : System :=
  match call.stage with
  | .checkingLease =>
    match call.task with
    | .release lease => s.move number call (if s.isOpen lease then .opening .admission else .closing false)
    | _ => s
  | .opening role =>
    match s.directory.entry (.marker role call.key) with
    | none => s.move number call (call.found role none)
    | some inode => s.move number call (.checking role inode)
  | .checking role inode =>
    s.move number call
      (if validateFile (s.directory.inode inode) then .reading role inode else .closing false)
  | .reading role inode =>
    match readMarker role (s.directory.inode inode).content with
    | none => s.move number call (.closing false)
    | some payload => s.move number call (call.found role (some payload))
  | .openingLive =>
    match s.directory.entry (.live call.key) with
    | some inode => s.put number { call with live := some inode, stage := .checkingLive inode }
    | none =>
      { s.put number { call with live := some s.directory.next, stage := .checkingLive s.directory.next } with
        directory := s.directory.create (.live call.key) .empty }
  | .checkingLive inode =>
    s.move number call (if validateFile (s.directory.inode inode) then .locking inode else .closing false)
  | .locking inode =>
    if s.flock inode = none then
      { s.move number call (.opening .admission) with flock := update s.flock inode (some number) }
    else s.move number call (.closing false)
  | .creating =>
    match s.directory.entry (.temporary uuid) with
    | some _ => s.move number call (.closing false)
    | none =>
      { s.move number call (.writing uuid s.directory.next 0) with
        directory := s.directory.create (.temporary uuid) (.start call.owner 0) }
  | .writing uuid inode written =>
    if count = 0 then s.move number call (.closing false)
    else
      let total := min (written + count) call.owner.dumps.length
      { s.move number call
          (if total = call.owner.dumps.length then .linking uuid inode else .writing uuid inode total) with
        directory := s.directory.write inode (.start call.owner total) }
  | .linking uuid inode =>
    match s.directory.entry (.marker call.task.role call.key) with
    | some _ => s.move number call (.unlinking uuid false)
    | none =>
      { s.move number call (.unlinking uuid true) with
        directory := s.directory.link inode (.marker call.task.role call.key) }
  | .unlinking uuid linked =>
    match s.directory.entry (.temporary uuid) with
    | none => s.move number call (.closing false)
    | some inode =>
      { s.move number call (if linked then .syncing else .closing false) with
        directory := s.directory.unlink inode (.temporary uuid) }
  | .removing =>
    match s.directory.entry (.marker call.task.role call.key) with
    | none => s.move number call (.closing false)
    | some inode =>
      { s.move number call .syncing with
        directory := s.directory.unlink inode (.marker call.task.role call.key) }
  | .syncing =>
    match call.task with
    | .claim _ => s.move number call call.granting
    | _ => s.move number call (.closing true)
  | .closing ok =>
    match call.task with
    | .release lease => (s.closeLease lease).move number call (.ended ok)
    | _ => (s.unlock number).move number call (.ended ok)
  | .waiting | .granted | .ended _ | .stopped => s

def stop (process : Nat) (call : Call) : Call :=
  if call.process = process then { call with stage := .stopped } else call

def runsIn (s : System) (process number : Nat) : Bool :=
    (s.calls number).any fun call => call.process == process

def exit (s : System) (process : Nat) : System :=
  { s with
    lifecycle := fun key => (s.lifecycle key).filter fun holder => !s.runsIn process holder
    flock := fun inode => (s.flock inode).filter fun holder => !s.runsIn process holder
    calls := fun number => (s.calls number).map (stop process) }

def leave (s : System) (number : Nat) (call : Call) : System :=
  if s.lifecycle call.key = some number then { s with lifecycle := update s.lifecycle call.key none } else s

/-- Claims and releases are shielded from cancellation; the worker of a publication is not
waited for, and the lock is given up before it is done. -/
def cancel (s : System) (number : Nat) (call : Call) : System :=
  match call.stage, call.task with
  | .waiting, _ => s.move number call (.ended false)
  | _, .claim _ => s.put number { call with cancelled := true }
  | _, .publish => s.leave number call
  | _, _ => s

end System

inductive Event
  /-- `acquire_workspace_admission` and the other three functions with their arguments checked. -/
  | call (number process : Nat) (key : Text) (owner : Payload) (task : Task)
  | enter (number : Nat)
  | act (number uuid count : Nat)
  | leave (number : Nat)
  | close (lease : Nat)
  | cancel (number : Nat)
  | exit (process : Nat)

namespace System

def accepts (s : System) (process : Nat) (key : Text) (owner : Payload) : Task → Bool
  | .release lease =>
    (s.calls lease).any fun claim =>
      (claim.task == .claim true || claim.task == .claim false) && claim.process == process &&
        claim.key == key && claim.owner == owner
  | task => owner.isOwner task.role

def step (s : System) : Event → Option System
  | .call number process key owner task =>
    if s.calls number = none ∧ s.accepts process key owner task then
      some (s.put number
          ⟨process, key, owner, task, if task = .remove then task.first else .waiting, none, false⟩)
    else none
  | .enter number =>
    match s.calls number with
    | some call =>
      if call.stage = .waiting ∧ s.lifecycle call.key = none then
        some { s.move number call call.task.first with lifecycle := update s.lifecycle call.key (some number) }
      else none
    | none => none
  | .act number uuid count =>
    match s.calls number with
    | some call => if call.stage.isWorking then some (s.act number call uuid count) else none
    | none => none
  | .leave number =>
    match s.calls number with
    | some call => if call.stage.isWorking then none else some (s.leave number call)
    | none => none
  | .close lease => some (s.closeLease lease)
  | .cancel number =>
    match s.calls number with
    | some call => some (s.cancel number call)
    | none => none
  | .exit process => some (s.exit process)

end System

end Yinshi.Admission
