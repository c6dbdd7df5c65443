import Yinshi.Base.ByteText
import Yinshi.Base.Interleaved

/-! The publication root of workspace replicas, and the calls that publish a set of three
artifacts under its operation id or reconcile what is published there. Every call of the
operating system that changes the root is one step; what reads a directory that no other call
changes is one step as well. -/

namespace Yinshi.Publication
open ByteText Function Interleaved

inductive Role
  | bundle
  | worktree
  | indexObjects
  deriving DecidableEq

def roles : List Role := [.bundle, .worktree, .indexObjects]

inductive FileName
  | artifact (role : Role)
  | marker
  deriving DecidableEq

def expectedFiles : List FileName := roles.map .artifact ++ [.marker]

structure Binding where
  artifactId : Text
  sha256 : Text
  byteLength : Nat

structure ReplicaIdentity where
  physicalTargetId : Text
  replicaGeneration : Int
  executionOwnerId : Text
  deriving DecidableEq

/-- `ReplicaArtifactSetDeclaration`; its limits are those of the store. -/
structure Declaration where
  operationId : Text
  repositoryId : Text
  workspaceId : Text
  identity : ReplicaIdentity
  objectFormat : Text
  sourceStateSha256 : Text
  reconciliationFingerprint : Text
  bundle : Binding
  worktree : Binding
  indexObjects : Binding

def Declaration.binding (declaration : Declaration) : Role → Binding
  | .bundle => declaration.bundle
  | .worktree => declaration.worktree
  | .indexObjects => declaration.indexObjects

abbrev Artifacts : Type := Role → Bytes

inductive Error
  | rejected
  | collision
  | unresolved
  | cancelled
  /-- `GitError`, with an `OSError` or a `TimeoutError` as its cause or not. -/
  | git (external : Bool)
  | os
  | notFound
  | fileExists
  | publication
  | publicationCollision
  | other
  deriving DecidableEq

namespace Error

def isRejected : Error → Bool
  | .rejected | .collision => true
  | _ => false

def isOS : Error → Bool
  | .os | .notFound | .fileExists => true
  | _ => false

def isPublication : Error → Bool
  | .publication | .publicationCollision => true
  | _ => false

def ofVerifier : Error → Error
  | .git external => if external then .unresolved else .rejected
  | error => if error = .cancelled ∨ error.isRejected then error else .unresolved

def ofContent (error : Error) : Error := if error = .cancelled ∨ error.isRejected then error else .rejected

def ofReading (error : Error) : Error :=
  if error = .cancelled ∨ error.isRejected then error else if error = .notFound then .rejected else .unresolved

def ofOutcome (error : Error) : Error := if error = .cancelled ∨ error.isRejected then error else .unresolved

end Error

/-- What the store is configured with and what it calls: the checks of a declaration, SHA-256,
the verifiers of the three contents, and the text of a marker. `ν` is the type of a verification
receipt. -/
structure Store (ν : Type) where
  valid : Declaration → Bool
  digest : Bytes → Text
  verify : Declaration → Artifacts → Except Error ν
  markerBytes : Declaration → ν → Bytes

section Root

inductive Name
  | final (operation : Text)
  | pending (operation : Text) (token : Nat)
  | abandoned (operation : Text) (attempt token : Nat)
  deriving DecidableEq

structure File where
  identity : Nat
  content : Bytes
  deriving DecidableEq

abbrev Folder : Type := List (FileName × File)

structure Notes where
  pendingIdentity : Option Nat := none
  fileIdentities : List (FileName × Nat) := []
  moved : Bool := false

/-- Numbers below `next` are the identities of directories and files. -/
structure Root where
  entry : Name → Option Nat
  folder : Nat → Folder
  maker : Nat → Option (Nat × Declaration)
  notes : Nat → Notes
  next : Nat

def content (folder : Folder) (name : FileName) : Option Bytes := (folder.lookup name).map (·.content)

/-- `_opened_published_artifact` and `_inspect_pending`: the names, and the lengths and digests. -/
def matchesDeclaration {ν : Type} (store : Store ν) (declaration : Declaration) (folder : Folder) : Bool :=
  (folder.map (·.1)).isPerm expectedFiles ∧ ∀ role ∈ roles, (content folder (.artifact role)).any fun bytes =>
    bytes.length = (declaration.binding role).byteLength ∧
      store.digest bytes = (declaration.binding role).sha256

def artifactsOf (folder : Folder) : Artifacts := fun role => (content folder (.artifact role)).getD []

end Root

inductive Label
  | call
  | await
  | recheck
  | rename
  | root
  | assign

def Allowed : Label → Error → Prop
  | .call, error => error = .os
  | .await, error => error = .os ∨ error = .cancelled ∨ error = .other ∨ ∃ external, error = .git external
  | .recheck, error => error = .os ∨ error = .cancelled ∨ error = .rejected ∨ error = .unresolved
  | .rename, error => error = .os ∨ error = .publication
  | .root, error => error = .rejected ∨ error = .unresolved
  | .assign, _ => False

/-- `ReplicaInspectionReceipt`; the digests that only name its other fields are left out. -/
structure Inspection (ν : Type) where
  verification : ν
  finalDirectoryIdentity : Nat
  publicationMarkerSha256 : Text

structure Receipt (ν : Type) where
  verification : ν
  identity : ReplicaIdentity
  sourceStateSha256 : Text
  finalDirectoryIdentity : Nat
  publicationMarkerSha256 : Text

abbrev RootM (α : Type) : Type := Proc Label Error Root α

namespace Root

def note (s : Root) (n : Nat) (edit : Notes → Notes) : Root :=
  { s with notes := update s.notes n (edit (s.notes n)) }

def make (s : Root) (n : Nat) (declaration : Declaration) (name : Name) : Root :=
  { s with
    entry := update s.entry name (some s.next), folder := update s.folder s.next []
    maker := update s.maker s.next (some (n, declaration)), next := s.next + 1 }

def move (s : Root) (source target : Name) : Root :=
  { s with entry := update (update s.entry source none) target (s.entry source) }

def addFile (s : Root) (directory : Nat) (name : FileName) : Root :=
  { s with
    folder := update s.folder directory (s.folder directory ++ [(name, ⟨s.next, []⟩)]), next := s.next + 1 }

def write (s : Root) (directory : Nat) (name : FileName) (bytes : Bytes) : Root :=
  { s with
    folder := update s.folder directory ((s.folder directory).map fun file =>
      if file.1 = name then (name, { file.2 with content := bytes }) else file) }

end Root

section Publish
variable {ν : Type} [DecidableEq ν] (store : Store ν) (n : Nat) (declaration : Declaration)

def allocate {α : Type} (taken : Error) (body : RootM α) : Nat → RootM α
  | 0 => .raise .unresolved
  | tries + 1 => body.attempt fun error => if error = taken then allocate taken body tries else .raise error

/-- `atomic_rename_no_replace` from one name to the name of its choice; `after` is assigned when
it returns. -/
def atomicRenameNoReplace (source : Name) (target : Nat → Name) (identity : Option Nat)
    (after : Root → Root) : RootM Name := do
  .read .rename fun s => if s.entry source = identity ∧ identity.isSome then .ok () else .error .publication
  let moved ← .act .rename fun choice s =>
    if (s.entry (target choice)).isSome then .error .publicationCollision
    else .ok (target choice, s.move source (target choice))
  .change .rename after
  pure moved

def cleanupPending (token : Nat) : RootM Unit := Proc.attempt (do
    let notes ← .read .assign fun s => .ok (s.notes n)
    let name ← allocate .publicationCollision (atomicRenameNoReplace (.pending declaration.operationId token)
      (.abandoned declaration.operationId token) notes.pendingIdentity id) 16
    .read .call fun s => match s.entry name with
      | some directory =>
        if some directory = notes.pendingIdentity ∧
            ((s.folder directory).map fun file => (file.1, file.2.identity)).isPerm
                notes.fileIdentities then .ok ()
        else .error .unresolved
      | none => .error .notFound)
  fun error => .raise (if error.isPublication ∨ error.isOS then .unresolved else error)

def noteFile (name : FileName) (identity : Nat) : RootM Unit :=
  .change .call fun s => s.note n fun notes =>
    { notes with fileIdentities := notes.fileIdentities ++ [(name, identity)] }

def writeRegular (directory : Nat) (name : FileName) (bytes : Bytes) : RootM Unit := do
  let identity ← .act .call fun _ s => .ok (s.next, s.addFile directory name)
  .change .call fun s => s.write directory name bytes
  noteFile n name identity

/-- `_create_descriptor_target` and `_copy_descriptor_regular` of one opened artifact. -/
def copyDescriptor (directory : Nat) (role : Role) (bytes : Bytes) : RootM Unit := do
  let identity ← .act .call fun _ s => .ok (s.next, s.addFile directory (.artifact role))
  noteFile n (.artifact role) identity
  .change .await fun s => s.write directory (.artifact role) bytes
  if bytes.length = (declaration.binding role).byteLength ∧
    store.digest bytes = (declaration.binding role).sha256 then .touch .await
  else .raise .rejected

inductive Source
  | bytes (artifacts : Artifacts)
  | opened (verified copied : Artifacts)

def recheckSource : Source → RootM Unit
  | .bytes _ => pure ()
  | .opened _ _ => do
      .touch .recheck
      .touch .recheck

def fillStage (directory : Nat) (verification : ν) : Source → RootM Unit
  | .bytes artifacts => do
      .each (fun role => writeRegular n directory (.artifact role) (artifacts role)) roles
      writeRegular n directory .marker (store.markerBytes declaration verification)
  | .opened _ copied => do
      writeRegular n directory .marker (store.markerBytes declaration verification)
      .each (fun role => copyDescriptor store n declaration directory role (copied role)) roles

/-- `_inspect_pending`, with the comparison of the identities. -/
def inspectPending (token : Nat) (verification : ν) : RootM Unit := do
  .read .await fun s => match s.entry (.pending declaration.operationId token) with
    | some directory =>
      if matchesDeclaration store declaration (s.folder directory) ∧
          ((content (s.folder directory) .marker).any fun bytes =>
            bytes.length = (store.markerBytes declaration verification).length ∧
              store.digest bytes = store.digest (store.markerBytes declaration verification)) ∧
          some directory = (s.notes n).pendingIdentity ∧
          ((s.folder directory).map fun file => (file.1, file.2.identity)).isPerm
              (s.notes n).fileIdentities then .ok ()
      else .error .rejected
    | none => .error .notFound

def buildStage (token : Nat) (verification : ν) (source : Source) : RootM Unit := Proc.attempt (do
    let directory ← .act .call fun _ s => match s.entry (.pending declaration.operationId token) with
      | some directory =>
        .ok (directory, s.note n fun notes => { notes with pendingIdentity := some directory })
      | none => .error .notFound
    fillStage store n declaration directory verification source
    .touch .call
    inspectPending store n declaration token verification
    recheckSource source)
  fun error => do
    let notes ← .read .assign fun s => .ok (s.notes n)
    if notes.pendingIdentity = none then .raise .unresolved
    else
      cleanupPending n declaration token
      .raise error

inductive RenameState
  | notMoved
  | moved
  | unknown
  deriving DecidableEq

def renameState (token : Nat) (identity : Option Nat) : RootM RenameState := Proc.attempt (do
    let pending ← .read .call fun s => .ok (s.entry (.pending declaration.operationId token))
    let final ← .read .call fun s => .ok (s.entry (.final declaration.operationId))
    pure (if pending.isSome ∧ pending = identity ∧ final = none then .notMoved
      else if pending = none ∧ final.isSome ∧ final = identity then .moved else .unknown))
  fun error => if error.isOS then pure .unknown else .raise error

def renameStage (token : Nat) : RootM Unit := Proc.attempt (do
    let notes ← .read .assign fun s => .ok (s.notes n)
    let _ ←
        atomicRenameNoReplace (.pending declaration.operationId token)
          (fun _ => .final declaration.operationId)
      notes.pendingIdentity fun s => s.note n fun notes => { notes with moved := true }
    pure ())
  fun error => do
    let notes ← .read .assign fun s => .ok (s.notes n)
    if error = .publicationCollision then
      cleanupPending n declaration token
      .raise .collision
    else if error.isPublication ∨ error.isOS then
      if (← renameState declaration token notes.pendingIdentity) = .notMoved then
        cleanupPending n declaration token
        .raise .rejected
      else .raise .unresolved
    else .raise error

/-- `_open_verified_published_artifact_set` and `_inspect_final`. -/
def inspectFinal (expectedVerification : Option ν) (expectedIdentity : Option Nat) : RootM (Inspection ν) := do
  let (directory, folder) ←
      Proc.attempt (.read .await fun s => match s.entry (.final declaration.operationId) with
      | some directory =>
        if (expectedIdentity = none ∨ expectedIdentity = some directory) ∧
            matchesDeclaration store declaration (s.folder directory) then .ok (directory, s.folder directory)
        else .error .rejected
      | none => .error .rejected) fun error => .raise error.ofReading
  Proc.ensure (do
      Proc.attempt (.touch .await) fun error => .raise error.ofReading
      let verification ← Proc.attempt (do
          .touch .await
          .orRaise (store.verify declaration (artifactsOf folder))) fun error => .raise error.ofVerifier
      if expectedVerification.isSome ∧ expectedVerification ≠ some verification then .raise .rejected
      else if content folder .marker ≠ some (store.markerBytes declaration verification) then .raise .rejected
      else
        Proc.attempt (.read .await fun s =>
            if s.entry (.final declaration.operationId) = some directory ∧
              s.folder directory = folder then .ok ()
            else .error .rejected) fun error => .raise error.ofReading
        pure ⟨verification, directory, store.digest (store.markerBytes declaration verification)⟩)
    (Proc.attempt (.touch .await) fun error => .raise (if error.isOS then .unresolved else error))

def publicationReceipt (inspection : Inspection ν) : Receipt ν :=
  ⟨inspection.verification, declaration.identity, declaration.sourceStateSha256,
    inspection.finalDirectoryIdentity, inspection.publicationMarkerSha256⟩

def rootIdentity : RootM Unit := .touch .root

/-- `_publish_verified_sources`, of a declaration that is valid. -/
def publishVerifiedSources (verification : ν) (source : Source) : RootM (Receipt ν) := do
  Proc.attempt (.touch .rename) fun error => .raise (if error.isPublication then .rejected else error)
  rootIdentity
  Proc.ensure (Proc.attempt (do
      let token ← allocate .fileExists (.act .call fun choice s =>
        if (s.entry (.pending declaration.operationId choice)).isSome then .error .fileExists
        else .ok (choice, s.make n declaration (.pending declaration.operationId choice))) 16
      buildStage store n declaration token verification source
      renameStage n declaration token
      let notes ← .read .assign fun s => .ok (s.notes n)
      let inspection ← Proc.attempt (inspectFinal store declaration (some verification) notes.pendingIdentity)
        fun _ => .raise .unresolved
      pure (publicationReceipt declaration inspection))
    fun error => do
      let notes ← .read .assign fun s => .ok (s.notes n)
      .raise (if error = .cancelled ∧ notes.moved then .unresolved else error.ofOutcome))
    (.touch .call)

def matchContent (artifacts : Artifacts) : Bool := roles.all fun role =>
  (artifacts role).length = (declaration.binding role).byteLength ∧
    store.digest (artifacts role) = (declaration.binding role).sha256

def verifySource : Source → RootM ν
  | .bytes artifacts =>
    if matchContent store declaration artifacts then
      Proc.attempt (do
        .touch .await
        .orRaise (store.verify declaration artifacts)) fun error => .raise error.ofContent
    else .raise .rejected
  | .opened verified copied => do
      recheckSource (.opened verified copied)
      let verification ← Proc.attempt (do
          .touch .await
          if matchContent store declaration verified then
            .orRaise (store.verify declaration verified) else .raise .rejected)
        fun error => .raise error.ofVerifier
      recheckSource (.opened verified copied)
      pure verification

/-- `publish_artifact_set` and `publish_opened_artifact_set`. -/
def publish (source : Source) (expectedVerification : Option ν) : RootM (Receipt ν) := do
  if store.valid declaration then
    let verification ← verifySource store declaration source
    if expectedVerification.isSome ∧ expectedVerification ≠ some verification then .raise .rejected
    else publishVerifiedSources store n declaration verification source
  else .raise .rejected

def reconcile : RootM (Option (Receipt ν)) := do
  if store.valid declaration then
    rootIdentity
    let presence ← Proc.attempt (.read .await fun s => .ok (s.entry (.final declaration.operationId)).isSome)
      fun error => .raise (if error.isOS then .unresolved else error)
    if presence then
      let inspection ← Proc.attempt (do
          let inspection ← inspectFinal store declaration none none
          rootIdentity
          .read .await fun s =>
            if s.entry (.final declaration.operationId) = some inspection.finalDirectoryIdentity ∧
                matchesDeclaration store declaration (s.folder inspection.finalDirectoryIdentity) ∧
                (content (s.folder inspection.finalDirectoryIdentity) .marker).map store.digest =
                  some inspection.publicationMarkerSha256 then .ok ()
            else .error .rejected
          pure inspection) fun error => .raise error.ofOutcome
      pure (some (publicationReceipt declaration inspection))
    else pure none
  else .raise .rejected

end Publish

inductive Call (ν : Type)
  | publish (declaration : Declaration) (source : Source) (expectedVerification : Option ν)
  | reconcile (declaration : Declaration)

def Call.body {ν : Type} [DecidableEq ν] (store : Store ν) : Call ν → Nat → RootM (Option (Receipt ν))
  | .publish declaration source expectedVerification, n => do
      let receipt ← Publication.publish store n declaration source expectedVerification
      pure (some receipt)
  | .reconcile declaration, _ => Publication.reconcile store declaration

end Yinshi.Publication
