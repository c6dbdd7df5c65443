import Yinshi.Artifact.Codec
import Yinshi.Base.Faulty
import Yinshi.Base.Forest
import Yinshi.Publication.Store

/-! The journal root and the staging root of replica materializations, under the operation id of
the requests, and the calls that materialize or reconcile there. Owners, modes and link counts are
those that the calls give, so the checks of them are left out; every call of the operating system
that changes a root is one step. -/

namespace Yinshi.Materialization
open ByteText Artifact Faulty Prog Function

inductive Error
  | rejected
  | collision
  | unresolved
  | cancelled
  | publicationCollision
  | publicationRejected
  | notFound
  | fileExists
  /-- `GitError`, `WorkspacePublicationError`, another `OSError` or another exception. -/
  | other
  deriving DecidableEq

inductive Leaf
  | file (executable : Bool) (content : Bytes)
  | symlink (target : Bytes)
  deriving DecidableEq

def Leaf.isSymlink : Leaf → Bool
  | .file _ _ => false
  | .symlink _ => true

/-- The contents of a directory; directories carry their identities. -/
abbrev Tree : Type := Forest Bytes Nat Leaf

def repoName : Bytes := bytes "repo"
def homeName : Bytes := bytes "home"
def gitName : Bytes := bytes ".git"
def indexName : Bytes := bytes "index"

/-- `ReplicaMaterializationRequest`, with the digest of the limits and of the receipts it
carries. -/
structure Request where
  version : Int
  declaration : Publication.Declaration
  limitsSha256 : Text
  artifactSetSha256 : Text
  publicationReceiptId : Text
  verificationReceiptId : Text

structure Binding where
  version : Int
  operationId : Text
  repositoryId : Text
  workspaceId : Text
  replicaIdentity : Publication.ReplicaIdentity
  objectFormat : Text
  artifactSetSha256 : Text
  publicationReceiptId : Text
  verificationReceiptId : Text
  sourceStateSha256 : Text
  reconciliationFingerprint : Text
  limitsSha256 : Text
  deriving DecidableEq

def requestBinding (request : Request) : Binding where
  version := request.version
  operationId := request.declaration.operationId
  repositoryId := request.declaration.repositoryId
  workspaceId := request.declaration.workspaceId
  replicaIdentity := request.declaration.identity
  objectFormat := request.declaration.objectFormat
  artifactSetSha256 := request.artifactSetSha256
  publicationReceiptId := request.publicationReceiptId
  verificationReceiptId := request.verificationReceiptId
  sourceStateSha256 := request.declaration.sourceStateSha256
  reconciliationFingerprint := request.declaration.reconciliationFingerprint
  limitsSha256 := request.limitsSha256

/-- The fields of a `ReplicaMaterializationReceipt` but its id. -/
structure ReceiptValues where
  operationId : Text
  artifactSetSha256 : Text
  publicationReceiptId : Text
  verificationReceiptId : Text
  sourceStateSha256 : Text
  limitsSha256 : Text
  stagingTreeSha256 : Text
  operationDirectoryIdentity : Nat
  repoDirectoryIdentity : Nat
  homeDirectoryIdentity : Nat
  deriving DecidableEq

structure Receipt where
  materializationReceiptId : Text
  values : ReceiptValues
  deriving DecidableEq

inductive Kind
  | intent
  | stage
  | prepared
  | receipt
  deriving DecidableEq

def recordNames : List Kind := [.intent, .stage, .prepared, .receipt]

structure Prepared where
  requestSha256 : Text
  publicationReceiptId : Text
  verificationReceiptId : Text
  sourceStateSha256 : Text
  operationDirectoryIdentity : Nat
  stagingTreeSha256 : Text
  deriving DecidableEq

inductive Record
  | intent (request : Binding) (requestSha256 : Text) (pendingName : Nat)
  | stage (pendingName : Nat) (operationDirectoryIdentity : Nat)
  | prepared (value : Prepared)
  | receipt (value : Receipt)
  deriving DecidableEq

abbrev Records : Type := Kind → Option Record

structure Temporary where
  kind : Kind
  token : Nat
  content : Option Record

structure Journal where
  records : Records := fun _ => none
  temporaries : List Temporary := []

inductive Name
  | final
  | pending (token : Nat)
  deriving DecidableEq

/-- Numbers below `next` are the identities of directories. -/
structure Disk where
  journal : Option Journal
  staging : Name → Option Nat
  tree : Nat → Tree
  next : Nat

/-- `record` is for the steps at which the temporary file of a record is there. -/
inductive Label
  | call
  | record
  deriving DecidableEq

abbrev StoreM (α : Type) : Type := Prog Label Error Disk α

/-- What `open_published_artifact_set` yields: a decoded worktree, and the other artifacts. -/
structure Opened (ω : Type) where
  worktree : VerifiedWorktreeArtifact
  artifacts : ω
  decoded : ∃ limits payload aggregate, parseManifest limits payload = .ok (worktree.entries, aggregate)

structure Git (ω : Type) where
  init : Opened ω → Except Error Tree
  importObjects : Opened ω → Tree → Except Error Tree
  restoreRefsAndHead : Opened ω → Tree → Except Error Tree
  verifyObjects : Opened ω → Tree → Except Error Unit
  verifyRefsAndHead : Opened ω → Tree → Except Error Unit
  verifyIndexSemantics : Opened ω → Tree → Except Error Unit
  /-- `_validate_git_topology`, on the files and the directories of an inventory. -/
  topology : Opened ω → List (List Bytes) → List (List Bytes) → Bool

structure Store (ω : Type) where
  git : Git ω
  openPublished : Request → Except Error (Opened ω)
  validSource : Opened ω → Bool
  requestDigest : Binding → Text
  treeDigest : List (List Bytes × Leaf) → List (List Bytes) → Text
  receiptDigest : ReceiptValues → Text

section Steps
variable {α : Type}

def fetch (view : Disk → Except Error α) : StoreM α :=
  .act .call fun _ d => (view d).map fun result => (result, d)

def edit (directory : Nat) (change : Tree → Except Error Tree) : StoreM Unit :=
  .act .call
    fun _ d =>
      (change (d.tree directory)).map
        fun tree => ((), { d with tree := update d.tree directory tree })

def mkdirAt (directory : Nat) (path : List Bytes) (name : Bytes) : StoreM Unit :=
  .act .call fun _ d => (Forest.within .notFound (fun kids =>
      if name ∈ kids.names then .error .fileExists else
        .ok (kids.append (.node name d.next .nil .nil))) path (d.tree directory)).map
    fun tree => ((), { d with tree := update d.tree directory tree, next := d.next + 1 })

def createAt (directory : Nat) (path : List Bytes) (name : Bytes) (leaf : Leaf) : StoreM Unit :=
  edit directory (Forest.within .notFound (fun kids =>
    if name ∈ kids.names then .error .fileExists else .ok (kids.append (.leaf name leaf .nil))) path)

def writeAt (directory : Nat) (path : List Bytes) (name : Bytes) (leaf : Leaf) : StoreM Unit :=
  edit directory (Forest.within .notFound (fun kids => .ok (kids.assign name leaf)) path)

def journalRecords : StoreM Records := do
  let journal ← fetch fun d => match d.journal with
    | some journal => .ok journal
    | none => .error .unresolved
  if journal.temporaries ≠ [] then .raise .rejected
  else do
    .touch .call
    if (recordNames.dropWhile fun kind => (journal.records kind).isSome).any
        fun kind => (journal.records kind).isSome then
      .raise .rejected
    else pure journal.records

/-- `_publish_record`; its cleanup meets no name after the rename. -/
def publishRecord (kind : Kind) (value : Record) : StoreM Unit := do
  let token ← .act .call fun choice d => .ok (choice, d)
  let change (f : Journal → Journal) (d : Disk) : Disk := { d with journal := d.journal.map f }
  Prog.ensure
    (Prog.attempt (do
        .act .call fun _ d =>
          if d.journal.any
              fun journal => journal.temporaries.any
                  fun temporary => temporary.kind = kind ∧ temporary.token = token then
            .error .fileExists
          else
            .ok ((),
                change (fun journal =>
                    { journal with temporaries := ⟨kind, token, none⟩ :: journal.temporaries }) d)
        .change .record (change fun journal =>
          { journal with
            temporaries := journal.temporaries.map fun temporary =>
              if temporary.kind = kind ∧ temporary.token = token then
                { temporary with content := some value } else temporary })
        .touch .record
        .touch .record
        .act .record fun _ d =>
          if d.journal.any fun journal => (journal.records kind).isSome then .error .other
          else .ok ((), change (fun journal =>
            { records := update journal.records kind ((journal.temporaries.find? fun temporary =>
                temporary.kind = kind ∧ temporary.token = token).bind (·.content))
              temporaries := journal.temporaries.filter
                  fun temporary => ¬ (temporary.kind = kind ∧ temporary.token = token) }) d)
        .touch .call
        .touch .call)
      fun error => .raise (if error = .fileExists then .rejected else error))
    (Prog.attempt (.change .call (change fun journal =>
        { journal with
          temporaries := journal.temporaries.filter
              fun temporary => ¬ (temporary.kind = kind ∧ temporary.token = token) }))
      fun _ => pure ())

def openJournalOperation (create : Bool) : StoreM Bool := do
  let there ← fetch fun d => .ok d.journal.isSome
  if there ∨ ¬ create then pure there
  else do
    .change .call fun d => { d with journal := some {} }
    .touch .call
    .touch .call
    pure true

def openOwnedOperation (name : Name) : StoreM (Option Nat) := fetch fun d => .ok (d.staging name)

def removeContents (directory : Nat) : StoreM Unit := do
  let entries ← fetch fun d => .ok (d.tree directory).size
  .drain .call (fun d =>
      ((d.tree directory).removal.map
        fun tree => { d with tree := update d.tree directory tree }).toList) entries
  .touch .call

end Steps

section Worktree

def mkdirOpen (directory : Nat) (path : List Bytes) (name : Bytes) : StoreM Unit := do
  Prog.attempt (mkdirAt directory path name) fun error => if error = .fileExists then pure () else .raise error
  fetch fun d => if (Forest.inside (path ++ [name]) (d.tree directory)).isSome then .ok () else .error .other
  .touch .call

def openParents (directory : Nat) : (path parts : List Bytes) → StoreM Unit
  | _, [] => pure ()
  | path, part :: parts => do
      mkdirOpen directory path part
      openParents directory (path ++ [part]) parts

def partsOf (entry : ManifestEntry) : List Bytes := components entry.rawPath

def createManifestEntry (directory : Nat) (entry : ManifestEntry) : StoreM Unit := do
  let parts := partsOf entry
  let parent := repoName :: parts.dropLast
  let leaf := parts.getLastD []
  openParents directory [repoName] parts.dropLast
  match entry.kind with
  | .file =>
    createAt directory parent leaf (.file entry.executable [])
    writeAt directory parent leaf (.file entry.executable entry.content)
    .touch .call
    .touch .call
  | .symlink => createAt directory parent leaf (.symlink entry.content)
  | .directory =>
    mkdirOpen directory parent leaf
    .touch .call
  .touch .call

def expectedLeaves (entries : List ManifestEntry) : List (List Bytes × Leaf) :=
  entries.filterMap fun entry => match entry.kind with
  | .file => some (partsOf entry, .file entry.executable entry.content)
  | .symlink => some (partsOf entry, .symlink entry.content)
  | .directory => none

def expectedDirectories (entries : List ManifestEntry) : List (List Bytes) := entries.flatMap fun entry =>
  let parts := partsOf entry
  (if entry.kind = .directory then [parts] else []) ++
    (List.range' 1 (parts.length - 1)).map fun index => parts.take index

def readIndex (git : Tree) : Option Bytes := match git.value indexName with
  | some (.file _ content) => some content
  | _ => none

/-- `_verify_worktree`, with `_scan_worktree` of everything but the Git directory. -/
def verifyWorktree (worktree : VerifiedWorktreeArtifact) (repository : Tree) : Except Error Unit :=
  let scanned := repository.without gitName
  if ¬ (scanned.leaves.isPerm (expectedLeaves worktree.entries) ∧
      (∀ path ∈ scanned.nodes, path ∈ expectedDirectories worktree.entries) ∧
      ∀ path ∈ expectedDirectories worktree.entries, path ∈ scanned.nodes) then .error .unresolved
  else match repository.child gitName with
    | none => .error .notFound
    | some git => if readIndex git.2 = worktree.indexBytes then .ok () else .error .unresolved

def gitTreeInventory (git : Tree) : Except Error (List (List Bytes) × List (List Bytes)) :=
  if (git.leaves.any fun leaf => leaf.2.isSymlink) ∨
      ((git.leaves.map (·.1) ++ git.nodes).any
          fun path => (bytes ".lock").isSuffixOf (path.getLastD [])) then .error .rejected
  else .ok (git.leaves.map (·.1), git.nodes)

def declaredDestinationSymlinks (worktree : VerifiedWorktreeArtifact) : List (List Bytes × Bytes) :=
  worktree.entries.filterMap fun entry =>
  if entry.kind = .symlink then some (repoName :: partsOf entry, entry.content) else none

end Worktree

section Calls
variable {ω : Type} (store : Store ω)

def validateGitTopology (opened : Opened ω) (git : Tree) : Except Error Unit := do
  let (files, directories) ← gitTreeInventory git
  if store.git.topology opened files directories then pure () else .error .rejected

def syncTreeDigest (allowedSymlinks : List (List Bytes × Bytes)) (tree : Tree) : Except Error Text :=
  if tree.leaves.any fun leaf => match leaf.2 with
      | .symlink target => allowedSymlinks.lookup leaf.1 ≠ some target
      | .file _ _ => false then .error .rejected
  else .ok (store.treeDigest tree.leaves tree.nodes)

def below (path : List Bytes) (check : Tree → Except Error Unit) (tree : Tree) : Except Error Unit :=
  match Forest.inside path tree with
  | some tree => check tree
  | none => .error .notFound

def checkAt (directory : Nat) (path : List Bytes) (check : Tree → Except Error Unit) : StoreM Unit :=
  fetch fun d => below path check (d.tree directory)

def emptyHome (home : Tree) : Except Error Unit := if home.names = [] then .ok () else .error .rejected

def editGit (directory : Nat) (change : Tree → Except Error Tree) : StoreM Unit :=
  edit directory (Forest.within .notFound change [repoName, gitName])

def hasEntries (tree : Tree) : Bool := tree.names.isPerm [repoName, homeName]

def writeIndex (directory : Nat) (content : Option Bytes) : StoreM Unit := match content with
  | none => pure ()
  | some content => do
      createAt directory [repoName, gitName] indexName (.file false [])
      writeAt directory [repoName, gitName] indexName (.file false content)
      .touch .call

/-- The first part of `_build_pending`; the random name of the template is the choice of the
environment. -/
def initRepository (directory : Nat) (opened : Opened ω) : StoreM Unit := do
  removeContents directory
  mkdirAt directory [] repoName
  mkdirAt directory [] homeName
  let template ← .act .call fun choice d => .ok (bytes ".template." ++ List.replicate choice 0, d)
  mkdirAt directory [] template
  .touch .call
  Prog.ensure (edit directory (Forest.within .notFound (fun kids => do
        let git ← store.git.init opened
        .ok (kids.append (.node gitName 0 git .nil))) [repoName]))
    (Prog.attempt (do
        edit directory fun tree => .ok (tree.without template)
        .touch .call)
      fun error => if error = .notFound then pure () else .raise error)

def buildPending (directory : Nat) (opened : Opened ω) : StoreM Unit := do
  initRepository store directory opened
  .touch .call
  editGit directory (store.git.importObjects opened)
  checkAt directory [repoName, gitName] (store.git.verifyObjects opened)
  editGit directory (store.git.restoreRefsAndHead opened)
  writeIndex directory opened.worktree.indexBytes
  .each (createManifestEntry directory) opened.worktree.entries
  checkAt directory [repoName, gitName] (store.git.verifyRefsAndHead opened)
  checkAt directory [repoName, gitName] (store.git.verifyObjects opened)
  checkAt directory [repoName, gitName] (store.git.verifyIndexSemantics opened)
  checkAt directory [repoName] (verifyWorktree opened.worktree)
  .touch .call
  checkAt directory [repoName, gitName] (validateGitTopology store opened)
  .touch .call
  checkAt directory [homeName] emptyHome
  .touch .call
  fetch fun d => if hasEntries (d.tree directory) then .ok () else .error .rejected
  .touch .call

def preparedValue (request : Request) (operationDirectoryIdentity : Nat) (treeSha256 : Text) : Prepared where
  requestSha256 := store.requestDigest (requestBinding request)
  publicationReceiptId := request.publicationReceiptId
  verificationReceiptId := request.verificationReceiptId
  sourceStateSha256 := request.declaration.sourceStateSha256
  operationDirectoryIdentity := operationDirectoryIdentity
  stagingTreeSha256 := treeSha256

def makeReceipt (request : Request) (treeSha256 : Text) (operation repository home : Nat) : Receipt :=
  let values : ReceiptValues :=
    { operationId := request.declaration.operationId
      artifactSetSha256 := request.artifactSetSha256
      publicationReceiptId := request.publicationReceiptId
      verificationReceiptId := request.verificationReceiptId
      sourceStateSha256 := request.declaration.sourceStateSha256
      limitsSha256 := request.limitsSha256
      stagingTreeSha256 := treeSha256
      operationDirectoryIdentity := operation
      repoDirectoryIdentity := repository
      homeDirectoryIdentity := home }
  ⟨store.receiptDigest values, values⟩

/-- `_parse_receipt`, of a value with the fields of a receipt. -/
def parseReceipt : Record → Except Error Receipt
  | .receipt receipt =>
    if receipt.materializationReceiptId = store.receiptDigest receipt.values then .ok receipt else
      .error .rejected
  | _ => .error .rejected

def recheckOpened : StoreM Unit := do
  .touch .call
  .touch .call

def isStageOf (identity : Nat) : Record → Bool
  | .stage _ identity' => identity' = identity
  | _ => false

/-- The end of `_finish_final`: the receipt is compared with the one of the journal, or
published. -/
def deliverReceipt (receipt : Receipt) : Option Record → StoreM Receipt
  | some value => do
      let persisted ← fetch fun _ => parseReceipt store value
      if persisted ≠ receipt then .raise .rejected else pure persisted
  | none => do
      publishRecord .receipt (.receipt receipt)
      pure receipt

def finishFinal (request : Request) (opened : Opened ω) (stage : Record)
    (prepared receiptValue : Option Record) (final : Nat) : StoreM Receipt := do
  let allowed := declaredDestinationSymlinks opened.worktree
  if ¬ isStageOf final stage ∨ prepared = none then .raise .rejected
  else do
    let treeSha256 ← fetch fun d => syncTreeDigest store allowed (d.tree final)
    if prepared ≠ some (.prepared (preparedValue store request final treeSha256)) then .raise .rejected
    else do
      fetch fun d => if hasEntries (d.tree final) then .ok () else .error .rejected
      let repository ← fetch fun d => match (d.tree final).child repoName with
        | some repository => .ok repository.1
        | none => .error .notFound
      let home ← fetch fun d => match (d.tree final).child homeName with
        | some home => .ok home.1
        | none => .error .notFound
      checkAt final [homeName] emptyHome
      checkAt final [repoName] (verifyWorktree opened.worktree)
      checkAt final [repoName, gitName] (validateGitTopology store opened)
      checkAt final [repoName, gitName] (store.git.verifyRefsAndHead opened)
      checkAt final [repoName, gitName] (store.git.verifyObjects opened)
      checkAt final [repoName, gitName] (store.git.verifyIndexSemantics opened)
      .touch .call
      recheckOpened
      -- `_reverify_named_destination`
      fetch fun d =>
        if d.staging .final = some final ∧ hasEntries (d.tree final) ∧
            ((d.tree final).child repoName).map (·.1) = some repository ∧
            ((d.tree final).child homeName).map (·.1) = some home then .ok ()
        else .error .rejected
      checkAt final [homeName] emptyHome
      let again ← fetch fun d => syncTreeDigest store allowed (d.tree final)
      if again ≠ treeSha256 then .raise .rejected
      else deliverReceipt store (makeReceipt store request treeSha256 final repository home) receiptValue

def intentValue (request : Request) (pendingName : Nat) : Record :=
  .intent (requestBinding request) (store.requestDigest (requestBinding request)) pendingName

def validateIntent (value : Record) (request : Request) : Except Error Nat := match value with
  | .intent _ _ pendingName =>
    if value = intentValue store request pendingName then .ok pendingName else .error .rejected
  | _ => .error .rejected

def renamePending (pendingName identity : Nat) : StoreM Unit := Prog.attempt (do
    fetch fun d => if d.staging (.pending pendingName) = some identity then .ok () else .error .other
    .act .call fun _ d =>
      if (d.staging .final).isSome then .error .other
      else .ok ((), { d with
        staging := update (update d.staging (.pending pendingName) none) .final
            (d.staging (.pending pendingName)) })
    .touch .call)
  fun _ => .raise .unresolved

def establishPrepared (request : Request) (opened : Opened ω) (pending : Nat) : Option Record → StoreM Record
  | none => do
      buildPending store pending opened
      let treeSha256 ←
        fetch
          fun d =>
            syncTreeDigest store (declaredDestinationSymlinks opened.worktree) (d.tree pending)
      recheckOpened
      let prepared := Record.prepared (preparedValue store request pending treeSha256)
      publishRecord .prepared prepared
      pure prepared
  | some prepared => do
      let treeSha256 ←
        fetch
          fun d =>
            syncTreeDigest store (declaredDestinationSymlinks opened.worktree) (d.tree pending)
      if prepared ≠ .prepared (preparedValue store request pending treeSha256) then .raise .rejected
        else pure prepared

def finishPending (request : Request) (opened : Opened ω) (stage : Record)
    (prepared receiptValue : Option Record) (pendingName pending : Nat) : StoreM Receipt := do
  if stage ≠ .stage pendingName pending ∨ receiptValue ≠ none then .raise .rejected
  else do
    let prepared ← establishPrepared store request opened pending prepared
    recheckOpened
    renamePending pendingName pending
    match ← openOwnedOperation .final with
    | none => .raise .unresolved
    | some final => finishFinal store request opened stage (some prepared) none final

def establishIntent (request : Request) (createIntent : Bool) (records : Records) : StoreM Record :=
  match records .intent with
  | some intent => pure intent
  | none =>
    if (recordNames.any fun kind => (records kind).isSome) ∨ ¬ createIntent then .raise .rejected
    else do
      let pendingName ← .act .call fun choice d => .ok (choice, d)
      publishRecord .intent (intentValue store request pendingName)
      pure (intentValue store request pendingName)

def establishStage (pendingName : Nat) (pending final : Option Nat) :
    Option Record → StoreM (Record × Option Nat)
  | none =>
    if final.isSome then .raise .collision
    else if pending.isSome then .raise .unresolved
    else do
      .change .call fun d => { d with
        staging := update d.staging (.pending pendingName) (some d.next),
        tree := update d.tree d.next .nil, next := d.next + 1 }
      match ← openOwnedOperation (.pending pendingName) with
      | none => .raise .unresolved
      | some made => do
          .touch .call
          publishRecord .stage (.stage pendingName made)
          pure (.stage pendingName made, some made)
  | some (.stage name identity) =>
    if name = pendingName then pure (.stage name identity, pending) else .raise .rejected
  | some _ => .raise .rejected

def continueFrom (request : Request) (opened : Opened ω) (records : Records) (intent : Record) :
    StoreM Receipt := do
  let pendingName ← fetch fun _ => validateIntent store intent request
  let pending ← openOwnedOperation (.pending pendingName)
  let final ← openOwnedOperation .final
  if pending.isSome ∧ final.isSome then .raise .rejected
  else do
    let (stage, pending) ← establishStage pendingName pending final (records .stage)
    match final, pending with
    | some final, _ => finishFinal store request opened stage (records .prepared) (records .receipt) final
    | none, none => .raise .rejected
    | none, some pending =>
      finishPending store request opened stage (records .prepared) (records .receipt) pendingName
        pending

def continueOperation (request : Request) (opened : Opened ω) (createIntent : Bool) : StoreM Receipt := do
  let records ← journalRecords
  let intent ← establishIntent store request createIntent records
  continueFrom store request opened records intent

/-- `open_published_artifact_set` around a body, and `_validate_source`. -/
def withPublished {α : Type} (request : Request) (body : Opened ω → StoreM α) : StoreM α := do
  let opened ← fetch fun _ => store.openPublished request
  Prog.ensure (if store.validSource opened then body opened else .raise .rejected) (.touch .call)

def runLocked (request : Request) (allowCreate : Bool) : StoreM (Option Receipt) := do
  let there ← openJournalOperation false
  let final ← openOwnedOperation .final
  if there then do
    let records ← journalRecords
    let absent := recordNames.all fun kind => (records kind).isNone
    if absent ∧ ¬ allowCreate then pure none
    else withPublished store request fun opened => do
      let receipt ← continueOperation store request opened absent
      pure (some receipt)
  else if final.isSome then .raise .collision
  else if ¬ allowCreate then pure none
  else withPublished store request fun opened => do
    let _ ← openJournalOperation true
    let receipt ← continueOperation store request opened true
    pure (some receipt)

/-- `_intent_exists`; whatever goes wrong counts as an intent. -/
def intentExists : StoreM Bool :=
  Prog.attempt (fetch fun d => .ok (d.journal.any fun journal => (journal.records .intent).isSome))
  fun _ => pure true

/-- `_run`: the roots, the lock, and the translation of errors. -/
def run (request : Request) (allowCreate : Bool) : StoreM (Option Receipt) := Prog.attempt (do
    .touch .call
    .touch .call
    runLocked store request allowCreate)
  fun error => match error with
    | .cancelled => do
        if ← intentExists then .raise .unresolved else .raise .cancelled
    | .rejected | .unresolved | .collision => .raise error
    | .publicationCollision => .raise .collision
    | .publicationRejected => .raise .rejected
    | .notFound | .fileExists | .other => .raise .unresolved

inductive Entry
  | materialize
  | reconcile

def call (entry : Entry) (request : Request) : StoreM (Option Receipt) :=
  if request.version ≠ 1 then .raise .rejected
  else match entry with
    | .materialize => do
        match ← run store request true with
        | none => .raise .unresolved
        | some receipt => pure (some receipt)
    | .reconcile => run store request false

end Calls

end Yinshi.Materialization
