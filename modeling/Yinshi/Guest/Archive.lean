import Yinshi.Guest.StateRoot
import Yinshi.Reconcile.Canonical

/-! Guest archives: the files of two trees with an authenticated manifest. The tar and its
encryption are faithful, so an archive is the key and the members that went in. -/

namespace Yinshi.Guest
open ByteText Checked Reconcile

def memberCountMax : Nat := 200000

def manifestBytesMax : Nat := 64 * 1024 * 1024

def memberBytesMax : Nat := 64 * 1024 * 1024 * 1024

def expandedBytesMax : Nat := 200 * 1024 * 1024 * 1024

def manifestName : Text := text "manifest.json"

def portableDataKeyName : Text := text ".yinshi-data-protection-key"

def portableDataKeyError : String := "managed backup portable data-protection key is invalid"

structure ManagedArchiveContext where
  archiveId : Text
  createdAt : Text
  ownerDigest : Text
  runtimeGeneration : Int
  deriving DecidableEq

abbrev Path : Type := List Text

inductive Kind
  | file (content : Bytes) (owned : Bool) (links : Nat) (mode : Nat)
  | directory
  /-- A link to a directory; `special` is any other entry. -/
  | directoryLink
  | special
  deriving DecidableEq

structure Node where
  path : Path
  kind : Kind
  deriving DecidableEq

/-- What `os.fsdecode` makes of the names of entries: there is no slash, and a byte that does
not decode is a low surrogate. -/
def validName (name : Text) : Prop :=
  name ≠ [] ∧ name ≠ text "." ∧ name ≠ text ".." ∧ ∀ c ∈ name, c ≠ 47 ∧ ¬ (55296 ≤ c ∧ c < 56320)

instance (name : Text) : Decidable (validName name) :=
  inferInstanceAs (Decidable (name ≠ [] ∧ name ≠ text "." ∧ name ≠ text ".." ∧
        ∀ c ∈ name, c ≠ 47 ∧ ¬ (55296 ≤ c ∧ c < 56320)))

structure SourceTree where
  nodes : List Node
  distinct : (nodes.map (·.path)).Nodup
  named : ∀ node ∈ nodes, node.path ≠ [] ∧ ∀ name ∈ node.path, validName name
  parents : ∀ node ∈ nodes, ∀ front back, node.path = front ++ back → front ≠ [] → back ≠ [] →
    ⟨front, .directory⟩ ∈ nodes

namespace Root

def name : Root → Text
  | .sqlite => text "sqlite"
  | .files => text "files"

end Root

structure SourceFile where
  memberName : Text
  content : Bytes
  owned : Bool
  links : Nat
  mode : Nat

def memberName (root : Root) (path : Path) : Text := [47].intercalate (root.name :: path)

def sourceFile (root : Root) (node : Node) : Option SourceFile :=
  match node.kind with
  | .file content owned links mode => some ⟨memberName root node.path, content, owned, links, mode⟩
  | _ => none

abbrev ArchiveM (α : Type) : Type := Except String α

def requireRegular (node : Node) : ArchiveM Unit :=
  match node.kind with
  | .file .. | .directory => pure ()
  | .directoryLink => .error "managed backup roots must not contain links or special entries"
  | .special => .error "managed backup roots must contain regular files only"

def regularFiles (root : Root) (tree : SourceTree) : ArchiveM (List SourceFile) := do
  each requireRegular tree.nodes
  pure (Keyed.sortBy (·.memberName) (tree.nodes.filterMap (sourceFile root)))

structure Manifest where
  context : ManagedArchiveContext
  format : Text
  members : List Text
  deriving DecidableEq

structure Tar where
  manifest : Manifest
  manifestSize : Nat
  files : List (Text × Bytes)
  deriving DecidableEq

structure Archive where
  key : Bytes
  tar : Tar
  deriving DecidableEq

def isHexText (value : Text) : Bool := value.all fun c => (48 ≤ c ∧ c ≤ 57) ∨ (97 ≤ c ∧ c ≤ 102)

def requireContext (context : ManagedArchiveContext) : ArchiveM Unit := do
  rejectIf (context.archiveId = [] ∨ 128 < context.archiveId.length) "archive_id must be bounded non-empty text"
  rejectIf (context.createdAt = [] ∨ 128 < context.createdAt.length) "created_at must be bounded non-empty text"
  rejectIf (context.ownerDigest.length ≠ 64 ∨ ¬ isHexText context.ownerDigest)
    "owner_digest must be 64 lowercase hexadecimal characters"
  rejectIf (context.runtimeGeneration ≤ 0) "runtime_generation must be a positive integer"

def requireKey (key : Bytes) : ArchiveM Unit :=
  rejectIf (key.length ≠ 32) "archive_key must contain exactly 32 bytes"

def manifestText (context : ManagedArchiveContext) (memberNames : List Text) : Text :=
  dumps (.object [text "context", text "format", text "members"]
    [.object [text "archive_id", text "created_at", text "owner_digest", text "runtime_generation"]
        [.str context.archiveId, .str context.createdAt, .str context.ownerDigest,
          .int context.runtimeGeneration],
      .str (text "yinshi-managed-backup-v2"), .array (memberNames.map .str)]) ++ [10]

def validPortableDataKey (file : SourceFile) : Bool :=
  file.owned ∧ file.links = 1 ∧ file.mode = 0o600 ∧ file.content.length = 32

def isPortableDataKey (file : SourceFile) : Bool := file.memberName = memberName .sqlite [portableDataKeyName]

/-- `create_managed_backup_archive` of sources that do not change. -/
def createManagedBackupArchive (sqlite files : SourceTree) (key : Bytes)
    (context : ManagedArchiveContext) : ArchiveM Archive := do
  requireContext context
  requireKey key
  let sqliteFiles ← regularFiles .sqlite sqlite
  rejectIf (sqliteFiles.countP isPortableDataKey ≠ 1) portableDataKeyError
  let sharedFiles ← regularFiles .files files
  let all := Keyed.sortBy (·.memberName) (sqliteFiles ++ sharedFiles)
  let memberNames := all.map (·.memberName)
  let manifestSize := (manifestText context memberNames).length
  rejectIf (manifestBytesMax < manifestSize) "managed backup manifest exceeds the size limit"
  rejectIf (∃ file ∈ all, isPortableDataKey file ∧ ¬ validPortableDataKey file) portableDataKeyError
  pure ⟨key, ⟨context, text "yinshi-managed-backup-v2", memberNames⟩, manifestSize, all.map fun file =>
    (file.memberName, file.content)⟩

def nameParts (name : Text) : Path := (name.splitOn 47).filter fun part => part ≠ [] ∧ part ≠ text "."

def unsafeName (name : Text) : Bool :=
  name.head? = some 47 ∨ 92 ∈ name ∨ [] ∈ nameParts name ∨ text "." ∈ nameParts name ∨
    text ".." ∈ nameParts name

def inspectMembers : Nat → List Text → Nat → List (Text × Nat) → ArchiveM Unit
  | _, _, _, [] => pure ()
  | index, seen, expandedBytes, (name, size) :: rest => do
      rejectIf (memberCountMax < index) "managed backup contains too many members"
      rejectIf (name ∈ seen ∨ unsafeName name) "managed backup contains an unsafe member"
      rejectIf (memberBytesMax < size) "managed backup member exceeds the size limit"
      rejectIf (expandedBytesMax < expandedBytes + size) "managed backup exceeds the expanded size limit"
      inspectMembers (index + 1) (name :: seen) (expandedBytes + size) rest

/-- A string that `json.dumps` wrote and `json.loads` read: a surrogate pair is one character. -/
def loadsText : Text → Text
  | high :: low :: rest =>
    if 55296 ≤ high ∧ high < 56320 ∧ 56320 ≤ low ∧ low < 57344 then
      (65536 + (high - 55296) * 1024 + (low - 56320)) :: loadsText rest
    else high :: loadsText (low :: rest)
  | rest => rest

def loadsContext (context : ManagedArchiveContext) : ManagedArchiveContext :=
  { context with
    archiveId := loadsText context.archiveId, createdAt := loadsText context.createdAt
    ownerDigest := loadsText context.ownerDigest }

def loadsManifest (manifest : Manifest) : Manifest :=
  ⟨loadsContext manifest.context, loadsText manifest.format, manifest.members.map loadsText⟩

def inspectTar (tar : Tar) (expectedContext : ManagedArchiveContext) : ArchiveM (List Text) := do
  inspectMembers 1 [] 0
    ((manifestName, tar.manifestSize) :: tar.files.map fun file => (file.1, file.2.length))
  rejectIf (manifestBytesMax < tar.manifestSize) "managed backup manifest is missing or too large"
  let names := Keyed.sortBy (fun name : Text => name) (tar.files.map (·.1))
  rejectIf ((loadsManifest tar.manifest).format = text "yinshi-managed-backup-v1")
    "managed backup archive predates portable data-key support"
  rejectIf (loadsManifest tar.manifest ≠ ⟨expectedContext, text "yinshi-managed-backup-v2", names⟩)
    "managed backup manifest does not match expected context"
  rejectIf
    (¬ ∃ file ∈ tar.files, file.1 = memberName .sqlite [portableDataKeyName] ∧ file.2.length = 32)
    portableDataKeyError
  rejectIf (∃ file ∈ tar.files, (nameParts file.1).head? ∉ [some Root.sqlite.name, some Root.files.name])
    "managed backup contains an unexpected root"
  pure names

def inspectManagedBackupArchive (archive : Archive) (key : Bytes)
    (expectedContext : ManagedArchiveContext) : ArchiveM (List Text) := do
  requireContext expectedContext
  requireKey key
  rejectIf (key ≠ archive.key) "managed backup archive cannot be decrypted"
  inspectTar archive.tar expectedContext

/-- An entry of the staging directory: a directory, or a file with its content. -/
abbrev Entry : Type := Path × Option Bytes

/-- `mkdir` with its parents, of the directories that are not there yet. -/
def makeParents (staged : List Entry) : List Path → ArchiveM (List Entry)
  | [] => pure staged
  | path :: paths => do
      rejectIf (staged.any fun entry => entry.1 = path ∧ entry.2.isSome) "File exists"
      makeParents (if (path, none) ∈ staged then staged else staged ++ [(path, none)]) paths

def properParents (path : Path) : List Path :=
  (List.range (path.length - 1)).map fun count => path.take (count + 1)

def extractMembers (staged : List Entry) : List (Text × Bytes) → ArchiveM (List Entry)
  | [] => pure staged
  | (name, content) :: rest => do
      let staged ← makeParents staged (properParents (nameParts name))
      rejectIf (staged.any (·.1 = nameParts name)) "File exists"
      extractMembers (staged ++ [(nameParts name, some content)]) rest

def belowRoot (root : Root) : Entry → Option Entry
  | (name :: back, content) => if name = root.name ∧ back ≠ [] then some (back, content) else none
  | ([], _) => none

def below (root : Root) (staged : List Entry) : Tree Entry := staged.filterMap (belowRoot root)

/-- What `restore_managed_backup_archive` accepts and stages. -/
def stageArchive (archive : Archive) (key : Bytes) (expectedContext : ManagedArchiveContext) :
    ArchiveM (Root → Tree Entry) := do
  let _ ← inspectManagedBackupArchive archive key expectedContext
  let staged ← extractMembers (roots.map fun root => ([root.name], none)) archive.tar.files
  rejectIf (¬ staged.any
      fun entry => entry.1 = [Root.sqlite.name, portableDataKeyName] ∧ entry.2.any (·.length = 32))
    portableDataKeyError
  pure fun root => below root staged

/-- `restore_managed_backup_archive` of an archive into the roots of a state directory. -/
def restoreArchive (archive : Archive) (key : Bytes) (expectedContext : ManagedArchiveContext) :
    Restoring Entry Bool :=
  Restoring.restoreManagedBackupArchive (stageArchive archive key expectedContext).toOption

end Yinshi.Guest
