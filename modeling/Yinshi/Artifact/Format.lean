import Yinshi.Base.ByteText
import Yinshi.Base.Checked

/-! The bounded worktree artifact format: limits, snapshots, verified results and
the validators shared by the encoder and the decoder
(`workspace_replica_artifact.py`). The two hash functions are parameters with
their digest sizes; nothing below depends on their values. -/

namespace Yinshi.Artifact
open ByteText Checked

/-- `hashlib.sha1` and `hashlib.sha256` as fixed functions. -/
structure Hashes where
  sha1 : Bytes → Bytes
  sha256 : Bytes → Bytes
  length_sha1 : ∀ message, (sha1 message).length = 20
  length_sha256 : ∀ message, (sha256 message).length = 32

inductive ArtifactError
  | encodeError (message : String)
  | decodeError (message : String)
  | assertionError (message : String)
  deriving DecidableEq

def magic : Bytes := bytes "YNSHRA1\n"
def sourceDomain : Bytes := bytes "yinshi-replica-source-v1"
def version : Nat := 1
def flagComplete : Nat := 1
def envelopeHeaderLen : Nat := magic.length + 12
def sectionHeaderLen : Nat := 44
def manifestEntryMinBytes : Nat := 14
def entryFlagExecutable : Nat := 1
def entryFlagAllowedIgnored : Nat := 2
def entryFlagsKnown : Nat := 3

def formatCodes : List (Text × Nat) := [(text "sha1", 1), (text "sha256", 2)]
def formatNames : List (Nat × Text) := [(1, text "sha1"), (2, text "sha256")]
def formatOidSizes : List (Text × Nat) := [(text "sha1", 20), (text "sha256", 32)]
def headStateCodes : List (Text × Nat) :=
  [(text "unborn", 0), (text "detached", 1), (text "symbolic", 2)]
def headStateNames : List (Nat × Text) :=
  [(0, text "unborn"), (1, text "detached"), (2, text "symbolic")]

inductive WorktreeEntryKind
  | directory
  | file
  | symlink
  deriving DecidableEq

def kindCode : WorktreeEntryKind → Nat
  | .directory => 0
  | .file => 1
  | .symlink => 2

def kindByCode : Nat → Option WorktreeEntryKind
  | 0 => some .directory
  | 1 => some .file
  | 2 => some .symlink
  | _ => none

/-- `ArtifactLimits` with the bounds its `__post_init__` enforces. -/
structure ArtifactLimits where
  maxTotalBytes : Nat
  maxControlBytes : Nat
  maxIndexBytes : Nat
  maxManifestBytes : Nat
  maxRootsBytes : Nat
  maxExactIndexBytes : Nat
  maxManifestEntries : Nat
  maxPathBytes : Nat
  maxDepth : Nat
  maxContentBytes : Nat
  maxAggregateContentBytes : Nat
  maxRoots : Nat
  total_fits : maxTotalBytes ≤ 0xFFFFFFFFFFFFFFFF := by decide
  control_fits : maxControlBytes ≤ 0xFFFFFFFFFFFFFFFF := by decide
  index_fits : maxIndexBytes ≤ 0xFFFFFFFFFFFFFFFF := by decide
  manifest_fits : maxManifestBytes ≤ 0xFFFFFFFFFFFFFFFF := by decide
  roots_fit : maxRootsBytes ≤ 0xFFFFFFFFFFFFFFFF := by decide
  exactIndex_fits : maxExactIndexBytes ≤ 0xFFFFFFFFFFFFFFFF := by decide
  entries_fit : maxManifestEntries ≤ 0xFFFFFFFF := by decide
  path_fits : 1 ≤ maxPathBytes ∧ maxPathBytes ≤ 0xFFFFFFFF := by decide
  depth_fits : 1 ≤ maxDepth ∧ maxDepth ≤ 0xFFFFFFFF := by decide
  content_fits : maxContentBytes ≤ 0xFFFFFFFF := by decide
  aggregate_fits : maxAggregateContentBytes ≤ 0xFFFFFFFFFFFFFFFF := by decide
  rootCount_fits : maxRoots ≤ 0xFFFFFFFF := by decide
  exactIndex_le_index : maxExactIndexBytes ≤ maxIndexBytes := by decide
  content_le_aggregate : maxContentBytes ≤ maxAggregateContentBytes := by decide
  aggregate_le_manifest : maxAggregateContentBytes ≤ maxManifestBytes := by decide

def defaultArtifactLimits : ArtifactLimits where
  maxTotalBytes := 256 * 1024 * 1024
  maxControlBytes := 1024 * 1024
  maxIndexBytes := 64 * 1024 * 1024
  maxManifestBytes := 256 * 1024 * 1024
  maxRootsBytes := 16 * 1024 * 1024
  maxExactIndexBytes := 64 * 1024 * 1024
  maxManifestEntries := 1000000
  maxPathBytes := 4096
  maxDepth := 128
  maxContentBytes := 64 * 1024 * 1024
  maxAggregateContentBytes := 256 * 1024 * 1024
  maxRoots := 1000000

structure ManifestEntry where
  rawPath : Bytes
  kind : WorktreeEntryKind
  content : Bytes := []
  executable : Bool := false
  allowedIgnored : Bool := false
  nlink : Int := 1
  privilegeBits : Bool := false
  deriving DecidableEq

structure ArtifactIndexEntry where
  rawPath : Bytes
  mode : Nat
  objectId : Bytes
  stage : Nat
  intentToAdd : Bool
  skipWorktree : Bool
  assumeUnchanged : Bool

structure WorktreeArtifactInput where
  objectFormat : Text
  headState : Text
  headTarget : Bytes := []
  headOid : Bytes := []
  indexBytes : Option Bytes := none
  entries : List ManifestEntry := []
  rootOids : List Bytes := []
  policyDigest : Option Bytes := none

structure VerifiedWorktreeArtifact where
  objectFormat : Text
  hasIndex : Bool
  indexBytes : Option Bytes
  indexEntries : List ArtifactIndexEntry
  headState : Text
  headTarget : Bytes
  headOid : Bytes
  policyDigest : Option Bytes
  entries : List ManifestEntry
  rootOids : List Bytes
  sourceStateSha256 : Bytes
  totalBytes : Nat

/-- `_FORMAT_OID_SIZES[object_format]`; callers have checked the format. -/
def oidSizeOf (objectFormat : Text) : Nat := (formatOidSizes.lookup objectFormat).getD 0

def u32Bytes (value : Nat) : Bytes := beBytes 4 value
def u64Bytes (value : Nat) : Bytes := beBytes 8 value

def derivedParent (path : Bytes) : Bytes := (parentPath path).getD []

/-! ### Shared validators

Each takes the error constructor of its caller, as the source does. -/

section Validators
variable (limits : ArtifactLimits) (error : String → ArtifactError)

def validateRawPath (path : Bytes) : Except ArtifactError Unit := do
  rejectIf (limits.maxPathBytes < path.length) (error "entry path exceeds maximum path bytes")
  rejectIf (path = [] ∨ path.head? = some slash ∨ 0 ∈ path) (error "worktree path is unsafe")
  rejectIf (limits.maxDepth < (components path).length)
    (error "entry path exceeds maximum depth")
  rejectIf (∃ part ∈ components path, part ∈ [[], bytes ".", bytes "..", bytes ".git"])
    (error "worktree path has an unsafe component")

def validateSymbolicHeadTarget (target : Bytes) : Except ArtifactError Unit := do
  rejectIf (limits.maxPathBytes < target.length ∨ ¬ bytes "refs/heads/" <+: target)
    (error "symbolic HEAD target is not a bounded branch reference")
  let suffix := target.drop (bytes "refs/heads/").length
  let forbidden := bytes " ~^:?*[\\" ++ [0x7f]
  rejectIf (suffix = [] ∨ bytes ".." <:+: suffix ∨ bytes "@\x7b" <:+: suffix ∨
      bytes "." <:+ suffix ∨ (∃ part ∈ components suffix, part = []) ∨
      (∃ part ∈ components suffix, bytes "." <+: part) ∨
      (∃ part ∈ components suffix, bytes ".lock" <:+ part) ∨
      (∃ byte ∈ suffix, byte < 0x20 ∨ byte ∈ forbidden))
    (error "symbolic HEAD target is not canonical")

def validateEntryShape (entry : ManifestEntry) : Except ArtifactError Unit := do
  rejectIf (entry.nlink ≠ 1) (error "hardlinks are not representable")
  rejectIf (entry.privilegeBits = true) (error "privilege bits are not representable")
  rejectIf (entry.kind = .directory ∧ (entry.content ≠ [] ∨ entry.executable = true))
    (error "directory entry state is invalid")
  rejectIf (entry.kind = .symlink ∧
      (entry.executable = true ∨ entry.content = [] ∨ 0 ∈ entry.content))
    (error "symlink entry state is invalid")
  rejectIf (limits.maxContentBytes < entry.content.length)
    (error "entry content exceeds maximum content bytes")
  validateRawPath limits error entry.rawPath

/-- `present` maps the paths accepted so far to their kinds, newest first. -/
def validateTopology (path : Bytes) (present : List (Bytes × WorktreeEntryKind)) :
    Except ArtifactError Unit :=
  each (fun ancestor => rejectIf (present.lookup ancestor ≠ some .directory)
    (error "manifest entry lacks an explicit directory parent")) (properAncestors path)

end Validators

/-- Python's `any(data)` on bytes: some byte is nonzero. -/
def anyNonzero (data : Bytes) : Bool := data.any (· != 0)

def slice (data : Bytes) (start stop : Nat) : Bytes := (data.drop start).take (stop - start)

def indexVersions : List Nat := [2, 3]
def indexAllowedExtensions : List Bytes :=
  [bytes "TREE", bytes "REUC", bytes "UNTR", bytes "FSMN", bytes "EOIE", bytes "IEOT"]
def indexModeRegular : List Nat := [0o100644, 0o100755, 0o120000]
def indexFlagAssumeValid : Nat := 0x8000
def indexFlagExtended : Nat := 0x4000
def indexFlagStageMask : Nat := 0x3000
def indexFlagNameMask : Nat := 0x0FFF
def indexExtendedFlagSkipWorktree : Nat := 0x4000
def indexExtendedFlagIntentToAdd : Nat := 0x2000
def indexExtendedFlagsKnown : Nat := 0x6000

def hashNew (H : Hashes) (objectFormat : Text) (message : Bytes) : Bytes :=
  if objectFormat = text "sha1" then H.sha1 message else H.sha256 message

structure IndexWindow where
  data : Bytes
  version : Nat
  oidSize : Nat
  checksumStart : Nat

def readExtendedFlags (error : String → ArtifactError) (window : IndexWindow)
    (flags position : Nat) : Except ArtifactError (Nat × Nat) :=
  if flags &&& indexFlagExtended ≠ 0 then do
    rejectIf (window.version ≠ 3) (error "Git index version 2 entry has extended flags")
    rejectIf (window.checksumStart - position < 2)
      (error "Git index extended flags are truncated")
    let extended := beNat (slice window.data position (position + 2))
    rejectIf (extended &&& (0xFFFF - indexExtendedFlagsKnown) ≠ 0)
      (error "Git index extended flags are unknown")
    pure (extended, position + 2)
  else pure (0, position)

def checkIndexKey (error : String → ArtifactError) (key : Bytes × Nat) :
    Option (Bytes × Nat) → Except ArtifactError Unit
  | none => pure ()
  | some previous => do
      rejectIf (key = previous) (error "Git index entry key is duplicated")
      rejectIf (toLex key < toLex previous)
        (error "Git index entries are not canonically ordered")
      rejectIf (key.1 = previous.1 ∧ (key.2 = 0 ∨ previous.2 = 0))
        (error "Git index stage zero cannot coexist with conflict stages")

def parseIndexEntry (limits : ArtifactLimits) (error : String → ArtifactError)
    (window : IndexWindow) (entryStart : Nat) (previousKey : Option (Bytes × Nat)) :
    Except ArtifactError (ArtifactIndexEntry × Nat) := do
  let fixedSize := 40 + window.oidSize + 2
  rejectIf (window.checksumStart - entryStart < fixedSize)
    (error "Git index entry fixed fields are truncated")
  let mode := beNat (slice window.data (entryStart + 24) (entryStart + 28))
  let objectIdStart := entryStart + 40
  let objectId := slice window.data objectIdStart (objectIdStart + window.oidSize)
  let flagsStart := objectIdStart + window.oidSize
  let flags := beNat (slice window.data flagsStart (flagsStart + 2))
  let (extended, position) ← readExtendedFlags error window flags (flagsStart + 2)
  let length ← orRaise (error "Git index entry path is not NUL terminated")
    ((slice window.data position window.checksumStart).findIdx? (· = 0))
  let pathEnd := position + length
  rejectIf (limits.maxPathBytes < length) (error "Git index entry path exceeds maximum path bytes")
  let path := slice window.data position pathEnd
  rejectIf (flags &&& indexFlagNameMask ≠ min path.length indexFlagNameMask)
    (error "Git index entry path length flag is not canonical")
  validateRawPath limits error path
  let unpaddedSize := pathEnd + 1 - entryStart
  let paddingSize := (8 - unpaddedSize % 8) % 8
  let nextPosition := pathEnd + 1 + paddingSize
  rejectIf (window.checksumStart < nextPosition) (error "Git index entry padding is truncated")
  rejectIf (anyNonzero (slice window.data (pathEnd + 1) nextPosition) = true)
    (error "Git index entry padding is nonzero")
  rejectIf (mode ∉ indexModeRegular) (error "Git index entry mode is unsupported")
  rejectIf (anyNonzero objectId = false) (error "Git index entry object ID cannot be zero")
  let stage := (flags &&& indexFlagStageMask) >>> 12
  checkIndexKey error (path, stage) previousKey
  pure ({ rawPath := path, mode := mode, objectId := objectId, stage := stage
          intentToAdd := extended &&& indexExtendedFlagIntentToAdd != 0
          skipWorktree := extended &&& indexExtendedFlagSkipWorktree != 0
          assumeUnchanged := flags &&& indexFlagAssumeValid != 0 }, nextPosition)

def parseIndexEntries (limits : ArtifactLimits) (error : String → ArtifactError)
    (window : IndexWindow) : (count position : Nat) → Option (Bytes × Nat) →
    Except ArtifactError (List ArtifactIndexEntry × Nat)
  | 0, position, _ => pure ([], position)
  | count + 1, position, previousKey => do
      let (entry, next) ← parseIndexEntry limits error window position previousKey
      let (entries, final) ←
        parseIndexEntries limits error window count next (some (entry.rawPath, entry.stage))
      pure (entry :: entries, final)

def parseIndexExtensions (error : String → ArtifactError) (window : IndexWindow)
    (position : Nat) (seenEoie : Bool) : Except ArtifactError Unit :=
  if position < window.checksumStart then do
    rejectIf (seenEoie = true) (error "Git index EOIE extension must be final")
    rejectIf (window.checksumStart - position < 8)
      (error "Git index extension framing is truncated")
    let signature := slice window.data position (position + 4)
    let extensionSize := beNat (slice window.data (position + 4) (position + 8))
    rejectIf (window.checksumStart - (position + 8) < extensionSize)
      (error "Git index extension payload is truncated")
    rejectIf (signature ∉ indexAllowedExtensions) (error "Git index extension is unsupported")
    parseIndexExtensions error window (position + 8 + extensionSize)
      (decide (signature = bytes "EOIE"))
  else pure ()
  termination_by window.checksumStart - position

def parseIndex (H : Hashes) (limits : ArtifactLimits) (error : String → ArtifactError)
    (indexBytes : Bytes) (objectFormat : Text) :
    Except ArtifactError (List ArtifactIndexEntry) := do
  let oidSize := oidSizeOf objectFormat
  rejectIf (indexBytes.length < 12 + oidSize) (error "Git index is truncated")
  let checksumStart := indexBytes.length - oidSize
  rejectIf (slice indexBytes 0 4 ≠ bytes "DIRC") (error "Git index signature is invalid")
  let indexVersion := beNat (slice indexBytes 4 8)
  rejectIf (indexVersion ∉ indexVersions) (error "Git index version is unsupported")
  rejectIf (hashNew H objectFormat (indexBytes.take checksumStart) ≠
      indexBytes.drop checksumStart)
    (error "Git index checksum is invalid for object format")
  let count := beNat (slice indexBytes 8 12)
  let fixedSize := 40 + oidSize + 2
  let minimumEntrySize := (fixedSize + 2 + 7) / 8 * 8
  rejectIf ((checksumStart - 12) / minimumEntrySize < count)
    (error "Git index entry count exceeds payload bounds")
  rejectIf (limits.maxExactIndexBytes / minimumEntrySize < count)
    (error "Git index entry count exceeds configured bounds")
  let window : IndexWindow := ⟨indexBytes, indexVersion, oidSize, checksumStart⟩
  let (entries, position) ← parseIndexEntries limits error window count 12 none
  parseIndexExtensions error window position false
  pure entries

end Yinshi.Artifact
