import Mathlib.Data.List.Dedup
import Yinshi.Artifact.Format
import Yinshi.Base.Keyed

/-! The artifact encoder and decoder. A reader is the list of bytes not yet
consumed, so `take` returns what it read together with the rest. -/

namespace Yinshi.Artifact
open ByteText Checked Keyed

variable (H : Hashes) (limits : ArtifactLimits)

def parseOptionalIndex (error : String → ArtifactError) (format : Text) :
    Option Bytes → Except ArtifactError (List ArtifactIndexEntry)
  | none => pure []
  | some indexBytes => parseIndex H limits error indexBytes format

def expectedRoots (headOid : Bytes) (indexEntries : List ArtifactIndexEntry) : List Bytes :=
  let roots := indexEntries.map (·.objectId) ++ if headOid = [] then [] else [headOid]
  sortBy id roots.dedup

/-- The digests were cut from 44-byte headers, so the source's length test on
them always passes. -/
def computeSourceStateSha256 (digests : List Bytes) : Bytes :=
  H.sha256 (sourceDomain ++ [0] ++ digests.flatten)

structure ControlCounts where
  entryCount : Nat
  rootsCount : Nat
  aggregateContentBytes : Nat

def policyBytes : Option Bytes → Bytes
  | none => [0]
  | some digest => 1 :: digest

def buildControlPayload (artifact : WorktreeArtifactInput) (counts : ControlCounts) : Bytes :=
  [UInt8.ofNat ((formatCodes.lookup artifact.objectFormat).getD 0),
    if artifact.indexBytes.isSome then 1 else 0,
    UInt8.ofNat ((headStateCodes.lookup artifact.headState).getD 0), 0] ++
  (u32Bytes artifact.headTarget.length ++ artifact.headTarget) ++
  (if artifact.headState ≠ text "unborn" then artifact.headOid else []) ++
  u32Bytes counts.entryCount ++ u32Bytes counts.rootsCount ++
  u64Bytes counts.aggregateContentBytes ++ policyBytes artifact.policyDigest

def entryFlags (entry : ManifestEntry) : Nat :=
  (if entry.executable then entryFlagExecutable else 0) |||
    (if entry.allowedIgnored then entryFlagAllowedIgnored else 0)

def buildManifestEntry (entry : ManifestEntry) : Bytes :=
  let parent := derivedParent entry.rawPath
  [UInt8.ofNat (kindCode entry.kind), UInt8.ofNat (entryFlags entry)] ++
  (u32Bytes parent.length ++ parent) ++
  (u32Bytes entry.rawPath.length ++ entry.rawPath) ++
  (u32Bytes entry.content.length ++ entry.content)

def buildManifestPayload (entries : List ManifestEntry) : Bytes :=
  entries.flatMap buildManifestEntry

def frameSection (section_ : Nat × Bytes) : Bytes :=
  u32Bytes section_.1 ++ u64Bytes section_.2.length ++ H.sha256 section_.2 ++ section_.2

def frameEnvelope (sections : List (Nat × Bytes)) : Bytes :=
  magic ++ u32Bytes version ++ u32Bytes flagComplete ++ u32Bytes sections.length ++
    sections.flatMap (frameSection H)

def validateHeadShape (artifact : WorktreeArtifactInput) (oidSize : Nat) :
    Except ArtifactError Unit :=
  if artifact.headState = text "unborn" then do
    rejectIf (artifact.headOid ≠ []) (.encodeError "unborn HEAD must not carry an object ID")
    validateSymbolicHeadTarget limits .encodeError artifact.headTarget
  else if artifact.headState = text "detached" then
    rejectIf (artifact.headTarget ≠ [] ∨ artifact.headOid.length ≠ oidSize)
      (.encodeError "detached HEAD state is invalid")
  else do
    rejectIf (artifact.headOid.length ≠ oidSize) (.encodeError "symbolic HEAD state is invalid")
    validateSymbolicHeadTarget limits .encodeError artifact.headTarget

def validateHead (artifact : WorktreeArtifactInput) (oidSize : Nat) :
    Except ArtifactError Unit := do
  rejectIf (0xFFFFFFFF < artifact.headTarget.length) (.encodeError "HEAD target is too large")
  validateHeadShape limits artifact oidSize
  rejectIf (artifact.headOid ≠ [] ∧ anyNonzero artifact.headOid = false)
    (.encodeError "HEAD object ID cannot be zero")

def validateEntryOrder : List (Bytes × WorktreeEntryKind) → List ManifestEntry →
    Except ArtifactError Unit
  | _, [] => pure ()
  | present, entry :: entries => do
      rejectIf (entry.rawPath ∈ present.map Prod.fst) (.encodeError "manifest path is duplicated")
      validateTopology .encodeError entry.rawPath present
      validateEntryOrder ((entry.rawPath, entry.kind) :: present) entries

def contentWeight (entry : ManifestEntry) : Nat :=
  if entry.kind = .directory then 0 else entry.content.length

def manifestEntryLength (entry : ManifestEntry) : Nat :=
  14 + (derivedParent entry.rawPath).length + entry.rawPath.length + entry.content.length

def controlLength (artifact : WorktreeArtifactInput) (oidSize : Nat) : Nat :=
  4 + 4 + artifact.headTarget.length +
    (if artifact.headState = text "unborn" then 0 else oidSize) + 4 + 4 + 8 + 1 +
    (if artifact.policyDigest.isNone then 0 else 32)

def sortEntries (entries : List ManifestEntry) : List ManifestEntry :=
  sortBy (·.rawPath) entries

def encodeWorktreeArtifact (artifact : WorktreeArtifactInput) : Except ArtifactError Bytes := do
  rejectIf (formatCodes.lookup artifact.objectFormat = none)
    (.encodeError "object format is unsupported")
  rejectIf (headStateCodes.lookup artifact.headState = none)
    (.encodeError "HEAD state is unsupported")
  let oidSize := oidSizeOf artifact.objectFormat
  validateHead limits artifact oidSize
  rejectIf (artifact.policyDigest.any (·.length != 32) = true)
    (.encodeError "policy digest must be 32 raw bytes")
  let indexPayload := artifact.indexBytes.getD []
  rejectIf (limits.maxExactIndexBytes < indexPayload.length)
    (.encodeError "exact index exceeds maximum bytes")
  let indexEntries ←
    parseOptionalIndex H limits .encodeError artifact.objectFormat artifact.indexBytes
  rejectIf (limits.maxManifestEntries < artifact.entries.length)
    (.encodeError "manifest entry count exceeds maximum")
  rejectIf (limits.maxRoots < artifact.rootOids.length)
    (.encodeError "root count exceeds maximum")
  each (validateEntryShape limits .encodeError) artifact.entries
  let entries := sortEntries artifact.entries
  validateEntryOrder [] entries
  let aggregate := (entries.map contentWeight).sum
  rejectIf (limits.maxAggregateContentBytes < aggregate)
    (.encodeError "aggregate content exceeds maximum bytes")
  rejectIf (entries.any (·.allowedIgnored) = true ∧ artifact.policyDigest = none)
    (.encodeError "ignored entries require a policy digest")
  each (fun root => rejectIf (root.length ≠ oidSize ∨ anyNonzero root = false)
    (.encodeError "root object ID is invalid")) artifact.rootOids
  let roots := expectedRoots artifact.headOid indexEntries
  rejectIf (¬ artifact.rootOids.Nodup) (.encodeError "root object ID is duplicated")
  rejectIf ((∃ root ∈ artifact.rootOids, root ∉ roots) ∨ ∃ root ∈ roots, root ∉ artifact.rootOids)
    (.encodeError "roots do not exactly match HEAD and index object IDs")
  let controlLength := controlLength artifact oidSize
  let manifestLength := (entries.map manifestEntryLength).sum
  let rootsLength := roots.length * oidSize
  rejectIf (limits.maxControlBytes < controlLength ∨ limits.maxIndexBytes < indexPayload.length ∨
      limits.maxManifestBytes < manifestLength ∨ limits.maxRootsBytes < rootsLength)
    (.encodeError "artifact section exceeds maximum bytes")
  let framedLength := envelopeHeaderLen + 4 * sectionHeaderLen +
    (controlLength + indexPayload.length + manifestLength + rootsLength)
  rejectIf (limits.maxTotalBytes < framedLength)
    (.encodeError "artifact exceeds maximum total bytes")
  let control := buildControlPayload artifact ⟨entries.length, roots.length, aggregate⟩
  let encoded := frameEnvelope H
    [(1, control), (2, indexPayload), (3, buildManifestPayload entries), (4, roots.flatten)]
  rejectIf (encoded.length ≠ framedLength)
    (.assertionError "artifact framing length changed after preflight")
  pure encoded

def take (size : Nat) (label : String) (reader : Bytes) : Except ArtifactError (Bytes × Bytes) := do
  rejectIf (reader.length < size) (.decodeError ("truncated " ++ label))
  pure (reader.take size, reader.drop size)

def readNat (width : Nat) (label : String) (reader : Bytes) :
    Except ArtifactError (Nat × Bytes) := do
  let (digits, rest) ← take width label reader
  pure (beNat digits, rest)

/-- The section loop; `position` counts from 1 and `rest` starts at the
section header. -/
def parseSectionsFrom : Nat → List Nat → Bytes → Except ArtifactError (List (Bytes × Bytes))
  | _, [], rest => do
      rejectIf (rest ≠ []) (.decodeError "artifact has trailing bytes")
      pure []
  | position, bound :: bounds, rest => do
      rejectIf (rest.length < sectionHeaderLen) (.decodeError "truncated section header")
      let sectionId := beNat (slice rest 0 4)
      rejectIf (sectionId ∉ [1, 2, 3, 4]) (.decodeError "section ID is unknown")
      rejectIf (sectionId ≠ position) (.decodeError "sections are out of order")
      let declared := beNat (slice rest 4 12)
      rejectIf (bound < declared) (.decodeError "section exceeds maximum bytes")
      let body := rest.drop sectionHeaderLen
      rejectIf (body.length < declared) (.decodeError "truncated section payload")
      let storedDigest := slice rest 12 44
      let payload := body.take declared
      rejectIf (H.sha256 payload ≠ storedDigest) (.decodeError "section digest mismatch")
      let later ← parseSectionsFrom (position + 1) bounds (body.drop declared)
      pure ((storedDigest, payload) :: later)

def sectionBounds : List Nat :=
  [limits.maxControlBytes, limits.maxIndexBytes, limits.maxManifestBytes, limits.maxRootsBytes]

structure Control where
  objectFormat : Text
  hasIndex : Bool
  headState : Text
  headTarget : Bytes
  headOid : Bytes
  policyDigest : Option Bytes
  entryCount : Nat
  rootCount : Nat
  aggregate : Nat

def readPolicyDigest (policyCode : Nat) (reader : Bytes) :
    Except ArtifactError (Option Bytes × Bytes) :=
  if policyCode ≠ 0 then do
    let (digest, rest) ← take 32 "policy digest" reader
    pure (some digest, rest)
  else pure (none, reader)

def readHeadOid (headState : Text) (oidSize : Nat) (reader : Bytes) :
    Except ArtifactError (Bytes × Bytes) :=
  if headState = text "unborn" then pure ([], reader)
  else take oidSize "HEAD object ID" reader

/-- The state checks `_parse_control` makes once every field is read. -/
def checkControl (control : Control) : Except ArtifactError Unit := do
  checkWhen (control.headState = text "unborn") do
    rejectIf (control.headOid ≠ [] ∨ control.headTarget = [])
      (.decodeError "unborn HEAD state is invalid")
    validateSymbolicHeadTarget limits .decodeError control.headTarget
  rejectIf (control.headState = text "detached" ∧ control.headTarget ≠ [])
    (.decodeError "detached HEAD state is invalid")
  checkWhen (control.headState = text "symbolic")
    (validateSymbolicHeadTarget limits .decodeError control.headTarget)
  rejectIf (control.headOid ≠ [] ∧ anyNonzero control.headOid = false)
    (.decodeError "HEAD object ID cannot be zero")
  rejectIf (limits.maxManifestEntries < control.entryCount)
    (.decodeError "manifest entry count exceeds maximum")
  rejectIf (limits.maxRoots < control.rootCount) (.decodeError "root count exceeds maximum")
  rejectIf (limits.maxAggregateContentBytes < control.aggregate)
    (.decodeError "aggregate content exceeds maximum bytes")

def parseControl (payload : Bytes) : Except ArtifactError Control := do
  let (formatCode, reader) ← readNat 1 "object format" payload
  let objectFormat ← orRaise (.decodeError "object format is unsupported")
    (formatNames.lookup formatCode)
  let (hasIndexCode, reader) ← readNat 1 "index presence" reader
  rejectIf (hasIndexCode ∉ [0, 1]) (.decodeError "index-presence flag is invalid")
  let (stateCode, reader) ← readNat 1 "HEAD state" reader
  let headState ← orRaise (.decodeError "HEAD state is unsupported")
    (headStateNames.lookup stateCode)
  let (reserved, reader) ← readNat 1 "reserved control byte" reader
  rejectIf (reserved ≠ 0) (.decodeError "reserved control byte is nonzero")
  let (targetLength, reader) ← readNat 4 "HEAD target length" reader
  rejectIf (limits.maxPathBytes < targetLength) (.decodeError "HEAD target exceeds maximum bytes")
  let (headTarget, reader) ← take targetLength "HEAD target" reader
  let (headOid, reader) ← readHeadOid headState (oidSizeOf objectFormat) reader
  let (entryCount, reader) ← readNat 4 "manifest entry count" reader
  let (rootCount, reader) ← readNat 4 "root count" reader
  let (aggregate, reader) ← readNat 8 "aggregate content bytes" reader
  let (policyCode, reader) ← readNat 1 "policy presence" reader
  rejectIf (policyCode ∉ [0, 1]) (.decodeError "policy-presence flag is invalid")
  let (policyDigest, reader) ← readPolicyDigest policyCode reader
  rejectIf (reader ≠ []) (.decodeError "control section has trailing bytes")
  let control : Control := ⟨objectFormat, decide (hasIndexCode ≠ 0), headState, headTarget,
    headOid, policyDigest, entryCount, rootCount, aggregate⟩
  checkControl limits control
  pure control

structure ManifestScan where
  count : Nat := 0
  present : List (Bytes × WorktreeEntryKind) := []
  previous : Option Bytes := none
  aggregate : Nat := 0

def ManifestScan.push (scan : ManifestScan) (entry : ManifestEntry) : ManifestScan where
  count := scan.count + 1
  present := (entry.rawPath, entry.kind) :: scan.present
  previous := some entry.rawPath
  aggregate := scan.aggregate + contentWeight entry

def readManifestEntry (scan : ManifestScan) (reader : Bytes) :
    Except ArtifactError (ManifestEntry × Bytes) := do
  rejectIf (limits.maxManifestEntries ≤ scan.count)
    (.decodeError "manifest entry count exceeds maximum")
  rejectIf (reader.length < manifestEntryMinBytes) (.decodeError "manifest has trailing bytes")
  let (code, reader) ← readNat 1 "entry kind" reader
  let kind ← orRaise (.decodeError "entry kind is unsupported") (kindByCode code)
  let (flags, reader) ← readNat 1 "entry flags" reader
  rejectIf (flags &&& (0xFF - entryFlagsKnown) ≠ 0) (.decodeError "entry flags are unknown")
  let (parentLength, reader) ← readNat 4 "entry parent length" reader
  rejectIf (limits.maxPathBytes < parentLength) (.decodeError "entry parent exceeds maximum bytes")
  let (parent, reader) ← take parentLength "entry parent" reader
  let (pathLength, reader) ← readNat 4 "entry path length" reader
  rejectIf (limits.maxPathBytes < pathLength) (.decodeError "entry path exceeds maximum bytes")
  let (path, reader) ← take pathLength "entry path" reader
  let (contentLength, reader) ← readNat 4 "entry content length" reader
  rejectIf (limits.maxContentBytes < contentLength)
    (.decodeError "entry content exceeds maximum bytes")
  rejectIf (kind ≠ .directory ∧ limits.maxAggregateContentBytes < scan.aggregate + contentLength)
    (.decodeError "aggregate content exceeds maximum bytes")
  let (content, reader) ← take contentLength "entry content" reader
  validateRawPath limits .decodeError path
  rejectIf (parent ≠ derivedParent path) (.decodeError "entry parent does not match path")
  rejectIf (scan.previous.any (fun previous => decide (path ≤ previous)) = true)
    (.decodeError "manifest paths are not strictly increasing")
  let entry : ManifestEntry :=
    { rawPath := path, kind := kind, content := content
      executable := flags &&& entryFlagExecutable != 0
      allowedIgnored := flags &&& entryFlagAllowedIgnored != 0 }
  validateEntryShape limits .decodeError entry
  validateTopology .decodeError path scan.present
  rejectIf (kind ≠ .directory ∧ limits.maxAggregateContentBytes < scan.aggregate + contentLength)
    (.decodeError "aggregate content exceeds maximum bytes")
  pure (entry, reader)

/-- The manifest loop. An entry consumes at least 14 bytes, so `fuel` equal to
the payload length is never exhausted before the input is. -/
def parseManifestFrom : (fuel : Nat) → ManifestScan → Bytes →
    Except ArtifactError (List ManifestEntry × Nat)
  | _, scan, [] => pure ([], scan.aggregate)
  | 0, _, _ :: _ => .error (.decodeError "manifest has trailing bytes")
  | fuel + 1, scan, byte :: reader => do
      let (entry, rest) ← readManifestEntry limits scan (byte :: reader)
      let (entries, aggregate) ← parseManifestFrom fuel (scan.push entry) rest
      pure (entry :: entries, aggregate)

def parseManifest (payload : Bytes) : Except ArtifactError (List ManifestEntry × Nat) :=
  parseManifestFrom limits payload.length {} payload

def splitRoots (oidSize : Nat) : (count : Nat) → Bytes → List Bytes
  | 0, _ => []
  | count + 1, payload => payload.take oidSize :: splitRoots oidSize count (payload.drop oidSize)

def decodeSections (digests : List Bytes) (totalBytes : Nat)
    (controlPayload indexPayload manifestPayload rootsPayload : Bytes) :
    Except ArtifactError VerifiedWorktreeArtifact := do
  let control ← parseControl limits controlPayload
  rejectIf (control.hasIndex = false ∧ indexPayload ≠ [])
    (.decodeError "index presence conflicts with index section")
  rejectIf (control.hasIndex = true ∧ limits.maxExactIndexBytes < indexPayload.length)
    (.decodeError "exact index exceeds maximum bytes")
  let indexBytes := if control.hasIndex then some indexPayload else none
  let indexEntries ← parseOptionalIndex H limits .decodeError control.objectFormat indexBytes
  let (entries, foundAggregate) ← parseManifest limits manifestPayload
  rejectIf (entries.any (·.allowedIgnored) = true ∧ control.policyDigest = none)
    (.decodeError "ignored entries lack a policy digest")
  rejectIf (entries.length ≠ control.entryCount)
    (.decodeError "manifest entry count does not match control")
  rejectIf (foundAggregate ≠ control.aggregate)
    (.decodeError "aggregate content does not match control")
  let oidSize := oidSizeOf control.objectFormat
  rejectIf (rootsPayload.length ≠ control.rootCount * oidSize)
    (.decodeError "roots length does not match control")
  let roots := splitRoots oidSize control.rootCount rootsPayload
  rejectIf (sortBy id roots.dedup ≠ roots ∨ ∃ root ∈ roots, anyNonzero root = false)
    (.decodeError "root object IDs are not valid, unique, and sorted")
  rejectIf (roots ≠ expectedRoots control.headOid indexEntries)
    (.decodeError "roots do not exactly match sorted unique HEAD and index object IDs")
  pure { objectFormat := control.objectFormat, hasIndex := control.hasIndex
         indexBytes := indexBytes, indexEntries := indexEntries
         headState := control.headState, headTarget := control.headTarget
         headOid := control.headOid, policyDigest := control.policyDigest
         entries := entries, rootOids := roots
         sourceStateSha256 := computeSourceStateSha256 H digests
         totalBytes := totalBytes }

def decodeWorktreeArtifact (data : Bytes) : Except ArtifactError VerifiedWorktreeArtifact := do
  rejectIf (limits.maxTotalBytes < data.length)
    (.decodeError "artifact exceeds maximum total bytes")
  rejectIf (data.length < envelopeHeaderLen) (.decodeError "artifact header is truncated")
  rejectIf (data.take magic.length ≠ magic) (.decodeError "artifact magic is invalid")
  rejectIf (beNat (slice data 8 12) ≠ version) (.decodeError "artifact version is unsupported")
  rejectIf (beNat (slice data 12 16) ≠ flagComplete)
    (.decodeError "artifact completion flags are invalid")
  rejectIf (beNat (slice data 16 20) ≠ 4) (.decodeError "artifact section count is invalid")
  let sections ← parseSectionsFrom H 1 (sectionBounds limits) (data.drop envelopeHeaderLen)
  match sections with
  | [(d₁, control), (d₂, index), (d₃, manifest), (d₄, roots)] =>
    decodeSections H limits [d₁, d₂, d₃, d₄] data.length control index manifest roots
  | _ => .error (.decodeError "artifact section count is invalid")

end Yinshi.Artifact
