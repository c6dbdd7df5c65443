import Yinshi.Base.Utf8

/-! Git's listings of changed files. `diff --name-status -z` names the source of a rename
before its destination, and `status --porcelain=v1 -z` names it after. -/

namespace Yinshi.Workspace
open ByteText Utf8 List

inductive ChangeKind
  | added
  | copied
  | deleted
  | modified
  | renamed
  | untracked
  | unknown
  deriving DecidableEq

structure ChangedFile where
  path : Text
  status : Text
  kind : ChangeKind
  originalPath : Option Text
  deriving DecidableEq

def excludedDirectoryNames : List Text :=
  [text ".cache", text ".git", text ".hg", text ".mypy_cache", text ".next", text ".parcel-cache",
    text ".pytest_cache", text ".ruff_cache", text ".svn", text ".tox", text ".venv",
      text "__pycache__", text "build",
    text "coverage", text "dist", text "htmlcov", text "node_modules", text "out", text "target", text "venv"]

def secretFileNames : List Text := [text ".env"]

def secretFilePrefixes : List Text := [text ".env."]

def pathParts (path : Text) : List Text :=
  let parts := (path.splitOn 47).filter fun part => part ≠ [] ∧ part ≠ text "."
  if text "//" <+: path ∧ ¬text "///" <+: path then text "//" :: parts
  else if text "/" <+: path then text "/" :: parts
  else parts

def isSecretPath (relativePath : Text) : Bool :=
  (pathParts relativePath).any
    fun part => part ∈ secretFileNames ∨ ∃ start ∈ secretFilePrefixes, start <+: part

def hasExcludedSegment (relativePath : Text) : Bool :=
  (pathParts relativePath).any fun part => part ∈ excludedDirectoryNames

def isVisibleRelativePath (relativePath : Text) : Bool :=
  relativePath = [] ∨ relativePath = text "." ∨
    (isSecretPath relativePath = false ∧ hasExcludedSegment relativePath = false)

def letter (sign : Char) : Nat := sign.toNat

def changedFileKind (status : Text) : ChangeKind :=
  if status.head? = some (letter 'A') then .added
  else if status.head? = some (letter 'D') then .deleted
  else if status.head? = some (letter 'R') then .renamed
  else if status.head? = some (letter 'C') then .copied
  else
    if status.head? ∈ [some (letter 'M'), some (letter 'T'), some (letter 'U'), some (letter 'X')]
    then .modified
  else .unknown

def changeKind (status : Text) : ChangeKind :=
  if letter '?' ∈ status then .untracked
  else if letter 'R' ∈ status then .renamed
  else if letter 'C' ∈ status then .copied
  else if letter 'D' ∈ status then .deleted
  else if letter 'A' ∈ status then .added
  else if letter 'M' ∈ status ∨ letter 'T' ∈ status then .modified
  else .unknown

/-- Whether a status of `diff --name-status` comes with a source. -/
def startsRename (status : Text) : Bool := status.head? = some (letter 'R') ∨ status.head? = some (letter 'C')

/-- Whether a status of `status --porcelain` comes with a source. -/
def holdsRename (status : Text) : Bool := letter 'R' ∈ status ∨ letter 'C' ∈ status

def parseChangedRecords : List Bytes → List ChangedFile
  | [] => []
  | record :: rest =>
    if record = [] then parseChangedRecords rest else
    let status := decode record
    match startsRename status, rest with
    | _, [] => []
    | true, [_] => []
    | true, source :: path :: rest =>
      if isSecretPath (decode path) then parseChangedRecords rest
      else ⟨decode path, status, changedFileKind status, some (decode source)⟩ :: parseChangedRecords rest
    | false, path :: rest =>
      if isSecretPath (decode path) then parseChangedRecords rest
      else ⟨decode path, status, changedFileKind status, none⟩ :: parseChangedRecords rest

def parseChangedFiles (output : Bytes) : List ChangedFile := parseChangedRecords (output.splitOn 0)

def parsePorcelainRecords : List Text → List ChangedFile
  | [] => []
  | record :: rest =>
    if record.length < 4 then parsePorcelainRecords rest else
    let status := record.take 2
    let pathText := record.drop 3
    match holdsRename status, rest with
    | true, original :: rest =>
      if isVisibleRelativePath pathText then
        ⟨pathText, status, changeKind status, some original⟩ :: parsePorcelainRecords rest
      else parsePorcelainRecords rest
    | _, rest =>
      if isVisibleRelativePath pathText then
        ⟨pathText, status, changeKind status, none⟩ :: parsePorcelainRecords rest
      else parsePorcelainRecords rest

def parsePorcelainZ (output : Bytes) : List ChangedFile :=
  parsePorcelainRecords (((decode output).splitOn 0).filter fun record => record ≠ [])

/-- A change that Git lists; a rename and a copy have a source. -/
structure Entry where
  status : Bytes
  path : Bytes
  source : Option Bytes

namespace Entry

def statusFields (entry : Entry) : List Bytes := entry.status :: (entry.source.toList ++ [entry.path])

def porcelainFields (entry : Entry) : List Bytes := (entry.status ++ 32 :: entry.path) :: entry.source.toList

/-- Fields without NUL, and a source exactly for a rename or a copy. -/
structure Formed (renames : Text → Bool) (entry : Entry) : Prop where
  status : entry.status ≠ [] ∧ 0 ∉ entry.status
  path : entry.path ≠ [] ∧ 0 ∉ entry.path
  source : ∀ source ∈ entry.source, source ≠ [] ∧ 0 ∉ source
  rename : renames (decode entry.status) = entry.source.isSome

def TwoLetters (entry : Entry) : Prop := entry.status.length = 2 ∧ ∀ byte ∈ entry.status, byte.toNat < 128

def changedFile (kind : Text → ChangeKind) (entry : Entry) : ChangedFile :=
  ⟨decode entry.path, decode entry.status, kind (decode entry.status), entry.source.map decode⟩

end Entry

def terminated {α : Type} (zero : α) (fields : List (List α)) : List α :=
  fields.flatMap fun field => field ++ [zero]

def diffNameStatus (entries : List Entry) : Bytes := terminated 0 (entries.flatMap Entry.statusFields)

def statusPorcelain (entries : List Entry) : Bytes := terminated 0 (entries.flatMap Entry.porcelainFields)

def visibleFiles (visible : Text → Bool) (kind : Text → ChangeKind) (entries : List Entry) :
    List ChangedFile :=
  (entries.filter fun entry => visible (decode entry.path)).map (Entry.changedFile kind)

theorem splitOn_terminated {α : Type} [DecidableEq α] {zero : α} {fields : List (List α)}
    (hz : ∀ field ∈ fields, zero ∉ field) :
    (terminated zero fields).splitOn zero = fields ++ [[]] := by
  induction fields with
  | nil => rfl
  | cons field fields ih =>
    simp only [forall_mem_cons] at hz
    rw [terminated, flatMap_cons, append_assoc, singleton_append,
      splitOn_append_cons_self_of_not_mem hz.1, ← terminated, ih hz.2, cons_append]

theorem decode_terminated (fields : List Bytes) :
    decode (terminated 0 fields) = terminated 0 (fields.map decode) := by
  induction fields with
  | nil => rfl
  | cons field fields ih =>
    rw [terminated, flatMap_cons, append_assoc, singleton_append, decode_append_zero, ← terminated,
      ih, map_cons, terminated, terminated, flatMap_cons, append_assoc, singleton_append]

theorem decode_ne_nil {raw : Bytes} (hr : raw ≠ []) : decode raw ≠ [] := by
  intro hd
  have := encode_of_decode raw
  rw [hd] at this
  exact hr this.symm

theorem zero_not_mem_decode {raw : Bytes} (hz : 0 ∉ raw) : 0 ∉ decode raw := by
  intro hm
  have : 0 ∈ encode (decode raw) := mem_flatMap.mpr ⟨0, hm, by decide⟩
  rw [encode_of_decode] at this
  exact hz this

theorem parseChangedRecords_eq {entries : List Entry}
    (hf : ∀ entry ∈ entries, entry.Formed startsRename) :
    parseChangedRecords (entries.flatMap Entry.statusFields ++ [[]]) =
      visibleFiles (fun path => !isSecretPath path) changedFileKind entries := by
  induction entries with
  | nil => rfl
  | cons entry entries ih =>
    simp only [forall_mem_cons] at hf
    obtain ⟨hentry, hrest⟩ := hf
    have hr := hentry.rename
    obtain ⟨status, path, source⟩ := entry
    have hs : status ≠ [] := hentry.status.1
    cases source <;> cases hp : isSecretPath (decode path) <;>
      simp_all [Entry.statusFields, parseChangedRecords, visibleFiles, Entry.changedFile]

theorem parseChangedFiles_eq {entries : List Entry}
    (hf : ∀ entry ∈ entries, entry.Formed startsRename) :
    parseChangedFiles (diffNameStatus entries) =
      visibleFiles (fun path => !isSecretPath path) changedFileKind entries := by
  rw [parseChangedFiles, diffNameStatus, splitOn_terminated, parseChangedRecords_eq hf]
  intro field hm
  obtain ⟨entry, he, hfield⟩ := mem_flatMap.mp hm
  have hentry := hf entry he
  simp only [Entry.statusFields, mem_cons, mem_append, Option.mem_toList, not_mem_nil, or_false] at hfield
  obtain rfl | hs | rfl := hfield
  · exact hentry.status.2
  · exact (hentry.source field hs).2
  · exact hentry.path.2

theorem decode_porcelain {status : Bytes}
    (ht : status.length = 2 ∧ ∀ byte ∈ status, byte.toNat < 128) (path : Bytes) :
    decode (status ++ 32 :: path) = decode status ++ 32 :: decode path ∧
    (decode status).length = 2 := by
  obtain ⟨hl, ha⟩ := ht
  obtain ⟨x, y, rfl⟩ := length_eq_two.mp hl
  simp only [forall_mem_cons] at ha
  have hspace : (32 : UInt8).toNat < 128 := by decide
  simp only [cons_append, nil_append, decode_ascii ha.1, decode_ascii ha.2.1, decode_ascii hspace]
  exact ⟨rfl, rfl⟩

theorem parsePorcelainRecords_eq {entries : List Entry}
    (hf : ∀ entry ∈ entries, entry.Formed holdsRename ∧ entry.TwoLetters) :
    parsePorcelainRecords ((entries.flatMap Entry.porcelainFields).map decode) =
      visibleFiles isVisibleRelativePath changeKind entries := by
  induction entries with
  | nil => rfl
  | cons entry entries ih =>
    simp only [forall_mem_cons] at hf
    obtain ⟨⟨hentry, ht⟩, hrest⟩ := hf
    have hr := hentry.rename
    obtain ⟨status, path, source⟩ := entry
    obtain ⟨hd, hl⟩ := decode_porcelain ht path
    have hpath : 0 < (decode path).length := length_pos_iff.mpr (decode_ne_nil hentry.path.1)
    have hlong : ¬(decode (status ++ 32 :: path)).length < 4 := by
      rw [hd, length_append, hl, length_cons]
      omega
    have hstatus : (decode (status ++ 32 :: path)).take 2 = decode status := by rw [hd, take_left' hl]
    have hdrop : (decode (status ++ 32 :: path)).drop 3 = decode path := by
      rw [hd, drop_append, hl]; simp [hl]
    cases source <;> cases hp : isVisibleRelativePath (decode path) <;>
      simp_all [Entry.porcelainFields, parsePorcelainRecords, visibleFiles, Entry.changedFile]

theorem parsePorcelainZ_eq {entries : List Entry}
    (hf : ∀ entry ∈ entries, entry.Formed holdsRename ∧ entry.TwoLetters) :
    parsePorcelainZ (statusPorcelain entries) =
      visibleFiles isVisibleRelativePath changeKind entries := by
  have hfields : ∀ field ∈ entries.flatMap Entry.porcelainFields, field ≠ [] ∧ 0 ∉ field := by
    intro field hm
    obtain ⟨entry, he, hfield⟩ := mem_flatMap.mp hm
    have hentry := (hf entry he).1
    simp only [Entry.porcelainFields, mem_cons, Option.mem_toList] at hfield
    obtain rfl | hs := hfield
    · have hz : (0 : UInt8) ≠ 32 := by decide
      simp [hentry.status.2, hentry.path.2, hz]
    · exact hentry.source field hs
  have hz : ∀ field ∈ (entries.flatMap Entry.porcelainFields).map decode, 0 ∉ field :=
    forall_mem_map.mpr fun field hm => zero_not_mem_decode (hfields field hm).2
  have hne : ∀ field ∈ (entries.flatMap Entry.porcelainFields).map decode, field ≠ [] :=
    forall_mem_map.mpr fun field hm => decode_ne_nil (hfields field hm).1
  rw [parsePorcelainZ, statusPorcelain, decode_terminated, splitOn_terminated hz, filter_append,
    filter_eq_self.mpr (by simpa using hne)]
  simpa using parsePorcelainRecords_eq hf

/-- The result is the list of the visible entries, and their bytes are recovered from it. -/
def Faithful (visible : Text → Bool) (kind : Text → ChangeKind) (entries : List Entry)
    (result : List ChangedFile) : Prop :=
  result = visibleFiles visible kind entries ∧
    ∀ file ∈ result, ∃ entry ∈ entries, encode file.path = entry.path ∧
    encode file.status = entry.status ∧ file.originalPath.map encode = entry.source

def Hidden (result : List ChangedFile) : Prop :=
  ∀ file ∈ result,
    isSecretPath file.path = false ∧ ∀ original ∈ file.originalPath, isSecretPath original = false

/-- No entry with a visible path has a protected source. -/
def SourcesShown (visible : Text → Bool) (entries : List Entry) : Prop :=
  ∀ entry ∈ entries,
    visible (decode entry.path) → ∀ source ∈ entry.source, isSecretPath (decode source) = false

theorem visibleFiles_exact {visible : Text → Bool} {kind : Text → ChangeKind} {entries : List Entry}
    (hv : ∀ path, visible path → isSecretPath path = false) :
    (Faithful visible kind entries (visibleFiles visible kind entries) ∧
        Hidden (visibleFiles visible kind entries)) ↔ SourcesShown visible entries := by
  have hmem : ∀ file, file ∈ visibleFiles visible kind entries ↔
      ∃ entry, (entry ∈ entries ∧ visible (decode entry.path)) ∧ entry.changedFile kind = file := by
    simp [visibleFiles]
  constructor
  · rintro ⟨-, hidden⟩ entry he hs source hm
    exact (hidden _ ((hmem _).mpr ⟨entry, ⟨he, hs⟩, rfl⟩)).2 _
      (by simpa [Entry.changedFile] using ⟨source, hm, rfl⟩)
  · intro shown
    refine ⟨⟨rfl, fun file hm => ?_⟩, fun file hm => ?_⟩
    · obtain ⟨entry, ⟨he, -⟩, rfl⟩ := (hmem file).mp hm
      exact ⟨entry, he, encode_of_decode _,
        encode_of_decode _, by simp [Entry.changedFile, Function.comp_def]⟩
    · obtain ⟨entry, ⟨he, hs⟩, rfl⟩ := (hmem file).mp hm
      refine ⟨hv _ hs, fun original ho => ?_⟩
      obtain ⟨source, hsource, rfl⟩ := Option.map_eq_some_iff.mp ho
      exact shown entry he hs source hsource

theorem not_secret_of_visible {path : Text} (hv : isVisibleRelativePath path) :
    isSecretPath path = false := by
  simp only [isVisibleRelativePath, decide_eq_true_eq] at hv
  obtain rfl | rfl | ⟨hs, -⟩ := hv
  · rfl
  · decide
  · exact hs

/-- Both listings are parsed faithfully; they hide protected paths exactly when no visible
rename or copy comes from one. -/
theorem change_listings_exact (entries : List Entry) :
    ((∀ entry ∈ entries, entry.Formed startsRename) →
        ((Faithful (fun path => !isSecretPath path) changedFileKind entries
              (parseChangedFiles (diffNameStatus entries)) ∧
            Hidden (parseChangedFiles (diffNameStatus entries))) ↔
          SourcesShown (fun path => !isSecretPath path) entries)) ∧
    ((∀ entry ∈ entries, entry.Formed holdsRename ∧ entry.TwoLetters) →
      ((Faithful isVisibleRelativePath changeKind entries
            (parsePorcelainZ (statusPorcelain entries)) ∧
          Hidden (parsePorcelainZ (statusPorcelain entries))) ↔
        SourcesShown isVisibleRelativePath entries)) := by
  constructor
  · intro hf
    rw [parseChangedFiles_eq hf]
    exact visibleFiles_exact fun path hv => by simpa using hv
  · intro hf
    rw [parsePorcelainZ_eq hf]
    exact visibleFiles_exact fun path hv => not_secret_of_visible hv

def moved (status source : String) : Entry := ⟨bytes status, bytes "notes.txt", some (bytes source)⟩

theorem change_listings_exact_moved :
    (Faithful (fun path => !isSecretPath path) changedFileKind [moved "R100" "a\nb"]
          (parseChangedFiles (diffNameStatus [moved "R100" "a\nb"])) ∧
        Hidden (parseChangedFiles (diffNameStatus [moved "R100" "a\nb"]))) ∧
    Faithful isVisibleRelativePath changeKind [moved "R " "a\nb"]
      (parsePorcelainZ (statusPorcelain [moved "R " "a\nb"])) ∧
    Hidden (parsePorcelainZ (statusPorcelain [moved "R " "a\nb"])) := by
  have hs : isSecretPath (decode (bytes "a\nb")) = false := by decide +kernel
  constructor
  · refine ((change_listings_exact _).1 ?_).mpr ?_
    · simp only [forall_mem_singleton]
      exact ⟨by decide +kernel, by decide +kernel, by simp [moved]; decide +kernel, by decide +kernel⟩
    · simpa [SourcesShown, moved] using fun _ => hs
  · refine ((change_listings_exact _).2 ?_).mpr ?_
    · simp only [forall_mem_singleton]
      exact ⟨⟨by decide +kernel, by decide +kernel, by simp [moved]; decide +kernel,
        by decide +kernel⟩, by decide +kernel, by decide +kernel⟩
    · simpa [SourcesShown, moved] using fun _ => hs

/-- A protected file that was moved is named as the original path of a visible one. -/
theorem protected_source_listed :
    ¬Hidden (parseChangedFiles (diffNameStatus [moved "R100" ".env"])) ∧
      ¬Hidden (parsePorcelainZ (statusPorcelain [moved "R " ".env"])) := by
  have hs : isSecretPath (text ".env") = true := by decide +kernel
  constructor
  · intro hidden
    have hm : ChangedFile.mk (text "notes.txt") (text "R100") .renamed (some (text ".env")) ∈
        parseChangedFiles (diffNameStatus [moved "R100" ".env"]) := by decide +kernel
    cases hs.symm.trans ((hidden _ hm).2 _ rfl)
  · intro hidden
    have hm : ChangedFile.mk (text "notes.txt") (text "R ") .renamed (some (text ".env")) ∈
        parsePorcelainZ (statusPorcelain [moved "R " ".env"]) := by decide +kernel
    cases hs.symm.trans ((hidden _ hm).2 _ rfl)

end Yinshi.Workspace
