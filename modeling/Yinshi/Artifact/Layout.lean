import Yinshi.Artifact.Codec

/-! Each parser accepts exactly the bytes its builder writes. Every lemma is an
equivalence, so the round trip reads it from right to left and canonicity from
left to right. -/

namespace Yinshi.Artifact
open ByteText Checked List Option
variable {reader rest : Bytes} {value code : Nat} {name : Text}

variable {H : Hashes} {limits : ArtifactLimits}

theorem take_eq_ok {size : Nat} {label : String} {xs ys : Bytes} :
    take size label reader = .ok (xs, ys) ↔ reader = xs ++ ys ∧ xs.length = size := by
  simp only [take, steps_ok, not_lt, Prod.mk.injEq]
  constructor
  · rintro ⟨enough, rfl, rfl⟩
    exact ⟨(take_append_drop size reader).symm, by simpa using enough⟩
  · rintro ⟨rfl, rfl⟩
    simp

theorem eq_beBytes_iff {digits : Bytes} {width : Nat} :
    digits = beBytes width value ∧ value < 256 ^ width ↔
    digits.length = width ∧ beNat digits = value := by
  constructor
  · rintro ⟨rfl, hf⟩
    exact ⟨length_beBytes width value, beNat_beBytes hf⟩
  · rintro ⟨rfl, rfl⟩
    exact ⟨(beBytes_beNat digits).symm, beNat_lt digits⟩

theorem readNat_eq_ok {width : Nat} {label : String} :
    readNat width label reader = .ok (value, rest) ↔
    reader = beBytes width value ++ rest ∧ value < 256 ^ width := by
  simp only [readNat, steps_ok, Prod.exists, take_eq_ok, Prod.mk.injEq]
  constructor
  · rintro ⟨_, _, ⟨rfl, size⟩, denoted, rfl⟩
    obtain ⟨rfl, hf⟩ := eq_beBytes_iff.2 ⟨size, denoted⟩
    exact ⟨rfl, hf⟩
  · rintro ⟨rfl, hf⟩
    exact ⟨_, _, ⟨rfl, length_beBytes width value⟩, beNat_beBytes hf, rfl⟩

theorem beBytes_one : beBytes 1 value = [UInt8.ofNat value] := rfl

theorem slice_append_left {front back : Bytes} {stop : Nat} (h : front.length = stop) :
    slice (front ++ back) 0 stop = front := by
  subst h
  simp [slice]

theorem slice_append_right {front back : Bytes} {start stop : Nat} (h : front.length ≤ start) :
    slice (front ++ back) start stop = slice back (start - front.length) (stop - front.length) := by
  have width : stop - front.length - (start - front.length) = stop - start := by omega
  simp [slice, drop_append, drop_eq_nil_of_le h, width]

theorem exists_header (long : sectionHeaderLen ≤ rest.length) :
    ∃ number size digest body : Bytes, rest = number ++ (size ++ (digest ++ body)) ∧
      number.length = 4 ∧ size.length = 8 ∧ digest.length = 32 := by
  unfold sectionHeaderLen at long
  refine ⟨rest.take 4, (rest.drop 4).take 8, (rest.drop 12).take 32, rest.drop 44, ?_, ?_, ?_, ?_⟩
  · have third := take_append_drop 32 (rest.drop 12)
    have second := take_append_drop 8 (rest.drop 4)
    rw [drop_drop] at second third
    rw [third, second, take_append_drop]
  all_goals simp only [length_take, length_drop]; omega

theorem header_fields {number size digest : Bytes} (body : Bytes) (hnumber : number.length = 4)
    (hsize : size.length = 8) (hdigest : digest.length = 32) :
    slice (number ++ (size ++ (digest ++ body))) 0 4 = number ∧
    slice (number ++ (size ++ (digest ++ body))) 4 12 = size ∧
    slice (number ++ (size ++ (digest ++ body))) 12 44 = digest ∧
    (number ++ (size ++ (digest ++ body))).drop sectionHeaderLen = body := by
  refine ⟨slice_append_left hnumber, ?_, ?_, ?_⟩
  · rw [slice_append_right (by omega), hnumber]
    exact slice_append_left hsize
  · rw [slice_append_right (by omega), slice_append_right (by omega), hnumber, hsize]
    exact slice_append_left hdigest
  · have hw : (number ++ (size ++ digest)).length = sectionHeaderLen := by
      simp [sectionHeaderLen, hnumber, hsize, hdigest]
    have regrouped : number ++ (size ++ (digest ++ body)) = number ++ (size ++ digest) ++ body := by simp
    rw [regrouped, ← hw, drop_left]

theorem parseSectionsFrom_cons {position bound : Nat} {bounds : List Nat}
    {sections : List (Bytes × Bytes)} (known : position ∈ [1, 2, 3, 4]) (hf : bound < 256 ^ 8) :
    parseSectionsFrom H position (bound :: bounds) rest = .ok sections ↔
    ∃ payload tail later, rest = frameSection H (position, payload) ++ tail ∧
      payload.length ≤ bound ∧ parseSectionsFrom H (position + 1) bounds tail = .ok later ∧
      sections = (H.sha256 payload, payload) :: later := by
  have hs : position < 256 ^ 4 := by
    simp only [mem_cons, not_mem_nil, or_false] at known
    omega
  simp only [parseSectionsFrom, steps_ok, not_lt, not_not, frameSection, u32Bytes, u64Bytes, append_assoc]
  constructor
  · rintro ⟨long, -, number, hb, enough, digest, later, parsed, rfl⟩
    obtain ⟨_, size, _, body, rfl, hfront, hsize, hstored⟩ := exists_header long
    obtain ⟨h₁, h₂, h₃, h₄⟩ := header_fields body hfront hsize hstored
    rw [h₁] at number
    rw [h₂] at hb
    rw [h₂, h₄] at enough digest parsed
    rw [h₃] at digest
    obtain ⟨rfl, -⟩ := eq_beBytes_iff.2 ⟨hfront, number⟩
    have hlen : (body.take (beNat size)).length = beNat size := by simpa using enough
    refine ⟨body.take (beNat size), body.drop (beNat size), later, ?_, hlen.trans_le hb, parsed, ?_⟩
    · rw [hlen, ← hsize, beBytes_beNat, digest, take_append_drop]
    · rw [h₂, h₃, h₄, digest]
  · rintro ⟨payload, tail, later, rfl, hb, _, rfl⟩
    have length : payload.length < 256 ^ 8 := lt_of_le_of_lt hb hf
    obtain ⟨h₁, h₂, h₃, h₄⟩ := header_fields (payload ++ tail)
      (length_beBytes 4 position) (length_beBytes 8 payload.length) (H.length_sha256 payload)
    rw [h₁, h₂, h₃, h₄, beNat_beBytes hs, beNat_beBytes length]
    refine ⟨?_, known, rfl, hb, ?_, ?_, later, ?_, ?_⟩
    · simp only [sectionHeaderLen, length_append, length_beBytes, H.length_sha256]
      omega
    · simp
    · rw [take_left]
    · rwa [drop_left]
    · rw [take_left]

theorem formatNames_lookup : formatNames.lookup code = some name ↔ formatCodes.lookup name = some code :=
  lookup_swap formatCodes (by decide) (by decide)

theorem headStateNames_lookup :
    headStateNames.lookup code = some name ↔ headStateCodes.lookup name = some code :=
  lookup_swap headStateCodes (by decide) (by decide)

theorem formatCode_lt (h : formatCodes.lookup name = some code) : code < 256 ^ 1 := by
  rw [lookup_eq_some_iff_mem (by decide)] at h
  simp only [formatCodes, mem_cons, Prod.mk.injEq, not_mem_nil, or_false] at h
  omega

theorem headStateCode_lt (h : headStateCodes.lookup name = some code) : code < 256 ^ 1 := by
  rw [lookup_eq_some_iff_mem (by decide)] at h
  simp only [headStateCodes, mem_cons, Prod.mk.injEq, not_mem_nil, or_false] at h
  omega

def controlBytes (control : Control) : Bytes :=
  [UInt8.ofNat ((formatCodes.lookup control.objectFormat).getD 0),
    if control.hasIndex then 1 else 0,
    UInt8.ofNat ((headStateCodes.lookup control.headState).getD 0), 0] ++
  (u32Bytes control.headTarget.length ++ control.headTarget) ++
  (if control.headState ≠ text "unborn" then control.headOid else []) ++
  u32Bytes control.entryCount ++ u32Bytes control.rootCount ++
  u64Bytes control.aggregate ++ policyBytes control.policyDigest

structure ControlFits (limits : ArtifactLimits) (control : Control) : Prop where
  format : formatCodes.lookup control.objectFormat ≠ none
  state : headStateCodes.lookup control.headState ≠ none
  target : control.headTarget.length ≤ limits.maxPathBytes
  unborn : control.headState = text "unborn" → control.headOid = []
  oid : control.headState ≠ text "unborn" →
    control.headOid.length = oidSizeOf control.objectFormat
  entries : control.entryCount < 256 ^ 4
  roots : control.rootCount < 256 ^ 4
  aggregate : control.aggregate < 256 ^ 8
  policy : ∀ digest ∈ control.policyDigest, digest.length = 32

theorem readHeadOid_eq_ok {state : Text} {size : Nat} {oid : Bytes} :
    readHeadOid state size reader = .ok (oid, rest) ↔
    reader = (if state ≠ text "unborn" then oid else []) ++ rest ∧
    (state = text "unborn" → oid = []) ∧ (state ≠ text "unborn" → oid.length = size) := by
  unfold readHeadOid
  split
  · next unborn =>
      simp only [pure_eq_ok, Prod.mk.injEq, unborn, ne_eq, not_true_eq_false, ↓reduceIte,
        nil_append, forall_const, IsEmpty.forall_iff, and_true]
      exact ⟨fun h => ⟨h.2, h.1.symm⟩, fun h => ⟨h.2.symm, h.1⟩⟩
  · next born => simp [take_eq_ok, born]

theorem readPolicyDigest_eq_ok {policy : Option Bytes} (hv : code ∈ [0, 1]) :
    readPolicyDigest code reader = .ok (policy, rest) ↔
    beBytes 1 code ++ reader = policyBytes policy ++ rest ∧
    ∀ digest ∈ policy, digest.length = 32 := by
  simp only [mem_cons, not_mem_nil, or_false] at hv
  rcases hv with rfl | rfl
  · cases policy with
    | none | some digest => simp [readPolicyDigest, policyBytes, beBytes_one]
  · cases policy with
    | none => simp [readPolicyDigest, policyBytes, beBytes_one]
    | some digest =>
      simp only [readPolicyDigest, policyBytes, beBytes_one, ne_eq, one_ne_zero, not_false_eq_true,
        ↓reduceIte, steps_ok, Prod.exists, take_eq_ok, Prod.mk.injEq, some.injEq, mem_def,
        forall_eq']
      constructor
      · rintro ⟨_, _, ⟨rfl, size⟩, rfl, rfl⟩
        exact ⟨by simp, size⟩
      · rintro ⟨hs, size⟩
        refine ⟨digest, rest, ⟨?_, size⟩, rfl, rfl⟩
        simpa using hs

theorem indexFlag_eq (hv : code ∈ [0, 1]) : UInt8.ofNat code = if decide (code ≠ 0) then 1 else 0 := by
  simp only [mem_cons, not_mem_nil, or_false] at hv
  rcases hv with rfl | rfl <;> rfl

theorem parseControl_eq_ok {payload : Bytes} {control : Control} :
    parseControl limits payload = .ok control ↔
    payload = controlBytes control ∧ ControlFits limits control ∧
    checkControl limits control = .ok () := by
  simp only [parseControl, steps_ok, Prod.exists, readNat_eq_ok, take_eq_ok, readHeadOid_eq_ok,
    not_lt, not_not, ne_eq]
  constructor
  · rintro ⟨formatCode, _, ⟨rfl, -⟩, _, hformat, indexCode, _, ⟨rfl, -⟩, hindex, stateCode, _,
      ⟨rfl, -⟩, _, hstate, _, _, ⟨rfl, -⟩, rfl, _, _, ⟨rfl, -⟩, htarget, target, _,
      ⟨rfl, rfl⟩, _, _, ⟨rfl, unborn, born⟩, _, _, ⟨rfl, entries⟩, _, _,
      ⟨rfl, roots⟩, _, _, ⟨rfl, bytes⟩, policyCode, _, ⟨rfl, -⟩, hcode, policy, _, hpolicy,
      rfl, hc, rfl⟩
    obtain ⟨written, size⟩ := (readPolicyDigest_eq_ok hcode).mp hpolicy
    have hformat' := formatNames_lookup.1 hformat
    have hstate' := headStateNames_lookup.1 hstate
    refine ⟨?_, ⟨by simp [hformat'], by simp [hstate'], htarget, unborn, born, entries, roots, bytes, size⟩, hc⟩
    rw [written]
    simp only [controlBytes, hformat', hstate', getD_some, beBytes_one, indexFlag_eq hindex,
      u32Bytes, u64Bytes, ne_eq]
    simp
  · rintro ⟨rfl, hf, hc⟩
    obtain ⟨formatCode, hformat⟩ := ne_none_iff_exists'.mp hf.format
    obtain ⟨stateCode, hstate⟩ := ne_none_iff_exists'.mp hf.state
    have target : control.headTarget.length < 256 ^ 4 := by
      have := hf.target
      have := limits.path_fits
      omega
    obtain ⟨policyCode, hcode, rest, hrest⟩ : ∃ code ∈ [0, 1], ∃ rest,
        policyBytes control.policyDigest = beBytes 1 code ++ rest := by
      cases control.policyDigest with
      | none => exact ⟨0, by simp, [], rfl⟩
      | some digest => exact ⟨1, by simp, digest, rfl⟩
    have policy : readPolicyDigest policyCode rest = .ok (control.policyDigest, []) :=
      (readPolicyDigest_eq_ok hcode).mpr ⟨by rw [hrest, append_nil], hf.policy⟩
    obtain ⟨indexCode, hindex, hflag⟩ : ∃ code ∈ [0, 1], decide (code ≠ 0) = control.hasIndex := by
      cases control.hasIndex with
      | false => exact ⟨0, by simp, rfl⟩
      | true => exact ⟨1, by simp, rfl⟩
    have layout : controlBytes control = beBytes 1 formatCode ++ (beBytes 1 indexCode ++
        (beBytes 1 stateCode ++ (beBytes 1 0 ++ (beBytes 4 control.headTarget.length ++
        (control.headTarget ++ ((if control.headState ≠ text "unborn" then control.headOid else []) ++
        (beBytes 4 control.entryCount ++ (beBytes 4 control.rootCount ++
        (beBytes 8 control.aggregate ++ (beBytes 1 policyCode ++ rest)))))))))) := by
      simp only [controlBytes, hformat, hstate, hrest, ← hflag, getD_some, beBytes_one,
        ← indexFlag_eq hindex, u32Bytes, u64Bytes]
      simp
    have narrow : ∀ code ∈ [0, 1], code < 256 ^ 1 := by decide
    exact ⟨formatCode, _, ⟨layout, formatCode_lt hformat⟩, control.objectFormat,
      formatNames_lookup.2 hformat, indexCode, _, ⟨rfl, narrow _ hindex⟩, hindex, stateCode, _,
      ⟨rfl, headStateCode_lt hstate⟩, control.headState, headStateNames_lookup.2 hstate, 0, _,
      ⟨rfl, by simp⟩, rfl, control.headTarget.length, _, ⟨rfl, target⟩, hf.target,
      control.headTarget, _, ⟨rfl, rfl⟩, control.headOid, _, ⟨rfl, hf.unborn, hf.oid⟩,
      control.entryCount, _, ⟨rfl, hf.entries⟩, control.rootCount, _, ⟨rfl, hf.roots⟩,
      control.aggregate, _, ⟨rfl, hf.aggregate⟩, policyCode, rest, ⟨rfl, narrow _ hcode⟩, hcode,
      control.policyDigest, [], policy, rfl, by simpa [hflag] using hc, by simp [hflag]⟩

theorem kindByCode_eq_some {kind : WorktreeEntryKind} :
    kindByCode code = some kind ↔ code = kindCode kind := by
  constructor
  · intro hf
    unfold kindByCode at hf
    split at hf <;> simp_all <;> subst hf <;> rfl
  · rintro rfl
    cases kind <;> rfl

theorem known_flags {flags : Nat} (hf : flags < 256 ^ 1)
    (hk : flags &&& (0xFF - entryFlagsKnown) = 0) :
    flags = (if flags &&& entryFlagExecutable != 0 then entryFlagExecutable else 0) |||
      (if flags &&& entryFlagAllowedIgnored != 0 then entryFlagAllowedIgnored else 0) := by
  have table : ∀ f < 256, f &&& (0xFF - entryFlagsKnown) = 0 →
      f = (if f &&& entryFlagExecutable != 0 then entryFlagExecutable else 0) |||
        (if f &&& entryFlagAllowedIgnored != 0 then entryFlagAllowedIgnored else 0) := by
    decide +kernel
  exact table flags (by simpa using hf) hk

theorem entryFlags_bits (entry : ManifestEntry) :
    entryFlags entry < 256 ^ 1 ∧ entryFlags entry &&& (0xFF - entryFlagsKnown) = 0 ∧
    (entryFlags entry &&& entryFlagExecutable != 0) = entry.executable ∧
    (entryFlags entry &&& entryFlagAllowedIgnored != 0) = entry.allowedIgnored := by
  unfold entryFlags
  cases entry.executable <;> cases entry.allowedIgnored <;> decide

theorem length_derivedParent_le (path : Bytes) : (derivedParent path).length ≤ path.length := by
  unfold derivedParent parentPath
  have hs := (dropWhile_suffix (fun byte => decide (byte ≠ slash)) (l := path.reverse)).length_le
  split
  · simp
  · next reversed h =>
      rw [h] at hs
      simp only [length_cons, length_reverse] at hs
      simpa using by omega

theorem length_buildManifestEntry (entry : ManifestEntry) :
    (buildManifestEntry entry).length = manifestEntryLength entry := by
  simp only [buildManifestEntry, manifestEntryLength, u32Bytes, length_append,
    length_cons, length_nil, length_beBytes]
  omega

theorem validateRawPath_length {error : String → ArtifactError} {path : Bytes}
    (hv : validateRawPath limits error path = .ok ()) : path.length ≤ limits.maxPathBytes := by
  simp only [validateRawPath, steps_ok, not_lt] at hv
  exact hv.1

theorem validateEntryShape_eq_ok {error : String → ArtifactError} {entry : ManifestEntry} :
    validateEntryShape limits error entry = .ok () ↔
    entry.nlink = 1 ∧ entry.privilegeBits = false ∧
    (entry.kind = .directory → entry.content = [] ∧ entry.executable = false) ∧
    (entry.kind = .symlink → entry.executable = false ∧ entry.content ≠ [] ∧ 0 ∉ entry.content) ∧
    entry.content.length ≤ limits.maxContentBytes ∧
    validateRawPath limits error entry.rawPath = .ok () := by
  simp [validateEntryShape]

structure EntryAccepted (limits : ArtifactLimits) (scan : ManifestScan) (entry : ManifestEntry) :
    Prop where
  room : scan.count < limits.maxManifestEntries
  shape : validateEntryShape limits .decodeError entry = .ok ()
  increasing : ∀ previous ∈ scan.previous, previous < entry.rawPath
  topology : validateTopology .decodeError entry.rawPath scan.present = .ok ()
  aggregate : entry.kind ≠ .directory →
    scan.aggregate + entry.content.length ≤ limits.maxAggregateContentBytes

theorem readManifestEntry_eq_ok {scan : ManifestScan} {entry : ManifestEntry} :
    readManifestEntry limits scan reader = .ok (entry, rest) ↔
    reader = buildManifestEntry entry ++ rest ∧ EntryAccepted limits scan entry := by
  have ordered : ∀ path : Bytes,
      ¬ (scan.previous.any (fun previous => decide (path ≤ previous)) = true) ↔
        ∀ previous ∈ scan.previous, previous < path := by
    intro path
    cases scan.previous <;> simp
  simp only [readManifestEntry, steps_ok, Prod.exists, readNat_eq_ok, take_eq_ok, not_lt, not_le,
    not_not, ne_eq, not_and, ordered, kindByCode_eq_some, Prod.mk.injEq]
  constructor
  · rintro ⟨room, -, _, _, ⟨rfl, -⟩, kind, rfl, _, _, ⟨rfl, fits⟩, known, _, _, ⟨rfl, -⟩, -,
      parent, _, ⟨rfl, rfl⟩, _, _, ⟨rfl, -⟩, -, path, _, ⟨rfl, rfl⟩, _, _, ⟨rfl, -⟩, -, aggregate,
      content, _, ⟨rfl, rfl⟩, -, rfl, increasing, shape, topology, -, rfl, rfl⟩
    refine ⟨?_, ⟨room, shape, increasing, topology, aggregate⟩⟩
    simp only [buildManifestEntry, entryFlags, ← known_flags fits known, beBytes_one, u32Bytes]
    simp
  · rintro ⟨rfl, accepted⟩
    obtain ⟨flagFits, known, executable, _⟩ := entryFlags_bits entry
    obtain ⟨_, _, -, -, content, raw⟩ := validateEntryShape_eq_ok.1 accepted.shape
    have path := validateRawPath_length raw
    have parent := (length_derivedParent_le entry.rawPath).trans path
    have bounds := limits.path_fits
    have contentFits := limits.content_fits
    have same : ({ rawPath := entry.rawPath, kind := entry.kind, content := entry.content
                   executable := entryFlags entry &&& entryFlagExecutable != 0
                   allowedIgnored := entryFlags entry &&& entryFlagAllowedIgnored != 0 } :
        ManifestEntry) = entry := by
      cases entry
      simp_all
    have layout : buildManifestEntry entry ++ rest = beBytes 1 (kindCode entry.kind) ++
        (beBytes 1 (entryFlags entry) ++ (beBytes 4 (derivedParent entry.rawPath).length ++
        (derivedParent entry.rawPath ++ (beBytes 4 entry.rawPath.length ++ (entry.rawPath ++
        (beBytes 4 entry.content.length ++ (entry.content ++ rest))))))) := by
      simp [buildManifestEntry, beBytes_one, u32Bytes]
    refine ⟨accepted.room, ?_, _, _, ⟨layout, ?_⟩, entry.kind, rfl, entryFlags entry, _,
      ⟨rfl, flagFits⟩, known, _, _, ⟨rfl, by omega⟩, parent, derivedParent entry.rawPath, _,
      ⟨rfl, rfl⟩, _, _, ⟨rfl, by omega⟩, path, entry.rawPath, _, ⟨rfl, rfl⟩, _, _,
      ⟨rfl, by omega⟩, content, accepted.aggregate, entry.content, _, ⟨rfl, rfl⟩, raw, rfl,
      accepted.increasing, by rw [same]; exact accepted.shape, accepted.topology,
      accepted.aggregate, same, rfl⟩
    · rw [length_append, length_buildManifestEntry, manifestEntryLength, manifestEntryMinBytes]
      omega
    · cases entry.kind <;> decide

def ScanAccepts (limits : ArtifactLimits) : ManifestScan → List ManifestEntry → Prop
  | _, [] => True
  | scan, entry :: entries =>
    EntryAccepted limits scan entry ∧ ScanAccepts limits (scan.push entry) entries

attribute [local simp] buildManifestPayload

theorem parseManifestFrom_eq_ok {fuel : Nat} {scan : ManifestScan} {entries : List ManifestEntry}
    {aggregate : Nat} (enough : reader.length ≤ fuel) :
    parseManifestFrom limits fuel scan reader = .ok (entries, aggregate) ↔
    reader = buildManifestPayload entries ∧ ScanAccepts limits scan entries ∧
    aggregate = scan.aggregate + (entries.map contentWeight).sum := by
  induction fuel generalizing scan reader entries with
  | zero =>
    obtain rfl : reader = [] := length_eq_zero_iff.mp (Nat.le_zero.mp enough)
    cases entries with
    | nil =>
      simp only [parseManifestFrom, buildManifestPayload, ScanAccepts, pure_eq_ok]
      simpa using eq_comm
    | cons entry entries => simp [parseManifestFrom, buildManifestEntry]
  | succ fuel ih =>
    cases reader with
    | nil =>
      cases entries with
      | nil =>
        simp only [parseManifestFrom, buildManifestPayload, ScanAccepts, pure_eq_ok]
        simpa using eq_comm
      | cons entry entries => simp [parseManifestFrom, buildManifestEntry]
    | cons byte reader =>
      simp only [parseManifestFrom, steps_ok, Prod.exists, readManifestEntry_eq_ok, Prod.mk.injEq]
      have short : ∀ {entry : ManifestEntry} {rest : Bytes},
          byte :: reader = buildManifestEntry entry ++ rest → rest.length ≤ fuel := by
        intro entry rest hs
        have lengths := congrArg length hs
        rw [length_append, length_buildManifestEntry, manifestEntryLength] at lengths
        omega
      constructor
      · rintro ⟨entry, _, ⟨hs, ha⟩, _, _, parsed, rfl, rfl⟩
        obtain ⟨rfl, admitted, rfl⟩ := (ih (short hs)).mp parsed
        refine ⟨by simpa using hs, ⟨ha, admitted⟩, ?_⟩
        simp only [ManifestScan.push, map_cons, sum_cons]
        omega
      · rintro ⟨hs, admitted, rfl⟩
        cases entries with
        | nil => simp at hs
        | cons entry entries =>
          have cut : byte :: reader = buildManifestEntry entry ++ buildManifestPayload entries := by
            simpa using hs
          refine ⟨entry, buildManifestPayload entries, ⟨cut, admitted.1⟩, entries, _,
            (ih (short cut)).mpr ⟨rfl, admitted.2, ?_⟩, rfl, rfl⟩
          simp only [ManifestScan.push, map_cons, sum_cons]
          omega

end Yinshi.Artifact
