import Mathlib.Algebra.BigOperators.Group.List.Basic
import Yinshi.Base.Keyed
import Yinshi.Artifact.Format
import Yinshi.Reconcile.State

/-! Canonical JSON bytes and protocol fingerprints. A protocol value is first
viewed as a Python object, then projected to JSON data, then written with sorted
keys and ASCII escapes, as `json.dumps` does. -/

namespace Yinshi.Reconcile
open ByteText Keyed Artifact

/-- The immutable Python objects a protocol value is made of. A dataclass keeps
its field names and its values in two lists of the same length. -/
inductive Value
  | none
  | bool (value : Bool)
  | int (value : Int)
  | str (value : Text)
  | bytes (value : Bytes)
  | tuple (items : List Value)
  | dataclass (name : String) (names : List String) (values : List Value)

inductive Json
  | null
  | bool (value : Bool)
  | int (value : Int)
  | str (value : Text)
  | array (items : List Json)
  | object (keys : List Text) (values : List Json)

def base64Alphabet : Text :=
  text "ABCDEFGHIJKLMNOPQRSTUVWXYZabcdefghijklmnopqrstuvwxyz0123456789+/"

def base64Digit (value : Nat) : Nat := base64Alphabet.getD (value % 64) 0

def b64encode : Bytes → Text
  | a :: b :: c :: rest =>
    let word := a.toNat * 65536 + b.toNat * 256 + c.toNat
    base64Digit (word / 262144) :: base64Digit (word / 4096) :: base64Digit (word / 64) ::
      base64Digit word :: b64encode rest
  | [a, b] =>
    let word := a.toNat * 65536 + b.toNat * 256
    [base64Digit (word / 262144), base64Digit (word / 4096), base64Digit (word / 64)] ++ text "="
  | [a] =>
    let word := a.toNat * 65536
    [base64Digit (word / 262144), base64Digit (word / 4096)] ++ text "=="
  | [] => []

mutual

def canonicalProjection : Value → Json
  | .none => .null
  | .bool value => .bool value
  | .int value => .int value
  | .str value => .str value
  | .bytes value => .object [text "bytes_base64"] [.str (b64encode value)]
  | .tuple items => .array (canonicalProjections items)
  | .dataclass name names values =>
    .object [text "type", text "fields"]
      [.str (text name), .object (names.map text) (canonicalProjections values)]

def canonicalProjections : List Value → List Json
  | [] => []
  | value :: values => canonicalProjection value :: canonicalProjections values

end

def hexDigit (value : Nat) : Nat := (text "0123456789abcdef").getD (value % 16) 0

def hexByte (value : UInt8) : Text := [hexDigit (value.toNat / 16), hexDigit value.toNat]

def hexdigest (digest : Bytes) : Text := digest.flatMap hexByte

def escapeUnit (unit : Nat) : Text :=
  text "\\u" ++ [hexDigit (unit / 4096), hexDigit (unit / 256), hexDigit (unit / 16), hexDigit unit]

def escapeCodePoint (point : Nat) : Text :=
  if point = 34 then text "\\\"" else
  if point = 92 then text "\\\\" else
  if point = 10 then text "\\n" else
  if point = 13 then text "\\r" else
  if point = 9 then text "\\t" else
  if point = 8 then text "\\b" else
  if point = 12 then text "\\f" else
  if 32 ≤ point ∧ point ≤ 126 then [point] else
  if point < 65536 then escapeUnit point else
    escapeUnit (55296 + (point - 65536) / 1024) ++ escapeUnit (56320 + (point - 65536) % 1024)

def writeString (value : Text) : Text :=
  text "\"" ++ value.flatMap escapeCodePoint ++ text "\""

def writeInt (value : Int) : Text := text (toString value)

mutual

/-- `json.dumps` with sorted keys, compact separators and ASCII output. -/
def dumps : Json → Text
  | .null => text "null"
  | .bool value => if value then text "true" else text "false"
  | .int value => writeInt value
  | .str value => writeString value
  | .array items => text "[" ++ (text ",").intercalate (dumpsAll items) ++ text "]"
  | .object keys values =>
    text "\x7b" ++ (text ",").intercalate ((sortBy Prod.fst (keys.zip (dumpsAll values))).map
      fun row => writeString row.1 ++ text ":" ++ row.2) ++ text "\x7d"

def dumpsAll : List Json → List Text
  | [] => []
  | item :: items => dumps item :: dumpsAll items

end

def canonicalBytes (value : Value) : Bytes := (dumps (canonicalProjection value)).map UInt8.ofNat

def protocolFingerprint (H : Hashes) (domain : Bytes) (value : Value) : Text :=
  text "sha256:" ++ hexdigest (H.sha256 (domain ++ canonicalBytes value))

mutual

/-- Raw bytes carried by a value. A typed protocol value is acyclic and nested
far below the traversal depth limit of the source. -/
def decodedByteCount : Value → Nat
  | .bytes value => value.length
  | .tuple items => decodedByteCounts items
  | .dataclass _ _ values => decodedByteCounts values
  | _ => 0

def decodedByteCounts : List Value → Nat
  | [] => 0
  | value :: values => decodedByteCount value + decodedByteCounts values

end

class ToValue (α : Type) where
  toValue : α → Value

export ToValue (toValue)

instance : ToValue Text := ⟨.str⟩
instance : ToValue Bytes := ⟨.bytes⟩
instance : ToValue Int := ⟨.int⟩
instance : ToValue Bool := ⟨.bool⟩

def tupleValue {α : Type} [ToValue α] (items : List α) : Value := .tuple (items.map toValue)

instance {α : Type} [ToValue α] : ToValue (Option α) := ⟨fun value => value.elim .none toValue⟩

def dataclassValue (name : String) (rows : List (String × Value)) : Value :=
  .dataclass name (rows.map Prod.fst) (rows.map Prod.snd)

instance : ToValue NodeIdentity := ⟨fun identity => dataclassValue "NodeIdentity"
  [("filesystem_id", toValue identity.filesystemId), ("node_id", toValue identity.nodeId)]⟩

instance : ToValue NodeReference := ⟨fun
  | .existing identity => dataclassValue "ExistingNode" [("identity", toValue identity)]
  | .prepared slotId => dataclassValue "PreparedNode" [("slot_id", toValue slotId)]⟩

instance : ToValue Location := ⟨fun location => dataclassValue "Location"
  [("namespace", toValue location.nameSpace), ("raw_path", toValue location.rawPath)]⟩

instance : ToValue ParentBinding := ⟨fun binding => dataclassValue "ParentBinding"
  [("location", toValue binding.location), ("reference", toValue binding.reference)]⟩

class Variant (ρ : Type) extends ToValue ρ where
  node : String
  referenceField : String
  index : String
  refs : String
  replica : String

instance : Variant NodeIdentity := ⟨"NodeState", "identity", "IndexState", "RefState", "ReplicaState"⟩
instance : Variant NodeReference := ⟨"DesiredNodeState", "reference", "DesiredIndexState",
  "DesiredRefState", "DesiredReplicaState"⟩

section Variants
variable {ρ : Type} [Variant ρ]

instance : ToValue (Node ρ) := ⟨fun node => dataclassValue (Variant.node ρ)
  [("location", toValue node.location), (Variant.referenceField ρ, toValue node.reference),
    ("kind", toValue node.kind), ("content", toValue node.content),
    ("executable", toValue node.executable), ("nlink", toValue node.nlink),
    ("privilege_bits", toValue node.privilegeBits)]⟩

instance : ToValue AbsentState := ⟨fun state => dataclassValue "AbsentState"
  [("location", toValue state.location)]⟩

instance : ToValue (Storage ρ) := ⟨fun
  | .node state => toValue state
  | .absent state => toValue state⟩

instance : ToValue IndexEntry := ⟨fun entry => dataclassValue "IndexEntry"
  [("raw_path", toValue entry.rawPath), ("stage", toValue entry.stage), ("mode", toValue entry.mode),
    ("object_id", toValue entry.objectId), ("intent_to_add", toValue entry.intentToAdd),
    ("skip_worktree", toValue entry.skipWorktree),
    ("assume_unchanged", toValue entry.assumeUnchanged)]⟩

instance : ToValue ManifestEntry := ⟨fun entry => dataclassValue "ManifestEntry"
  [("raw_path", toValue entry.rawPath), ("kind", toValue entry.kind),
    ("content", toValue entry.content), ("executable", toValue entry.executable),
    ("nlink", toValue entry.nlink), ("privilege_bits", toValue entry.privilegeBits)]⟩

instance : ToValue (Refs ρ) := ⟨fun refs => dataclassValue (Variant.refs ρ)
  [("selected_ref", toValue refs.selectedRef), ("head_binding", toValue refs.headBinding),
    ("resolved_oid", toValue refs.resolvedOid),
    ("packed_fallback_oid", toValue refs.packedFallbackOid), ("head", toValue refs.head),
    ("loose_ref", toValue refs.looseRef), ("packed_refs", toValue refs.packedRefs),
    ("reflogs", tupleValue refs.reflogs),
    ("unrelated_metadata", tupleValue refs.unrelatedMetadata)]⟩

instance : ToValue (Index ρ) := ⟨fun index => dataclassValue (Variant.index ρ)
  [("storage", toValue index.storage), ("entries", tupleValue index.entries),
    ("sparse_index", toValue index.sparseIndex)]⟩

instance : ToValue (Replica ρ) := ⟨fun replica => dataclassValue (Variant.replica ρ)
  [("generation", toValue replica.generation),
    ("replica_generation", toValue replica.replicaGeneration), ("index", toValue replica.index),
    ("refs", toValue replica.refs), ("manifest", tupleValue replica.manifest),
    ("working_nodes", tupleValue replica.workingNodes)]⟩

end Variants

instance : ToValue OwnershipMarkerSpec := ⟨fun marker => dataclassValue "OwnershipMarkerSpec"
  [("slot_id", toValue marker.slotId), ("destination", toValue marker.destination),
    ("parent", toValue marker.parent), ("initial", toValue marker.initial),
    ("payload_prefix", toValue marker.payloadPrefix), ("executable", toValue marker.executable)]⟩

instance : ToValue DestinationObject := ⟨fun item => dataclassValue "DestinationObject"
  [("object_id", toValue item.objectId), ("storage", toValue item.storage),
    ("parent", toValue item.parent), ("content_sha256", toValue item.contentSha256),
    ("content_sync_receipt_id", toValue item.contentSyncReceiptId),
    ("parent_sync_receipt_id", toValue item.parentSyncReceiptId)]⟩

instance : ToValue RequiredObject := ⟨fun item => dataclassValue "RequiredObject"
  [("object_id", toValue item.objectId), ("kind", toValue item.kind),
    ("byte_length", toValue item.byteLength), ("content_sha256", toValue item.contentSha256),
    ("source_slot_id", toValue item.sourceSlotId)]⟩

instance : ToValue PreparationSlot := ⟨fun slot => dataclassValue "PreparationSlot"
  [("slot_id", toValue slot.slotId), ("destination", toValue slot.destination),
    ("materialization_parent", toValue slot.materializationParent),
    ("installation_parent", toValue slot.installationParent), ("initial", toValue slot.initial),
    ("desired_kind", toValue slot.desiredKind), ("desired_content", toValue slot.desiredContent),
    ("executable", toValue slot.executable)]⟩

instance : ToValue QuarantineSlot := ⟨fun slot => dataclassValue "QuarantineSlot"
  [("slot_id", toValue slot.slotId), ("source", toValue slot.source),
    ("source_identity", toValue slot.sourceIdentity), ("source_parent", toValue slot.sourceParent),
    ("destination", toValue slot.destination),
    ("destination_parent", toValue slot.destinationParent),
    ("restoration_parent", toValue slot.restorationParent), ("initial", toValue slot.initial)]⟩

instance : ToValue Boundary := ⟨fun boundary => dataclassValue "Boundary"
  [("boundary_id", toValue boundary.boundaryId), ("role", toValue boundary.role),
    ("location", toValue boundary.location), ("identity", toValue boundary.identity),
    ("ancestors", tupleValue boundary.ancestors)]⟩

instance : ToValue OperationIdentity := ⟨fun identity => dataclassValue "OperationIdentity"
  [("incarnation", toValue identity.incarnation), ("binding_id", toValue identity.bindingId),
    ("selected_authority", toValue identity.selectedAuthority),
    ("operation_id", toValue identity.operationId),
    ("reservation_id", toValue identity.reservationId),
    ("destination_binding", toValue identity.destinationBinding),
    ("physical_target_id", toValue identity.physicalTargetId),
    ("generation", toValue identity.generation),
    ("replica_generation", toValue identity.replicaGeneration),
    ("acknowledgment_receipt_id", toValue identity.acknowledgmentReceiptId),
    ("drain_receipt_id", toValue identity.drainReceiptId),
    ("export_receipt_id", toValue identity.exportReceiptId),
    ("object_format", toValue identity.objectFormat),
    ("inventory_receipt_id", toValue identity.inventoryReceiptId)]⟩

instance : ToValue InventoryLimits := ⟨fun limits => dataclassValue "InventoryLimits"
  [("max_paths", toValue limits.maxPaths), ("max_objects", toValue limits.maxObjects),
    ("max_total_bytes", toValue limits.maxTotalBytes), ("max_depth", toValue limits.maxDepth),
    ("max_transitions", toValue limits.maxTransitions)]⟩

instance : ToValue ReconciliationSpec := ⟨fun spec => dataclassValue "ReconciliationSpec"
  [("version", toValue spec.version), ("identity", toValue spec.identity),
    ("baseline", toValue spec.baseline), ("desired", toValue spec.desired),
    ("boundaries", tupleValue spec.boundaries),
    ("preparation_slots", tupleValue spec.preparationSlots),
    ("quarantine_slots", tupleValue spec.quarantineSlots),
    ("ownership_markers", tupleValue spec.ownershipMarkers),
    ("required_objects", tupleValue spec.requiredObjects),
    ("destination_objects", tupleValue spec.destinationObjects), ("limits", toValue spec.limits)]⟩

section Lengths
open List

mutual

def dumpsBound : Json → Nat
  | .null => 4
  | .bool _ => 5
  | .int value => (writeInt value).length
  | .str value => 12 * value.length + 2
  | .array items => dumpsBounds items + 2
  | .object keys values => 12 * (keys.map List.length).sum + 3 * keys.length + dumpsBounds values + 2

def dumpsBounds : List Json → Nat
  | [] => 0
  | item :: items => dumpsBound item + 1 + dumpsBounds items

end

theorem length_intercalate_le (xs : List Text) :
    ((text ",").intercalate xs).length ≤ (xs.map (·.length + 1)).sum := by
  induction xs with
  | nil => simp [intercalate]
  | cons _ xs ih =>
    cases xs with
    | nil => simp [intercalate]
    | cons _ _ =>
      have comma : (text ",").length = 1 := by decide
      simp only [intercalate, intersperse_cons_cons, flatten_cons, length_append, map_cons,
        sum_cons, comma] at ih ⊢
      omega

theorem length_escapeCodePoint_le (point : Nat) : (escapeCodePoint point).length ≤ 12 := by
  have unit (unit : Nat) : (escapeUnit unit).length = 6 := by
    have escape : (text "\\u").length = 2 := by decide
    simp [escapeUnit, escape]
  unfold escapeCodePoint
  repeat' split
  all_goals first | (simp [unit]; done) | (simp; done) | decide

theorem length_writeString_le (value : Text) : (writeString value).length ≤ 12 * value.length + 2 := by
  have quote : (text "\"").length = 1 := by decide
  have escaped : (value.flatMap escapeCodePoint).length ≤ 12 * value.length := by
    induction value with
    | nil => simp
    | cons point _ _ =>
      have first := length_escapeCodePoint_le point
      simp only [flatMap_cons, length_append, length_cons]
      omega
  simp only [writeString, length_append, quote]
  omega

theorem length_rows_le (keys : List Text) (values : List Text) :
    (((keys.zip values).map fun row => writeString row.1 ++ text ":" ++ row.2).map
        (·.length + 1)).sum ≤
      12 * (keys.map List.length).sum + 3 * keys.length + (values.map (·.length + 1)).sum := by
  have colon : (text ":").length = 1 := by decide
  induction keys generalizing values with
  | nil => simp
  | cons key _ ih =>
    cases values with
    | nil => simp
    | cons _ values =>
      have written := length_writeString_le key
      have rest := ih values
      simp only [zip_cons_cons, map_cons, sum_cons, length_append, colon, length_cons] at rest ⊢
      omega

mutual

theorem length_dumps_le (json : Json) : (dumps json).length ≤ dumpsBound json := by
  cases json with
  | null => decide
  | bool value => cases value <;> decide
  | int value => exact le_refl _
  | str value => exact length_writeString_le value
  | array items =>
    have all := length_dumpsAll_le items
    have joined := length_intercalate_le (dumpsAll items)
    have brackets : (text "[").length = 1 ∧ (text "]").length = 1 := by decide
    simp only [dumps, dumpsBound, length_append, brackets]
    omega
  | object keys values =>
    have all := length_dumpsAll_le values
    have joined := length_intercalate_le ((sortBy Prod.fst (keys.zip (dumpsAll values))).map
      fun row => writeString row.1 ++ text ":" ++ row.2)
    have rows := length_rows_le keys (dumpsAll values)
    rw [((sortBy_perm.map _).map _).sum_eq] at joined
    have braces : (text "\x7b").length = 1 ∧ (text "\x7d").length = 1 := by decide
    simp only [dumps, dumpsBound, length_append, braces]
    omega

theorem length_dumpsAll_le (items : List Json) :
    ((dumpsAll items).map (·.length + 1)).sum ≤ dumpsBounds items := by
  cases items with
  | nil => simp [dumpsAll]
  | cons item items =>
    have head := length_dumps_le item
    have tail := length_dumpsAll_le items
    simp only [dumpsAll, dumpsBounds, map_cons, sum_cons]
    omega

end

theorem length_text_le (s : String) : (text s).length ≤ s.utf8ByteSize := by
  have all (cs : List Char) : cs.length ≤ (String.ofList cs).utf8ByteSize := by
    induction cs with
    | nil => simp
    | cons c cs ih =>
      have pos := c.utf8Size_pos
      rw [String.ofList_cons, String.utf8ByteSize_append, String.utf8ByteSize_singleton, length_cons]
      omega
  simpa [text] using all s.toList

mutual

def sizeBound : Value → Nat
  | .tuple items => sizeBounds items + 2
  | .dataclass name names values =>
    12 * (name.utf8ByteSize + (names.map (·.utf8ByteSize)).sum) + 3 * names.length + sizeBounds values + 1000
  | value => dumpsBound (canonicalProjection value)

def sizeBounds : List Value → Nat
  | [] => 0
  | value :: values => sizeBound value + 1 + sizeBounds values

end

mutual

theorem dumpsBound_le (value : Value) : dumpsBound (canonicalProjection value) ≤ sizeBound value := by
  cases value with
  | tuple items => exact Nat.add_le_add_right (dumpsBounds_le items) 2
  | dataclass name names values =>
    have all := dumpsBounds_le values
    have first := length_text_le name
    have others : ((names.map text).map List.length).sum ≤ (names.map (·.utf8ByteSize)).sum := by
      clear all
      induction names with
      | nil => exact le_refl _
      | cons s names ih => exact Nat.add_le_add (length_text_le s) ih
    have keys : (([text "type", text "fields"] : List Text).map List.length).sum = 10 := by decide
    simp only [canonicalProjection, dumpsBound, dumpsBounds, sizeBound, keys, length_map,
      length_cons, length_nil]
    omega
  | _ => exact le_refl _

theorem dumpsBounds_le (values : List Value) :
    dumpsBounds (canonicalProjections values) ≤ sizeBounds values := by
  cases values with
  | nil => exact le_refl _
  | cons value values =>
    exact Nat.add_le_add (Nat.add_le_add_right (dumpsBound_le value) 1) (dumpsBounds_le values)

end

theorem length_canonicalBytes_le (value : Value) : (canonicalBytes value).length ≤ sizeBound value := by
  rw [canonicalBytes, length_map]
  exact (length_dumps_le _).trans (dumpsBound_le value)

end Lengths

end Yinshi.Reconcile
