import Yinshi.Base.Checked
import Yinshi.Base.Encodings
import Yinshi.Base.Keyed

/-! Runner capabilities: the claims that a token carries and their verification. Signatures
are ideal, so the tokens that verify under a key are the ones issued under it. -/

namespace Yinshi.Capability
open ByteText Encodings Option
variable {key : String}

def runnerProtocolVersion : Text := text "yinshi-runner-v1"

def runnerCapabilityTtlSeconds : Int := 300

def runnerFrameBytesMax : Int := 65535

def runnerSessionBytesMin : Int := 65536

def runnerSessionBytesMax : Int := 1073741824

def runnerScopes : List Text :=
  ["files.read", "files.write", "pi.configure", "provider.configure", "repository.read", "repository.write",
    "session.read", "session.stream", "session.write", "terminal", "transfer.read",
      "transfer.write", "worker.health",
    "workspace.read", "workspace.write"].map text

structure VerifiedRunnerCapability where
  userId : Text
  runnerId : Text
  runnerPublicKey : Text
  initiatorPublicKey : Text
  transferId : Text
  tokenId : Text
  scopes : List Text
  issuedAt : Int
  expiresAt : Int
  maxFrameBytes : Int
  maxSessionBytes : Int

inductive Value
  | text (value : Text)
  | integer (value : Int)
  | bool (value : Bool)
  | list (items : List Value)
  | other

abbrev Payload := List (Text × Value)

def Payload.get (payload : Payload) (key : String) : Option Value := payload.lookup (text key)

def Payload.filled (payload : Payload) (key : String) : Option Text :=
  match payload.get key with
  | some (.text value) => if value = [] then none else some value
  | _ => none

def Payload.integer (payload : Payload) (key : String) : Option Int :=
  match payload.get key with
  | some (.integer value) => some value
  | _ => none

def Payload.items (payload : Payload) (key : String) : Option (List Value) :=
  match payload.get key with
  | some (.list items) => some items
  | _ => none

def Payload.isText (payload : Payload) (key : String) (expected : Text) : Bool :=
  match payload.get key with
  | some (.text value) => value = expected
  | _ => false

def Payload.isOne (payload : Payload) (key : String) : Bool :=
  match payload.get key with
  | some (.integer value) => value = 1
  | some (.bool value) => value
  | _ => false

def payloadKeys : List Text :=
  ["aud", "exp", "iat", "initiator_key", "jti", "max_frame_bytes", "max_session_bytes", "protocol",
    "runner_id",
    "runner_key", "scopes", "sub", "transfer_id", "v"].map text

def VerifiedRunnerCapability.payload (claims : VerifiedRunnerCapability) : Payload :=
  [(text "aud", .text (text "yinshi-runner")), (text "exp", .integer claims.expiresAt),
    (text "iat", .integer claims.issuedAt), (text "initiator_key", .text claims.initiatorPublicKey),
    (text "jti", .text claims.tokenId), (text "max_frame_bytes", .integer claims.maxFrameBytes),
    (text "max_session_bytes", .integer claims.maxSessionBytes),
      (text "protocol", .text runnerProtocolVersion),
    (text "runner_id", .text claims.runnerId), (text "runner_key", .text claims.runnerPublicKey),
    (text "scopes", .list (claims.scopes.map .text)), (text "sub", .text claims.userId),
    (text "transfer_id", .text claims.transferId), (text "v", .integer 1)]

def asciiBytes (value : Text) : Option Bytes :=
  if value.all (· < 128) then some (value.map UInt8.ofNat) else none

def asciiText (raw : Bytes) : Text := raw.map UInt8.toNat

def encodeBase64url (raw : Bytes) : Text := asciiText (base64Url raw)

/-- `_decode_base64url`: the canonical unpadded form of some bytes. -/
def decodeBase64url (value : Text) : Option Bytes :=
  ((asciiBytes value).bind base64UrlDecode).filter fun raw => raw ≠ [] ∧ encodeBase64url raw = value

/-- `_validate_x25519_public_key`; `usable` says which points a key exchange takes. -/
def validX25519PublicKey (usable : Bytes → Bool) (value : Text) : Bool :=
  (decodeBase64url value).any fun raw => raw.length = 32 ∧ usable raw

def scopeText : Value → Option Text
  | .text value => some value
  | _ => none

def validateScopes (items : List Value) : Option (List Text) :=
  (items.mapM scopeText).bind fun scopes =>
    if scopes = [] ∨ [] ∈ scopes ∨ ¬ scopes.Nodup ∨ ¬ ∀ scope ∈ scopes, scope ∈ runnerScopes then none
    else some (Keyed.sortBy (fun scope : Text => scope) scopes)

def isLowerHex (c : Nat) : Bool := (48 ≤ c ∧ c ≤ 57) ∨ (97 ≤ c ∧ c ≤ 102)

def canonicalUuid (value : Text) : Bool :=
  value.length = 36 ∧ (List.range 36).all fun position =>
    if position ∈ [8, 13, 18, 23] then value[position]? = some 45 else (value[position]?).any isLowerHex

def parseVerifiedPayload (usable : Bytes → Bool) (payload : Payload)
    (expectedRunnerId expectedRunnerPublicKey : Text) (currentTime : Nat) :
    Option VerifiedRunnerCapability := do
  guard ((∀ entry ∈ payload, entry.1 ∈ payloadKeys) ∧ ∀ key ∈ payloadKeys, key ∈ payload.map (·.1))
  guard (payload.isText "aud" (text "yinshi-runner") ∧ payload.isOne "v")
  guard (payload.isText "protocol" runnerProtocolVersion)
  guard (payload.isText "runner_id" expectedRunnerId)
  guard (payload.isText "runner_key" expectedRunnerPublicKey)
  let userId ← payload.filled "sub"
  let initiatorKey ← payload.filled "initiator_key"
  let tokenId ← payload.filled "jti"
  let transferId ← payload.filled "transfer_id"
  let issuedAt ← payload.integer "iat"
  let expiresAt ← payload.integer "exp"
  let maxFrameBytes ← payload.integer "max_frame_bytes"
  let maxSessionBytes ← payload.integer "max_session_bytes"
  guard (issuedAt ≤ currentTime + 30 ∧ (currentTime : Int) < expiresAt)
  guard (expiresAt - issuedAt = runnerCapabilityTtlSeconds)
  guard (maxFrameBytes = runnerFrameBytesMax)
  guard (runnerSessionBytesMin ≤ maxSessionBytes ∧ maxSessionBytes ≤ runnerSessionBytesMax)
  let items ← payload.items "scopes"
  guard (validX25519PublicKey usable initiatorKey)
  let scopes ← validateScopes items
  guard (canonicalUuid transferId ∧ (decodeBase64url tokenId).isSome)
  pure {
    userId := userId, runnerId := expectedRunnerId, runnerPublicKey := expectedRunnerPublicKey
    initiatorPublicKey := initiatorKey, transferId := transferId, tokenId := tokenId, scopes := scopes
    issuedAt := issuedAt, expiresAt := expiresAt, maxFrameBytes := maxFrameBytes,
    maxSessionBytes := maxSessionBytes }

structure Issued where
  token : Text
  signingKey : Bytes
  claims : VerifiedRunnerCapability

def verifyRunnerCapability (usable : Bytes → Bool) (issued : List Issued) (token : Text)
    (signingPublicKey : Bytes) (expectedRunnerId expectedRunnerPublicKey : Text)
    (currentTime : Nat) : Option VerifiedRunnerCapability := do
  guard (token ≠ [] ∧ token.length ≤ 8192)
  guard (signingPublicKey.length = 32)
  guard (expectedRunnerId ≠ [])
  guard (validX25519PublicKey usable expectedRunnerPublicKey)
  let found ← issued.find? fun entry => entry.token = token ∧ entry.signingKey = signingPublicKey
  parseVerifiedPayload usable found.claims.payload expectedRunnerId expectedRunnerPublicKey currentTime

variable {usable : Bytes → Bool} {payload : Payload}
  {expectedRunnerId expectedRunnerPublicKey token : Text} {currentTime : Nat}
  {verified : VerifiedRunnerCapability} {signingKey : Bytes} {issued : List Issued}

theorem parse_spec
    (parsed : parseVerifiedPayload usable payload expectedRunnerId expectedRunnerPublicKey
          currentTime = some verified) :
    verified.runnerId = expectedRunnerId ∧ verified.runnerPublicKey = expectedRunnerPublicKey ∧
    (currentTime : Int) < verified.expiresAt ∧ payload.isText "runner_id" expectedRunnerId ∧
    payload.isText "runner_key" expectedRunnerPublicKey ∧
    payload.filled "jti" = some verified.tokenId ∧ payload.integer "exp" = some verified.expiresAt ∧
    payload.filled "initiator_key" = some verified.initiatorPublicKey := by
  simp only [parseVerifiedPayload, bind_eq_bind, bind_eq_some_iff, guard_eq_some', exists_and_left,
    pure_def, some.injEq] at parsed
  obtain ⟨_, _, _, runner, key, _, _, _, _, _, _, _, _, initiator, _, jti, _, _, _, _, _, exp, _, _,
    _, _, ⟨_, unexpired⟩, _, _, _, _, _, _, _, _, _, _, _, _, _, _, _, rfl⟩ := parsed
  exact ⟨rfl, rfl, unexpired, runner, key, jti, exp, initiator⟩

section Payload
variable (claims : VerifiedRunnerCapability)

theorem payload_jti : claims.payload.get "jti" = some (.text claims.tokenId) := rfl

theorem payload_exp : claims.payload.get "exp" = some (.integer claims.expiresAt) := rfl

theorem payload_runnerId : claims.payload.get "runner_id" = some (.text claims.runnerId) := rfl

theorem payload_runnerKey : claims.payload.get "runner_key" = some (.text claims.runnerPublicKey) := rfl

theorem payload_initiatorKey :
    claims.payload.get "initiator_key" = some (.text claims.initiatorPublicKey) := rfl

end Payload

theorem filled_text {value found : Text} (hh : payload.get key = some (.text value))
    (filled : payload.filled key = some found) : found = value := by
  simp only [Payload.filled, hh] at filled
  split at filled
  · cases filled
  · exact (some.inj filled).symm

theorem isText_text {value expected : Text} (hh : payload.get key = some (.text value))
    (hs : payload.isText key expected) : value = expected := by
  simpa [Payload.isText, hh] using hs

theorem integer_integer {value found : Int} (hh : payload.get key = some (.integer value))
    (read : payload.integer key = some found) : found = value := by
  simp only [Payload.integer, hh] at read
  exact (some.inj read).symm

theorem verify_spec
    (verifies : verifyRunnerCapability usable issued token signingKey expectedRunnerId
          expectedRunnerPublicKey currentTime = some verified) :
    (currentTime : Int) < verified.expiresAt ∧
    ∃ entry ∈ issued, entry.token = token ∧ entry.signingKey = signingKey ∧
      entry.claims.runnerId = expectedRunnerId ∧
      entry.claims.runnerPublicKey = expectedRunnerPublicKey ∧
      verified.tokenId = entry.claims.tokenId ∧ verified.expiresAt = entry.claims.expiresAt ∧
      verified.initiatorPublicKey = entry.claims.initiatorPublicKey := by
  simp only [verifyRunnerCapability, bind_eq_bind, bind_eq_some_iff] at verifies
  obtain ⟨_, _, _, _, _, _, _, _, entry, hf, parsed⟩ := verifies
  obtain ⟨_, _, unexpired, runner, key, jti, exp, initiator⟩ := parse_spec parsed
  have test : entry.token = token ∧ entry.signingKey = signingKey := by simpa using List.find?_some hf
  exact ⟨unexpired, entry, List.mem_of_find?_eq_some hf, test.1, test.2,
    isText_text (payload_runnerId _) runner, isText_text (payload_runnerKey _) key,
    filled_text (payload_jti _) jti, integer_integer (payload_exp _) exp,
    filled_text (payload_initiatorKey _) initiator⟩

end Yinshi.Capability
