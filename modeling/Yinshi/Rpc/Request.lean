import Mathlib.Data.List.Infix
import Yinshi.Base.ByteText
import Yinshi.Base.Checked

/-! The requests of the encrypted runner RPC and `_parse_request`, which checks their shape,
their order and their fields. -/

namespace Yinshi.Rpc
open ByteText Checked List

def requestBytesMax : Nat := 2 * 1024 * 1024

/-- What the runner's session raises; `raised` is any other exception of the worker. -/
inductive RpcError
  | value (message : String)
  | runtime (message : String)
  | raised (message : String)

/-- What `json.loads` returns; a float is given by the bits of its double. -/
inductive Json
  | null
  | bool (value : Bool)
  | integer (value : Int)
  | float (bits : Nat)
  | text (value : Text)
  | list (items : List Json)
  | object (members : List (Text × Json))

abbrev Payload : Type := List (Text × Json)

def Json.members : Json → Option Payload
  | .object members => some members
  | _ => none

def Json.string : Json → Option Text
  | .text value => some value
  | _ => none

namespace Payload

def get (payload : Payload) (key : String) : Option Json := payload.lookup (text key)

def string (payload : Payload) (key : String) : Option Text := (payload.get key).bind Json.string

def filled (payload : Payload) (key : String) : Option Text := (payload.string key).filter (· ≠ [])

def integer (payload : Payload) (key : String) : Option Int :=
  match payload.get key with
  | some (.integer value) => some value
  | _ => none

def hasKeys (payload : Payload) (keys : List Text) : Bool :=
  payload.all (fun member => member.1 ∈ keys) && keys.all (· ∈ payload.map (·.1))

end Payload

def jsonObjectWithoutDuplicates (pairs : Payload) : Except RpcError Json :=
  if (pairs.map (·.1)).Nodup then .ok (.object pairs)
  else .error (.value "Runner RPC JSON object keys must be unique")

/-- The values of `v` that equal 1 or 2, for which Python takes `true` and floats as well. -/
inductive Version
  | one
  | two
  | true
  | floatOne
  | floatTwo

namespace Version

def number : Version → Nat
  | .one | .true | .floatOne => 1
  | .two | .floatTwo => 2

def dumps : Version → Bytes
  | .one => bytes "1"
  | .two => bytes "2"
  | .true => bytes "true"
  | .floatOne => bytes "1.0"
  | .floatTwo => bytes "2.0"

def of : Json → Option Version
  | .integer value => if value = 1 then some .one else if value = 2 then some .two else none
  | .bool value => if value then some .true else none
  | .float bits =>
    if bits = 0x3ff0000000000000 then some .floatOne
    else if bits = 0x4000000000000000 then some .floatTwo else none
  | _ => none

end Version

structure RunnerRpcRequest where
  version : Version
  sequence : Int
  requestId : Text
  method : Text
  path : Text
  body : Json
  query : List (Text × Text)
  /-- `response_mode == "push"`; the only other value is `None`. -/
  pushes : Bool

def requestKeysV1 : List Text := ["body", "method", "path", "request_id", "sequence", "type", "v"].map text

def requestKeysV2 : List Text := requestKeysV1 ++ [text "query"]

def requestKeysV2Push : List Text := requestKeysV2 ++ [text "response_mode"]

def validShape (payload : Payload) : Option Version :=
  ((payload.get "v").bind Version.of).filter fun version =>
    version.number = 1 ∧ payload.hasKeys requestKeysV1 ∨
      version.number = 2 ∧ (payload.hasKeys requestKeysV2 ∨ payload.hasKeys requestKeysV2Push)

/-- What `_parse_request` uses of Python: `json.loads` with its hook, `str(uuid.UUID(value))`
unless it raises, and `str.isalnum`. -/
structure Python where
  loads : (Payload → Except RpcError Json) → Bytes → Except RpcError Json
  uuid : Text → Option Text
  isalnum : Text → Bool

def isNormalized (path : Text) : Bool :=
  63 ∉ path ∧ 35 ∉ path ∧ ¬ text ".." <:+: path ∧ 92 ∉ path ∧ 0 ∉ path

def parseQueryItem (python : Python) (member : Text × Json) : Except RpcError (Text × Text) := do
  rejectIf (member.1 = [] ∨ 64 < member.1.length) (.value "Runner RPC query key is invalid")
  rejectIf (python.isalnum (member.1.filter (· ≠ 95)) = false) (.value "Runner RPC query key is invalid")
  let value ← orRaise (.value "Runner RPC query value is invalid") member.2.string
  rejectIf (2048 < value.length) (.value "Runner RPC query value is invalid")
  pure (member.1, value)

def parsePayload (python : Python) (payload : Payload) (expectedSequence : Nat) :
    Except RpcError RunnerRpcRequest := do
  let version ← orRaise (.value "Runner RPC request has an invalid shape or version") (validShape payload)
  rejectIf ((payload.get "response_mode").isSome ∧ payload.string "response_mode" ≠ some (text "push"))
    (.value "Runner RPC response_mode is unsupported")
  rejectIf (payload.string "type" ≠ some (text "request"))
    (.value "Runner RPC request has an unsupported type")
  let sequence ← orRaise (.value "Runner RPC request sequence is out of order") (payload.integer "sequence")
  rejectIf (sequence ≠ expectedSequence) (.value "Runner RPC request sequence is out of order")
  let requestId ← orRaise (.value "Runner RPC request_id must not be empty") (payload.filled "request_id")
  let normalized ← orRaise (.value "Runner RPC request_id must be a UUID") (python.uuid requestId)
  rejectIf (normalized ≠ requestId) (.value "Runner RPC request_id must be canonical")
  let method ← orRaise (.value "Runner RPC method must not be empty") (payload.filled "method")
  let path ← orRaise (.value "Runner RPC path must be absolute") (payload.string "path")
  rejectIf (path.head? ≠ some 47) (.value "Runner RPC path must be absolute")
  rejectIf (isNormalized path = false) (.value "Runner RPC path must be normalized")
  let members ← orRaise (.value "Runner RPC query must be a bounded object")
    (((payload.get "query").getD (.object [])).members.filter fun members => members.length ≤ 16)
  let query ← members.mapM (parseQueryItem python)
  pure { version, sequence, requestId := normalized, method, path, query
         body := (payload.get "body").getD .null
         pushes := (payload.get "response_mode").isSome }

def parseRequest (python : Python) (plaintext : Bytes) (expectedSequence : Nat) :
    Except RpcError RunnerRpcRequest := do
  rejectIf (plaintext = [] ∨ requestBytesMax < plaintext.length)
    (.value "Runner RPC request has an invalid length")
  let loaded ← python.loads jsonObjectWithoutDuplicates plaintext
  let payload ← orRaise (.value "Runner RPC request has an invalid shape") loaded.members
  parsePayload python payload expectedSequence

section Parse
variable {python : Python} {plaintext : Bytes} {payload : Payload} {expectedSequence : Nat}
  {request : RunnerRpcRequest}

theorem parsePayload_sequence
    (parsed : parsePayload python payload expectedSequence = .ok request) :
    payload.integer "sequence" = some request.sequence ∧ request.sequence = expectedSequence := by
  simp only [parsePayload, steps_ok, not_not] at parsed
  obtain ⟨_, -, -, -, sequence, own, expected, _, -, _, -, -, _, -, _, -, -, -, _, -, _, -, rfl⟩ := parsed
  exact ⟨own, expected⟩

theorem parseRequest_sequence
    (parsed : parseRequest python plaintext expectedSequence = .ok request) :
    request.sequence = expectedSequence := by
  simp only [parseRequest, steps_ok] at parsed
  obtain ⟨-, _, -, _, -, parsed⟩ := parsed
  exact (parsePayload_sequence parsed).2

end Parse

end Yinshi.Rpc
