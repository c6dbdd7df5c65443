import Yinshi.Rpc.Session

/-! The client of the encrypted runner RPC. Its asynchronous functions are programs whose
steps are the calls of the Noise initiator, of the socket and of the inbox. -/

namespace Yinshi.Rpc
open ByteText Fragments

structure TransportFragment where
  kind : Nat
  index : Nat
  count : Nat
  total : Nat
  payload : Bytes

def ceilingCount (total : Nat) : Nat :=
  max 1 (total / transportPayloadBytesMax + if total % transportPayloadBytesMax = 0 then 0 else 1)

def packTransportFragment (kind index count total : Nat) (payload : Bytes) : Bytes :=
  (header kind index count total).pack ++ payload

def parseTransportFragment (frame : Bytes) (totalLimit : Nat) : Except String TransportFragment :=
  if frame.length < transportHeaderBytes then .error fragmentInvalid
  else
    let fields := TransportHeader.unpack frame
    if fields.magic ≠ transportMagic then .error fragmentInvalid
    else if fields.total < 1 ∨ totalLimit < fields.total ∨ fields.count ≠ ceilingCount fields.total ∨
        fields.count ≤ fields.index then .error fragmentInvalid
    else if frame.length ≠ transportHeaderBytes +
        min transportPayloadBytesMax (fields.total - fields.index * transportPayloadBytesMax) then
      .error fragmentInvalid
    else .ok ⟨fields.kind, fields.index, fields.count, fields.total, frame.drop transportHeaderBytes⟩

def parseTransportAck (frame : Bytes) (expectedIndex expectedCount expectedTotal : Nat) :
    Except String Unit :=
  let fields := TransportHeader.unpack frame
  if frame.length ≠ transportHeaderBytes then .error fragmentInvalid
  else if fields.magic ≠ transportMagic then .error fragmentInvalid
  else if fields.kind ≠ transportAck ∨ fields.index ≠ expectedIndex ∨ fields.count ≠ expectedCount ∨
      fields.total ≠ expectedTotal then .error fragmentInvalid
  else .ok ()

def hasTransportMagic (value : Bytes) : Bool := transportMagic.isPrefixOf value

theorem ceilingCount_eq (total : Nat) : ceilingCount total = fragmentCount total := by
  have size : transportPayloadBytesMax = 65502 := rfl
  unfold ceilingCount fragmentCount
  by_cases hw : total % transportPayloadBytesMax = 0
  · rw [if_pos hw, size]
    rw [size] at hw
    omega
  · rw [if_neg hw, size]
    rw [size] at hw
    omega

/-- What the client does next, and what it then does with the answer. -/
inductive Client (α : Type)
  | done (value : α)
  | raise (message : String)
  | encrypt (plaintext : Bytes) (next : Bytes → Client α)
  | decrypt (ciphertext : Bytes) (next : Bytes → Client α)
  | send (ciphertext : Bytes) (next : Client α)
  | receive (next : Bytes → Client α)

namespace Client
variable {α β γ : Type}

def bind : Client α → (α → Client β) → Client β
  | .done value, f => f value
  | .raise message, _ => .raise message
  | .encrypt plaintext next, f => .encrypt plaintext fun c => (next c).bind f
  | .decrypt ciphertext next, f => .decrypt ciphertext fun p => (next p).bind f
  | .send ciphertext next, f => .send ciphertext (next.bind f)
  | .receive next, f => .receive fun c => (next c).bind f

instance : Monad Client where
  pure := .done
  bind := bind

theorem bind_assoc (program : Client α) (f : α → Client β) (g : β → Client γ) :
    (program.bind f).bind g = program.bind fun value => (f value).bind g := by
  induction program with
  | done _ => rfl
  | raise _ => rfl
  | encrypt plaintext next ih | receive next ih | send ciphertext next ih
  | decrypt _ _ ih => simp only [bind, ih]

theorem bind_done (program : Client α) : program.bind .done = program := by
  induction program with
  | done _ => rfl
  | raise _ => rfl
  | encrypt plaintext next ih | receive next ih | send ciphertext next ih
  | decrypt _ _ ih => simp only [bind, ih]

def check : Except String α → Client α
  | .ok value => .done value
  | .error message => .raise message

end Client

/-- `exchangeEncryptedFrame`. The source asks the inbox before it sends; the answer is the
first frame to come either way. -/
def exchangeEncryptedFrame (plaintext : Bytes) : Client Bytes :=
  .encrypt plaintext fun ciphertext =>
    if noiseCiphertextBytesMax < ciphertext.length then .raise "Runner RPC encrypted fragment is too large"
    else .send ciphertext (.receive fun encryptedResponse => .decrypt encryptedResponse .done)

def receiveEncryptedFrame : Client Bytes := .receive fun frame => .decrypt frame .done

def nextResponseFrame (pushResponse : Bool) (index count total : Nat) : Client Bytes :=
  if pushResponse then receiveEncryptedFrame
  else exchangeEncryptedFrame (packTransportFragment transportPull index count total [])

/-- The loop of `collectFramedResponse` with the number of its remaining rounds. -/
def collectFragments (pushResponse : Bool) :
    Nat → Nat → TransportFragment → Bytes → Client Bytes
  | 0, _, _, response => .done response
  | remaining + 1, index, fragment, response => do
      let plaintext ← nextResponseFrame pushResponse index fragment.count fragment.total
      let nextFragment ← Client.check (parseTransportFragment plaintext responseBytesMax)
      if nextFragment.kind ≠ transportResponse ∨ nextFragment.index ≠ index ∨
          nextFragment.count ≠ fragment.count ∨ nextFragment.total ≠ fragment.total then
        .raise fragmentInvalid
      else
        collectFragments pushResponse remaining (index + 1) nextFragment
          (overwrite response (index * transportPayloadBytesMax) nextFragment.payload)

/-- `collectFramedResponse`. The writes into the response stay in range: a parsed fragment
ends inside its total. -/
def collectFramedResponse (firstResponse : Bytes) (pushResponse : Bool) : Client Bytes := do
  let fragment ← Client.check (parseTransportFragment firstResponse responseBytesMax)
  if fragment.kind ≠ transportResponse ∨ fragment.index ≠ 0 then .raise fragmentInvalid
  else
    collectFragments pushResponse (fragment.count - 1) 1 fragment
      (overwrite (List.replicate fragment.total 0) 0 fragment.payload)

/-- The loop of `exchangeRpcPayload` with the number of its remaining rounds. -/
def exchangeFragments (request : Bytes) (requestCount : Nat) :
    Nat → Nat → Option Bytes → Client (Option Bytes)
  | 0, _, firstResponse => .done firstResponse
  | remaining + 1, index, firstResponse => do
      let start := index * transportPayloadBytesMax
      let stop := min request.length (start + transportPayloadBytesMax)
      let response ← exchangeEncryptedFrame (packTransportFragment transportRequest index requestCount
        request.length ((request.take stop).drop start))
      if index + 1 < requestCount then
        Client.check (parseTransportAck response index requestCount request.length)
        exchangeFragments request requestCount remaining (index + 1) firstResponse
      else exchangeFragments request requestCount remaining (index + 1) (some response)

def exchangeRpcPayload (request : Bytes) (pushResponse : Bool) : Client Bytes :=
  if request.length < 1 ∨ requestBytesMax < request.length then .raise "Runner RPC request is too large"
  else if request.length ≤ noisePlaintextBytesMax then do
    let response ← exchangeEncryptedFrame request
    if hasTransportMagic response then collectFramedResponse response pushResponse
    else return response
  else do
    let requestCount := ceilingCount request.length
    match ← exchangeFragments request requestCount requestCount 0 none with
    | none => .raise fragmentInvalid
    | some firstResponse => collectFramedResponse firstResponse pushResponse

theorem parseTransportFragment_response {response : Bytes} {index : Nat} (hn : 0 < response.length)
    (bounded : response.length ≤ responseBytesMax) (hl : index < fragmentCount response.length) :
    parseTransportFragment (responseFragment response index) responseBytesMax =
      .ok ⟨transportResponse, index, fragmentCount response.length, response.length,
          piece transportPayloadBytesMax index response⟩ := by
  have read := unpack_pack (show transportResponse < 256 by decide) (Fits.index bounded hl)
    (Fits.count bounded) (Fits.total bounded) (piece transportPayloadBytesMax index response)
  have behind := @List.drop_left' _ _ (piece transportPayloadBytesMax index response) _
    (length_pack transportResponse index (fragmentCount response.length) response.length)
  have long : (responseFragment response index).length = transportHeaderBytes +
      min transportPayloadBytesMax (response.length - index * transportPayloadBytesMax) := by
    rw [responseFragment_eq, List.length_append, length_pack, length_piece]
  unfold parseTransportFragment
  rw [long, responseFragment_eq, read, behind]
  rw [if_neg (by omega), if_neg (by simp [header]), if_neg, if_neg (by simp [header])]
  · rfl
  · simp only [header, ceilingCount_eq]
    omega

theorem parseTransportAck_request {request : Bytes} {index : Nat}
    (hb : request.length ≤ responseBytesMax) (hl : index < fragmentCount request.length) :
    parseTransportAck (header transportAck index (fragmentCount request.length) request.length).pack
        index (fragmentCount request.length) request.length = .ok () := by
  have read := unpack_pack (show transportAck < 256 by decide) (Fits.index hb hl) (Fits.count hb)
      (Fits.total hb) []
  rw [List.append_nil] at read
  simp only [parseTransportAck, read, length_pack]
  simp [header]

end Yinshi.Rpc
