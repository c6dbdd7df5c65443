import Yinshi.Base.Fragments
import Yinshi.Rpc.Request

/-! The transport of the encrypted runner RPC: the fragment header as both sides write and
read it, and the runner's session between the Noise channel and the worker. -/

namespace Yinshi.Rpc
open ByteText Checked Fragments List

def noiseCiphertextBytesMax : Nat := 65535
def noiseTagBytes : Nat := 16
def noisePlaintextBytesMax : Nat := noiseCiphertextBytesMax - noiseTagBytes
def transportHeaderBytes : Nat := 17
def transportPayloadBytesMax : Nat := noiseCiphertextBytesMax - noiseTagBytes - transportHeaderBytes
def responseBytesMax : Nat := 10 * 1024 * 1024
def transportMagic : Bytes := [89, 82, 80, 49]
def transportRequest : Nat := 1
def transportAck : Nat := 2
def transportResponse : Nat := 3
def transportPull : Nat := 4

def fragmentInvalid : String := "Runner RPC transport fragment is invalid"

structure TransportHeader where
  magic : Bytes
  kind : Nat
  index : Nat
  count : Nat
  total : Nat

def TransportHeader.pack (header : TransportHeader) : Bytes :=
  header.magic ++ beBytes 1 header.kind ++ beBytes 4 header.index ++ beBytes 4 header.count ++
    beBytes 4 header.total

def TransportHeader.unpack (frame : Bytes) : TransportHeader where
  magic := frame.take 4
  kind := beNat ((frame.drop 4).take 1)
  index := beNat ((frame.drop 5).take 4)
  count := beNat ((frame.drop 9).take 4)
  total := beNat ((frame.drop 13).take 4)

def header (kind index count total : Nat) : TransportHeader := ⟨transportMagic, kind, index, count, total⟩

def fragmentCount (total : Nat) : Nat :=
  max 1 ((total + transportPayloadBytesMax - 1) / transportPayloadBytesMax)

theorem fragmentCount_eq (total : Nat) : fragmentCount total = count transportPayloadBytesMax total := rfl

def Fits (value : Nat) : Prop := value < 256 ^ 4

theorem length_pack (kind index count total : Nat) :
    (header kind index count total).pack.length = transportHeaderBytes := by
  simp [TransportHeader.pack, header, transportMagic, transportHeaderBytes]

theorem unpack_pack {kind index count total : Nat} (hs : kind < 256) (indexFits : Fits index)
    (countFits : Fits count) (totalFits : Fits total) (payload : Bytes) :
    TransportHeader.unpack ((header kind index count total).pack ++ payload) =
      header kind index count total := by
  have parts : (header kind index count total).pack ++ payload =
      transportMagic ++ (beBytes 1 kind ++ (beBytes 4 index ++ (beBytes 4 count ++
        (beBytes 4 total ++ payload)))) := by
    simp [TransportHeader.pack, header]
  have cut : ∀ (front rest : Bytes) (skipped length : Nat), front.length = length →
      ((front ++ rest).drop (length + skipped)) = rest.drop skipped := by
    intro _ _ _ _ long
    rw [drop_append, long, drop_of_length_le (by omega), Nat.add_sub_cancel_left, nil_append]
  have magic : (transportMagic : Bytes).length = 4 := rfl
  rw [parts]
  unfold TransportHeader.unpack header
  rw [take_left' magic, drop_left' magic, take_left' (length_beBytes 1 kind),
    beNat_beBytes (by simpa using hs)]
  rw [cut _ _ 1 4 magic, drop_left' (length_beBytes 1 kind), take_left' (length_beBytes 4 index),
    beNat_beBytes indexFits]
  rw [cut _ _ 5 4 magic, cut _ _ 4 1 (length_beBytes 1 kind), drop_left' (length_beBytes 4 index),
    take_left' (length_beBytes 4 count), beNat_beBytes countFits]
  rw [cut _ _ 9 4 magic, cut _ _ 8 1 (length_beBytes 1 kind), cut _ _ 4 4 (length_beBytes 4 index),
    drop_left' (length_beBytes 4 count), take_left' (length_beBytes 4 total),
    beNat_beBytes totalFits]

structure Cipher where
  sealed : Nat → Bytes → Bytes
  opened : Nat → Bytes → Option Bytes
  length_sealed : ∀ number plaintext, (sealed number plaintext).length = plaintext.length + noiseTagBytes
  opened_sealed : ∀ number plaintext, opened number (sealed number plaintext) = some plaintext

structure Noise where
  toRunner : Cipher
  toClient : Cipher

/-- What the session calls: the functions of Python that `_parse_request` uses, `_dispatch`
over a state of the worker, and `json.dumps` of a response body. -/
structure Worker (σ β : Type) where
  python : Python
  dispatch : σ → RunnerRpcRequest → Except RpcError (Nat × β × σ)
  dumps : β → Bytes
  /-- `json.loads` refuses a text that begins with a letter Y. -/
  loads_magic : ∀ hook plaintext, transportMagic <+: plaintext →
    ∃ error, python.loads hook plaintext = .error error

/-- `EncryptedRunnerRpcSession` once its handshake is done. -/
structure Session (σ : Type) where
  worker : σ
  messagesSent : Nat := 0
  messagesReceived : Nat := 0
  failed : Bool := false
  nextRequestSequence : Nat := 0
  requestBuffer : Option Bytes := none
  requestFragmentCount : Nat := 0
  nextRequestFragment : Nat := 0
  responsePayload : Option Bytes := none
  responseFragmentCount : Nat := 0
  nextResponseFragment : Nat := 0

abbrev RunnerM (σ : Type) := EStateM RpcError (Session σ)

section Session
variable {σ β : Type}

def isHistoryBundle (path : Text) : Bool :=
  let front := text "/api/sessions/"
  let id := (path.drop front.length).take 32
  path.take front.length == front && id.length == 32 &&
    id.all (fun c => (48 ≤ c && c ≤ 57) || (97 ≤ c && c ≤ 102)) &&
    path.drop (front.length + 32) == text "/messages/bundle"

def envelope (request : RunnerRpcRequest) (statusCode : Nat) (body : Bytes) : Bytes :=
  bytes "\x7b\"body\":" ++ body ++ bytes ",\"request_id\":\"" ++ request.requestId.map UInt8.ofNat ++
    bytes "\",\"sequence\":" ++ bytes (toString request.sequence) ++ bytes ",\"status\":" ++
    bytes (toString statusCode) ++ bytes ",\"type\":\"response\",\"v\":" ++
    request.version.dumps ++ bytes "\x7d"

def Worker.accept (worker : Worker σ β) (sequence : Nat) (plaintext : Bytes) :
    Except RpcError RunnerRpcRequest := do
  let request ← parseRequest worker.python plaintext sequence
  rejectIf (request.pushes ∧ ¬ (request.method = text "GET" ∧ isHistoryBundle request.path))
    (.value "Runner RPC push response is limited to history bundles")
  pure request

def Worker.answer (worker : Worker σ β) (state : σ) (sequence : Nat) (plaintext : Bytes) :
    Except RpcError (Bytes × RunnerRpcRequest × σ) := do
  let request ← worker.accept sequence plaintext
  let (statusCode, responseBody, state) ← worker.dispatch state request
  return (envelope request statusCode (worker.dumps responseBody), request, state)

def dispatchPayload (worker : Worker σ β) (plaintext : Bytes) :
    RunnerM σ (Bytes × RunnerRpcRequest) := do
  let session ← get
  match worker.answer session.worker session.nextRequestSequence plaintext with
  | .error error => throw error
  | .ok (response, request, state) =>
    set { session with worker := state, nextRequestSequence := session.nextRequestSequence + 1 }
    return (response, request)

def validateFragment (index count total payloadLength totalLimit : Nat) : RunnerM σ Unit :=
  if total < 1 ∨ totalLimit < total ∨ count ≠ fragmentCount total then throw (.value fragmentInvalid)
  else if count ≤ index then throw (.value fragmentInvalid)
  else if payloadLength ≠ min transportPayloadBytesMax (total - index * transportPayloadBytesMax) then
    throw (.value fragmentInvalid)
  else pure ()

def packResponseFragment (response : Bytes) (index count : Nat) : Bytes :=
  let start := index * transportPayloadBytesMax
  let stop := min response.length (start + transportPayloadBytesMax)
  (header transportResponse index count response.length).pack ++ (response.take stop).drop start

def beginFramedResponse (response : Bytes) : RunnerM σ Bytes := do
  if responseBytesMax < response.length then
    throw (.value "Runner RPC response exceeded transport limit")
  let responseCount := fragmentCount response.length
  let first := packResponseFragment response 0 responseCount
  if 1 < responseCount then
    modify fun session => { session with
      responsePayload := some response
      responseFragmentCount := responseCount
      nextResponseFragment := 1 }
  return first

def responseFrames (response : Bytes) (request : RunnerRpcRequest) (forceFramed : Bool) :
    RunnerM σ (List Bytes) := do
  if responseBytesMax < response.length then
    throw (.value "Runner RPC response exceeded transport limit")
  if ¬ forceFramed ∧ response.length ≤ noisePlaintextBytesMax then
    return [response]
  if ¬ request.pushes then
    return [← beginFramedResponse response]
  let responseCount := fragmentCount response.length
  return (List.range responseCount).map fun index => packResponseFragment response index responseCount

def acceptResponsePull (index count total : Nat) (payload : Bytes) : RunnerM σ Bytes := do
  let session ← get
  match session.requestBuffer, session.responsePayload with
  | none, some response =>
    if payload ≠ [] ∨ index ≠ session.nextResponseFragment ∨ count ≠ session.responseFragmentCount ∨
        total ≠ response.length then
      throw (.value fragmentInvalid)
    let fragment := packResponseFragment response index count
    if session.nextResponseFragment + 1 = count then
      set { session with responsePayload := none, responseFragmentCount := 0, nextResponseFragment := 0 }
    else
      set { session with nextResponseFragment := session.nextResponseFragment + 1 }
    return fragment
  | _, _ => throw (.value fragmentInvalid)

/-- The part of `_accept_request_fragment` behind its checks. -/
def storeRequestFragment (worker : Worker σ β) (index count total : Nat) (payload : Bytes) :
    RunnerM σ (List Bytes) := do
  let session ← get
  let buffer := session.requestBuffer.getD []
  if count ≠ session.requestFragmentCount ∨ total ≠ buffer.length ∨
      index ≠ session.nextRequestFragment then
    throw (.value fragmentInvalid)
  let buffer := overwrite buffer (index * transportPayloadBytesMax) payload
  let next := session.nextRequestFragment + 1
  if next < count then
    set { session with requestBuffer := some buffer, nextRequestFragment := next }
    return [(header transportAck index count total).pack]
  set { session with requestBuffer := none, requestFragmentCount := 0, nextRequestFragment := 0 }
  let (response, request) ← dispatchPayload worker buffer
  responseFrames response request true

def acceptRequestFragment (worker : Worker σ β) (index count total : Nat) (payload : Bytes) :
    RunnerM σ (List Bytes) := do
  if (← get).responsePayload.isSome then
    throw (.value fragmentInvalid)
  validateFragment index count total payload.length requestBytesMax
  if (← get).requestBuffer.isNone then
    if index ≠ 0 then
      throw (.value fragmentInvalid)
    modify fun session => { session with
      requestBuffer := some (List.replicate total 0)
      requestFragmentCount := count
      nextRequestFragment := 0 }
  storeRequestFragment worker index count total payload

def handleTransportFrame (worker : Worker σ β) (frame : Bytes) : RunnerM σ (List Bytes) := do
  if frame.length < transportHeaderBytes then
    throw (.value fragmentInvalid)
  let fields := TransportHeader.unpack frame
  let payload := frame.drop transportHeaderBytes
  if fields.magic ≠ transportMagic then
    throw (.value fragmentInvalid)
  if fields.kind = transportRequest then
    acceptRequestFragment worker fields.index fields.count fields.total payload
  else if fields.kind = transportPull then
    return [← acceptResponsePull fields.index fields.count fields.total payload]
  else throw (.value fragmentInvalid)

/-- The frames `handle_frame` answers a plaintext with, before they are encrypted. -/
def handlePlaintext (worker : Worker σ β) (plaintext : Bytes) : RunnerM σ (List Bytes) := do
  if transportMagic.isPrefixOf plaintext then
    handleTransportFrame worker plaintext
  else
    let session ← get
    if session.requestBuffer.isSome ∨ session.responsePayload.isSome then
      throw (.value fragmentInvalid)
    let (response, request) ← dispatchPayload worker plaintext
    responseFrames response request false

/-- The runner's `encrypt`, without the budgets of its capability. -/
def Noise.encrypt (noise : Noise) (plaintext : Bytes) : RunnerM σ Bytes := do
  if noisePlaintextBytesMax < plaintext.length then
    throw (.value "Noise transport plaintext is too large")
  let session ← get
  set { session with messagesSent := session.messagesSent + 1 }
  return noise.toClient.sealed session.messagesSent plaintext

/-- The runner's `decrypt`, without the budgets of its capability. -/
def Noise.decrypt (noise : Noise) (ciphertext : Bytes) : RunnerM σ Bytes := do
  if ¬ (noiseTagBytes ≤ ciphertext.length ∧ ciphertext.length ≤ noiseCiphertextBytesMax) then
    throw (.value "Noise transport ciphertext has an invalid length")
  let session ← get
  match noise.toRunner.opened session.messagesReceived ciphertext with
  | none => throw (.value "Noise transport ciphertext failed authentication")
  | some plaintext =>
    set { session with messagesReceived := session.messagesReceived + 1 }
    return plaintext

def Session.fail (session : Session σ) : Session σ :=
  { session with
    failed := true
    requestBuffer := none
    requestFragmentCount := 0
    nextRequestFragment := 0
    responsePayload := none
    responseFragmentCount := 0
    nextResponseFragment := 0 }

def handleFrame (noise : Noise) (worker : Worker σ β) (ciphertext : Bytes) : RunnerM σ (List Bytes) := do
  if (← get).failed then
    throw (.runtime "Runner RPC session failed and cannot be reused")
  try
    let plaintext ← noise.decrypt ciphertext
    let responses ← handlePlaintext worker plaintext
    responses.mapM noise.encrypt
  catch error =>
    match error with
    | .value _ =>
      modify Session.fail
      throw error
    | _ => throw error

@[simp] theorem get_apply (session : Session σ) :
    (get : RunnerM σ (Session σ)) session = .ok session session :=
  rfl

@[simp] theorem set_apply (next session : Session σ) :
    (set next : RunnerM σ PUnit) session = .ok ⟨⟩ next := rfl

@[simp] theorem modify_apply (f : Session σ → Session σ) (session : Session σ) :
    (modify f : RunnerM σ PUnit) session = .ok ⟨⟩ (f session) := rfl

@[simp] theorem pure_apply {α : Type} (value : α) (session : Session σ) :
    (pure value : RunnerM σ α) session = .ok value session := rfl

theorem bind_apply {α γ : Type} {first : RunnerM σ α} {next : α → RunnerM σ γ}
    {session between : Session σ} {value : α} (ran : first session = .ok value between) :
    (first >>= next) session = next value between := by
  simp [bind, EStateM.bind, ran]

@[simp] theorem get_bind {γ : Type} (next : Session σ → RunnerM σ γ) (session : Session σ) :
    (get >>= next) session = next session session := rfl

@[simp] theorem set_bind {γ : Type} (state session : Session σ) (next : PUnit → RunnerM σ γ) :
    (set state >>= next) session = next ⟨⟩ state := rfl

@[simp] theorem modify_bind {γ : Type} (f : Session σ → Session σ) (session : Session σ)
    (next : PUnit → RunnerM σ γ) : (modify f >>= next) session = next ⟨⟩ (f session) := rfl

@[simp] theorem pure_bind_apply {α γ : Type} (value : α) (next : α → RunnerM σ γ)
    (session : Session σ) : ((pure value : RunnerM σ α) >>= next) session = next value session :=
  rfl

def Session.idle (worker : σ) (sequence sent received : Nat) : Session σ :=
  { worker, messagesSent := sent, messagesReceived := received, nextRequestSequence := sequence }

def Session.counted (session : Session σ) (sent received : Nat) : Session σ :=
  { session with messagesSent := sent, messagesReceived := received }

def Session.receiving (session : Session σ) (buffer : Bytes) (count next : Nat) : Session σ :=
  { session with requestBuffer := some buffer, requestFragmentCount := count, nextRequestFragment := next }

def Session.answering (session : Session σ) (response : Bytes) (next : Nat) : Session σ :=
  { session with
    responsePayload := some response
    responseFragmentCount := fragmentCount response.length
    nextResponseFragment := next }

/-- The session once the fragments before `next` of a pulled response are out. -/
def Session.pulled (session : Session σ) (response : Bytes) (next : Nat) : Session σ :=
  if next < fragmentCount response.length then session.answering response next else session

def requestFragment (request : Bytes) (index : Nat) : Bytes :=
  (header transportRequest index (fragmentCount request.length) request.length).pack ++
    piece transportPayloadBytesMax index request

def responseFragment (response : Bytes) (index : Nat) : Bytes :=
  packResponseFragment response index (fragmentCount response.length)

theorem take_drop_piece (payload : Bytes) (index : Nat) :
    (payload.take
          (min payload.length (index * transportPayloadBytesMax + transportPayloadBytesMax))).drop
        (index * transportPayloadBytesMax) = piece transportPayloadBytesMax index payload := by
  rw [Nat.min_comm, ← take_eq_take_min, drop_take, Nat.add_sub_cancel_left, piece]

theorem responseFragment_eq (response : Bytes) (index : Nat) :
    responseFragment response index =
      (header transportResponse index (fragmentCount response.length) response.length).pack ++
        piece transportPayloadBytesMax index response := by
  rw [responseFragment, packResponseFragment, take_drop_piece]

variable {worker : Worker σ β}

theorem accept_eq_ok {sequence : Nat} {plaintext : Bytes} {request : RunnerRpcRequest}
    (accepted : worker.accept sequence plaintext = .ok request) :
    ¬ transportMagic <+: plaintext ∧ request.sequence = sequence := by
  simp only [Worker.accept, steps_ok] at accepted
  obtain ⟨_, parsed, -, rfl⟩ := accepted
  refine ⟨fun framed => ?_, parseRequest_sequence parsed⟩
  obtain ⟨_, refused⟩ := worker.loads_magic jsonObjectWithoutDuplicates plaintext framed
  simp only [parseRequest, steps_ok] at parsed
  obtain ⟨-, _, loaded, -⟩ := parsed
  cases refused.symm.trans loaded

theorem answer_eq_ok {state state' : σ} {sequence : Nat} {plaintext response : Bytes}
    {request : RunnerRpcRequest}
    (answered : worker.answer state sequence plaintext = .ok (response, request, state')) :
    worker.accept sequence plaintext = .ok request ∧ response.head? = some 123 := by
  simp only [Worker.answer, steps_ok] at answered
  obtain ⟨_, accepted, _, -, ended⟩ := answered
  obtain ⟨rfl, rfl, -⟩ := ended
  exact ⟨accepted, by simp [envelope, bytes]⟩

theorem dispatchPayload_ok (session : Session σ) {plaintext response : Bytes}
    {request : RunnerRpcRequest} {state : σ}
    (ha : worker.answer session.worker session.nextRequestSequence plaintext =
        .ok (response, request, state)) :
    dispatchPayload worker plaintext session =
      .ok (response, request) { session with
          worker := state, nextRequestSequence := session.nextRequestSequence + 1 } := by
  simp [-bind_pure_comp, dispatchPayload, ha]

def answerFrames (response : Bytes) (pushes forceFramed : Bool) : List Bytes :=
  if ¬ forceFramed ∧ response.length ≤ noisePlaintextBytesMax then [response]
  else if pushes then (List.range (fragmentCount response.length)).map (responseFragment response)
  else [responseFragment response 0]

def answerSession (session : Session σ) (response : Bytes) (pushes forceFramed : Bool) : Session σ :=
  if ¬ forceFramed ∧ response.length ≤ noisePlaintextBytesMax then session
  else if pushes then session
  else session.pulled response 1

theorem responseFrames_ok {session : Session σ} {response : Bytes} {request : RunnerRpcRequest}
    (forceFramed : Bool) (hb : response.length ≤ responseBytesMax) :
    responseFrames response request forceFramed session =
      .ok (answerFrames response request.pushes forceFramed)
        (answerSession session response request.pushes forceFramed) := by
  have short : ¬ responseBytesMax < response.length := by omega
  unfold responseFrames answerFrames answerSession
  simp only [short, if_false]
  by_cases hp : ¬ forceFramed ∧ response.length ≤ noisePlaintextBytesMax
  · simp [hp]
  · simp only [hp, if_false]
    cases pushed : request.pushes with
    | true => simp [responseFragment]
    | false =>
      have began : beginFramedResponse response session =
          .ok (responseFragment response 0) (session.pulled response 1) := by
        unfold beginFramedResponse Session.pulled
        by_cases more : 1 < fragmentCount response.length
        · simp [-bind_pure_comp, short, more, responseFragment, Session.answering]
        · simp [short, more, responseFragment]
      simp [bind_apply began]

theorem handlePlaintext_plain {state state' : σ} {sequence sent received : Nat}
    {plaintext response : Bytes} {request : RunnerRpcRequest}
    (ha : worker.answer state sequence plaintext = .ok (response, request, state'))
    (hb : response.length ≤ responseBytesMax) :
    handlePlaintext worker plaintext (Session.idle state sequence sent received) =
      .ok (answerFrames response request.pushes false) (answerSession
          (Session.idle state' (sequence + 1) sent received) response request.pushes false) := by
  have unframed : transportMagic.isPrefixOf plaintext = false := by
    by_contra framed
    exact (accept_eq_ok (answer_eq_ok ha).1).1 <| isPrefixOf_iff_prefix.mp (by simpa using framed)
  have dispatched := dispatchPayload_ok (Session.idle state sequence sent received) ha
  simp only [handlePlaintext, unframed]
  exact (bind_apply dispatched).trans (responseFrames_ok false hb)

theorem Fits.count {total : Nat} (hb : total ≤ responseBytesMax) : Fits (fragmentCount total) := by
  have hs : total ≤ 10485760 := hb
  simp only [Fits, fragmentCount, transportPayloadBytesMax, noiseCiphertextBytesMax, noiseTagBytes,
    transportHeaderBytes]
  omega

theorem Fits.total {total : Nat} (hb : total ≤ responseBytesMax) : Fits total := by
  have hs : total ≤ 10485760 := hb
  simp only [Fits]
  omega

theorem Fits.index {index total : Nat} (hb : total ≤ responseBytesMax)
    (hi : index < fragmentCount total) : Fits index :=
  hi.trans (Fits.count hb)

theorem handlePlaintext_framed (worker : Worker σ β) (session : Session σ) {kind index total : Nat}
    (payload : Bytes) (hs : kind < 256) (hb : total ≤ responseBytesMax) (hi : index < fragmentCount total) :
    handlePlaintext worker ((header kind index (fragmentCount total) total).pack ++ payload) session =
      (if kind = transportRequest then acceptRequestFragment worker index (fragmentCount total) total payload
        else if kind = transportPull then do
          return [← acceptResponsePull index (fragmentCount total) total payload]
        else throw (.value fragmentInvalid) : RunnerM σ (List Bytes)) session := by
  have marked : transportMagic.isPrefixOf
          ((header kind index (fragmentCount total) total).pack ++ payload) = true := by
    simp [TransportHeader.pack, header]
  have long : ¬ ((header kind index (fragmentCount total) total).pack ++ payload).length <
        transportHeaderBytes := by
    rw [length_append, length_pack]
    omega
  have behind : ((header kind index (fragmentCount total) total).pack ++ payload).drop
          transportHeaderBytes = payload :=
    drop_left' (length_pack _ _ _ _)
  have read := unpack_pack hs (Fits.index hb hi) (Fits.count hb) (Fits.total hb) payload
  simp only [handlePlaintext, marked, if_true, handleTransportFrame, long, if_false, read, behind]
  rfl

section Turns
variable {worker : Worker σ β} {state : σ} {sequence sent received : Nat}

theorem handlePlaintext_pull {response : Bytes} {index : Nat}
    (hb : response.length ≤ responseBytesMax) (inside : index < fragmentCount response.length) :
    handlePlaintext worker
        (header transportPull index (fragmentCount response.length) response.length).pack
        ((Session.idle state sequence sent received).answering response index) =
      .ok [responseFragment response index]
        ((Session.idle state sequence sent received).pulled response (index + 1)) := by
  have framed := handlePlaintext_framed worker
        ((Session.idle state sequence sent received).answering response index)
    [] (show transportPull < 256 by decide) hb inside
  rw [append_nil] at framed
  rw [framed]
  have ha : acceptResponsePull index (fragmentCount response.length) response.length []
      ((Session.idle state sequence sent received).answering response index) =
        .ok (responseFragment response index)
          ((Session.idle state sequence sent received).pulled response (index + 1)) := by
    unfold acceptResponsePull
    by_cases last : index + 1 = fragmentCount response.length
    · simp [-bind_pure_comp, Session.answering, Session.pulled, Session.idle, responseFragment, last]
    · have more : index + 1 < fragmentCount response.length := by omega
      simp [-bind_pure_comp, Session.answering, Session.pulled, Session.idle, responseFragment, last, more]
  simp [-bind_pure_comp, transportPull, transportRequest, bind_apply ha]

/-- The session once it holds the fragments of a request before `next`. -/
def Session.Collects (session : Session σ) (request : Bytes) (next : Nat) (now : Session σ) : Prop :=
  next = 0 ∧ now = session ∨
    ∃ buffer, Filled transportPayloadBytesMax request next buffer ∧
      now = session.receiving buffer (fragmentCount request.length) next

theorem validateFragment_piece {request : Bytes} {index : Nat} (session : Session σ)
    (hb : request.length ≤ requestBytesMax) (hi : index < fragmentCount request.length)
    (hn : 0 < request.length) :
    validateFragment index (fragmentCount request.length) request.length
        (piece transportPayloadBytesMax index request).length requestBytesMax session =
      .ok () session := by
  have canonical : ¬ (request.length < 1 ∨ requestBytesMax < request.length ∨
      fragmentCount request.length ≠ fragmentCount request.length) := by
    omega
  have hl : ¬ fragmentCount request.length ≤ index := by omega
  rw [validateFragment, if_neg canonical, if_neg hl, if_neg (by rw [length_piece]; simp)]
  rfl

section Fragment
variable {request : Bytes} {index : Nat}

theorem acceptRequestFragment_first {count total : Nat} {payload : Bytes}
    (hv : ∀ session : Session σ,
        validateFragment 0 count total payload.length requestBytesMax session = .ok () session) :
    acceptRequestFragment worker 0 count total payload (Session.idle state sequence sent received) =
      storeRequestFragment worker 0 count total payload ((Session.idle state sequence sent
            received).receiving (List.replicate total 0) count 0) := by
  simp [acceptRequestFragment, Session.idle, Session.receiving, bind_apply (hv _)]

theorem acceptRequestFragment_later {count total : Nat} {payload buffer : Bytes}
    (hv : ∀ session : Session σ, validateFragment index count total payload.length requestBytesMax
            session = .ok () session) :
    acceptRequestFragment worker index count total payload
        ((Session.idle state sequence sent received).receiving buffer count index) =
      storeRequestFragment worker index count total payload
        ((Session.idle state sequence sent received).receiving buffer count index) := by
  simp [acceptRequestFragment, Session.idle, Session.receiving, bind_apply (hv _)]

theorem acceptRequestFragment_eq (worker : Worker σ β) {now : Session σ}
    (hb : request.length ≤ requestBytesMax) (hn : 0 < request.length)
    (hl : index < fragmentCount request.length)
    (collects : (Session.idle state sequence 0 0).Collects request index now) :
    ∃ buffer, Filled transportPayloadBytesMax request index buffer ∧
      ∀ sent received, acceptRequestFragment worker index (fragmentCount request.length)
            request.length (piece transportPayloadBytesMax index request)
            (now.counted sent received) =
          storeRequestFragment worker index (fragmentCount request.length) request.length
            (piece transportPayloadBytesMax index request) ((Session.idle state sequence sent
                received).receiving buffer (fragmentCount request.length) index) := by
  have hv := fun session : Session σ => validateFragment_piece session hb hl hn
  obtain ⟨rfl, rfl⟩ | ⟨buffer, filled, rfl⟩ := collects
  · exact ⟨_, Filled.start length_replicate, fun _ _ => acceptRequestFragment_first hv⟩
  · exact ⟨buffer, filled, fun _ _ => acceptRequestFragment_later hv⟩

theorem storeRequestFragment_more {buffer payload : Bytes} {count : Nat}
    (more : index + 1 < count) :
    storeRequestFragment worker index count buffer.length payload
        ((Session.idle state sequence sent received).receiving buffer count index) =
      .ok [(header transportAck index count buffer.length).pack] ((Session.idle state sequence sent
            received).receiving (overwrite buffer (index * transportPayloadBytesMax) payload) count
          (index + 1)) := by
  simp [-bind_pure_comp, storeRequestFragment, Session.receiving, Session.idle, more]

theorem storeRequestFragment_last {buffer payload : Bytes} {count : Nat} (last : index + 1 = count)
    (hw : overwrite buffer (index * transportPayloadBytesMax) payload = request) :
    storeRequestFragment worker index count buffer.length payload
        ((Session.idle state sequence sent received).receiving buffer count index) =
      (dispatchPayload worker request >>= fun answer => responseFrames answer.1 answer.2 true)
        (Session.idle state sequence sent received) := by
  simp [storeRequestFragment, Session.receiving, Session.idle, last, hw]

theorem handlePlaintext_more (worker : Worker σ β) {now : Session σ}
    (hb : request.length ≤ requestBytesMax) (hn : 0 < request.length)
    (more : index + 1 < fragmentCount request.length)
    (collects : (Session.idle state sequence 0 0).Collects request index now) :
    ∃ next,
      (Session.idle state sequence 0 0).Collects request (index + 1) next ∧
      ∀ sent received, handlePlaintext worker (requestFragment request index)
            (now.counted sent received) =
          .ok [(header transportAck index (fragmentCount request.length) request.length).pack]
            (next.counted sent received) := by
  have room : request.length ≤ responseBytesMax := hb.trans (by decide)
  have hl : index < fragmentCount request.length := by omega
  have hi : index * transportPayloadBytesMax < request.length := (lt_count_iff (by decide) hn).mp hl
  obtain ⟨_, filled, hs⟩ := acceptRequestFragment_eq worker hb hn hl collects
  refine ⟨_, .inr ⟨_, filled.write hi, rfl⟩, fun sent received => ?_⟩
  have framed := handlePlaintext_framed worker (now.counted sent received)
    (piece transportPayloadBytesMax index request) (show transportRequest < 256 by decide) room hl
  rw [← filled.length] at hs more
  rw [requestFragment, framed, if_pos rfl, ← filled.length, hs, storeRequestFragment_more more]
  rfl

theorem handlePlaintext_last {worker : Worker σ β} {now : Session σ} {response : Bytes}
    {parsed : RunnerRpcRequest} {state' : σ} (hb : request.length ≤ requestBytesMax)
    (hn : 0 < request.length) (last : index + 1 = fragmentCount request.length)
    (collects : (Session.idle state sequence 0 0).Collects request index now)
    (answered : worker.answer state sequence request = .ok (response, parsed, state'))
    (small : response.length ≤ responseBytesMax) (sent received : Nat) :
    handlePlaintext worker (requestFragment request index) (now.counted sent received) =
      .ok (answerFrames response parsed.pushes true) (answerSession
          (Session.idle state' (sequence + 1) sent received) response parsed.pushes true) := by
  have room : request.length ≤ responseBytesMax := hb.trans (by decide)
  have hl : index < fragmentCount request.length := by omega
  have hi : index * transportPayloadBytesMax < request.length := (lt_count_iff (by decide) hn).mp hl
  have framed := handlePlaintext_framed worker (now.counted sent received)
    (piece transportPayloadBytesMax index request) (show transportRequest < 256 by decide) room hl
  obtain ⟨buffer, filled, hs⟩ := acceptRequestFragment_eq worker hb hn hl collects
  have hw : overwrite buffer (index * transportPayloadBytesMax)
      (piece transportPayloadBytesMax index request) = request := by
    refine (filled.write hi).complete ?_
    rw [last, fragmentCount_eq]
    exact le_count_mul (by decide)
  have dispatched := dispatchPayload_ok (Session.idle state sequence sent received) answered
  rw [← filled.length] at hs last
  rw [requestFragment, framed, if_pos rfl, ← filled.length, hs, storeRequestFragment_last last hw]
  exact (bind_apply dispatched).trans (responseFrames_ok true small)

end Fragment

end Turns

end Session

end Yinshi.Rpc
