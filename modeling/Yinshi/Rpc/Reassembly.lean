import Yinshi.Rpc.Exchange

/-! What the runner's session passes to its worker, for any frames at all: the requests it
puts together from fragments. `RpcError.value` stands for `ValueError` and `TypeError`. -/

namespace Yinshi.Rpc
open ByteText Fragments List Option

inductive Taken (σ : Type)
  | refused (session : Session σ)
  | answered (frames : List Bytes) (session : Session σ)
  | request (payload : Bytes) (framed : Bool) (session : Session σ)

section Reassembly
variable {σ β : Type}

def Taken.run (worker : Worker σ β) : Taken σ → EStateM.Result RpcError (Session σ) (List Bytes)
  | .refused session => .error (.value fragmentInvalid) session
  | .answered frames session => .ok frames session
  | .request payload framed session =>
    (dispatchPayload worker payload >>= fun answer => responseFrames answer.1 answer.2 framed) session

def Session.store (session : Session σ) (index count total : Nat) (payload : Bytes) : Taken σ :=
  let buffer := session.requestBuffer.getD []
  if count ≠ session.requestFragmentCount ∨ total ≠ buffer.length ∨ index ≠ session.nextRequestFragment then
    .refused session
  else
    let buffer := overwrite buffer (index * transportPayloadBytesMax) payload
    if session.nextRequestFragment + 1 < count then
      .answered [(header transportAck index count total).pack]
        { session with requestBuffer := some buffer, nextRequestFragment := session.nextRequestFragment + 1 }
    else
      .request buffer true
        { session with requestBuffer := none, requestFragmentCount := 0, nextRequestFragment := 0 }

abbrev Noncanonical (index count total payloadLength : Nat) : Prop :=
  (total < 1 ∨ requestBytesMax < total ∨ count ≠ fragmentCount total) ∨ count ≤ index ∨
    payloadLength ≠ min transportPayloadBytesMax (total - index * transportPayloadBytesMax)

def Session.takeFragment (session : Session σ) (index count total : Nat) (payload : Bytes) : Taken σ :=
  if session.responsePayload.isSome ∨ Noncanonical index count total payload.length then .refused session
  else if session.requestBuffer.isSome then session.store index count total payload
  else if index ≠ 0 then .refused session
  else (session.receiving (List.replicate total 0) count 0).store index count total payload

def Session.takePull (session : Session σ) (index count total : Nat) (payload : Bytes) : Taken σ :=
  match acceptResponsePull index count total payload session with
  | .ok fragment session => .answered [fragment] session
  | .error _ session => .refused session

/-- The way of a plaintext through `handle_frame` up to `_dispatch_payload`. -/
def Session.take (session : Session σ) (plaintext : Bytes) : Taken σ :=
  if transportMagic.isPrefixOf plaintext then
    let fields := TransportHeader.unpack plaintext
    let payload := plaintext.drop transportHeaderBytes
    if plaintext.length < transportHeaderBytes ∨ fields.magic ≠ transportMagic then .refused session
    else if fields.kind = transportRequest then
      session.takeFragment fields.index fields.count fields.total payload
    else if fields.kind = transportPull then session.takePull fields.index fields.count fields.total payload
    else .refused session
  else if session.requestBuffer.isSome ∨ session.responsePayload.isSome then .refused session
  else .request plaintext false session

@[simp] theorem throw_apply {α : Type} (error : RpcError) (session : Session σ) :
    (throw error : RunnerM σ α) session = .error error session := rfl

@[simp] theorem throw_bind {α γ : Type} (error : RpcError) (next : α → RunnerM σ γ)
    (session : Session σ) : ((throw error : RunnerM σ α) >>= next) session = .error error session :=
  rfl

theorem bind_error {α γ : Type} {first : RunnerM σ α} {next : α → RunnerM σ γ}
    {session after : Session σ} {error : RpcError} (hr : first session = .error error after) :
    (first >>= next) session = .error error after := by
  simp [bind, EStateM.bind, hr]

theorem storeRequestFragment_run (worker : Worker σ β) (session : Session σ)
    (index count total : Nat) (payload : Bytes) :
    storeRequestFragment worker index count total payload session =
      (session.store index count total payload).run worker := by
  unfold storeRequestFragment Session.store
  simp only [get_bind]
  split
  · rfl
  · split
    · rfl
    · rfl

theorem validateFragment_run (session : Session σ) (index count total payloadLength : Nat) :
    validateFragment index count total payloadLength requestBytesMax session =
      if Noncanonical index count total payloadLength then .error (.value fragmentInvalid) session
      else .ok () session := by
  unfold validateFragment
  by_cases sized : total < 1 ∨ requestBytesMax < total ∨ count ≠ fragmentCount total
  · rw [if_pos sized, if_pos (.inl sized)]
    rfl
  · by_cases hl : count ≤ index
    · rw [if_neg sized, if_pos hl, if_pos (.inr (.inl hl))]
      rfl
    · by_cases cut : payloadLength ≠ min transportPayloadBytesMax (total - index * transportPayloadBytesMax)
      · rw [if_neg sized, if_neg hl, if_pos cut, if_pos (.inr (.inr cut))]
        rfl
      · rw [if_neg sized, if_neg hl, if_neg cut, if_neg (not_or.mpr ⟨sized, not_or.mpr ⟨hl, cut⟩⟩)]
        rfl

theorem acceptRequestFragment_run (worker : Worker σ β) (session : Session σ)
    (index count total : Nat) (payload : Bytes) :
    acceptRequestFragment worker index count total payload session =
      (session.takeFragment index count total payload).run worker := by
  have hc := validateFragment_run session index count total payload.length
  unfold acceptRequestFragment Session.takeFragment
  by_cases pending : session.responsePayload.isSome
  · simp [pending, Taken.run]
  · by_cases invalid : Noncanonical index count total payload.length
    · rw [if_pos invalid] at hc
      rw [if_pos (.inr invalid)]
      simp [pending, bind_error hc, Taken.run]
    · rw [if_neg invalid] at hc
      rw [if_neg (not_or.mpr ⟨pending, invalid⟩)]
      cases hh : session.requestBuffer with
      | some _ => simp [pending, bind_apply hc, hh, storeRequestFragment_run]
      | none =>
        by_cases first : index = 0
        · subst first
          simp [pending, bind_apply hc, hh, storeRequestFragment_run, Session.receiving]
        · simp [pending, bind_apply hc, hh, first, Taken.run]

theorem acceptResponsePull_cases (session : Session σ) (index count total : Nat) (payload : Bytes) :
    acceptResponsePull index count total payload session = .error (.value fragmentInvalid) session ∨
    session.requestBuffer = none ∧ ∃ fragment response fragments next,
      acceptResponsePull index count total payload session =
        .ok fragment { session with
          responsePayload := response
          responseFragmentCount := fragments
          nextResponseFragment := next } := by
  unfold acceptResponsePull
  cases buffered : session.requestBuffer with
  | some _ => simp [buffered]
  | none =>
    cases pending : session.responsePayload with
    | none => simp [buffered, pending]
    | some response =>
      simp only [get_bind, buffered, pending]
      split
      · exact .inl rfl
      · split
        · exact .inr ⟨trivial, _, _, _, _, rfl⟩
        · exact .inr ⟨trivial, _, some response, session.responseFragmentCount,
              session.nextResponseFragment + 1, rfl⟩

theorem takePull_run (worker : Worker σ β) (session : Session σ) (index count total : Nat)
    (payload : Bytes) :
    (do return [← acceptResponsePull index count total payload] : RunnerM σ (List Bytes)) session =
      (session.takePull index count total payload).run worker := by
  unfold Session.takePull
  obtain hr | ⟨-, _, _, _, _, pulled⟩ := acceptResponsePull_cases session index count total payload
  · rw [hr]
    exact bind_error hr
  · rw [pulled]
    exact bind_apply pulled

theorem handlePlaintext_run (worker : Worker σ β) (session : Session σ) (plaintext : Bytes) :
    handlePlaintext worker plaintext session = (session.take plaintext).run worker := by
  unfold handlePlaintext Session.take
  split
  · simp only [handleTransportFrame]
    split
    · simp [*, Taken.run]
    · split
      · simp [*, Taken.run]
      · split
        · simp [*, acceptRequestFragment_run]
        · split
          · rw [if_neg (by simp [*])]
            exact takePull_run worker session _ _ _ _
          · simp [*, Taken.run]
  · simp only [get_bind]
    split
    · rfl
    · rfl

structure Dispatch where
  payload : Bytes
  framed : Bool
  /-- The decrypted frames up to the one that `_dispatch_payload` was called for. -/
  heard : List Bytes
  /-- What `_dispatch` is called with, if the payload is accepted. -/
  request : Option RunnerRpcRequest
  outcome : Except RpcError Unit

/-- A session with its decrypted frames and its calls of `_dispatch_payload`. -/
structure Transcript (σ : Type) where
  session : Session σ
  heard : List Bytes := []
  dispatched : List Dispatch := []

def Session.read (noise : Noise) (session : Session σ) (ciphertext : Bytes) : Option (Bytes × Session σ) :=
  if session.failed then none
  else
    match noise.decrypt ciphertext session with
    | .ok plaintext session => some (plaintext, session)
    | .error _ _ => none

def Taken.dispatches (worker : Worker σ β) (heard : List Bytes) : Taken σ → List Dispatch
  | .request payload framed session =>
    [{ payload, framed, heard
       request := (worker.accept session.nextRequestSequence payload).toOption
       outcome := (worker.answer session.worker session.nextRequestSequence payload).map fun _ => () }]
  | .refused _ | .answered _ _ => []

def resultState {α : Type} : EStateM.Result RpcError (Session σ) α → Session σ
  | .ok _ session | .error _ session => session

def Transcript.frame (noise : Noise) (worker : Worker σ β) (transcript : Transcript σ)
    (ciphertext : Bytes) : Transcript σ :=
  let session := resultState (handleFrame noise worker ciphertext transcript.session)
  match transcript.session.read noise ciphertext with
  | none => { transcript with session }
  | some (plaintext, opened) =>
    let heard := transcript.heard ++ [plaintext]
    { session, heard, dispatched := transcript.dispatched ++ (opened.take plaintext).dispatches worker heard }

def Transcript.run (noise : Noise) (worker : Worker σ β) (session : Session σ)
    (ciphertexts : List Bytes) : Transcript σ :=
  ciphertexts.foldl (Transcript.frame noise worker) { session }

def requestFrames (framed : Bool) (payload : Bytes) : List Bytes :=
  if framed then (List.range (fragmentCount payload.length)).map (requestFragment payload) else [payload]

def Dispatch.answered (dispatch : Dispatch) : Bool := dispatch.outcome.isOk

/-- The last frames heard are the payload's, behind those of every dispatch before it; the
number in its request counts the answered ones, and none of them was refused. -/
structure Dispatch.Whole (before : List Dispatch) (dispatch : Dispatch) : Prop where
  frames : ∃ earlier, dispatch.heard = earlier ++ requestFrames dispatch.framed dispatch.payload ∧
    ∀ other ∈ before, other.heard <+: earlier
  sequence : ∀ request, dispatch.request = some request → request.sequence = before.countP Dispatch.answered
  clean : ∀ other ∈ before, ∀ message, other.outcome ≠ .error (.value message)

structure Session.Collecting (session : Session σ) (buffer : Bytes) (heard : List Bytes)
    (dispatched : List Dispatch) : Prop where
  fragments : ∃ earlier,
    heard = earlier ++ (List.range session.nextRequestFragment).map (requestFragment buffer) ∧
      ∀ other ∈ dispatched, other.heard <+: earlier
  counted : session.requestFragmentCount = fragmentCount buffer.length
  more : session.nextRequestFragment < session.requestFragmentCount
  nonempty : 0 < buffer.length

structure Session.Coherent (session : Session σ) (heard : List Bytes) (dispatched : List Dispatch) :
    Prop where
  alone : session.requestBuffer = none ∨ session.responsePayload = none
  sequence : session.nextRequestSequence = dispatched.countP Dispatch.answered
  behind : ∀ other ∈ dispatched, other.heard <+: heard
  collecting : ∀ buffer, session.requestBuffer = some buffer → session.Collecting buffer heard dispatched

theorem pack_unpack {frame : Bytes} (long : transportHeaderBytes ≤ frame.length) :
    (TransportHeader.unpack frame).pack ++ frame.drop transportHeaderBytes = frame := by
  have digits : ∀ skipped width, skipped + width ≤ frame.length →
      beBytes width (beNat ((frame.drop skipped).take width)) = (frame.drop skipped).take width := by
    intro skipped width _
    have length : ((frame.drop skipped).take width).length = width := by
      rw [length_take, length_drop]
      omega
    simpa only [length] using beBytes_beNat ((frame.drop skipped).take width)
  have joined : ∀ skipped width,
        frame.take skipped ++ (frame.drop skipped).take width = frame.take (skipped + width) :=
    fun skipped width => (take_add).symm
  simp only [transportHeaderBytes] at long ⊢
  simp only [TransportHeader.pack, TransportHeader.unpack]
  rw [digits 4 1 (by omega), digits 5 4 (by omega), digits 9 4 (by omega), digits 13 4 (by omega),
    joined, joined,
    joined, joined, take_append_drop]

def Taken.Follows (sequence : Nat) (heard : List Bytes) (dispatched : List Dispatch) : Taken σ → Prop
  | .refused after => after.nextRequestSequence = sequence
  | .answered _ after => after.Coherent heard dispatched
  | .request payload framed after =>
    after.requestBuffer = none ∧ after.responsePayload = none ∧ after.nextRequestSequence = sequence ∧
      ∃ earlier, heard = earlier ++ requestFrames framed payload ∧
        ∀ other ∈ dispatched, other.heard <+: earlier

section Frames
variable {session : Session σ} {heard : List Bytes} {dispatched : List Dispatch} {plaintext : Bytes}

theorem Session.Collecting.store {buffer payload : Bytes} {index count total : Nat}
    (collecting : session.Collecting buffer heard dispatched)
    (hh : session.requestBuffer = some buffer) (idle : session.responsePayload = none)
    (sequence : session.nextRequestSequence = dispatched.countP Dispatch.answered)
    (behind : ∀ other ∈ dispatched, other.heard <+: heard)
    (canonical : ¬ Noncanonical index count total payload.length)
    (frame : plaintext = (header transportRequest index count total).pack ++ payload) :
    (session.store index count total payload).Follows session.nextRequestSequence
      (heard ++ [plaintext]) dispatched := by
  obtain ⟨earlier, arrived, ha⟩ := collecting.fragments
  unfold Session.store
  simp only [hh, getD_some]
  split
  · rfl
  · rename_i matched
    simp only [ne_eq, not_or, not_not] at matched canonical
    obtain ⟨rfl, rfl, rfl⟩ := matched
    have hi : session.nextRequestFragment * transportPayloadBytesMax < buffer.length :=
      (lt_count_iff (by decide) collecting.nonempty).mp
        (fragmentCount_eq _ ▸ collecting.counted ▸ collecting.more)
    have length : (overwrite buffer (session.nextRequestFragment * transportPayloadBytesMax) payload).length =
        buffer.length := length_overwrite (by omega)
    have fragments : heard ++ [plaintext] = earlier ++ (range (session.nextRequestFragment + 1)).map
        (requestFragment
          (overwrite buffer (session.nextRequestFragment * transportPayloadBytesMax) payload)) := by
      have last : requestFragment
            (overwrite buffer (session.nextRequestFragment * transportPayloadBytesMax) payload)
          session.nextRequestFragment = plaintext := by
        rw [requestFragment, length, piece_overwrite_self hi canonical.2.2, ← collecting.counted, frame]
      have others : ∀ index ∈ range session.nextRequestFragment,
          requestFragment
            (overwrite buffer (session.nextRequestFragment * transportPayloadBytesMax) payload)
            index =
            requestFragment buffer index := by
        intro _ hm
        rw [requestFragment, length, piece_overwrite_earlier payload hi (mem_range.mp hm)]
        rfl
      rw [arrived, range_succ, map_append, map_congr_left others, append_assoc, map_singleton, last]
    split
    · rename_i more
      refine ⟨.inr idle, sequence, fun other hm => (behind other hm).trans (prefix_append _ _), ?_⟩
      intro _ hs
      obtain rfl := some.inj hs
      refine ⟨⟨earlier, fragments, ha⟩, collecting.counted.trans (by rw [length]), more, ?_⟩
      rw [length]
      exact collecting.nonempty
    · have all : session.nextRequestFragment + 1 = fragmentCount buffer.length := by
        have := collecting.more
        have := collecting.counted
        omega
      refine ⟨rfl, idle, rfl, earlier, ?_, ha⟩
      rw [fragments, requestFrames, if_pos rfl, length, all]

theorem Session.Coherent.takeFragment {index count total : Nat} {payload : Bytes}
    (hc : session.Coherent heard dispatched)
    (frame : plaintext = (header transportRequest index count total).pack ++ payload) :
    (session.takeFragment index count total payload).Follows session.nextRequestSequence
      (heard ++ [plaintext]) dispatched := by
  unfold Session.takeFragment
  split
  · rfl
  · rename_i hp
    obtain ⟨pending, canonical⟩ := not_or.mp hp
    rw [not_isSome_iff_eq_none] at pending
    split
    · rename_i buffered
      obtain ⟨buffer, hh⟩ := isSome_iff_exists.mp buffered
      exact (hc.collecting buffer hh).store hh pending hc.sequence hc.behind canonical frame
    · split
      · rfl
      · have opened : (session.receiving (replicate total 0) count 0).Collecting
            (replicate total 0) heard dispatched := by
          simp only [not_or, not_not] at canonical
          refine ⟨⟨heard, (append_nil heard).symm, hc.behind⟩, ?_, ?_, ?_⟩
          · rw [length_replicate]
            exact canonical.1.2.2
          · exact Nat.lt_of_le_of_lt (Nat.zero_le index) (Nat.lt_of_not_le canonical.2.1)
          · rw [length_replicate]
            omega
        exact opened.store rfl pending hc.sequence hc.behind canonical frame

theorem Session.Coherent.take (hc : session.Coherent heard dispatched) (plaintext : Bytes) :
    (session.take plaintext).Follows session.nextRequestSequence (heard ++ [plaintext])
      dispatched := by
  unfold Session.take
  split
  · simp only
    split
    · rfl
    · rename_i readable
      simp only [ne_eq, not_or, not_not, not_lt] at readable
      split
      · rename_i kind
        apply hc.takeFragment
        conv_lhs => rw [← pack_unpack readable.1]
        rw [header, ← readable.2, ← kind]
      · split
        · unfold Session.takePull
          obtain hr | ⟨empty, _, _, _, _, pulled⟩ := acceptResponsePull_cases session
            (TransportHeader.unpack plaintext).index (TransportHeader.unpack plaintext).count
            (TransportHeader.unpack plaintext).total (plaintext.drop transportHeaderBytes)
          · rw [hr]
            rfl
          · rw [pulled]
            refine ⟨.inl empty, hc.sequence, ?_, fun buffer hh => ?_⟩
            · exact fun other hm => (hc.behind other hm).trans (prefix_append _ _)
            · cases empty.symm.trans hh
        · rfl
  · split
    · rfl
    · rename_i hf
      simp only [not_or, not_isSome_iff_eq_none] at hf
      exact ⟨hf.1, hf.2, rfl, heard, rfl, hc.behind⟩

theorem Session.Coherent.counted (hc : session.Coherent heard dispatched) (sent received : Nat) :
    (session.counted sent received).Coherent heard dispatched :=
  ⟨hc.alone, hc.sequence, hc.behind, fun buffer hh =>
    let collecting := hc.collecting buffer hh
    ⟨collecting.fragments, collecting.counted, collecting.more, collecting.nonempty⟩⟩

theorem Session.Coherent.failed
    (sequence : session.nextRequestSequence = dispatched.countP Dispatch.answered)
    (behind : ∀ other ∈ dispatched, other.heard <+: heard) :
    session.fail.Coherent heard dispatched :=
  ⟨.inl rfl, sequence, behind, nofun⟩

end Frames

theorem mapM_encrypt_state (noise : Noise) (frames : List Bytes) (session : Session σ) :
    ∃ sent,
      (∃ sealed,
          (frames.mapM noise.encrypt : RunnerM σ (List Bytes)) session =
            .ok sealed { session with messagesSent := sent }) ∨
      ∃ message,
        (frames.mapM noise.encrypt : RunnerM σ (List Bytes)) session =
          .error (.value message) { session with messagesSent := sent } := by
  induction frames generalizing session with
  | nil => exact ⟨session.messagesSent, .inl ⟨[], rfl⟩⟩
  | cons frame _ ih =>
    rw [mapM_cons]
    by_cases long : noisePlaintextBytesMax < frame.length
    · have hr : noise.encrypt frame session =
            .error (.value "Noise transport plaintext is too large") session := by
        simp [Noise.encrypt, long]
      exact ⟨session.messagesSent, .inr ⟨_, bind_error hr⟩⟩
    · have first : noise.encrypt frame session = .ok (noise.toClient.sealed session.messagesSent frame)
          { session with messagesSent := session.messagesSent + 1 } := by
        simp [-bind_pure_comp, Noise.encrypt, long]
      rw [bind_apply first]
      obtain ⟨sent, ⟨_, rest⟩ | ⟨message, rest⟩⟩ := ih { session with messagesSent := session.messagesSent + 1 }
      · exact ⟨sent, .inl ⟨_, bind_apply rest⟩⟩
      · exact ⟨sent, .inr ⟨message, bind_error rest⟩⟩

section Frame
variable {noise : Noise} {session opened : Session σ} {plaintext ciphertext : Bytes}

theorem decrypt_cases (noise : Noise) (session : Session σ) (ciphertext : Bytes) :
    (∃ message, noise.decrypt ciphertext session = .error (.value message) session) ∨
    ∃ plaintext, noise.decrypt ciphertext session =
        .ok plaintext { session with messagesReceived := session.messagesReceived + 1 } := by
  unfold Noise.decrypt
  by_cases sized : noiseTagBytes ≤ ciphertext.length ∧ ciphertext.length ≤ noiseCiphertextBytesMax
  · cases opening : noise.toRunner.opened session.messagesReceived ciphertext with
    | none => simp [sized, opening]
    | some _ => simp [-bind_pure_comp, sized, opening]
  · rw [if_pos sized]
    exact .inl ⟨_, rfl⟩

theorem Session.read_eq_some (read : session.read noise ciphertext = some (plaintext, opened)) :
    session.failed = false ∧ noise.decrypt ciphertext session = .ok plaintext opened ∧
    opened = session.counted session.messagesSent (session.messagesReceived + 1) := by
  unfold Session.read at read
  split at read
  · cases read
  · rename_i working
    obtain ⟨_, hr⟩ | ⟨_, decrypted⟩ := decrypt_cases noise session ciphertext
    · rw [hr] at read
      cases read
    · rw [decrypted] at read
      cases read
      exact ⟨by simpa using working, decrypted, rfl⟩

theorem handleFrame_read (worker : Worker σ β)
    (read : session.read noise ciphertext = some (plaintext, opened)) :
    ∃ sent received, resultState (handleFrame noise worker ciphertext session) =
          ((resultState ((opened.take plaintext).run worker)).counted sent received).fail ∨
      resultState (handleFrame noise worker ciphertext session) =
          (resultState ((opened.take plaintext).run worker)).counted sent received ∧
      ∀ message after, (opened.take plaintext).run worker ≠ .error (.value message) after := by
  obtain ⟨working, decrypted, -⟩ := Session.read_eq_some read
  simp only [handleFrame, get_bind, working, Bool.false_eq_true, if_false]
  simp only [tryCatch, tryCatchThe, MonadExceptOf.tryCatch, EStateM.tryCatch]
  rw [bind_apply decrypted]
  cases ran : (opened.take plaintext).run worker with
  | error error after =>
    rw [bind_error ((handlePlaintext_run worker opened plaintext).trans ran)]
    cases error with
    | value message => exact ⟨after.messagesSent, after.messagesReceived, .inl rfl⟩
    | runtime message => exact ⟨after.messagesSent, after.messagesReceived, .inr ⟨rfl, by simp⟩⟩
    | raised message => exact ⟨after.messagesSent, after.messagesReceived, .inr ⟨rfl, by simp⟩⟩
  | ok frames after =>
    rw [bind_apply ((handlePlaintext_run worker opened plaintext).trans ran)]
    obtain ⟨sent, ⟨_, encrypted⟩ | ⟨_, encrypted⟩⟩ := mapM_encrypt_state noise frames after
    · rw [encrypted]
      exact ⟨sent, after.messagesReceived, .inr ⟨rfl, by simp⟩⟩
    · rw [encrypted]
      exact ⟨sent, after.messagesReceived, .inl rfl⟩

theorem request_run (worker : Worker σ β) (payload : Bytes) (framed : Bool)
  (empty : opened.requestBuffer = none) :
    let outcome := (worker.answer opened.worker opened.nextRequestSequence payload).map fun _ => ()
    let after := (Taken.request payload framed opened).run worker
    (resultState after).nextRequestSequence = opened.nextRequestSequence + (if outcome.isOk then 1 else 0) ∧
      (resultState after).requestBuffer = none ∧
      ∀ message, outcome = .error (.value message) → after = .error (.value message) opened := by
  unfold Taken.run
  cases answer : worker.answer opened.worker opened.nextRequestSequence payload with
  | error error =>
    have ran : dispatchPayload worker payload opened = .error error opened := by
      simp [dispatchPayload, answer]
    simp only [bind_error ran]
    exact ⟨rfl, empty, fun message hs => by cases hs; rfl⟩
  | ok result =>
    simp only [bind_apply (dispatchPayload_ok opened answer)]
    by_cases hb : result.1.length ≤ responseBytesMax
    · rw [responseFrames_ok framed hb]
      simp only [resultState, answerSession, Session.pulled, Session.answering]
      refine ⟨?_, ?_, by simp [Except.map]⟩
      · change _ = opened.nextRequestSequence + 1
        split_ifs <;> rfl
      · split_ifs <;> exact empty
    · simp only [responseFrames, if_pos (Nat.lt_of_not_le hb), throw_bind]
      exact ⟨rfl, empty, by simp [Except.map]⟩

end Frame

structure Transcript.Sound (transcript : Transcript σ) : Prop where
  coherent : transcript.session.Coherent transcript.heard transcript.dispatched
  whole : ∀ (index : Nat) dispatch, transcript.dispatched[index]? = some dispatch →
    dispatch.Whole (transcript.dispatched.take index)
  clean : transcript.session.failed = false →
    ∀ other ∈ transcript.dispatched, ∀ message, other.outcome ≠ .error (.value message)

variable {noise : Noise} {worker : Worker σ β} {session : Session σ} {ciphertext : Bytes}

theorem handleFrame_unread (worker : Worker σ β) (hu : session.read noise ciphertext = none) :
    resultState (handleFrame noise worker ciphertext session) = session ∨
    resultState (handleFrame noise worker ciphertext session) = session.fail := by
  cases failed : session.failed with
  | true =>
    left
    simp [handleFrame, failed, resultState]
  | false =>
    simp only [handleFrame, get_bind, failed, Bool.false_eq_true, if_false]
    simp only [tryCatch, tryCatchThe, MonadExceptOf.tryCatch, EStateM.tryCatch]
    simp only [Session.read, failed, Bool.false_eq_true, if_false] at hu
    obtain ⟨_, hr⟩ | ⟨_, decrypted⟩ := decrypt_cases noise session ciphertext
    · right
      rw [bind_error hr]
      rfl
    · rw [decrypted] at hu
      cases hu

theorem Taken.Follows.run {taken : Taken σ} {sequence : Nat} {heard : List Bytes}
    {dispatched : List Dispatch} (hf : taken.Follows sequence heard dispatched)
    (hc : sequence = dispatched.countP Dispatch.answered)
    (behind : ∀ other ∈ dispatched, other.heard <+: heard) (worker : Worker σ β) :
    (resultState (taken.run worker)).nextRequestSequence =
        (dispatched ++ taken.dispatches worker heard).countP Dispatch.answered ∧
    (∀ other ∈ dispatched ++ taken.dispatches worker heard, other.heard <+: heard) ∧
    ((∀ message after, taken.run worker ≠ .error (.value message) after) →
      (resultState (taken.run worker)).Coherent heard
          (dispatched ++ taken.dispatches worker heard) ∧
      ∀ other ∈ taken.dispatches worker heard, ∀ message,
        other.outcome ≠ .error (.value message)) := by
  cases taken with
  | refused after =>
    rw [dispatches, append_nil]
    exact ⟨Eq.trans hf hc, behind, fun ha => absurd rfl (ha _ _)⟩
  | answered _ after =>
    rw [dispatches, append_nil]
    exact ⟨hf.sequence, behind, fun _ => ⟨hf, nofun⟩⟩
  | request payload framed after =>
    obtain ⟨empty, -, hs, -⟩ := hf
    obtain ⟨next, none, hr⟩ := request_run worker payload framed empty
    have number : (resultState ((Taken.request payload framed after).run worker)).nextRequestSequence =
        (dispatched ++ (Taken.request payload framed after).dispatches worker heard).countP
          Dispatch.answered := by
      rw [next, dispatches, countP_append, countP_singleton, ← hc, ← hs]
      rfl
    have reached : ∀ other ∈ dispatched ++ (Taken.request payload framed after).dispatches worker heard,
        other.heard <+: heard := by
      simp only [dispatches, forall_mem_append, forall_mem_singleton]
      exact ⟨behind, prefix_rfl⟩
    refine ⟨number, reached, fun ha => ⟨⟨.inl none, number, reached, ?_⟩, ?_⟩⟩
    · intro _ hh
      cases none.symm.trans hh
    · simp only [dispatches, forall_mem_singleton]
      exact fun message hs => ha message _ (hr message hs)

theorem accept_sequence {sequence : Nat} {payload : Bytes} {request : RunnerRpcRequest}
    (made : (worker.accept sequence payload).toOption = some request) :
    request.sequence = sequence := by
  cases accepted : worker.accept sequence payload with
  | error _ =>
    rw [accepted] at made
    cases made
  | ok _ =>
    rw [accepted] at made
    cases made
    exact (accept_eq_ok accepted).2

theorem Taken.Follows.whole {taken : Taken σ} {heard : List Bytes} {dispatched : List Dispatch}
    (follows : taken.Follows (dispatched.countP Dispatch.answered) heard dispatched)
    (clean : ∀ other ∈ dispatched, ∀ message, other.outcome ≠ .error (.value message)) (index : Nat)
    {dispatch : Dispatch} (hl : (taken.dispatches worker heard)[index]? = some dispatch) :
    index = 0 ∧ dispatch.Whole dispatched := by
  cases taken with
  | refused after => cases hl
  | answered frames after => cases hl
  | request _ _ _ =>
    obtain ⟨-, -, counted, frames⟩ := follows
    rw [dispatches, getElem?_singleton] at hl
    split at hl
    · cases hl
      refine ⟨‹_›, frames, fun request made => ?_, clean⟩
      rw [accept_sequence made, counted]
    · cases hl

theorem Transcript.Sound.frame {transcript : Transcript σ} (sound : transcript.Sound)
    (ciphertext : Bytes) : (transcript.frame noise worker ciphertext).Sound := by
  obtain ⟨hc, hw, clean⟩ := sound
  unfold Transcript.frame
  cases reading : transcript.session.read noise ciphertext with
  | none =>
    simp only
    obtain hs | failed := handleFrame_unread worker reading
    · exact ⟨by rwa [hs], hw, by rwa [hs]⟩
    · refine ⟨?_, hw, ?_⟩
      · rw [failed]
        exact .failed hc.sequence hc.behind
      · rw [failed]
        exact nofun
  | some read =>
    obtain ⟨plaintext, _⟩ := read
    obtain ⟨working, -, rfl⟩ := Session.read_eq_some reading
    have hf := (hc.counted transcript.session.messagesSent
          (transcript.session.messagesReceived + 1)).take plaintext
    have handled := handleFrame_read worker reading
    have behind : ∀ other ∈ transcript.dispatched, other.heard <+: transcript.heard ++ [plaintext] :=
      fun other hm => (hc.behind other hm).trans (prefix_append _ _)
    simp only
    generalize Session.take _ plaintext = taken at hf handled ⊢
    obtain ⟨number, hr, ha⟩ := hf.run hc.sequence behind worker
    have each : ∀ (index : Nat) dispatch,
        (transcript.dispatched ++
            taken.dispatches worker (transcript.heard ++ [plaintext]))[index]? = some dispatch →
        dispatch.Whole
          ((transcript.dispatched ++ taken.dispatches worker (transcript.heard ++ [plaintext])).take
            index) := by
      intro index dispatch hl
      rw [getElem?_append] at hl
      split at hl
      · rename_i old
        rw [take_append_of_le_length old.le]
        exact hw index dispatch hl
      · obtain ⟨_, _⟩ := (hc.sequence ▸ hf).whole (clean working) _ hl
        obtain rfl : index = transcript.dispatched.length := by omega
        rwa [take_left]
    obtain ⟨sent, received, failed | ⟨after, hk⟩⟩ := handled
    · refine ⟨?_, each, ?_⟩
      · rw [failed]
        exact .failed number hr
      · rw [failed]
        exact nofun
    · obtain ⟨next, fresh⟩ := ha hk
      refine ⟨?_, each, fun _ => ?_⟩
      · rw [after]
        exact next.counted sent received
      · exact forall_mem_append.mpr ⟨clean working, fresh⟩

theorem Transcript.Sound.run (noise : Noise) (worker : Worker σ β) (state : σ) (sent received : Nat)
    (ciphertexts : List Bytes) :
    (Transcript.run noise worker (.idle state 0 sent received) ciphertexts).Sound := by
  induction ciphertexts using reverseRecOn with
  | nil => exact ⟨⟨.inl rfl, rfl, nofun, nofun⟩, nofun, nofun⟩
  | append_singleton _ ciphertext ih =>
    rw [Transcript.run, foldl_concat]
    exact ih.frame ciphertext

theorem Transcript.run_failed (transcript : Transcript σ) (failed : transcript.session.failed)
    (ciphertexts : List Bytes) :
    ciphertexts.foldl (Transcript.frame noise worker) transcript = transcript := by
  induction ciphertexts with
  | nil => rfl
  | cons ciphertext _ ih =>
    have hk : transcript.frame noise worker ciphertext = transcript := by
      simp [Transcript.frame, Session.read, handleFrame, failed, resultState]
    rw [foldl_cons, hk, ih]

theorem handleFrame_refused {message : String} {after : Session σ}
    (hr : handleFrame noise worker ciphertext session = .error (.value message) after) :
    after.failed := by
  unfold handleFrame at hr
  rw [get_bind] at hr
  split at hr
  · cases hr
  · simp only [tryCatch, tryCatchThe, MonadExceptOf.tryCatch, EStateM.tryCatch] at hr
    split at hr
    · rename_i error between _
      cases error with
      | value text =>
        cases hr
        rfl
      | runtime text => cases hr
      | raised _ => cases hr
    · rename_i hk
      cases hk _ _ hr

/-- A request is dispatched from nothing but its own consecutive fragments, or from one plain
frame; a number is dispatched again only after an error that did not fail the session; and
nothing is dispatched behind a refusal. -/
theorem requests_reassembled (noise : Noise) (worker : Worker σ β) (state : σ) (sent received : Nat)
    (ciphertexts : List Bytes) :
    let transcript := Transcript.run noise worker (.idle state 0 sent received) ciphertexts
    (transcript.session.requestBuffer = none ∨ transcript.session.responsePayload = none) ∧
      (∀ (index : Nat) dispatch, transcript.dispatched[index]? = some dispatch →
        dispatch.Whole (transcript.dispatched.take index) ∧
          dispatch.payload = (range (fragmentCount dispatch.payload.length)).flatMap
            (piece transportPayloadBytesMax · dispatch.payload)) ∧
      ∀ ciphertext message after later,
        handleFrame noise worker ciphertext transcript.session = .error (.value message) after →
          (Transcript.run noise worker (.idle state 0 sent received)
              (ciphertexts ++ ciphertext :: later)).dispatched =
            (transcript.frame noise worker ciphertext).dispatched := by
  have hs := Transcript.Sound.run noise worker state sent received ciphertexts
  refine ⟨hs.coherent.alone, fun index dispatch hl => ⟨hs.whole index dispatch hl, ?_⟩, ?_⟩
  · rw [flatMap_piece, take_of_length_le (fragmentCount_eq _ ▸ le_count_mul (by decide))]
  · intro ciphertext _ _ later hr
    have failed : ((Transcript.run noise worker (.idle state 0 sent received) ciphertexts).frame noise worker
        ciphertext).session.failed := by
      unfold Transcript.frame
      rw [hr]
      split
      · exact handleFrame_refused hr
      · exact handleFrame_refused hr
    rw [Transcript.run, foldl_append, foldl_cons]
    exact congrArg Transcript.dispatched (Transcript.run_failed _ failed later)

end Reassembly

def repositoriesText : Bytes :=
  bytes "\x7b\"body\":null,\"method\":\"GET\",\"path\":\"/api/repos\",\"query\":\x7b\x7d," ++
    bytes
      "\"request_id\":\"0b4bd3f2-6e0f-4f3c-9d6b-0c5f4a7f7e11\",\"sequence\":0,\"type\":\"request\",\"v\":2\x7d"

def repositoriesMembers : Payload :=
  sampleMembers { sampleRequest [] with
      body := .null, method := text "GET", path := text "/api/repos", query := [] }

def brokenWorker : Worker Nat Json :=
  { sampleWorker repositoriesText repositoriesMembers rfl with
    dispatch := fun _ _ => .error (.runtime "worker response exceeded the size limit") }

theorem number_dispatched_twice :
    let frame := plainCipher.sealed 0 repositoriesText
    (Transcript.run ⟨plainCipher, plainCipher⟩ brokenWorker (.idle 0 0 0 0) [frame, frame]).dispatched.map
      (fun dispatch => dispatch.request.map (·.sequence)) = [some 0, some 0] := by
  decide +kernel

end Yinshi.Rpc
