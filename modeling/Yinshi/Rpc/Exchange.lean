import Yinshi.Base.Runs
import Yinshi.Rpc.Client

/-! The client and the runner over an ordered lossless channel. Frames wait in the order in
which they were sent; the client and the runner act whenever they can. -/

namespace Yinshi.Rpc
open ByteText Fragments Runs List

variable {σ β : Type}

structure Wire (σ : Type) where
  sent : Nat
  received : Nat
  outbox : List Bytes
  inbox : List Bytes
  runner : Session σ
  closed : Bool

def clientStep (noise : Noise) {α : Type} : Client α → Wire σ → Option (Client α × Wire σ)
  | .done _, _ => none
  | .raise _, _ => none
  | .encrypt plaintext next, wire =>
    if noisePlaintextBytesMax < plaintext.length then
      some (.raise "Noise transport plaintext is too large", wire)
    else some (next (noise.toRunner.sealed wire.sent plaintext), { wire with sent := wire.sent + 1 })
  | .decrypt ciphertext next, wire =>
    if ciphertext.length < noiseTagBytes ∨ noiseCiphertextBytesMax < ciphertext.length then
      some (.raise "Noise transport ciphertext has an invalid length", wire)
    else
      match noise.toClient.opened wire.received ciphertext with
      | none => some (.raise "Noise transport ciphertext failed authentication", wire)
      | some plaintext => some (next plaintext, { wire with received := wire.received + 1 })
  | .send ciphertext next, wire => some (next, { wire with outbox := wire.outbox ++ [ciphertext] })
  | .receive next, wire =>
    match wire.inbox with
    | frame :: inbox => some (next frame, { wire with inbox })
    | [] => if wire.closed then some (.raise "Runner relay closed before responding", wire) else none

def runnerStep (noise : Noise) (worker : Worker σ β) (wire : Wire σ) : Option (Wire σ) :=
  match wire.closed, wire.outbox with
  | false, ciphertext :: outbox =>
    match handleFrame noise worker ciphertext wire.runner with
    | .ok frames runner => some { wire with outbox, runner, inbox := wire.inbox ++ frames }
    | .error _ runner => some { wire with outbox, runner, closed := true }
  | _, _ => none

structure Call where
  request : Bytes
  pushResponse : Bool

/-- A connection with the calls to come, the exchange under way and the results so far. -/
structure Connection (σ : Type) where
  pending : List Call
  client : Option (Client Bytes)
  results : List Bytes
  wire : Wire σ

inductive Step (noise : Noise) (worker : Worker σ β) : Connection σ → Connection σ → Prop
  | begins {call : Call} {pending : List Call} {results : List Bytes} {wire : Wire σ} :
      Step noise worker ⟨call :: pending, none, results, wire⟩
        ⟨pending, some (exchangeRpcPayload call.request call.pushResponse), results, wire⟩
  | acts {pending : List Call} {program program' : Client Bytes} {results : List Bytes}
      {wire wire' : Wire σ} (moves : clientStep noise program wire = some (program', wire')) :
      Step noise worker ⟨pending, some program, results, wire⟩ ⟨pending, some program', results, wire'⟩
  | returns {pending : List Call} {value : Bytes} {results : List Bytes} {wire : Wire σ} :
      Step noise worker ⟨pending, some (.done value), results, wire⟩ ⟨pending, none, results ++ [value], wire⟩
  | serves {pending : List Call} {client : Option (Client Bytes)} {results : List Bytes}
      {wire wire' : Wire σ} (handles : runnerStep noise worker wire = some wire') :
      Step noise worker ⟨pending, client, results, wire⟩ ⟨pending, client, results, wire'⟩

def Cipher.Carries (cipher : Cipher) (frame : Bytes) : Prop :=
  ∃ number plaintext, frame = cipher.sealed number plaintext ∧ plaintext.length ≤ noisePlaintextBytesMax

structure Flowing (noise : Noise) (connection : Connection σ) : Prop where
  opened : connection.wire.closed = false
  working : connection.wire.runner.failed = false
  unraised : ∀ message, connection.client ≠ some (.raise message)
  outgoing : ∀ frame ∈ connection.wire.outbox, noise.toRunner.Carries frame
  incoming : ∀ frame ∈ connection.wire.inbox, noise.toClient.Carries frame

def Cipher.sealAll (cipher : Cipher) : Nat → List Bytes → List Bytes
  | _, [] => []
  | number, frame :: frames => cipher.sealed number frame :: cipher.sealAll (number + 1) frames

def Wire.quiet (noise : Noise) (session : Session σ) (sent received : Nat) (waiting : List Bytes) :
    Wire σ where
  sent := sent
  received := received
  outbox := []
  inbox := noise.toClient.sealAll received waiting
  runner := session.counted (received + waiting.length) sent
  closed := false

theorem mapM_encrypt {noise : Noise} {frames : List Bytes} {session : Session σ}
    (fit : ∀ frame ∈ frames, frame.length ≤ noisePlaintextBytesMax) :
    (frames.mapM noise.encrypt : RunnerM σ (List Bytes)) session =
      .ok (noise.toClient.sealAll session.messagesSent frames)
        { session with messagesSent := session.messagesSent + frames.length } := by
  induction frames generalizing session with
  | nil => rfl
  | cons frame _ ih =>
    have hs : ¬ noisePlaintextBytesMax < frame.length := by
      have := fit frame (mem_cons_self ..)
      omega
    have first : (noise.encrypt frame : RunnerM σ Bytes) session =
        .ok (noise.toClient.sealed session.messagesSent frame)
          { session with messagesSent := session.messagesSent + 1 } := by
      simp [-bind_pure_comp, Noise.encrypt, hs]
    rw [mapM_cons, bind_apply first, bind_apply (ih fun f hm => fit f (mem_cons_of_mem _ hm))]
    simp only [pure_apply, Cipher.sealAll, length_cons]
    congr 2
    omega

theorem handleFrame_ok (noise : Noise) {worker : Worker σ β} {session next : Session σ}
    {plaintext : Bytes} {frames : List Bytes} (sent received : Nat)
    (working : session.failed = false) (hf : plaintext.length ≤ noisePlaintextBytesMax)
    (handled : ∀ sent received, handlePlaintext worker plaintext (session.counted sent received) =
          .ok frames (next.counted sent received))
    (hs : ∀ frame ∈ frames, frame.length ≤ noisePlaintextBytesMax) :
    handleFrame noise worker (noise.toRunner.sealed received plaintext)
        (session.counted sent received) =
      .ok (noise.toClient.sealAll sent frames)
        (next.counted (sent + frames.length) (received + 1)) := by
  have long := noise.toRunner.length_sealed received plaintext
  have inRange : noiseTagBytes ≤ (noise.toRunner.sealed received plaintext).length ∧
      (noise.toRunner.sealed received plaintext).length ≤ noiseCiphertextBytesMax := by
    simp only [noisePlaintextBytesMax, noiseCiphertextBytesMax, noiseTagBytes] at hf long ⊢
    omega
  have decrypted : (noise.decrypt (noise.toRunner.sealed received plaintext) : RunnerM σ Bytes)
      (session.counted sent received) = .ok plaintext (session.counted sent (received + 1)) := by
    simp [-bind_pure_comp, Noise.decrypt, inRange, Session.counted, noise.toRunner.opened_sealed]
  have body : (noise.decrypt (noise.toRunner.sealed received plaintext) >>= fun plaintext =>
      handlePlaintext worker plaintext >>=
        fun responses => responses.mapM noise.encrypt : RunnerM σ (List Bytes))
        (session.counted sent received) =
      .ok (noise.toClient.sealAll sent frames) (next.counted (sent + frames.length) (received + 1)) := by
    rw [bind_apply decrypted, bind_apply (handled sent (received + 1)), mapM_encrypt hs]
    rfl
  have unfailed : (session.counted sent received).failed = false := working
  simp only [handleFrame, get_bind, unfailed, Bool.false_eq_true, if_false]
  simp only [tryCatch, tryCatchThe, MonadExceptOf.tryCatch, EStateM.tryCatch, body]

def Busy (noise : Noise) (connection : Connection σ) : Prop :=
  Flowing noise connection ∧ connection.client ≠ none

def Talks (noise : Noise) (worker : Worker σ β) {α : Type} (program : Client α) (before : Wire σ)
    (value : α) (after : Wire σ) : Prop :=
  ∀ (next : α → Client Bytes) (pending : List Call) (results : List Bytes),
    ∃ count, Forced (Step noise worker) (Busy noise) count
        ⟨pending, some (program.bind next), results, before⟩
      ⟨pending, some (next value), results, after⟩

section Programs
variable {noise : Noise} {worker : Worker σ β} {α γ : Type}
variable {pending : List Call} {results waiting : List Bytes} {wire : Wire σ} {plaintext : Bytes}
  {session : Session σ} {sent received sequence : Nat} {state : σ}

theorem Talks.done (value : α) (wire : Wire σ) : Talks noise worker (.done value) wire value wire :=
  fun _ _ _ => ⟨0, .refl _⟩

theorem Talks.bind {program : Client α} {f : α → Client γ} {before between after : Wire σ}
    {value : α} {result : γ} (front : Talks noise worker program before value between)
    (back : Talks noise worker (f value) between result after) :
    Talks noise worker (program >>= f) before result after := by
  intro next pending results
  obtain ⟨m, first⟩ := front (fun value => (f value).bind next) pending results
  obtain ⟨n, rest⟩ := back next pending results
  have joined := first.trans rest
  rw [← Client.bind_assoc] at joined
  exact ⟨m + n, joined⟩

theorem forced_client {program program' : Client Bytes} {wire' : Wire σ} (outbox : wire.outbox = [])
    (moves : clientStep noise program wire = some (program', wire')) (next : Connection σ)
    (step : Step noise worker ⟨pending, some program, results, wire⟩ next) :
    next = ⟨pending, some program', results, wire'⟩ := by
  cases step with
  | acts moved =>
    rw [moves] at moved
    cases moved
    rfl
  | returns => cases moves
  | serves handles => simp [runnerStep, outbox] at handles

theorem forced_runner {f : Bytes → Client Bytes} {wire' : Wire σ} (opened : wire.closed = false)
    (inbox : wire.inbox = []) (handles : runnerStep noise worker wire = some wire')
    (next : Connection σ)
    (step : Step noise worker ⟨pending, some (.receive f), results, wire⟩ next) :
    next = ⟨pending, some (.receive f), results, wire'⟩ := by
  cases step with
  | acts moved => simp [clientStep, inbox, opened] at moved
  | serves handled =>
    rw [handles] at handled
    cases handled
    rfl

theorem Cipher.carries_sealed {cipher : Cipher} {number : Nat}
    (hf : plaintext.length ≤ noisePlaintextBytesMax) :
    cipher.Carries (cipher.sealed number plaintext) :=
  ⟨number, plaintext, rfl, hf⟩

theorem Cipher.carries_sealAll {cipher : Cipher} {number : Nat} {frames : List Bytes}
    (fit : ∀ frame ∈ frames, frame.length ≤ noisePlaintextBytesMax) :
    ∀ frame ∈ cipher.sealAll number frames, cipher.Carries frame := by
  induction frames generalizing number with
  | nil => simp [Cipher.sealAll]
  | cons _ _ ih =>
    simp only [Cipher.sealAll, forall_mem_cons] at fit ⊢
    exact ⟨carries_sealed fit.1, ih fit.2⟩

theorem Cipher.length_carried (cipher : Cipher) (number : Nat)
    (hf : plaintext.length ≤ noisePlaintextBytesMax) :
    ¬ noiseCiphertextBytesMax < (cipher.sealed number plaintext).length ∧
    ¬ ((cipher.sealed number plaintext).length < noiseTagBytes ∨
      noiseCiphertextBytesMax < (cipher.sealed number plaintext).length) := by
  have long := cipher.length_sealed number plaintext
  simp only [noisePlaintextBytesMax, noiseCiphertextBytesMax, noiseTagBytes] at hf long ⊢
  omega

theorem flowing_quiet {client : Option (Client Bytes)}
    (working : session.failed = false)
    (fit : ∀ frame ∈ waiting, frame.length ≤ noisePlaintextBytesMax)
    (unraised : ∀ message, client ≠ some (.raise message)) :
    Flowing noise ⟨pending, client, results, Wire.quiet noise session sent received waiting⟩ where
  opened := rfl
  working := working
  unraised := unraised
  outgoing := by simp [Wire.quiet]
  incoming := Cipher.carries_sealAll fit

theorem talks_receive {frame : Bytes} (working : session.failed = false)
    (fit : ∀ plaintext ∈ frame :: waiting, plaintext.length ≤ noisePlaintextBytesMax) :
    Talks noise worker receiveEncryptedFrame
      (Wire.quiet noise session sent received (frame :: waiting)) frame
      (Wire.quiet noise session sent (received + 1) waiting) := by
  intro next pending results
  obtain ⟨hs, others⟩ := forall_mem_cons.mp fit
  have shape := (noise.toClient.length_carried received hs).2
  let taken : Wire σ := { Wire.quiet noise session sent received (frame :: waiting) with
    inbox := noise.toClient.sealAll (received + 1) waiting }
  have takes : clientStep noise (receiveEncryptedFrame.bind next)
      (Wire.quiet noise session sent received (frame :: waiting)) =
        some (.decrypt (noise.toClient.sealed received frame) next, taken) := rfl
  have decrypts : clientStep noise (.decrypt (noise.toClient.sealed received frame) next) taken =
      some (next frame, Wire.quiet noise session sent (received + 1) waiting) := by
    rw [clientStep, if_neg shape]
    simp only [taken, Wire.quiet, noise.toClient.opened_sealed, length_cons]
    congr 4
    omega
  have busy : Busy noise ⟨pending, some (receiveEncryptedFrame.bind next), results,
      Wire.quiet noise session sent received (frame :: waiting)⟩ :=
    ⟨flowing_quiet working fit (by simp [receiveEncryptedFrame, Client.bind]), by simp⟩
  have busyTaken : Busy noise ⟨pending, some (.decrypt (noise.toClient.sealed received frame) next),
      results, taken⟩ :=
    ⟨⟨rfl, working, by simp, by simp [taken, Wire.quiet], Cipher.carries_sealAll others⟩, by simp⟩
  exact ⟨2, .next busy (.acts takes) (forced_client rfl takes)
    (.next busyTaken (.acts decrypts) (forced_client rfl decrypts) (.refl _))⟩

theorem talks_exchange (next : Session σ) {frame : Bytes} (working : session.failed = false)
    (works : next.failed = false) (hf : plaintext.length ≤ noisePlaintextBytesMax)
    (handled : ∀ sent received, handlePlaintext worker plaintext (session.counted sent received) =
          .ok (frame :: waiting) (next.counted sent received))
    (fit : ∀ answer ∈ frame :: waiting, answer.length ≤ noisePlaintextBytesMax) :
    Talks noise worker (exchangeEncryptedFrame plaintext)
      (Wire.quiet noise session sent received []) frame
      (Wire.quiet noise next (sent + 1) (received + 1) waiting) := by
  intro follow pending results
  have short := (noise.toRunner.length_carried sent hf).1
  have room : ¬ noisePlaintextBytesMax < plaintext.length := by omega
  let counted : Wire σ := { Wire.quiet noise session sent received [] with sent := sent + 1 }
  let flying : Wire σ := { counted with outbox := [noise.toRunner.sealed sent plaintext] }
  have encrypts : clientStep noise ((exchangeEncryptedFrame plaintext).bind follow)
      (Wire.quiet noise session sent received []) =
        some (.send (noise.toRunner.sealed sent plaintext) (receiveEncryptedFrame.bind follow), counted) := by
    simp only [exchangeEncryptedFrame, Client.bind, clientStep, if_neg room]
    rw [show (Wire.quiet noise session sent received []).sent = sent from rfl, if_neg short]
    rfl
  have sends : clientStep noise
        (.send (noise.toRunner.sealed sent plaintext) (receiveEncryptedFrame.bind follow))
      counted = some (receiveEncryptedFrame.bind follow, flying) := rfl
  have serves : runnerStep noise worker flying =
      some (Wire.quiet noise next (sent + 1) received (frame :: waiting)) := by
    have ha := handleFrame_ok noise received sent working hf handled fit
    simp only [runnerStep, flying, counted, Wire.quiet, length_nil, Nat.add_zero, ha]
    rfl
  have takes : Talks noise worker receiveEncryptedFrame
      (Wire.quiet noise next (sent + 1) received (frame :: waiting)) frame
      (Wire.quiet noise next (sent + 1) (received + 1) waiting) := talks_receive works fit
  obtain ⟨count, rest⟩ := takes follow pending results
  have busy : Busy noise ⟨pending, some ((exchangeEncryptedFrame plaintext).bind follow), results,
      Wire.quiet noise session sent received []⟩ :=
    ⟨flowing_quiet working (by simp) (by simp [exchangeEncryptedFrame, Client.bind]), by simp⟩
  have busySending : Busy noise ⟨pending, some (.send (noise.toRunner.sealed sent plaintext)
      (receiveEncryptedFrame.bind follow)), results, counted⟩ :=
    ⟨⟨rfl,
      working, by simp, by simp [counted, Wire.quiet], by simp [counted, Wire.quiet,
        Cipher.sealAll]⟩, by simp⟩
  have busyFlying : Busy noise ⟨pending, some (receiveEncryptedFrame.bind follow), results, flying⟩ := by
    refine ⟨⟨rfl, working, by simp [receiveEncryptedFrame, Client.bind], ?_, ?_⟩, by simp⟩
    · simpa [flying] using Cipher.carries_sealed hf
    · simp [flying, counted, Wire.quiet, Cipher.sealAll]
  exact ⟨count + 1 + 1 + 1, .next busy (.acts encrypts) (forced_client rfl encrypts)
    (.next busySending (.acts sends) (forced_client rfl sends)
      (.next busyFlying (.serves serves) (forced_runner rfl rfl serves) rest))⟩

section Collecting
variable {state : σ} {sequence : Nat} {response : Bytes}
variable {sent received index : Nat} {now : Session σ} {request : Bytes}

theorem length_responseFragment (response : Bytes) (index : Nat) :
    (responseFragment response index).length ≤ noisePlaintextBytesMax := by
  rw [responseFragment_eq, length_append, length_pack, length_piece]
  simp only [transportHeaderBytes, transportPayloadBytesMax, noisePlaintextBytesMax,
    noiseCiphertextBytesMax, noiseTagBytes]
  omega

theorem pulled_counted (session : Session σ) (response : Bytes) (next sent received : Nat) :
    (session.pulled response next).counted sent received =
      (session.counted sent received).pulled response next := by
  unfold Session.pulled
  split <;> rfl

theorem pulled_failed (session : Session σ) (response : Bytes) (next : Nat) :
    (session.pulled response next).failed = session.failed := by
  unfold Session.pulled
  split <;> rfl

theorem talks_pull (hb : response.length ≤ responseBytesMax)
    (hl : index < fragmentCount response.length) :
    Talks noise worker (exchangeEncryptedFrame (packTransportFragment transportPull index
          (fragmentCount response.length) response.length []))
      (Wire.quiet noise ((Session.idle state sequence 0 0).pulled response index) sent received [])
      (responseFragment response index) (Wire.quiet noise
        ((Session.idle state sequence 0 0).pulled response (index + 1)) (sent + 1) (received + 1)
        []) := by
  refine talks_exchange _ (pulled_failed _ _ _) (pulled_failed _ _ _) ?_ (fun sent received => ?_) ?_
  · rw [packTransportFragment, append_nil, length_pack]
    decide
  · rw [pulled_counted, pulled_counted, packTransportFragment, append_nil, Session.pulled, if_pos hl]
    exact handlePlaintext_pull hb hl
  · simpa using length_responseFragment response index

def responseFragments (response : Bytes) (index remaining : Nat) : List Bytes :=
  (List.range' index remaining).map (responseFragment response)

theorem fit_responseFragments (response : Bytes) (index remaining : Nat) :
    ∀ frame ∈ responseFragments response index remaining,
      frame.length ≤ noisePlaintextBytesMax := by
  intro _ hm
  obtain ⟨number, -, rfl⟩ := mem_map.mp hm
  exact length_responseFragment response number

/-- The session and the waiting frames while the client has the fragments before `index`. -/
def collecting (noise : Noise) (session : Session σ) (response : Bytes) (pushResponse : Bool)
    (sent received index remaining : Nat) : Wire σ :=
  if pushResponse then Wire.quiet noise session sent received (responseFragments response index remaining)
  else Wire.quiet noise (session.pulled response index) sent received []

theorem talks_fragment (pushResponse : Bool) (sent received remaining : Nat)
    (hb : response.length ≤ responseBytesMax) (hl : index < fragmentCount response.length) :
    ∃ sent', Talks noise worker
        (nextResponseFrame pushResponse index (fragmentCount response.length) response.length)
        (collecting noise (Session.idle state sequence 0 0) response pushResponse sent received
          index (remaining + 1)) (responseFragment response index) (collecting noise
          (Session.idle state sequence 0 0) response pushResponse sent' (received + 1) (index + 1)
          remaining) := by
  cases pushResponse with
  | true => exact ⟨sent, talks_receive rfl (fit_responseFragments response index (remaining + 1))⟩
  | false => exact ⟨sent + 1, talks_pull hb hl⟩

theorem talks_collect (pushResponse : Bool) (sent received : Nat) {remaining : Nat}
    {fragment : TransportFragment} {buffer : Bytes} (hn : 0 < response.length)
    (hb : response.length ≤ responseBytesMax)
    (left : index + remaining = fragmentCount response.length)
    (hc : fragment.count = fragmentCount response.length)
    (measured : fragment.total = response.length)
    (filled : Filled transportPayloadBytesMax response index buffer) :
    ∃ sent' received', Talks noise worker
        (collectFragments pushResponse remaining index fragment buffer)
        (collecting noise (Session.idle state sequence 0 0) response pushResponse sent received
          index remaining) response
        (Wire.quiet noise (Session.idle state sequence 0 0) sent' received' []) := by
  induction remaining generalizing sent received index fragment buffer with
  | zero =>
    have hw : buffer = response := by
      refine filled.complete ?_
      rw [show index = fragmentCount response.length by omega, fragmentCount_eq]
      exact le_count_mul (by decide)
    have hid : collecting noise (Session.idle state sequence 0 0) response pushResponse sent received index 0 =
        Wire.quiet noise (Session.idle state sequence 0 0) sent received [] := by
      unfold collecting Session.pulled
      rw [if_neg (show ¬ index < fragmentCount response.length by omega)]
      split <;> rfl
    refine ⟨sent, received, ?_⟩
    rw [hid, hw]
    exact Talks.done response _
  | succ remaining ih =>
    have hl : index < fragmentCount response.length := by omega
    have hi := (lt_count_iff (show 0 < transportPayloadBytesMax by decide) hn).mp hl
    obtain ⟨between, arrives⟩ := talks_fragment pushResponse sent received remaining hb hl
    let nextFragment : TransportFragment := ⟨transportResponse, index,
      fragmentCount response.length, response.length, piece transportPayloadBytesMax index response⟩
    obtain ⟨sent', received', rest⟩ :=
        ih between (received + 1) (by omega) (show nextFragment.count = _ from rfl)
      rfl (filled.write hi)
    refine ⟨sent', received', ?_⟩
    unfold collectFragments
    rw [hc, measured]
    refine Talks.bind arrives ?_
    rw [parseTransportFragment_response hn hb hl]
    simpa [Client.check, bind, Client.bind] using rest

theorem talks_collectFramedResponse (pushResponse : Bool) (sent received : Nat)
    (hn : 0 < response.length) (hb : response.length ≤ responseBytesMax) :
    ∃ sent' received', Talks noise worker
        (collectFramedResponse (responseFragment response 0) pushResponse)
        (collecting noise (Session.idle state sequence 0 0) response pushResponse sent received 1
          (fragmentCount response.length - 1)) response
        (Wire.quiet noise (Session.idle state sequence 0 0) sent' received' []) := by
  have hl : 0 < fragmentCount response.length := count_pos _ _
  have hi := (lt_count_iff (show 0 < transportPayloadBytesMax by decide) hn).mp hl
  have empty : Filled transportPayloadBytesMax response 0 (replicate response.length 0) :=
    Filled.start length_replicate
  let fragment : TransportFragment := ⟨transportResponse, 0, fragmentCount response.length,
    response.length, piece transportPayloadBytesMax 0 response⟩
  have left : 0 + 1 + (fragmentCount response.length - 1) = fragmentCount response.length := by omega
  obtain ⟨sent', received', rest⟩ := talks_collect pushResponse sent received hn hb left
    (show fragment.count = _ from rfl) rfl (empty.write hi)
  refine ⟨sent', received', ?_⟩
  unfold collectFramedResponse
  rw [parseTransportFragment_response hn hb hl]
  simpa [Client.check, bind, Client.bind] using rest

theorem range_fragments (response : Bytes) :
    (List.range (fragmentCount response.length)).map (responseFragment response) =
      responseFragment response 0 ::
        responseFragments response 1 (fragmentCount response.length - 1) := by
  have hp : fragmentCount response.length = fragmentCount response.length - 1 + 1 := by
    have := count_pos transportPayloadBytesMax response.length
    rw [← fragmentCount_eq] at this
    omega
  conv_lhs => rw [hp, range_eq_range', range'_succ, map_cons]
  rfl

theorem talks_framed {plaintext : Bytes} {pushResponse forceFramed : Bool}
    (working : now.failed = false) (fits : plaintext.length ≤ noisePlaintextBytesMax)
    (framed : ¬ (¬ forceFramed ∧ response.length ≤ noisePlaintextBytesMax))
    (handled : ∀ sent received, handlePlaintext worker plaintext (now.counted sent received) =
          .ok (answerFrames response pushResponse forceFramed) (answerSession
              (Session.idle state sequence sent received) response pushResponse forceFramed)) :
    Talks noise worker (exchangeEncryptedFrame plaintext) (Wire.quiet noise now sent received [])
      (responseFragment response 0) (collecting noise (Session.idle state sequence 0 0) response
        pushResponse (sent + 1) (received + 1) 1 (fragmentCount response.length - 1)) := by
  simp only [answerFrames, answerSession, if_neg framed] at handled
  cases pushResponse with
  | true =>
    simp only [if_true, range_fragments] at handled
    refine talks_exchange (Session.idle state sequence 0 0) working rfl fits handled ?_
    rw [← range_fragments, range_eq_range']
    exact fit_responseFragments response 0 _
  | false =>
    refine talks_exchange ((Session.idle state sequence 0 0).pulled response 1) working (pulled_failed _ _ _)
      fits (fun sent received => ?_) (by simpa using length_responseFragment response 0)
    rw [handled, pulled_counted]
    simp only [Bool.false_eq_true, if_false]
    rfl

theorem talks_plain {plaintext : Bytes} {pushResponse : Bool} (working : now.failed = false)
    (hf : plaintext.length ≤ noisePlaintextBytesMax) (hs : response.length ≤ noisePlaintextBytesMax)
    (handled : ∀ sent received, handlePlaintext worker plaintext (now.counted sent received) =
          .ok (answerFrames response pushResponse false) (answerSession
              (Session.idle state sequence sent received) response pushResponse false)) :
    Talks noise worker (exchangeEncryptedFrame plaintext) (Wire.quiet noise now sent received [])
      response
      (Wire.quiet noise (Session.idle state sequence 0 0) (sent + 1) (received + 1) []) := by
  have hp : ¬ (false = true) ∧ response.length ≤ noisePlaintextBytesMax := ⟨by simp, hs⟩
  simp only [answerFrames, answerSession, if_pos hp] at handled
  exact talks_exchange (Session.idle state sequence 0 0) working rfl hf handled (by simpa using hs)

theorem Session.Collects.failed {next : Nat}
    (collects : (Session.idle state sequence 0 0).Collects request next now) :
    now.failed = false := by
  obtain ⟨-, rfl⟩ | ⟨_, -, rfl⟩ := collects <;> rfl

theorem length_requestFragment (request : Bytes) (index : Nat) :
    (requestFragment request index).length ≤ noisePlaintextBytesMax := by
  rw [requestFragment, length_append, length_pack, length_piece]
  simp only [transportHeaderBytes, transportPayloadBytesMax, noisePlaintextBytesMax,
    noiseCiphertextBytesMax, noiseTagBytes]
  omega

theorem talks_exchangeFragments {state' : σ} {parsed : RunnerRpcRequest} (sent received : Nat)
    {remaining : Nat} (first : Option Bytes) (hb : request.length ≤ requestBytesMax)
    (hn : 0 < request.length) (left : index + (remaining + 1) = fragmentCount request.length)
    (collects : (Session.idle state sequence 0 0).Collects request index now)
    (ha : worker.answer state sequence request = .ok (response, parsed, state'))
    (small : response.length ≤ responseBytesMax) :
    ∃ sent' received', Talks noise worker
        (exchangeFragments request (fragmentCount request.length) (remaining + 1) index first)
        (Wire.quiet noise now sent received []) (some (responseFragment response 0))
        (collecting noise (Session.idle state' (sequence + 1) 0 0) response parsed.pushes sent'
          received' 1 (fragmentCount response.length - 1)) := by
  induction remaining generalizing sent received index now with
  | zero =>
    have last : index + 1 = fragmentCount request.length := by omega
    refine ⟨sent + 1, received + 1, ?_⟩
    simp only [exchangeFragments, take_drop_piece]
    refine Talks.bind (talks_framed collects.failed (length_requestFragment request index)
      (show ¬ (¬ (true = true) ∧ _) by simp) (handlePlaintext_last hb hn last collects ha small)) ?_
    rw [if_neg (by omega)]
    exact Talks.done _ _
  | succ _ ih =>
    have more : index + 1 < fragmentCount request.length := by omega
    obtain ⟨next, collected, handled⟩ := handlePlaintext_more worker hb hn more collects
    obtain ⟨sent', received', rest⟩ := ih (sent + 1) (received + 1) (by omega) collected
    have acknowledged := parseTransportAck_request (hb.trans (by decide)) (show index < _ by omega)
    refine ⟨sent', received', ?_⟩
    rw [exchangeFragments]
    simp only [take_drop_piece]
    refine Talks.bind (talks_exchange next collects.failed collected.failed
      (length_requestFragment request index)
      handled ?_) ?_
    · simp only [mem_singleton, forall_eq, length_pack]
      decide
    · rw [if_pos more, acknowledged]
      exact rest

theorem talks_exchangeRpcPayload (noise : Noise) {state' : σ} {parsed : RunnerRpcRequest}
    (sent received : Nat) (hn : 0 < request.length) (hb : request.length ≤ requestBytesMax)
    (ha : worker.answer state sequence request = .ok (response, parsed, state'))
    (hs : response.length ≤ responseBytesMax) :
    ∃ sent' received', Talks noise worker (exchangeRpcPayload request parsed.pushes)
        (Wire.quiet noise (Session.idle state sequence 0 0) sent received []) response
        (Wire.quiet noise (Session.idle state' (sequence + 1) 0 0) sent' received' []) := by
  obtain ⟨-, head⟩ := answer_eq_ok ha
  have written : 0 < response.length := by
    cases response with
    | nil => cases head
    | cons byte rest => simp
  have handled : ∀ sent received, handlePlaintext worker request
      ((Session.idle state sequence 0 0).counted sent received) =
        .ok (answerFrames response parsed.pushes false)
          (answerSession (Session.idle state' (sequence + 1) sent received) response parsed.pushes false) :=
    fun sent received => handlePlaintext_plain ha hs
  unfold exchangeRpcPayload
  rw [if_neg (by omega)]
  by_cases unframed : request.length ≤ noisePlaintextBytesMax
  · rw [if_pos unframed]
    by_cases hp : response.length ≤ noisePlaintextBytesMax
    · refine ⟨sent + 1, received + 1, Talks.bind (talks_plain rfl unframed hp handled) ?_⟩
      have unmarked : hasTransportMagic response = false := by
        cases response with
        | nil => rfl
        | cons _ rest =>
          cases head
          rfl
      simp only [unmarked]
      exact Talks.done _ _
    · obtain ⟨sent', received', rest⟩ := talks_collectFramedResponse parsed.pushes (sent + 1)
        (received + 1) written hs
      refine ⟨sent', received',
        Talks.bind (talks_framed rfl unframed (show ¬ (¬ (false = true) ∧ _) from ?_) handled) ?_⟩
      · exact fun both => hp both.2
      · have marked : hasTransportMagic (responseFragment response 0) = true := by
          rw [hasTransportMagic, responseFragment_eq, isPrefixOf_iff_prefix]
          simp [TransportHeader.pack, header]
        exact rest
  · rw [if_neg unframed]
    have positive : 0 < fragmentCount request.length := count_pos _ _
    obtain ⟨remaining, counted⟩ : ∃ remaining, fragmentCount request.length = remaining + 1 :=
      ⟨fragmentCount request.length - 1, by omega⟩
    obtain ⟨between, arrived, front⟩ := talks_exchangeFragments sent received none hb hn
      (show 0 + (remaining + 1) = _ by omega) (.inl ⟨rfl, rfl⟩) ha hs
    obtain ⟨sent', received', rest⟩ := talks_collectFramedResponse parsed.pushes between arrived written hs
    refine ⟨sent', received', ?_⟩
    rw [← counted] at front
    rw [ceilingCount_eq]
    exact Talks.bind front rest

end Collecting

/-- The runner's session answers the calls in order: each request is within its limit and
asks for the mode in which the client collects, each response is within its limit. -/
inductive Answers (worker : Worker σ β) : σ → Nat → List Call → List Bytes → σ → Prop
  | nil (state : σ) (sequence : Nat) : Answers worker state sequence [] [] state
  | cons {state state' last : σ} {sequence : Nat} {call : Call} {calls : List Call} {response : Bytes}
      {responses : List Bytes} {parsed : RunnerRpcRequest} (nonempty : 1 ≤ call.request.length)
      (bounded : call.request.length ≤ requestBytesMax)
      (answered : worker.answer state sequence call.request = .ok (response, parsed, state'))
      (mode : parsed.pushes = call.pushResponse) (small : response.length ≤ responseBytesMax)
      (rest : Answers worker state' (sequence + 1) calls responses last) :
      Answers worker state sequence (call :: calls) (response :: responses) last

def Connection.idle (noise : Noise) (state : σ) (sequence sent received : Nat) (pending : List Call)
    (results : List Bytes) : Connection σ :=
  ⟨pending, none, results, Wire.quiet noise (Session.idle state sequence 0 0) sent received []⟩

/-- What holds of every state of a connection that was given these calls: nothing has
failed, every frame fits, and between two exchanges both sides are at rest with the
results so far. -/
structure Sound (noise : Noise) (worker : Worker σ β) (state : σ) (sequence : Nat)
    (calls : List Call) (responses : List Bytes) (connection : Connection σ) : Prop where
  flowing : Flowing noise connection
  idle : connection.client = none → ∃ made state' sent received,
    calls = made ++ connection.pending ∧ connection.results <+: responses ∧
    Answers worker state sequence made connection.results state' ∧
    connection = Connection.idle noise state'
      (sequence + made.length) sent received connection.pending connection.results

theorem flowing_idle : Flowing noise (Connection.idle noise state sequence sent received pending results) :=
  flowing_quiet rfl (by simp) (by simp)

theorem Answers.snoc {state' last : σ} {calls : List Call} {responses : List Bytes} {call : Call}
    {response : Bytes} {parsed : RunnerRpcRequest}
    (front : Answers worker state sequence calls responses state') (hn : 1 ≤ call.request.length)
    (hb : call.request.length ≤ requestBytesMax)
    (ha :
      worker.answer state' (sequence + calls.length) call.request = .ok (response, parsed, last))
    (mode : parsed.pushes = call.pushResponse) (small : response.length ≤ responseBytesMax) :
    Answers worker state sequence (calls ++ [call]) (responses ++ [response]) last := by
  induction front with
  | nil => exact .cons hn hb ha mode small (.nil _ _)
  | @cons _ _ _ _ _ _ _ _ _ first hw reply form short _ ih =>
    refine .cons first hw reply form short (ih ?_)
    rwa [Nat.add_assoc, Nat.add_comm 1]

theorem runnerStep_quiet :
    runnerStep noise worker (Wire.quiet noise session sent received waiting) ≠ some wire :=
  nofun

theorem forced_call {state' : σ} {call : Call} {response : Bytes} {parsed : RunnerRpcRequest}
    (sent received : Nat) (hn : 1 ≤ call.request.length)
    (hb : call.request.length ≤ requestBytesMax)
    (ha : worker.answer state sequence call.request = .ok (response, parsed, state'))
    (mode : parsed.pushes = call.pushResponse) (small : response.length ≤ responseBytesMax)
    {holds : Connection σ → Prop} (busy : ∀ connection, Busy noise connection → holds connection)
    (hs : holds (Connection.idle noise state sequence sent received (call :: pending) results)) :
    ∃ count sent' received', Forced (Step noise worker) holds count
        (Connection.idle noise state sequence sent received (call :: pending) results)
        (Connection.idle noise state' (sequence + 1) sent' received' pending
          (results ++ [response])) := by
  obtain ⟨sent', received', talks⟩ := talks_exchangeRpcPayload noise sent received hn hb ha small
  obtain ⟨count, run⟩ := talks .done pending results
  rw [Client.bind_done, mode] at run
  have hr : Forced (Step noise worker) holds 1
      ⟨pending, some (.done response), results,
        Wire.quiet noise (Session.idle state' (sequence + 1) 0 0) sent' received' []⟩
      (Connection.idle noise state' (sequence + 1) sent' received' pending (results ++ [response])) := by
    refine .next (busy _ ⟨flowing_quiet rfl (by simp) (by simp), by simp⟩) .returns
      (fun next step => ?_) (.refl _)
    cases step with
    | acts moves => cases moves
    | returns => rfl
    | serves handles => exact absurd handles runnerStep_quiet
  refine ⟨count + 1 + 1, sent', received', .next hs .begins (fun next step => ?_) ((run.mono busy).trans hr)⟩
  cases step with
  | begins => rfl
  | serves handles => exact absurd handles runnerStep_quiet

section Calls
variable {first last : σ} {sequence : Nat} {calls : List Call} {responses : List Bytes}

theorem Busy.sound {connection : Connection σ} (busy : Busy noise connection) :
    Sound noise worker first sequence calls responses connection :=
  ⟨busy.1, fun rests => absurd rests busy.2⟩

theorem sound_idle {state : σ} {made pending : List Call} {results more : List Bytes}
    {sent received : Nat} (front : Answers worker first sequence made results state)
    (cut : calls = made ++ pending) (written : responses = results ++ more) :
    Sound noise worker first sequence calls responses
      (Connection.idle noise state (sequence + made.length) sent received pending results) where
  flowing := flowing_idle
  idle _ := ⟨made, state, sent, received, cut, ⟨more, written.symm⟩, front, rfl⟩

theorem forced_calls {state : σ} {made left : List Call} {results more : List Bytes}
    (sent received : Nat) (front : Answers worker first sequence made results state) {number : Nat}
    (numbered : number = sequence + made.length)
    (answers : Answers worker state number left more last) (cut : calls = made ++ left)
    (written : responses = results ++ more) :
    ∃ count sent' received', Forced (Step noise worker)
        (Sound noise worker first sequence calls responses) count
        (Connection.idle noise state number sent received left results)
        (Connection.idle noise last (sequence + calls.length) sent' received' [] responses) := by
  induction answers generalizing made results sent received with
  | nil state number =>
    rw [append_nil] at cut written
    subst cut written numbered
    exact ⟨0, sent, received, .refl _⟩
  | @cons state _ _ _ call left _ _ _ hn hb ha mode hs _ ih =>
    subst numbered
    have starts : Sound noise worker first sequence calls responses (Connection.idle noise state
      (sequence + made.length) sent received (call :: left) results) := sound_idle front cut written
    obtain ⟨m, between, arrived, call⟩ := forced_call sent received hn hb ha mode hs (fun _ => Busy.sound) starts
    obtain ⟨n, sent', received', calls⟩ := ih between arrived
      (front.snoc hn hb ha mode hs) (by simp; omega) (by simpa using cut) (by simpa using written)
    exact ⟨m + n, sent', received', call.trans calls⟩

end Calls

/-- A sequence of requests over an ordered lossless channel. In every state that the client
and the runner reach, in whatever order they act, nothing has failed, every frame in
flight fits the Noise limit, and between two exchanges the runner's session and the client
are at rest with the responses of the session as results; and every run goes on to the
state in which all the calls have returned. -/
theorem exchanges_return (noise : Noise) {calls : List Call} {responses : List Bytes}
    {state last : σ} {sequence : Nat} (answers : Answers worker state sequence calls responses last)
    (sent received : Nat) :
    ∃ count sent' received', ∀ steps connection, Steps (Step noise worker) steps
          (Connection.idle noise state sequence sent received calls []) connection →
      Sound noise worker state sequence calls responses connection ∧ steps ≤ count ∧
      Steps (Step noise worker) (count - steps) connection
        (Connection.idle noise last (sequence + calls.length) sent' received' [] responses) := by
  obtain ⟨count, sent', received', run⟩ := forced_calls sent received
    (.nil state sequence) rfl answers (nil_append calls).symm (nil_append responses).symm
  have rests : ∀ next, ¬ Step noise worker
      (Connection.idle noise last (sequence + calls.length) sent' received' [] responses) next := by
    intro _ step
    cases step with
    | serves handles => exact runnerStep_quiet handles
  have ends : Sound noise worker state sequence calls responses
      (Connection.idle noise last (sequence + calls.length) sent' received' [] responses) :=
    sound_idle answers (append_nil calls).symm (append_nil responses).symm
  refine ⟨count, sent', received', fun steps connection other => ?_⟩
  obtain ⟨hf, hs, rest⟩ := run.complete rests ends other
  exact ⟨hs, hf, rest.steps⟩

end Programs

section Sample
open Checked

def plainCipher : Cipher where
  sealed _ plaintext := plaintext ++ List.replicate noiseTagBytes 0
  opened _ ciphertext := some (ciphertext.take (ciphertext.length - noiseTagBytes))
  length_sealed _ plaintext := by simp
  opened_sealed _ plaintext := by simp

/-- The functions of Python, as they are on one object and its strings. -/
def samplePython (plaintext : Bytes) (members : Payload) : Python where
  loads hook given :=
    if given = plaintext then hook members
    else .error (.value "Runner RPC request is not valid UTF-8 JSON")
  uuid := some
  isalnum value := value ≠ [] ∧ ∀ c ∈ value, 48 ≤ c ∧ c ≤ 57 ∨ 65 ≤ c ∧ c ≤ 90 ∨ 97 ≤ c ∧ c ≤ 122

def sampleContent (body : Json) : Bytes :=
  (((body.members.getD []).string "content").getD []).map UInt8.ofNat

def sampleWorker (plaintext : Bytes) (members : Payload) (object : plaintext.head? = some 123) :
    Worker Nat Json where
  python := samplePython plaintext members
  dispatch state request := .ok (200, request.body, state + 1)
  dumps body := bytes "\x7b\"content\":\"" ++ sampleContent body ++ bytes "\"\x7d"
  loads_magic hook given framed := by
    refine ⟨_, if_neg ?_⟩
    rintro rfl
    obtain ⟨_, rfl⟩ := framed
    simp [transportMagic] at object

variable {content : Bytes}

def sampleFront : Bytes := bytes "\x7b\"body\":\x7b\"content\":\""

def sampleBack : Bytes :=
  bytes
    "\"\x7d,\"method\":\"PUT\",\"path\":\"/api/workspaces/0b4bd3f26e0f4f3c9d6b0c5f4a7f7e11/files/content\"" ++
    bytes
      ",\"query\":\x7b\"path\":\"notes.txt\"\x7d,\"request_id\":\"0b4bd3f2-6e0f-4f3c-9d6b-0c5f4a7f7e11\"" ++
    bytes ",\"sequence\":0,\"type\":\"request\",\"v\":2\x7d"

def sampleText (content : Bytes) : Bytes := sampleFront ++ content ++ sampleBack

def sampleRequest (content : Bytes) : RunnerRpcRequest where
  version := .two
  sequence := 0
  requestId := text "0b4bd3f2-6e0f-4f3c-9d6b-0c5f4a7f7e11"
  method := text "PUT"
  path := text "/api/workspaces/0b4bd3f26e0f4f3c9d6b0c5f4a7f7e11/files/content"
  body := .object [(text "content", .text (content.map UInt8.toNat))]
  query := [(text "path", text "notes.txt")]
  pushes := false

def sampleMembers (request : RunnerRpcRequest) : Payload :=
  [(text "body", request.body), (text "method", .text request.method), (text "path", .text request.path),
    (text "query", .object (request.query.map fun item => (item.1, .text item.2))),
    (text "request_id", .text request.requestId), (text "sequence", .integer request.sequence),
    (text "type", .text (text "request")), (text "v", .integer 2)]

def editWorker (content : Bytes) : Worker Nat Json :=
  sampleWorker (sampleText content) (sampleMembers (sampleRequest content)) rfl

theorem length_sampleText : (sampleText content).length = content.length + 227 := by
  have front : sampleFront.length = 20 := by decide
  have back : sampleBack.length = 207 := by decide +kernel
  rw [sampleText, length_append, length_append, front, back]
  omega

set_option maxRecDepth 4000 in
theorem accept_sampleText (short : content.length ≤ 1048576) :
    (editWorker content).accept 0 (sampleText content) = .ok (sampleRequest content) := by
  have bounded : ¬ (sampleText content = [] ∨ requestBytesMax < (sampleText content).length) := by
    rw [← length_eq_zero_iff, length_sampleText, requestBytesMax]
    omega
  have loaded : (editWorker content).python.loads jsonObjectWithoutDuplicates (sampleText content) =
      .ok (.object (sampleMembers (sampleRequest content))) := if_pos rfl
  have parsed : parsePayload (editWorker content).python (sampleMembers (sampleRequest content)) 0 =
      .ok (sampleRequest content) := rfl
  simp only [Worker.accept, steps_ok]
  refine ⟨_, ?_, by simp [sampleRequest], rfl⟩
  simp only [parseRequest, steps_ok]
  exact ⟨bounded, _, loaded, _, rfl, parsed⟩

theorem length_envelope (request : RunnerRpcRequest) (statusCode : Nat) (body : Bytes) :
    (envelope request statusCode body).length =
      body.length + (envelope request statusCode []).length := by
  simp only [envelope, length_append, length_nil]
  omega

theorem dumps_sampleRequest : (editWorker content).dumps (sampleRequest content).body =
    bytes "\x7b\"content\":\"" ++ content ++ bytes "\"\x7d" := by
  have same : (content.map UInt8.toNat).map UInt8.ofNat = content := by
    rw [map_map]
    exact (map_congr_left fun byte _ => UInt8.ofNat_toNat).trans (map_id content)
  exact congrArg (fun middle => bytes "\x7b\"content\":\"" ++ middle ++ bytes "\"\x7d") same

theorem length_response :
    (envelope (sampleRequest content) 200
        ((editWorker content).dumps (sampleRequest content).body)).length =
      content.length + 125 := by
  have same : envelope (sampleRequest content) 200 [] = envelope (sampleRequest []) 200 [] := rfl
  have empty : (envelope (sampleRequest []) 200 []).length = 111 := by decide +kernel
  have front : (bytes "\x7b\"content\":\"").length = 12 := rfl
  have back : (bytes "\"\x7d").length = 2 := rfl
  rw [length_envelope, dumps_sampleRequest, same, empty, length_append, length_append, front, back]
  omega

/-- An edit of a file that is sent in fragments, with an answer that is pulled in fragments. -/
theorem exchanges_return_fragmented :
    let content : Bytes := List.replicate 70000 97
    let worker := editWorker content
    let response := envelope (sampleRequest content) 200 (worker.dumps (sampleRequest content).body)
    noisePlaintextBytesMax < (sampleText content).length ∧
      noisePlaintextBytesMax < response.length ∧ ∃ count sent' received', ∀ steps connection,
        Steps (Step ⟨plainCipher, plainCipher⟩ worker) steps
            (Connection.idle ⟨plainCipher, plainCipher⟩ 0 0 1 1 [⟨sampleText content, false⟩] []) connection →
          Sound ⟨plainCipher, plainCipher⟩ worker 0 0 [⟨sampleText content, false⟩]
            [response] connection ∧ steps ≤ count ∧
            Steps (Step ⟨plainCipher, plainCipher⟩ worker) (count - steps) connection
              (Connection.idle ⟨plainCipher, plainCipher⟩ 1 1 sent' received' [] [response]) := by
  intro content worker response
  have size : content.length = 70000 := length_replicate
  clear_value content
  have sent : (sampleText content).length = content.length + 227 := length_sampleText
  have received : response.length = content.length + 125 := length_response
  have answered : worker.answer 0 0 (sampleText content) = .ok (response, sampleRequest content, 1) := by
    simp only [Worker.answer, steps_ok]
    exact ⟨_, accept_sampleText (by omega), _, rfl, rfl⟩
  refine ⟨?_, ?_, exchanges_return ⟨plainCipher, plainCipher⟩ (.cons ?_ ?_ answered rfl ?_ (.nil 1 1)) 1 1⟩
  · rw [sent, size]
    decide
  · rw [received, size]
    decide
  · rw [sent]
    omega
  · rw [sent, size]
    decide
  · rw [received, size]
    decide

end Sample

end Yinshi.Rpc
