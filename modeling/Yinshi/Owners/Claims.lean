import Mathlib.Data.List.Basic
import Mathlib.Logic.Function.Basic
import Mathlib.Order.Lattice

/-! Documents that claim a terminal owner id over a `BroadcastChannel` (`terminalChannel.ts`).
The handler of a message and what follows the wait of a claim run without an await, so each is
one event. A document that was restored after it had been hidden claims again, as a new one. -/

namespace Yinshi.Owners
open Function

inductive MessageType
  | probe
  | claim
  deriving DecidableEq

/-- `TerminalOwnerMessage`; a value of another shape is ignored by every document. -/
structure OwnerMessage (δ ω : Type) where
  type : MessageType
  ownerId : ω
  documentId : δ
  targetDocumentId : Option δ := none
  established : Option Bool := none

/-- The variables of one call of `claimTerminalOwnerId`. -/
structure Claimant (ω : Type) where
  candidateOwnerId : ω
  pendingOwnerId : Option ω := none
  establishedOwnerId : Option ω := none
  collisionDetected : Bool := false
  attempt : Nat := 0

def claimAttemptsMax : Nat := 4

section Document
variable {δ ω : Type} [LinearOrder δ] [DecidableEq ω] (me : δ)

def probe (ownerId : ω) : OwnerMessage δ ω where
  type := .probe
  ownerId := ownerId
  documentId := me

def rotateEstablishedOwner (random : ω) (claimant : Claimant ω) :
    Claimant ω × List (OwnerMessage δ ω) :=
  ({ claimant with establishedOwnerId := some random, pendingOwnerId := none }, [probe me random])

def reply (established : Bool) (message : OwnerMessage δ ω) : OwnerMessage δ ω where
  type := .claim
  ownerId := message.ownerId
  documentId := me
  targetDocumentId := some message.documentId
  established := some established

def onProbe (random : ω) (claimant : Claimant ω) (message : OwnerMessage δ ω) :
    Claimant ω × List (OwnerMessage δ ω) :=
  let established := decide (claimant.establishedOwnerId = some message.ownerId)
  let contending := decide (claimant.pendingOwnerId = some message.ownerId)
  if ¬ established ∧ ¬ contending then (claimant, []) else
    let otherDocumentWins := message.documentId < me
    let claimant := if contending ∧ otherDocumentWins then { claimant with collisionDetected := true }
      else claimant
    if established ∧ otherDocumentWins then
      let rotated := rotateEstablishedOwner me random claimant
      (rotated.1, reply me established message :: rotated.2)
    else (claimant, [reply me established message])

def onClaim (random : ω) (claimant : Claimant ω) (message : OwnerMessage δ ω) :
    Claimant ω × List (OwnerMessage δ ω) :=
  if message.targetDocumentId ≠ some me then (claimant, []) else
    let otherDocumentWins := message.documentId < me
    if some message.ownerId = claimant.pendingOwnerId then
      if message.established = some true ∨ otherDocumentWins then
        ({ claimant with collisionDetected := true }, [])
      else (claimant, [])
    else if some message.ownerId = claimant.establishedOwnerId ∧ message.established = some true ∧
        otherDocumentWins then rotateEstablishedOwner me random claimant
    else (claimant, [])

def rotates (claimant : Claimant ω) (message : OwnerMessage δ ω) : Prop :=
  claimant.establishedOwnerId = some message.ownerId ∧ message.documentId < me ∧
    (message.type = .probe ∨
      message.targetDocumentId = some me ∧ message.established = some true)

instance (claimant : Claimant ω) (message : OwnerMessage δ ω) : Decidable (rotates me claimant message) :=
  inferInstanceAs (Decidable (_ ∧ _ ∧ _))

def onMessage (random : ω) (claimant : Claimant ω) (message : OwnerMessage δ ω) :
    Claimant ω × List (OwnerMessage δ ω) :=
  if message.documentId = me then (claimant, []) else
    match message.type with
    | .probe => onProbe me random claimant message
    | .claim => onClaim me random claimant message

def beginAttempt (claimant : Claimant ω) : Claimant ω × List (OwnerMessage δ ω) :=
  ({ claimant with pendingOwnerId := some claimant.candidateOwnerId, collisionDetected := false },
    [probe me claimant.candidateOwnerId])

def claimElapsed (random : ω) (claimant : Claimant ω) : Claimant ω × List (OwnerMessage δ ω) :=
  if claimant.collisionDetected = false then
    ({ claimant with
      establishedOwnerId := some claimant.candidateOwnerId, pendingOwnerId := none }, [])
  else
    let claimant := { claimant with candidateOwnerId := random, attempt := claimant.attempt + 1 }
    if claimant.attempt < claimAttemptsMax then beginAttempt me claimant
    else ({ claimant with establishedOwnerId := some random, pendingOwnerId := none }, [])

def claimTerminalOwnerId (stored inMemory : Option ω) (random : ω) :
    Claimant ω × List (OwnerMessage δ ω) :=
  beginAttempt me { candidateOwnerId := (stored <|> inMemory).getD random }

end Document

namespace Claimant
variable {ω : Type} [DecidableEq ω]

def holds (claimant : Claimant ω) (id : ω) : Prop :=
  claimant.pendingOwnerId = some id ∨ claimant.establishedOwnerId = some id

instance (claimant : Claimant ω) (id : ω) : Decidable (claimant.holds id) :=
  inferInstanceAs (Decidable (_ ∨ _))

def ids (claimant : Claimant ω) : List ω :=
  claimant.pendingOwnerId.toList ++ claimant.establishedOwnerId.toList

omit [DecidableEq ω] in
@[simp] theorem mem_ids {claimant : Claimant ω} {id : ω} : id ∈ claimant.ids ↔ claimant.holds id := by
  simp [ids, holds]

end Claimant

structure Copy (δ ω : Type) where
  message : OwnerMessage δ ω
  recipient : δ
  root : Nat
  depth : Nat

/-- The open documents and the messages in flight. The last four fields are read by no document:
the ids that each document ever held, the turns of claim loops so far, the number of documents a
root was sent to, and the number of messages posted in consequence of it. -/
structure Browser (δ ω : Type) where
  opened : List δ
  documents : δ → Option (Claimant ω)
  flight : List (Copy δ ω)
  candidates : List (δ × ω)
  roots : Nat
  audience : Nat → Nat
  caused : Nat → Nat

inductive Event (δ ω : Type)
  | opens (document : δ) (stored inMemory : Option ω) (random : ω)
  | elapses (document : δ) (random : ω)
  | delivers (position : Nat) (random : ω)
  | closes (document : δ)

namespace Browser
variable {δ ω : Type} [LinearOrder δ] [DecidableEq ω]

def initial : Browser δ ω where
  opened := []
  documents _ := none
  flight := []
  candidates := []
  roots := 0
  audience _ := 0
  caused _ := 0

def others (browser : Browser δ ω) (me : δ) : List δ := browser.opened.filter (· ≠ me)

/-- `channel.postMessage`, to every other document whose channel is open. -/
def copies (browser : Browser δ ω) (me : δ) (root depth : Nat)
    (messages : List (OwnerMessage δ ω)) : List (Copy δ ω) :=
  messages.flatMap fun message => (browser.others me).map fun recipient => ⟨message, recipient, root, depth⟩

def act (browser : Browser δ ω) (me : δ) (root depth : Nat)
    (result : Claimant ω × List (OwnerMessage δ ω)) : Browser δ ω :=
  { browser with
    documents := update browser.documents me (some result.1)
    flight := browser.flight ++ browser.copies me root depth result.2
    candidates := browser.candidates ++ result.1.ids.map (me, ·) }

def speak (browser : Browser δ ω) (me : δ) (result : Claimant ω × List (OwnerMessage δ ω)) :
    Browser δ ω :=
  { browser.act me browser.roots 0 result with
    roots := browser.roots + 1
    audience := update browser.audience browser.roots (browser.others me).length }

def answer (browser : Browser δ ω) (copy : Copy δ ω)
    (result : Claimant ω × List (OwnerMessage δ ω)) : Browser δ ω :=
  { browser.act copy.recipient copy.root (copy.depth + 1) result with
    caused := update browser.caused copy.root (browser.caused copy.root + result.2.length) }

/-- The handler of `pagehide`; what is on its way to a closed channel is dropped. -/
def close (browser : Browser δ ω) (document : δ) : Browser δ ω :=
  { browser with
    opened := browser.others document
    documents := update browser.documents document none
    flight := browser.flight.filter (·.recipient ≠ document) }

def InUse (browser : Browser δ ω) (id : ω) : Prop :=
  (∃ document ∈ browser.opened, ∃ claimant ∈ browser.documents document, claimant.holds id) ∨
    ∃ copy ∈ browser.flight, copy.message.ownerId = id

instance (browser : Browser δ ω) (id : ω) : Decidable (browser.InUse id) :=
  inferInstanceAs (Decidable (_ ∨ _))

def step (browser : Browser δ ω) : Event δ ω → Option (Browser δ ω)
  | .opens document stored inMemory random =>
    if document ∉ browser.opened ∧ (stored = none → inMemory = none → ¬ browser.InUse random) then
      some ({ browser with opened := document :: browser.opened }.speak document
        (claimTerminalOwnerId document stored inMemory random))
    else none
  | .elapses document random =>
    (browser.documents document).bind fun claimant =>
      if claimant.pendingOwnerId ≠ none ∧
          (claimant.collisionDetected = true → ¬ browser.InUse random) then
        some (browser.speak document (claimElapsed document random claimant))
      else none
  | .delivers position random =>
    browser.flight[position]?.bind fun copy =>
      (browser.documents copy.recipient).bind fun claimant =>
        if rotates copy.recipient claimant copy.message → ¬ browser.InUse random then
          some ({ browser with flight := browser.flight.eraseIdx position }.answer copy
            (onMessage copy.recipient random claimant copy.message))
        else none
  | .closes document => if document ∈ browser.opened then some (browser.close document) else none

end Browser

end Yinshi.Owners
