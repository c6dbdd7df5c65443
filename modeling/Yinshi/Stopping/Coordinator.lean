import Mathlib.Logic.Function.Basic
import Mathlib.Data.List.GetD

/-! The runs of one session, the registrations of their sidecars, and the requests to cancel.
Between two awaits nothing else happens, so each part of a run or of a call there is one event. -/

namespace Yinshi.Stopping
open Function

/-- `_RegisteredRun`; the sidecar is named by the run that it was opened for. -/
structure RegisteredRun where
  sidecar : Nat
  released : Bool := false

/-- `RunCoordinator`. A registration is an object: a caller may hold it after it is removed. -/
structure Coordinator (κ : Type) where
  runs : κ → Option Nat
  objects : List RegisteredRun

inductive CancelOutcome
  | requested
  | finished
  | absent
  deriving DecidableEq

namespace Coordinator
variable {κ : Type} [DecidableEq κ]
variable {coordinator : Coordinator κ} {sessionId : κ}

def register (coordinator : Coordinator κ) (sessionId : κ) (sidecar : Nat) : Coordinator κ where
  runs := update coordinator.runs sessionId (some coordinator.objects.length)
  objects := coordinator.objects ++ [{ sidecar := sidecar }]

def release (coordinator : Coordinator κ) (sessionId : κ) : Coordinator κ where
  runs := update coordinator.runs sessionId none
  objects := match coordinator.runs sessionId with
    | none => coordinator.objects
    | some object => coordinator.objects.modify object fun entry => { entry with released := true }

@[simp] theorem register_runs {sidecar : Nat} :
    (coordinator.register sessionId sidecar).runs sessionId = some coordinator.objects.length :=
  update_self ..

@[simp] theorem release_runs : (coordinator.release sessionId).runs sessionId = none :=
  update_self ..

theorem of_register {sidecar object : Nat} {entry : RegisteredRun}
    (ht : (coordinator.register sessionId sidecar).objects[object]? = some entry) :
    coordinator.objects[object]? = some entry ∨ entry = ⟨sidecar, false⟩ := by
  unfold register at ht
  rw [List.getElem?_append] at ht
  split at ht
  next => exact .inl ht
  next =>
    obtain ⟨_, hs⟩ := List.getElem?_eq_some_iff.mp ht
    exact .inr (by simpa using hs.symm)

theorem release_objects {object : Nat} :
    (coordinator.release sessionId).objects[object]? =
      if coordinator.runs sessionId = some object then
      coordinator.objects[object]?.map
        fun entry => { entry with released := true } else coordinator.objects[object]? := by
  unfold release
  cases stored : coordinator.runs sessionId with
  | none => simp
  | some other =>
    by_cases hs : other = object
    · simp [hs]
    · simp [hs]

def wasReleased (coordinator : Coordinator κ) (object : Nat) : Bool :=
  coordinator.objects[object]?.any (·.released)

end Coordinator

inductive Status
  | idle
  | running
  deriving DecidableEq

/-- How far a run has come: `reserve_prompt`, then the parts of `event_stream`. -/
inductive Phase
  | reserved
  | registered
  | ended
  | finalized
  | released
  | gone
  deriving DecidableEq

/-- A call of `request_cancel`, with the registration that it has found. -/
inductive Asked
  | calling (object : Nat)
  | answered (outcome : CancelOutcome)
  | raised
  deriving DecidableEq

/-- The status and the turn of the latest user message are those of the database. -/
structure Session (κ : Type) where
  status : Status
  turn : Option Nat
  coordinator : Coordinator κ
  phase : Nat → Option Phase
  asked : Nat → Option Asked

inductive Event
  /-- `reserve_prompt`. -/
  | reserve (run : Nat)
  /-- The execution context cannot be resolved. -/
  | abandon (run : Nat)
  | register (run : Nat)
  | miss (run : Nat)
  | finish (run : Nat)
  | finalize (run : Nat) (persisted : Bool)
  | release (run : Nat)
  | disconnect (run : Nat)
  | ask (call : Nat)
  /-- `sidecar.cancel` returns or raises. -/
  | reply (call : Nat) (succeeded : Bool)

section Steps
variable {κ : Type} [DecidableEq κ] (sessionId : κ)

def releaseIfOwned (s : Session κ) (run : Nat) : Status := if s.turn = some run then .idle else s.status

def step (s : Session κ) : Event → Option (Session κ)
  | .reserve run =>
    if s.phase run = none ∧ s.status = .idle then
      some { s with status := .running, turn := some run, phase := update s.phase run (some .reserved) }
    else none
  | .abandon run =>
    if s.phase run = some .reserved then
      some { s with status := releaseIfOwned s run, phase := update s.phase run (some .gone) }
    else none
  | .register run =>
    if s.phase run = some .reserved then
      some { s with
             coordinator := s.coordinator.register sessionId run,
             phase := update s.phase run (some .registered) }
    else none
  | .miss run =>
    if s.phase run = some .reserved then some { s with phase := update s.phase run (some .ended) } else none
  | .finish run =>
    if s.phase run = some .registered then some { s with phase := update s.phase run (some .ended) } else none
  | .finalize run persisted =>
    if s.phase run = some .ended then
      some { s with
        status := if persisted then releaseIfOwned s run else s.status
        phase := update s.phase run (some .finalized) }
    else none
  | .release run =>
    if s.phase run = some .finalized then
      some { s with
             coordinator := s.coordinator.release sessionId,
             phase := update s.phase run (some .released) }
    else none
  | .disconnect run =>
    if s.phase run = some .released then some { s with phase := update s.phase run (some .gone) } else none
  | .ask call =>
    if s.asked call = none then
      some { s with asked := update s.asked call (some (match s.coordinator.runs sessionId with
        | none => .answered .absent
        | some object => .calling object)) }
    else none
  | .reply call succeeded =>
    match s.asked call with
    | some (.calling object) => some { s with asked := update s.asked call (some (
        if succeeded then .answered .requested
        else if s.coordinator.wasReleased object then .answered .finished
        else .raised)) }
    | _ => none

def Session.initial : Session κ := ⟨.idle, none, ⟨fun _ => none, []⟩, fun _ => none, fun _ => none⟩

def Session.stored (s : Session κ) : Option Nat := s.coordinator.runs sessionId

/-- When a run is released, nothing is stored for the session but its own registration. -/
def Orderly (s : Session κ) : Event → Prop
  | .release run =>
    ∀ object ∈ s.stored sessionId, ∀ entry ∈ s.coordinator.objects[object]?, entry.sidecar = run
  | _ => True

inductive Reached : Session κ → Prop
  | initial : Reached .initial
  | step {s s' : Session κ} {event : Event} (before : Reached s) (orderly : Orderly sessionId s event)
      (stepped : step sessionId s event = some s') : Reached s'

def replay (s : Session κ) : List Event → Option (Session κ)
  | [] => some s
  | event :: events => (step sessionId s event).bind fun s' => replay s' events

end Steps

end Yinshi.Stopping
