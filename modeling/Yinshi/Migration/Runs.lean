import Yinshi.Migration.Safety

/-! Runs: opens one after another, writes through the connections they returned, and stops. -/

namespace Yinshi.Migration
open Faulty

inductive Opener
  | user
  | application

structure Returned (ρ : Type) where
  connection : Connection
  disk : Disk ρ
  committed : ρ

structure System (ρ : Type) where
  disk : Disk ρ
  committed : ρ
  connections : List Connection := []
  opens : List (Returned ρ) := []

inductive Event (ρ : Type)
  | opens (opener : Opener) (settings : Opening.Settings) (faults : List (Fault Error))
  | write (number : Nat) (rows : ρ)
  | settle

section System
variable {ρ : Type} [Inhabited ρ] [DecidableEq ρ]

def Opener.open (opener : Opener) (settings : Opening.Settings) : Opening ρ Connection :=
  match opener with
  | .user => Opening.openUserConnection settings
  | .application => Opening.openApplicationConnection settings

namespace System
variable (s : System ρ)

def initial (rows : ρ) (wal : Option (Option ρ)) (shm : Bool) (backups : List Nat) : System ρ where
  disk := { primary := some ⟨0, .database false rows⟩, wal, shm, backups, identities := 1 }
  committed := match wal with
    | some (some newer) => newer
    | _ => rows

def Attached (connection : Connection) : Prop :=
  s.disk.primary.any (·.identity = connection.identity) = true ∧ s.disk.unlinkedWals = connection.wal

instance decidableAttached (connection : Connection) : Decidable (s.Attached connection) :=
  inferInstanceAs (Decidable (_ ∧ _))

def write (connection : Connection) (rows : ρ) : System ρ :=
  if s.Attached connection then
    if (s.disk.reads connection).isSome then
      { s with disk := { s.disk with wal := some (some rows), shm := true }, committed := rows }
    else s
  else { s with committed := rows }

def step : Event ρ → System ρ
  | .opens opener settings faults =>
    let ran := opener.open settings faults s.disk
    match ran.exit with
    | .value connection =>
      { s with
        disk := ran.state, connections := s.connections ++ [connection]
        opens := ⟨connection, ran.state, s.committed⟩ :: s.opens }
    | .raised _ | .stopped => { s with disk := ran.state }
  | .write number rows =>
    match s.connections[number]? with
    | some connection => s.write connection rows
    | none => s
  | .settle => { s with disk := s.disk.settle }

end System

/-- What the environment may do to a step of an open. -/
def Permitted (opener : Opener) (settings : Opening.Settings) (d : Disk ρ) (step : Step)
    (_ : Disk ρ) (fault : Fault Error) : Prop :=
  (step = .removePartial → ∀ error, fault ≠ .fail error) ∧
    (opener = .application → d.primary.any File.encrypted = true → settings.required = false →
      step = .load → ∀ error, fault ≠ .fail error)

def Careful (s : System ρ) : Event ρ → Prop
  | .opens opener settings faults =>
    (opener = .application → s.disk.primary.any File.encrypted = true → settings.enabled = true) ∧
      ∀ step ∈ (opener.open settings faults s.disk).met,
        Permitted opener settings s.disk step.label step.state step.fault
  | .write number _ => ∀ connection ∈ s.connections[number]?, s.Attached connection
  | .settle => True

inductive Reached (allowed : System ρ → Event ρ → Prop) : System ρ → Prop
  | initial (rows wal shm backups) : Reached allowed (.initial rows wal shm backups)
  | step {s : System ρ} {event : Event ρ} (before : Reached allowed s) (fits : allowed s event) :
    Reached allowed (s.step event)

structure Sound (s : System ρ) : Prop where
  good : Good s.committed s.disk
  opens : ∀ opened ∈ s.opens, opened.disk.reads opened.connection = some opened.committed ∧
    (opened.connection.encrypted = true → opened.disk.rollback = none)

omit [Inhabited ρ] [DecidableEq ρ] in
theorem sound_initial (rows : ρ) (wal : Option (Option ρ)) (shm : Bool) (backups : List Nat) :
    Sound (.initial rows wal shm backups) where
  good := by
    refine ⟨?_, fun installed => nomatch installed⟩
    rcases wal with _ | _ | _ <;> rfl
  opens _ opened := absurd opened List.not_mem_nil

theorem open_spec {c : ρ} {d : Disk ρ} (opener : Opener) (settings : Opening.Settings)
    (hg : Good c d)
    (enabled : opener = .application → d.primary.any File.encrypted = true →
      settings.enabled = true) :
    Wp (Permitted opener settings d) (Good c) (fun _ => Good c) (Opened c) (opener.open settings)
      d := by
  have removes : ∀ d' error, ¬ Permitted opener settings d .removePartial d' (.fail error) :=
        fun _ error hf => hf.1 rfl error rfl
  cases opener with
  | user => exact openUser_spec removes settings hg
  | application =>
    refine openApplication_spec removes settings
      (fun encrypted => ⟨enabled rfl encrypted, fun optional _ error hf => ?_⟩) hg
    exact hf.2 rfl encrypted optional rfl error rfl

omit [Inhabited ρ] [DecidableEq ρ] in
theorem Sound.write {s : System ρ} (hs : Sound s) {connection : Connection} {rows : ρ}
    (hc : s.Attached connection) : Sound (s.write connection rows) := by
  unfold System.write
  rw [if_pos hc]
  split
  · refine ⟨⟨?_, hs.good.installed⟩, hs.opens⟩
    obtain ⟨_, _, _, hh⟩ := whole_of_visible hs.good.visible
    simp [Disk.visible, hh]
  · exact hs

theorem sound_step {s : System ρ} {event : Event ρ} (hs : Sound s) (hf : Careful s event) :
    Sound (s.step event) := by
  cases event with
  | opens opener settings faults =>
    have ends := open_spec opener settings hs.good hf.1 faults hf.2
    unfold Ran.Ends at ends
    simp only [System.step]
    split
    next connection exit =>
      rw [exit] at ends
      refine ⟨ends.1, fun opened hl => ?_⟩
      rcases List.mem_cons.mp hl with rfl | before
      · exact ends.2
      · exact hs.opens opened before
    next error exit =>
      rw [exit] at ends
      exact ⟨ends, hs.opens⟩
    next exit =>
      rw [exit] at ends
      exact ⟨ends.1, hs.opens⟩
  | write _ rows =>
    simp only [System.step]
    split
    next connection hh => exact hs.write (hf connection hh)
    next => exact hs
  | settle => exact ⟨(settle_spec hs.good).1, hs.opens⟩

/-- No careful run loses rows, and none brings old ones back. -/
theorem migration_safe {s : System ρ} (reached : Reached Careful s) :
    s.disk.visible = some s.committed ∧
    (s.disk.installed = true → s.disk.primary.any File.encrypted = true) ∧
    ∀ opened ∈ s.opens, opened.disk.reads opened.connection = some opened.committed ∧
      (opened.connection.encrypted = true → opened.disk.rollback = none) := by
  have hs : Sound s := by
    induction reached with
    | initial rows wal shm backups => exact sound_initial rows wal shm backups
    | step _ hf hs => exact sound_step hs hf
  exact ⟨hs.good.visible, hs.good.installed, hs.opens⟩

end System

def required : Opening.Settings := ⟨true, true, true⟩

def exampleInitial : System Nat := .initial 7 (some (some 8)) true []

theorem migration_safe_undisturbed :
    (exampleInitial.step (.opens .user required [])).disk.visible = some 8 ∧
    (exampleInitial.step (.opens .user required [])).disk.installed = true := by
  have calm : (Opener.user.open required [] exampleInitial.disk).met.all fun step => step.fault.isGo := by decide
  have careful : Careful exampleInitial (.opens .user required []) := by
    refine ⟨fun application => (nomatch application), fun step met => ?_⟩
    have go := List.all_eq_true.mp calm step met
    exact ⟨fun _ error hf => by simp [hf, Fault.isGo] at go, fun application => nomatch application⟩
  have safe := migration_safe ((Reached.initial 7 (some (some 8)) true []).step careful)
  exact ⟨safe.1, by decide⟩

def partialFaults : List (Fault Error) := List.replicate 21 (.go 2) ++ [.fail .os, .fail .os]

/-- The handler installs a part of the rollback copy over the only whole database. -/
theorem partial_copy_installed : ¬ ∀ s : System Nat, Reached (fun _ _ => True) s →
    s.disk.visible.isSome = true ∨ ∃ rows, Whole false rows s.disk.rollback := by
  intro safe
  rcases safe _ (Reached.step (.initial 7 (some (some 8)) true []) trivial : Reached (fun _ _ => True)
    (exampleInitial.step (.opens .user required partialFaults))) with visible | ⟨rows, identity, whole⟩
  · exact absurd visible (by decide)
  · have gone : (exampleInitial.step (.opens .user required partialFaults)).disk.rollback.isNone =
          true := by decide
    rw [whole] at gone
    exact nomatch gone

end Yinshi.Migration
