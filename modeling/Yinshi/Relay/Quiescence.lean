import Yinshi.Relay.Registry

/-! Quiescence of a runner over reconnections. The acknowledgement of a maintenance belongs
to its record; a watch keeps which connection gave it and which calls rely on it. -/

namespace Yinshi.Relay
open ByteText Function Runs Relation List Option

/-- The broker with the connections that were registered, the job that each finished future
was finished for, the acknowledgements by connection, and the calls of `quiesce_runner` that
have returned and whose job is not released. -/
structure Watch where
  broker : Broker := {}
  connections : List (Text × Nat) := []
  settled : Text × Nat → Option Uuid := fun _ => none
  acknowledged : List (Nat × Uuid) := []
  held : List (Text × Uuid) := []

namespace Watch

/-- The runner and the job of a call of `quiesce_runner` that returns normally: at once, when
it has nothing to send, or after its wait. -/
def returned (watch : Watch) : Operation → Option (Text × Uuid)
  | .quiesce runnerId jobId order clock =>
    match (watch.broker.quiesceRunner runnerId jobId order clock).2 with
    | .ok [] => some (runnerId, jobId)
    | _ => none
  | .quiesceReturned runnerId ref => (watch.settled (runnerId, ref)).map fun jobId => (runnerId, jobId)
  | _ => none

def released (watch : Watch) : Operation → Option (Text × Uuid)
  | .release runnerId jobId =>
    match (watch.broker.releaseMaintenance runnerId jobId).2 with
    | .ok () => some (runnerId, jobId)
    | .error _ => none
  | _ => none

def forwarded (watch : Watch) : Operation → Option Text
  | .clientFrame transferId ciphertext =>
    match (watch.broker.clientFrame transferId ciphertext).2 with
    | .ok _ => watch.broker.owner transferId
    | .error _ => none
  | _ => none

def matching (watch : Watch) (runnerId : Text) (jobId : Uuid) : Option RunnerMaintenance :=
  (watch.broker.maintenance runnerId).filter (·.jobId = jobId)

/-- One operation; `sender` is the connection that an acknowledgement arrives on. -/
def perform (watch : Watch) (sender : Nat) (operation : Operation) : Watch where
  broker := watch.broker.perform operation
  connections := match operation with
    | .register runnerId _ _ _ => (runnerId, watch.broker.nextRef) :: watch.connections
    | _ => watch.connections
  settled := match operation with
    | .quiesced runnerId jobId =>
      match watch.matching runnerId jobId with
      | some maintenance => update watch.settled (runnerId, maintenance.ref) (some jobId)
      | none => watch.settled
    | _ => watch.settled
  acknowledged := match operation with
    | .quiesced runnerId jobId =>
      if (watch.matching runnerId jobId).isSome then (sender, jobId) :: watch.acknowledged else
        watch.acknowledged
    | _ => watch.acknowledged
  held := (watch.returned operation).toList ++
      watch.held.filter fun entry => watch.released operation ≠ some entry

/-- Acknowledgements come from the sockets of the runner, the replaced ones included, and a
wait ends normally once its future is finished. -/
def Enabled (watch : Watch) (sender : Nat) (operation : Operation) : Prop :=
  watch.broker.Enabled operation ∧
    match operation with
    | .quiesced runnerId _ => (runnerId, sender) ∈ watch.connections
    | .quiesceReturned runnerId ref => (watch.settled (runnerId, ref)).isSome
    | _ => True

def Step (before after : Watch) : Prop :=
  ∃ sender operation, before.Enabled sender operation ∧ after = before.perform sender operation

/-- A call that returns has the acknowledgement of the connection that is registered then,
and a runner that a call relies on gets no frame of a client. -/
def Upholds (watch : Watch) (sender : Nat) (operation : Operation) : Prop :=
  (∀ runnerId jobId, watch.returned operation = some (runnerId, jobId) →
    ∀ runner ∈ (watch.perform sender operation).broker.runners runnerId,
      (runner.ref, jobId) ∈ (watch.perform sender operation).acknowledged) ∧
  ∀ runnerId jobId, (runnerId, jobId) ∈ watch.held → watch.forwarded operation ≠ some runnerId

/-- The order of steps that the fence is made for. A record is acknowledged first by the
connection that is registered, which is not replaced while a wait on it has yet to end; a
call that finds its record acknowledged finds the connection that did so; a wait ends while
its record is still there; and only its release removes a record that a call relies on. -/
def Orderly (watch : Watch) (sender : Nat) : Operation → Prop
  | .register runnerId _ _ _ => ∀ maintenance ∈ watch.broker.maintenance runnerId,
      maintenance.done = true → (runnerId, maintenance.ref) ∉ watch.broker.quiescing
  | .quiesce runnerId jobId _ _ => ∀ maintenance ∈ watch.matching runnerId jobId, maintenance.done = true →
      ∀ runner ∈ watch.broker.runners runnerId, (runner.ref, jobId) ∈ watch.acknowledged
  | .quiesced runnerId jobId => ∀ maintenance ∈ watch.matching runnerId jobId,
      maintenance.done = false → ∃ runner ∈ watch.broker.runners runnerId, runner.ref = sender
  | .quiesceReturned runnerId ref => ∃ maintenance ∈ watch.broker.maintenance runnerId, maintenance.ref = ref
  | .quiesceFailed runnerId ref => ∀ maintenance ∈ watch.broker.maintenance runnerId,
      maintenance.ref = ref → (runnerId, maintenance.jobId) ∉ watch.held
  | .disconnect runnerId _ => ∀ maintenance ∈ watch.broker.maintenance runnerId,
      (runnerId, maintenance.jobId) ∉ watch.held
  | _ => True

def OrderlyStep (before after : Watch) : Prop :=
  ∃ sender operation, before.Enabled sender operation ∧ before.Orderly sender operation ∧
    after = before.perform sender operation

end Watch

namespace Broker
variable {broker other : Broker} {runnerId : Text}

/-- The fences are the same, no call of `quiesce_runner` is new, and no runner has a new
connection. -/
structure Steady (broker other : Broker) : Prop where
  maintenance : other.maintenance = broker.maintenance
  quiescing : other.quiescing ⊆ broker.quiescing
  runners : ∀ runnerId, ∀ runner ∈ other.runners runnerId, ∃ old ∈ broker.runners runnerId,
      old.ref = runner.ref
  nextRef : broker.nextRef ≤ other.nextRef

theorem Steady.refl (broker : Broker) : Steady broker broker :=
  ⟨rfl, Subset.refl _, fun _ runner hf => ⟨runner, hf, rfl⟩, le_rfl⟩

theorem Steady.trans {first second third : Broker} (front : Steady first second)
    (back : Steady second third) : Steady first third where
  maintenance := back.maintenance.trans front.maintenance
  quiescing := List.Subset.trans back.quiescing front.quiescing
  runners runnerId runner found := by
    obtain ⟨middle, between, hs⟩ := back.runners runnerId runner found
    obtain ⟨old, ht, equal⟩ := front.runners runnerId middle between
    exact ⟨old, ht, equal.trans hs⟩
  nextRef := front.nextRef.trans back.nextRef

theorem steady_update {next : Option RunnerConnection}
    (runners : other.runners = update broker.runners runnerId next)
    (maintenance : other.maintenance = broker.maintenance)
    (quiescing : other.quiescing = broker.quiescing) (nextRef : broker.nextRef ≤ other.nextRef)
    (hk : ∀ runner ∈ next, ∃ old ∈ broker.runners runnerId, old.ref = runner.ref) :
    Steady broker other where
  maintenance := maintenance
  quiescing := quiescing ▸ Subset.refl _
  nextRef := nextRef
  runners := by
    intro id runner hf
    rw [runners] at hf
    by_cases hh : id = runnerId
    · subst hh
      rw [update_self] at hf
      exact hk runner hf
    · rw [update_of_ne hh] at hf
      exact ⟨runner, hf, rfl⟩

theorem steady_same (runners : other.runners = broker.runners)
    (maintenance : other.maintenance = broker.maintenance)
    (quiescing : other.quiescing ⊆ broker.quiescing) (nextRef : broker.nextRef ≤ other.nextRef) :
    Steady broker other :=
  ⟨maintenance, quiescing, fun _ runner hf => ⟨runner, runners ▸ hf, rfl⟩, nextRef⟩

section Calls
variable (broker)

theorem steady_popClient (transferId : Uuid) :
    Steady broker (broker.popClient transferId) := by
  unfold popClient
  split
  · exact .refl broker
  · exact steady_same rfl rfl (Subset.refl _) le_rfl

theorem steady_popClients (order : List Uuid) :
    Steady broker (order.foldl popClient broker) := by
  induction order generalizing broker with
  | nil => exact .refl broker
  | cons transferId _ ih => exact (steady_popClient broker transferId).trans (ih _)

theorem steady_retire (runnerId : Text) (transferId : Uuid) (now : Int) :
    Steady broker (broker.retire runnerId transferId now) := by
  unfold retire
  split
  · exact .refl broker
  · next runner hf =>
      refine steady_update rfl rfl rfl le_rfl fun next hs => ?_
      cases hs
      exact ⟨runner, hf, rfl⟩

theorem steady_closeTransfer (runnerId : Text) (transferId : Uuid) (now : Int) :
    Steady broker (broker.closeTransfer runnerId transferId now) :=
  (steady_popClient broker transferId).trans (steady_retire _ runnerId transferId now)

theorem steady_endSessions (runnerId : Text) (order : List Uuid)
    (clock : Uuid → Int) : Steady broker (broker.endSessions runnerId order clock) := by
  induction order generalizing broker with
  | nil => exact .refl broker
  | cons transferId _ ih => exact (steady_closeTransfer broker runnerId transferId _).trans (ih _)

theorem steady_registered (runnerId : Text) (ref : Nat) :
    Steady broker (broker.registered runnerId ref) := by
  unfold Broker.registered
  split
  · next runner hf =>
      split
      · refine steady_update rfl rfl rfl le_rfl fun next hs => ?_
        cases hs
        exact ⟨runner, hf, rfl⟩
      · exact steady_same rfl rfl (Subset.refl _) le_rfl
  · exact steady_same rfl rfl (Subset.refl _) le_rfl

theorem steady_registerFailed (runnerId : Text) (ref : Nat) :
    Steady broker (broker.registerFailed runnerId ref) := by
  unfold Broker.registerFailed
  split
  · split
    · exact steady_update rfl rfl rfl le_rfl nofun
    · exact steady_same rfl rfl (Subset.refl _) le_rfl
  · exact steady_same rfl rfl (Subset.refl _) le_rfl

theorem steady_unregister (runnerId : Text) (websocket : Nat)
    (order : List Uuid) : Steady broker (broker.unregisterRunner runnerId websocket order).1 := by
  unfold unregisterRunner
  split
  · exact .refl broker
  · split
    · exact .refl broker
    · exact (steady_popClients broker order).trans (steady_update rfl rfl rfl le_rfl nofun)

theorem steady_attach (grant : RunnerTransferGrant) (websocket : Nat) :
    Steady broker (broker.attachClient grant websocket).1 := by
  obtain hs | ⟨runner, hf, -, -, -, -, ha⟩ := attachClient_cases broker grant websocket
  · rw [hs]
    exact .refl broker
  · rw [ha]
    refine steady_update rfl rfl rfl (Nat.le_succ _) fun next hs => ?_
    cases hs
    exact ⟨runner, hf, rfl⟩

theorem steady_detach (transferId : Uuid) (websocket : Nat) (now : Int) :
    Steady broker (broker.detachClient transferId websocket now).1 := by
  unfold detachClient
  split
  · exact .refl broker
  · split
    · exact .refl broker
    · exact steady_closeTransfer broker _ transferId now

theorem steady_clientFrame (transferId : Uuid) (ciphertext : Bytes) :
    Steady broker (broker.clientFrame transferId ciphertext).1 := by
  unfold Broker.clientFrame
  repeat' split
  all_goals exact steady_same rfl rfl (Subset.refl _) le_rfl

theorem steady_runnerClosed (runnerId : Text) (transferId : Uuid) (now : Int) :
    Steady broker (broker.runnerClosedTransfer runnerId transferId now).1 := by
  unfold runnerClosedTransfer
  split
  · exact .refl broker
  · split
    · exact .refl broker
    · split
      · exact .refl broker
      · exact steady_closeTransfer broker runnerId transferId now

end Calls

theorem steady_lateFrame {runner : RunnerConnection} (hf : broker.runners runnerId = some runner)
    (transferId : Uuid) (now : Int) :
    Steady broker (broker.lateFrame runnerId runner transferId now).1 := by
  refine steady_update rfl rfl rfl le_rfl fun next hs => ?_
  cases hs
  exact ⟨runner, hf, rfl⟩

theorem steady_runnerFrame (broker : Broker) (runnerId : Text) (framedCiphertext : Bytes)
    (now : Int) : Steady broker (broker.runnerFrame runnerId framedCiphertext now).1 := by
  unfold Broker.runnerFrame
  split
  · exact .refl broker
  dsimp only
  split
  · exact .refl broker
  · next runner hp =>
      split
      · exact steady_lateFrame hp _ now
      · split
        · exact steady_lateFrame hp _ now
        · split
          · exact steady_closeTransfer broker runnerId _ now
          · split
            · exact steady_closeTransfer broker runnerId _ now
            · split
              · exact .refl broker
              · exact steady_same rfl rfl (Subset.refl _) le_rfl

theorem steady_senderWaits (broker : Broker) (transferId : Uuid) :
    Steady broker (broker.senderWaits transferId) := by
  unfold Broker.senderWaits
  split
  · exact .refl broker
  · exact steady_same rfl rfl (Subset.refl _) le_rfl

theorem steady_senderTakes (broker : Broker) (ref : Nat) : Steady broker (broker.senderTakes ref).1 := by
  unfold Broker.senderTakes
  repeat' split
  all_goals exact steady_same rfl rfl (Subset.refl _) le_rfl

def Continues (broker other : Broker) (runnerId : Text) (maintenance : RunnerMaintenance) : Prop :=
  (broker.maintenance runnerId = some maintenance ∧
    (maintenance.done = true → (runnerId, maintenance.ref) ∈ other.quiescing →
      (runnerId, maintenance.ref) ∈ broker.quiescing ∧
        ∀ runner ∈ other.runners runnerId, ∃ old ∈ broker.runners runnerId, old.ref = runner.ref)) ∨
  (broker.nextRef ≤ maintenance.ref ∧ maintenance.ref < other.nextRef ∧ maintenance.done = false)

def Lasting (broker other : Broker) : Prop :=
  broker.nextRef ≤ other.nextRef ∧
    ∀ runnerId, ∀ maintenance ∈ other.maintenance runnerId, Continues broker other runnerId maintenance

theorem Steady.lasting (steady : Steady broker other) : Lasting broker other :=
  ⟨steady.nextRef, fun runnerId _ active =>
    .inl ⟨steady.maintenance ▸ active, fun _ waits => ⟨steady.quiescing waits, steady.runners runnerId⟩⟩⟩

theorem lasting_update {next : Option RunnerMaintenance}
    (maintenance : other.maintenance = update broker.maintenance runnerId next)
    (quiescing : ∀ entry ∈ other.quiescing, entry.1 ≠ runnerId → entry ∈ broker.quiescing)
    (runners : ∀ id, ∀ runner ∈ other.runners id, ∃ old ∈ broker.runners id, old.ref = runner.ref)
    (nextRef : broker.nextRef ≤ other.nextRef)
    (fresh :
      ∀ made ∈ next, broker.nextRef ≤ made.ref ∧ made.ref < other.nextRef ∧ made.done = false) :
    Lasting broker other := by
  refine ⟨nextRef, fun id record active => ?_⟩
  rw [maintenance] at active
  by_cases hh : id = runnerId
  · subst hh
    rw [update_self] at active
    exact .inr (fresh record active)
  · rw [update_of_ne hh] at active
    exact .inl ⟨active, fun _ waits => ⟨quiescing _ waits hh, runners id⟩⟩

def waiting (broker : Broker) (runnerId : Text) (ref : Nat) : Broker :=
  { broker with quiescing := (runnerId, ref) :: broker.quiescing }

/-- The fence that `quiesce_runner` makes when there is none. -/
def opening (broker : Broker) (runnerId : Text) (jobId : Uuid) : Broker :=
  { broker.waiting runnerId broker.nextRef with
    maintenance := update broker.maintenance runnerId (some ⟨broker.nextRef, jobId, false⟩)
    nextRef := broker.nextRef + 1 }

theorem quiesceRunner_cases (broker : Broker) (runnerId : Text) (jobId : Uuid) (order : List Uuid)
    (clock : Uuid → Int) :
    ((broker.quiesceRunner runnerId jobId order clock).1 = broker ∧
        ((broker.quiesceRunner runnerId jobId order clock).2 = .ok [] →
          ∃ maintenance ∈ broker.maintenance runnerId,
            maintenance.jobId = jobId ∧ maintenance.done = true)) ∨
    ((broker.quiesceRunner runnerId jobId order clock).2 ≠ .ok [] ∧
      ((∃ maintenance ∈ broker.maintenance runnerId,
          maintenance.done = false ∧
          Steady (broker.waiting runnerId maintenance.ref)
            (broker.quiesceRunner runnerId jobId order clock).1) ∨
        broker.maintenance runnerId = none ∧
        Steady (broker.opening runnerId jobId)
          (broker.quiesceRunner runnerId jobId order clock).1)) := by
  unfold quiesceRunner
  split
  · exact .inl ⟨rfl, nofun⟩
  · next runner hf =>
      split
      · next maintenance active =>
          split
          · exact .inl ⟨rfl, nofun⟩
          · next hs =>
              split
              · next finished => exact .inl ⟨rfl, fun _ => ⟨maintenance, active, not_not.mp hs, finished⟩⟩
              · next pending =>
                  have he := steady_endSessions { broker.waiting runnerId maintenance.ref with
                    maintenance := update broker.maintenance runnerId (some maintenance) } runnerId order clock
                  have same : update broker.maintenance runnerId (some maintenance) = broker.maintenance := by
                    rw [← active, update_eq_self]
                  refine .inr ⟨by simp [Broker.quiesce], .inl ⟨maintenance,
                      active, by simpa using pending, ?_⟩⟩
                  exact ⟨he.maintenance.trans same, he.quiescing, he.runners, he.nextRef⟩
      · next ha =>
          refine .inr ⟨by simp [Broker.quiesce], .inr ⟨ha, ?_⟩⟩
          exact steady_endSessions (broker.opening runnerId jobId) runnerId order clock

theorem lasting_quiesce (broker : Broker) (runnerId : Text) (jobId : Uuid) (order : List Uuid)
    (clock : Uuid → Int) :
    Lasting broker (broker.quiesceRunner runnerId jobId order clock).1 ∧
    ∀ id,
      (broker.maintenance id).isSome →
      (broker.quiesceRunner runnerId jobId order clock).1.maintenance id =
        broker.maintenance id := by
  obtain ⟨hs, -⟩ | ⟨-, ⟨maintenance, active, pending, steady⟩ | ⟨ha, steady⟩⟩ :=
    quiesceRunner_cases broker runnerId jobId order clock
  · rw [hs]
    exact ⟨(Steady.refl broker).lasting, fun _ _ => rfl⟩
  · refine ⟨⟨steady.nextRef, fun id record lasts => ?_⟩, fun _ _ => congrFun steady.maintenance _⟩
    have old : broker.maintenance id = some record := (congrFun steady.maintenance id).symm.trans lasts
    refine .inl ⟨old, fun finished waits => ⟨?_, steady.runners id⟩⟩
    rcases mem_cons.mp (steady.quiescing waits) with joins | waits
    · -- the call joins a record that is not acknowledged
      obtain ⟨rfl, -⟩ := Prod.mk.inj joins
      obtain rfl : maintenance = record := mem_unique active old
      simp [pending] at finished
    · exact waits
  · constructor
    · refine lasting_update steady.maintenance (fun entry waits apart => ?_) steady.runners
        ((Nat.le_succ _).trans steady.nextRef) fun hm hs => ?_
      · refine (mem_cons.mp (steady.quiescing waits)).resolve_left ?_
        rintro rfl
        exact apart rfl
      · cases hs
        exact ⟨le_rfl, steady.nextRef, rfl⟩
    · intro id active
      have other : id ≠ runnerId := by
        rintro rfl
        rw [ha] at active
        cases active
      rw [steady.maintenance]
      exact update_of_ne other ..

theorem lasting_register (websocket : Nat) (durableJobId : Option Uuid) (order : List Uuid)
    (free : ∀ maintenance ∈ broker.maintenance runnerId,
        maintenance.done = true → (runnerId, maintenance.ref) ∉ broker.quiescing) :
    Lasting broker (broker.registerRunner runnerId websocket durableJobId order).1 ∧
    ∀ id,
      (broker.maintenance id).isSome →
      (broker.registerRunner runnerId websocket durableJobId order).1.maintenance id =
        broker.maintenance id := by
  have popped := steady_popClients broker order
  unfold registerRunner
  dsimp only
  rw [popped.maintenance]
  refine ⟨⟨Nat.le_add_right .., fun id maintenance active => ?_⟩, fun id active => ?_⟩
  · dsimp only at active
    by_cases hh : id = runnerId
    · subst hh
      rw [update_self] at active
      split at active
      · cases active
        exact .inr ⟨Nat.le_succ _, Nat.lt_succ_self _, rfl⟩
      · exact .inl ⟨active,
            fun finished waits =>
              absurd (popped.quiescing waits) (free maintenance active finished)⟩
    · rw [update_of_ne hh] at active
      refine .inl ⟨active, fun _ waits => ⟨popped.quiescing waits, fun runner hf => ?_⟩⟩
      dsimp only at hf
      rw [update_of_ne hh] at hf
      exact popped.runners id runner hf
  · by_cases hh : id = runnerId
    · subst hh
      rw [update_self]
      split
      · next ha =>
          rw [ha] at active
          cases active
      · rfl
    · exact update_of_ne hh ..

theorem lasting_disconnect (broker : Broker) (runnerId : Text) (order : List Uuid) :
    Lasting broker (broker.disconnectRunner runnerId order).1 ∧
    (broker.disconnectRunner runnerId order).1.maintenance =
      update broker.maintenance runnerId none := by
  unfold disconnectRunner
  split
  · exact ⟨lasting_update rfl (fun _ waits _ => waits) (fun _ runner hf => ⟨runner, hf, rfl⟩) le_rfl nofun, rfl⟩
  · have popped := steady_popClients { broker with maintenance := update broker.maintenance runnerId none } order
    refine ⟨lasting_update popped.maintenance (fun _ waits _ => popped.quiescing waits) (fun id runner hf => ?_)
      popped.nextRef nofun, popped.maintenance⟩
    dsimp only at hf
    by_cases hh : id = runnerId
    · subst hh
      rw [update_self] at hf
      cases hf
    · rw [update_of_ne hh] at hf
      exact popped.runners id runner hf

theorem lasting_quiesceFailed (broker : Broker) (runnerId : Text) (ref : Nat) :
    Lasting broker (broker.quiesceFailed runnerId ref) ∧
    ∀ id,
      (broker.quiesceFailed runnerId ref).maintenance id = broker.maintenance id ∨
      id = runnerId ∧ ∃ maintenance ∈ broker.maintenance runnerId, maintenance.ref = ref := by
  unfold Broker.quiesceFailed
  have hs : Lasting broker { broker with quiescing := broker.quiescing.erase (runnerId, ref) } :=
    Steady.lasting (steady_same rfl rfl erase_subset le_rfl)
  split
  · next maintenance active =>
      split
      · next hc =>
          refine ⟨lasting_update rfl (fun _ waits _ => mem_of_mem_erase waits)
              (fun _ runner hf => ⟨runner, hf, rfl⟩) le_rfl nofun, fun id => ?_⟩
          by_cases hh : id = runnerId
          · exact .inr ⟨hh, maintenance, active, hc⟩
          · exact .inl (update_of_ne hh ..)
      · exact ⟨hs, fun _ => .inl rfl⟩
  · exact ⟨hs, fun _ => .inl rfl⟩

theorem lasting_release (broker : Broker) (runnerId : Text) (jobId : Uuid) :
    Lasting broker (broker.releaseMaintenance runnerId jobId).1 ∧
    ((broker.releaseMaintenance runnerId jobId).1 = broker ∨
      ((broker.releaseMaintenance runnerId jobId).2 = .ok () ∧
        (∃ maintenance ∈ broker.maintenance runnerId, maintenance.jobId = jobId) ∧
        (broker.releaseMaintenance runnerId jobId).1.maintenance =
          update broker.maintenance runnerId none)) := by
  unfold releaseMaintenance
  split
  · exact ⟨(Steady.refl broker).lasting, .inl rfl⟩
  · next maintenance active =>
      split
      · exact ⟨(Steady.refl broker).lasting, .inl rfl⟩
      · next hs =>
          split
          · exact ⟨(Steady.refl broker).lasting, .inl rfl⟩
          · exact ⟨lasting_update rfl (fun _ waits _ => waits)
                (fun _ runner hf => ⟨runner, hf, rfl⟩) le_rfl nofun,
              .inr ⟨rfl, ⟨maintenance, active, not_not.mp hs⟩, rfl⟩⟩

end Broker

namespace Watch
variable {watch : Watch} {runnerId : Text} {jobId : Uuid} {sender : Nat} {operation : Operation}

structure Quiet (watch : Watch) : Prop where
  registry : Broker.Registry watch.broker
  known : ∀ runnerId, ∀ maintenance ∈ watch.broker.maintenance runnerId,
      maintenance.ref < watch.broker.nextRef
  older : ∀ runnerId ref, (watch.settled (runnerId, ref)).isSome → ref < watch.broker.nextRef
  settles : ∀ runnerId, ∀ maintenance ∈ watch.broker.maintenance runnerId, ∀ jobId ∈
    watch.settled (runnerId, maintenance.ref), maintenance.done = true ∧ maintenance.jobId = jobId
  acknowledges : ∀ runnerId, ∀ maintenance ∈ watch.broker.maintenance runnerId,
    maintenance.done = true → (runnerId, maintenance.ref) ∈ watch.broker.quiescing →
      ∀ runner ∈ watch.broker.runners runnerId, (runner.ref, maintenance.jobId) ∈ watch.acknowledged
  relies : ∀ runnerId jobId, (runnerId, jobId) ∈ watch.held →
    ∃ maintenance ∈ watch.broker.maintenance runnerId, maintenance.jobId = jobId ∧ maintenance.done = true

theorem Quiet.lasting {other : Watch} (hq : Quiet watch) (registry : Broker.Registry other.broker)
    (lasting : Broker.Lasting watch.broker other.broker) (hse : other.settled = watch.settled)
    (acknowledged : other.acknowledged = watch.acknowledged)
    (relies : ∀ runnerId jobId,
        (runnerId, jobId) ∈ other.held →
        ∃ maintenance ∈ other.broker.maintenance runnerId,
          maintenance.jobId = jobId ∧ maintenance.done = true) : Quiet other where
  registry := registry
  known runnerId maintenance active := by
    obtain ⟨old, -⟩ | ⟨-, hf, -⟩ := lasting.2 runnerId maintenance active
    · exact (hq.known runnerId maintenance old).trans_le lasting.1
    · exact hf
  older runnerId ref finished := by
    rw [hse] at finished
    exact (hq.older runnerId ref finished).trans_le lasting.1
  settles runnerId maintenance active jobId finished := by
    rw [hse] at finished
    obtain ⟨old, -⟩ | ⟨_, -⟩ := lasting.2 runnerId maintenance active
    · exact hq.settles runnerId maintenance old jobId finished
    · exact absurd (hq.older runnerId maintenance.ref (isSome_of_mem finished)) (by omega)
  acknowledges runnerId maintenance active finished waits runner found := by
    rw [acknowledged]
    obtain ⟨old, hk⟩ | ⟨-, -, hw⟩ := lasting.2 runnerId maintenance active
    · obtain ⟨waited, same⟩ := hk finished waits
      obtain ⟨before, ht, hs⟩ := same runner found
      rw [← hs]
      exact hq.acknowledges runnerId maintenance old finished waited before ht
    · rw [hw] at finished
      cases finished
  relies := relies

theorem mem_matching {maintenance : RunnerMaintenance} :
    maintenance ∈ watch.matching runnerId jobId ↔
    maintenance ∈ watch.broker.maintenance runnerId ∧ maintenance.jobId = jobId := by
  simp [matching, filter_eq_some_iff]

theorem runnerQuiesced_cases (watch : Watch) (runnerId : Text) (jobId : Uuid) :
    (watch.matching runnerId jobId = none ∧
        (watch.broker.runnerQuiesced runnerId jobId).1 = watch.broker) ∨
    ∃ maintenance, watch.matching runnerId jobId = some maintenance ∧
      (watch.broker.runnerQuiesced runnerId jobId).1 =
        { watch.broker with
          maintenance := update watch.broker.maintenance runnerId
              (some { maintenance with done := true }) } := by
  unfold matching Broker.runnerQuiesced
  split
  · next ha => exact .inl ⟨by simp [ha], rfl⟩
  · next maintenance active =>
      split
      · next other => exact .inl ⟨by simp [active, other], rfl⟩
      · next hs => exact .inr ⟨maintenance, by simp [active, not_not.mp hs], rfl⟩

theorem held_perform (hs : watch.returned operation = none) (hk : watch.released operation = none) :
    (watch.perform sender operation).held = watch.held := by
  simp [perform, hs, hk]

theorem Quiet.quiesced (hq : Quiet watch)
    (ho : watch.Orderly sender (.quiesced runnerId jobId)) :
    Quiet (watch.perform sender (.quiesced runnerId jobId)) := by
  have registry := hq.registry.quiesced runnerId jobId
  have hhe : (watch.perform sender (.quiesced runnerId jobId)).held = watch.held := held_perform rfl rfl
  obtain ⟨ha, hs⟩ | ⟨maintenance, hf, hc⟩ := runnerQuiesced_cases watch runnerId jobId
  · have broker : (watch.perform sender (.quiesced runnerId jobId)).broker = watch.broker := hs
    refine hq.lasting (broker ▸ hq.registry) (broker ▸ (Broker.Steady.refl _).lasting) ?_ ?_ ?_
    · simp [perform, ha]
    · simp [perform, ha]
    · rw [broker, hhe]
      exact hq.relies
  obtain ⟨active, hn⟩ := mem_matching.1 hf
  have broker : (watch.perform sender (.quiesced runnerId jobId)).broker = { watch.broker with
      maintenance := update watch.broker.maintenance runnerId (some { maintenance with done := true }) } := hc
  have hse : (watch.perform sender (.quiesced runnerId jobId)).settled =
      update watch.settled (runnerId, maintenance.ref) (some jobId) := by
    simp [perform, hf]
  have acknowledged : (watch.perform sender (.quiesced runnerId jobId)).acknowledged =
      (sender, jobId) :: watch.acknowledged := by
    simp [perform, hf]
  refine ⟨registry, ?_, ?_, ?_, ?_, ?_⟩
  · rw [broker]
    refine Runs.forall_update (fun id _ record ht => hq.known id record ht) fun record hs => ?_
    cases hs
    exact hq.known runnerId maintenance active
  · intro id ref finished
    rw [hse] at finished
    rw [broker]
    by_cases hh : (id, ref) = (runnerId, maintenance.ref)
    · obtain ⟨rfl, rfl⟩ := Prod.mk.inj hh
      exact hq.known id maintenance active
    · rw [update_of_ne hh] at finished
      exact hq.older id ref finished
  · rw [broker, hse]
    refine Runs.forall_update (fun id apart record ht other finished => ?_) fun record hs other finished => ?_
    · have differs : (id, record.ref) ≠ (runnerId, maintenance.ref) := fun hs => apart (Prod.mk.inj hs).1
      rw [update_of_ne differs] at finished
      exact hq.settles id record ht other finished
    · cases hs
      rw [update_self] at finished
      exact ⟨rfl, hn.trans (some.inj finished)⟩
  · rw [broker, acknowledged]
    refine Runs.forall_update (fun id _ record ht finished waits runner hr => ?_)
      fun record hs _ waits runner hr => ?_
    · exact mem_cons_of_mem _ (hq.acknowledges id record ht finished waits runner hr)
    · cases hs
      -- the first acknowledgement comes from this connection; later ones find the record acknowledged
      cases finished : maintenance.done with
      | true => exact mem_cons_of_mem _ (hq.acknowledges runnerId maintenance active finished waits runner hr)
      | false =>
        obtain ⟨current, ht, rfl⟩ := ho maintenance hf finished
        obtain rfl : current = runner := mem_unique ht hr
        rw [hn]
        exact mem_cons_self
  · rw [broker, hhe]
    intro id other relied
    obtain ⟨record, ht, job, finished⟩ := hq.relies id other relied
    by_cases hh : id = runnerId
    · subst hh
      obtain rfl : record = maintenance := mem_unique ht active
      exact ⟨{ record with done := true }, update_self .., job, rfl⟩
    · exact ⟨record, (update_of_ne hh ..).trans ht, job, finished⟩

theorem Quiet.steady (hq : Quiet watch)
    (registry : Broker.Registry (watch.broker.perform operation))
    (steady : Broker.Steady watch.broker (watch.broker.perform operation))
    (hs : (watch.perform sender operation).settled = watch.settled)
    (acknowledged : (watch.perform sender operation).acknowledged = watch.acknowledged)
    (held : (watch.perform sender operation).held = watch.held) :
    Quiet (watch.perform sender operation) := by
  refine hq.lasting registry steady.lasting hs acknowledged fun runnerId jobId relied => ?_
  rw [held] at relied
  obtain ⟨maintenance, active, rest⟩ := hq.relies runnerId jobId relied
  exact ⟨maintenance, steady.maintenance ▸ active, rest⟩

theorem Quiet.quiesce (hq : Quiet watch) {order : List Uuid} {clock : Uuid → Int}
    (registry : Broker.Registry (watch.broker.perform (.quiesce runnerId jobId order clock))) :
    Quiet (watch.perform sender (.quiesce runnerId jobId order clock)) := by
  obtain ⟨lasting, fences⟩ := Broker.lasting_quiesce watch.broker runnerId jobId order clock
  refine hq.lasting registry lasting rfl rfl fun id other relied => ?_
  have before : ∀ maintenance ∈ watch.broker.maintenance id, maintenance ∈
      (watch.perform sender (.quiesce runnerId jobId order clock)).broker.maintenance id := by
    intro maintenance active
    exact (fences id (isSome_of_mem active)).trans active
  have old : (id, other) ∈ watch.held ∨
      watch.returned (.quiesce runnerId jobId order clock) = some (id, other) := by
    simpa [perform, released, or_comm, mem_def] using relied
  obtain relied | hr := old
  · obtain ⟨maintenance, active, rest⟩ := hq.relies id other relied
    exact ⟨maintenance, before maintenance active, rest⟩
  · unfold returned at hr
    dsimp only at hr
    split at hr
    · next atOnce =>
        cases hr
        obtain ⟨-, hf⟩ | ⟨sends, -⟩ := Broker.quiesceRunner_cases watch.broker runnerId jobId order clock
        · obtain ⟨maintenance, active, rest⟩ := hf atOnce
          exact ⟨maintenance, before maintenance active, rest⟩
        · exact absurd atOnce sends
    · cases hr

theorem Quiet.quiesceReturned (hq : Quiet watch) {ref : Nat}
    (registry : Broker.Registry (watch.broker.perform (.quiesceReturned runnerId ref)))
    (ho : watch.Orderly sender (.quiesceReturned runnerId ref)) :
    Quiet (watch.perform sender (.quiesceReturned runnerId ref)) := by
  have steady : Broker.Steady watch.broker (watch.broker.perform (.quiesceReturned runnerId ref)) :=
    Broker.steady_same rfl rfl erase_subset le_rfl
  obtain ⟨maintenance, active, rfl⟩ := ho
  refine hq.lasting registry steady.lasting rfl rfl fun id other relied => ?_
  have old : (id, other) ∈ watch.held ∨
      ∃ jobId, watch.settled (runnerId, maintenance.ref) = some jobId ∧ runnerId = id ∧ jobId = other := by
    simpa [perform, released, returned, or_comm] using relied
  obtain relied | ⟨jobId, finished, rfl, rfl⟩ := old
  · exact hq.relies id other relied
  · obtain ⟨acknowledged, job⟩ := hq.settles runnerId maintenance active jobId finished
    exact ⟨maintenance, active, job, acknowledged⟩

theorem Quiet.release (hq : Quiet watch)
    (registry : Broker.Registry (watch.broker.perform (.release runnerId jobId))) :
    Quiet (watch.perform sender (.release runnerId jobId)) := by
  obtain ⟨lasting, hs | ⟨granted, ⟨maintenance, active, job⟩, removed⟩⟩ :=
    Broker.lasting_release watch.broker runnerId jobId
  · refine hq.lasting registry lasting rfl rfl fun id other relied => ?_
    have old : (id, other) ∈ watch.held := by
      simp only [perform, returned, toList_none, nil_append, mem_filter] at relied
      exact relied.1
    have broker : (watch.perform sender (.release runnerId jobId)).broker = watch.broker := hs
    rw [broker]
    exact hq.relies id other old
  · refine hq.lasting registry lasting rfl rfl fun id other relied => ?_
    obtain ⟨old, apart⟩ : (id, other) ∈ watch.held ∧ (runnerId, jobId) ≠ (id, other) := by
      simpa [perform, returned, released, granted, imp_iff_not_or] using relied
    obtain ⟨record, ht, hn, finished⟩ := hq.relies id other old
    have elsewhere : id ≠ runnerId := by
      rintro rfl
      obtain rfl : record = maintenance := mem_unique ht active
      exact apart (by rw [← job, ← hn])
    have broker : (watch.perform sender (.release runnerId jobId)).broker.maintenance =
      update watch.broker.maintenance runnerId none := removed
    rw [broker]
    exact ⟨record, (update_of_ne elsewhere ..).trans ht, hn, finished⟩

theorem Quiet.perform (hq : Quiet watch) (enabled : watch.Enabled sender operation)
    (ho : watch.Orderly sender operation) : Quiet (watch.perform sender operation) := by
  have registry := hq.registry.perform enabled.1
  cases operation with
  | register runnerId websocket durableJobId order =>
    obtain ⟨lasting, fences⟩ := Broker.lasting_register websocket durableJobId order ho
    refine hq.lasting registry lasting rfl rfl fun id jobId relied => ?_
    rw [held_perform rfl rfl] at relied
    obtain ⟨maintenance, active, rest⟩ := hq.relies id jobId relied
    exact ⟨maintenance, (fences id (isSome_of_mem active)).trans active, rest⟩
  | registered runnerId ref =>
    exact hq.steady registry (Broker.steady_registered ..) rfl rfl (held_perform rfl rfl)
  | registerFailed runnerId ref =>
    exact hq.steady registry (Broker.steady_registerFailed ..) rfl rfl (held_perform rfl rfl)
  | unregister runnerId websocket order =>
    exact hq.steady registry (Broker.steady_unregister ..) rfl rfl (held_perform rfl rfl)
  | disconnect runnerId order =>
    obtain ⟨lasting, removed⟩ := Broker.lasting_disconnect watch.broker runnerId order
    refine hq.lasting registry lasting rfl rfl fun id jobId relied => ?_
    rw [held_perform rfl rfl] at relied
    obtain ⟨maintenance, active, hn, finished⟩ := hq.relies id jobId relied
    have elsewhere : id ≠ runnerId := by
      rintro rfl
      exact ho maintenance active (hn ▸ relied)
    exact ⟨maintenance, (congrFun removed id).trans ((update_of_ne elsewhere ..).trans active), hn, finished⟩
  | quiesce runnerId jobId _ _ => exact hq.quiesce registry
  | quiesceReturned runnerId ref => exact hq.quiesceReturned registry ho
  | quiesceFailed runnerId ref =>
    obtain ⟨lasting, fences⟩ := Broker.lasting_quiesceFailed watch.broker runnerId ref
    refine hq.lasting registry lasting rfl rfl fun id jobId relied => ?_
    rw [held_perform rfl rfl] at relied
    obtain ⟨maintenance, active, hn, finished⟩ := hq.relies id jobId relied
    obtain hs | ⟨rfl, failed, ht, hc⟩ := fences id
    · exact ⟨maintenance, hs.trans active, hn, finished⟩
    · obtain rfl : failed = maintenance := mem_unique ht active
      exact absurd (hn ▸ relied) (ho failed active hc)
  | quiesced runnerId jobId => exact hq.quiesced ho
  | release runnerId _ => exact hq.release registry
  | attach _ websocket => exact hq.steady registry (Broker.steady_attach ..) rfl rfl (held_perform rfl rfl)
  | detach transferId _ now =>
    exact hq.steady registry (Broker.steady_detach ..) rfl rfl (held_perform rfl rfl)
  | clientFrame transferId _ =>
    exact hq.steady registry (Broker.steady_clientFrame ..) rfl rfl (held_perform rfl rfl)
  | runnerClosed runnerId transferId now =>
    exact hq.steady registry (Broker.steady_runnerClosed ..) rfl rfl (held_perform rfl rfl)
  | runnerFrame _ _ _ =>
    exact hq.steady registry (Broker.steady_runnerFrame ..) rfl rfl (held_perform rfl rfl)
  | senderWaits _ => exact hq.steady registry (Broker.steady_senderWaits ..) rfl rfl (held_perform rfl rfl)
  | senderTakes _ => exact hq.steady registry (Broker.steady_senderTakes ..) rfl rfl (held_perform rfl rfl)

theorem quiet_empty : Quiet {} where
  registry := Broker.registry_empty
  known := by simp
  older := by simp
  settles := by simp
  acknowledges := by simp
  relies := by simp

theorem Quiet.silent (hq : Quiet watch) (relied : (runnerId, jobId) ∈ watch.held)
    (operation : Operation) : watch.forwarded operation ≠ some runnerId := by
  intro sent
  cases operation with
  | clientFrame transferId _ =>
    unfold forwarded at sent
    dsimp only at sent
    split at sent
    · obtain ⟨_, active, -⟩ := hq.relies runnerId jobId relied
      have hl := (hq.registry.corresponds transferId runnerId).mpr sent
      rw [hq.registry.fenced runnerId (isSome_of_mem active)] at hl
      cases hl
    · cases sent
  | _ => cases sent

theorem Quiet.answers (hq : Quiet watch) (enabled : watch.Enabled sender operation)
    (orderly : watch.Orderly sender operation)
    (hr : watch.returned operation = some (runnerId, jobId)) :
    ∀ runner ∈ (watch.perform sender operation).broker.runners runnerId,
      (runner.ref, jobId) ∈ (watch.perform sender operation).acknowledged := by
  cases operation with
  | quiesce _ _ order clock =>
    unfold returned at hr
    dsimp only at hr
    split at hr
    · next atOnce =>
        cases hr
        obtain ⟨same, found⟩ | ⟨sends, -⟩ := Broker.quiesceRunner_cases watch.broker runnerId jobId order clock
        · obtain ⟨maintenance, active, job, finished⟩ := found atOnce
          have broker :
              (watch.perform sender (.quiesce runnerId jobId order clock)).broker = watch.broker :=
            same
          rw [broker]
          exact orderly maintenance (mem_matching.mpr ⟨active, job⟩) finished
        · exact absurd atOnce sends
    · cases hr
  | quiesceReturned runner ref =>
    obtain ⟨maintenance, active, rfl⟩ := orderly
    obtain ⟨job, settled, same⟩ : ∃ job, watch.settled (runner, maintenance.ref) = some job ∧
        (runner, job) = (runnerId, jobId) := by simpa [returned] using hr
    obtain ⟨rfl, rfl⟩ := Prod.mk.inj same
    obtain ⟨finished, rfl⟩ := hq.settles runner maintenance active job settled
    exact hq.acknowledges runner maintenance active finished enabled.1
  | _ => cases hr

/-- In a run of orderly steps, a call of `quiesce_runner` returns only with the
acknowledgement of the connection that is registered then, and until its release no frame of
a client is forwarded to the runner. -/
theorem quiescence_per_connection {watch : Watch} (run : ReflTransGen OrderlyStep {} watch)
    {sender : Nat} {operation : Operation} (enabled : watch.Enabled sender operation)
    (orderly : watch.Orderly sender operation) : watch.Upholds sender operation := by
  have hq : Quiet watch := by
    refine run_keeps Quiet ?_ run quiet_empty
    rintro _ after ⟨sender, operation, enabled, orderly, rfl⟩ hq
    exact hq.perform enabled orderly
  exact ⟨fun _ _ hr => hq.answers enabled orderly hr,
    fun _ _ relied => hq.silent relied operation⟩

def Possible : Watch → List (Nat × Operation) → Prop
  | _, [] => True
  | watch, (sender, operation) :: rest =>
    watch.Enabled sender operation ∧ (watch.perform sender operation).Possible rest

def after (watch : Watch) (turns : List (Nat × Operation)) : Watch :=
  turns.foldl (fun watch turn => watch.perform turn.1 turn.2) watch

theorem run_of_possible {turns : List (Nat × Operation)} (possible : watch.Possible turns) :
    ReflTransGen Step watch (watch.after turns) := by
  induction turns generalizing watch with
  | nil => exact .refl
  | cons turn _ ih => exact .head ⟨turn.1, turn.2, possible.1, rfl⟩ (ih possible.2)

def sampleRunner : Text := text "runner"
def sampleJob : Uuid := List.replicate 16 9
def sampleGrant : RunnerTransferGrant := ⟨List.replicate 16 7, sampleRunner, 600, 1000⟩

/-- A second connection replaces the first one, and an acknowledgement that still arrives on
the first one ends the wait. -/
def staleTurns : List (Nat × Operation) :=
  [(0, .register sampleRunner 1 none []), (0, .registered sampleRunner 0),
    (0, .quiesce sampleRunner sampleJob [] fun _ => 0), (0, .register sampleRunner 2 none []),
    (0, .registered sampleRunner 3), (0, .quiesced sampleRunner sampleJob)]

/-- Two calls wait for the acknowledgement. One returns, the other one is cancelled before it
resumes and removes the fence of the first; then a client attaches. -/
def cancelledTurns : List (Nat × Operation) :=
  [(0, .register sampleRunner 1 none []), (0, .registered sampleRunner 0),
    (0, .quiesce sampleRunner sampleJob [] fun _ => 0), (0, .quiesce sampleRunner sampleJob [] fun _ => 0),
    (0, .quiesced sampleRunner sampleJob), (0, .quiesceReturned sampleRunner 2),
    (0, .quiesceFailed sampleRunner 2), (0, .attach sampleGrant 5)]

theorem staleTurns_possible : Possible {} staleTurns :=
  ⟨⟨Perm.refl _, trivial⟩, ⟨mem_cons_self .., trivial⟩, ⟨Perm.refl _, trivial⟩,
    ⟨Perm.refl _, trivial⟩, ⟨mem_cons_self .., trivial⟩,
    ⟨trivial, mem_cons_of_mem _ (mem_cons_self ..)⟩, trivial⟩

theorem cancelledTurns_possible : Possible {} cancelledTurns :=
  ⟨⟨Perm.refl _, trivial⟩, ⟨mem_cons_self .., trivial⟩, ⟨Perm.refl _, trivial⟩,
    ⟨Perm.refl _, trivial⟩, ⟨trivial, mem_cons_self ..⟩,
    ⟨mem_cons_self .., by decide⟩, ⟨mem_cons_self .., trivial⟩, ⟨trivial, trivial⟩, trivial⟩

/-- Both parts can fail: a wait returns that the registered connection never acknowledged,
and a frame is forwarded to a runner that a call relies on. -/
theorem quiescence_broken :
    (ReflTransGen Step {} (after {} staleTurns) ∧
        (after {} staleTurns).Enabled 0 (.quiesceReturned sampleRunner 2) ∧
        (after {} staleTurns).returned (.quiesceReturned sampleRunner 2) =
          some (sampleRunner, sampleJob) ∧
        ((after {} staleTurns).broker.runners sampleRunner).map (·.ref) = some 3 ∧
        ¬ (after {} staleTurns).Upholds 0 (.quiesceReturned sampleRunner 2)) ∧
    (ReflTransGen Step {} (after {} cancelledTurns) ∧
      (after {} cancelledTurns).Enabled 0 (.clientFrame sampleGrant.transferId [1]) ∧
      (sampleRunner, sampleJob) ∈ (after {} cancelledTurns).held ∧
      ¬ (after {} cancelledTurns).Upholds 0 (.clientFrame sampleGrant.transferId [1])) := by
  refine ⟨⟨run_of_possible staleTurns_possible, ⟨mem_cons_self .., by decide⟩, by decide, by decide, ?_⟩,
    ⟨run_of_possible cancelledTurns_possible, ⟨trivial, trivial⟩, by decide, ?_⟩⟩
  · intro upholds
    have acknowledged := upholds.1 sampleRunner sampleJob (by decide) ⟨3, 2, true, [], []⟩ (by decide)
    revert acknowledged
    decide
  · intro upholds
    exact upholds.2 sampleRunner sampleJob (by decide) (by decide)

/-- The runner reconnects behind the return of the call, and its new connection acknowledges too. -/
def orderlyTurns : List (Nat × Operation) :=
  [(0, .register sampleRunner 1 none []), (0, .registered sampleRunner 0),
    (0, .quiesce sampleRunner sampleJob [] fun _ => 0), (0, .quiesced sampleRunner sampleJob),
    (0, .quiesceReturned sampleRunner 2), (0, .register sampleRunner 2 none []),
      (0, .registered sampleRunner 3),
    (3, .quiesced sampleRunner sampleJob)]

theorem quiescence_per_connection_sample :
    (sampleRunner, sampleJob) ∈ (after {} orderlyTurns).held ∧
    ((after {} orderlyTurns).broker.runners sampleRunner).map (·.ref) = some 3 ∧
    (after {} orderlyTurns).returned (.quiesce sampleRunner sampleJob [] fun _ => 0) =
      some (sampleRunner, sampleJob) ∧
    (after {} orderlyTurns).Upholds 0 (.quiesce sampleRunner sampleJob [] fun _ => 0) := by
  have step : ∀ {watch : Watch} sender operation, ReflTransGen OrderlyStep {} watch →
      watch.Enabled sender operation → watch.Orderly sender operation →
      ReflTransGen OrderlyStep {} (watch.perform sender operation) :=
    fun sender operation before enabled ho => before.tail ⟨sender, operation, enabled, ho, rfl⟩
  have registered := step 0 (.registered sampleRunner 0)
    (step 0 (.register sampleRunner 1 none []) .refl ⟨Perm.refl _, trivial⟩ nofun)
      ⟨mem_cons_self .., trivial⟩ trivial
  have waits := step 0 (.quiesce sampleRunner sampleJob [] fun _ => 0) registered ⟨Perm.refl _, trivial⟩ nofun
  have acknowledged := step 0 (.quiesced sampleRunner sampleJob) waits ⟨trivial, mem_cons_self ..⟩
    fun _ _ _ => ⟨_, rfl, rfl⟩
  have returned := step 0 (.quiesceReturned sampleRunner 2) acknowledged
      ⟨mem_cons_self .., by decide⟩ ⟨_, rfl, rfl⟩
  have replaced := step 0 (.registered sampleRunner 3) (step 0 (.register sampleRunner 2 none []) returned
    ⟨Perm.refl _, trivial⟩ (by rintro _ ⟨⟩ _; decide)) ⟨mem_cons_self .., trivial⟩ trivial
  have again := step 3 (.quiesced sampleRunner sampleJob) replaced ⟨trivial, mem_cons_self ..⟩
    (by rintro _ ⟨⟩ ⟨⟩)
  exact ⟨by decide, by decide, by decide, quiescence_per_connection again ⟨Perm.refl _, trivial⟩
    (by rintro _ ⟨⟩ _ _ ⟨⟩; decide)⟩

end Watch

end Yinshi.Relay
