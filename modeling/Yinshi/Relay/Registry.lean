import Yinshi.Base.Runs
import Yinshi.Relay.Broker

/-! The registry invariant of the relay broker, over every interleaving of its calls. -/

namespace Yinshi.Relay
open ByteText Function Runs Relation List Option

/-! ### Steps -/

/-- A section under the lock, or a sender's `get`, with everything it reads from outside. -/
inductive Operation
  | register (runnerId : Text) (websocket : Nat) (durableJobId : Option Uuid) (order : List Uuid)
  | registered (runnerId : Text) (ref : Nat)
  | registerFailed (runnerId : Text) (ref : Nat)
  | unregister (runnerId : Text) (websocket : Nat) (order : List Uuid)
  | disconnect (runnerId : Text) (order : List Uuid)
  | quiesce (runnerId : Text) (jobId : Uuid) (order : List Uuid) (clock : Uuid → Int)
  | quiesceReturned (runnerId : Text) (ref : Nat)
  | quiesceFailed (runnerId : Text) (ref : Nat)
  | quiesced (runnerId : Text) (jobId : Uuid)
  | release (runnerId : Text) (jobId : Uuid)
  | attach (grant : RunnerTransferGrant) (websocket : Nat)
  | detach (transferId : Uuid) (websocket : Nat) (now : Int)
  | clientFrame (transferId : Uuid) (ciphertext : Bytes)
  | runnerClosed (runnerId : Text) (transferId : Uuid) (now : Int)
  | runnerFrame (runnerId : Text) (framedCiphertext : Bytes) (now : Int)
  | senderWaits (transferId : Uuid)
  | senderTakes (ref : Nat)

namespace Broker
variable {broker other : Broker} {transferId : Uuid} {ref : Nat} {client : ClientConnection}
  {runnerId : Text} {order : List Uuid} {runner : RunnerConnection}

def sessions (broker : Broker) (runnerId : Text) : List Uuid :=
  match broker.runners runnerId with
  | some runner => runner.sessions
  | none => []

/-- A loop over a set of sessions visits it in some order, and the second section of a call
comes after its first. -/
def Enabled (broker : Broker) : Operation → Prop
  | .register runnerId _ _ order => order.Perm (broker.sessions runnerId)
  | .unregister runnerId _ order => order.Perm (broker.sessions runnerId)
  | .disconnect runnerId order => order.Perm (broker.sessions runnerId)
  | .quiesce runnerId _ order _ => order.Perm (broker.sessions runnerId)
  | .registered runnerId ref => (runnerId, ref) ∈ broker.registering
  | .registerFailed runnerId ref => (runnerId, ref) ∈ broker.registering
  | .quiesceReturned runnerId ref => (runnerId, ref) ∈ broker.quiescing
  | .quiesceFailed runnerId ref => (runnerId, ref) ∈ broker.quiescing
  | .senderTakes ref => ref ∈ broker.senders
  | _ => True

def perform (broker : Broker) : Operation → Broker
  | .register runnerId websocket durableJobId order =>
    (broker.registerRunner runnerId websocket durableJobId order).1
  | .registered runnerId ref => broker.registered runnerId ref
  | .registerFailed runnerId ref => broker.registerFailed runnerId ref
  | .unregister runnerId websocket order => (broker.unregisterRunner runnerId websocket order).1
  | .disconnect runnerId order => (broker.disconnectRunner runnerId order).1
  | .quiesce runnerId jobId order clock => (broker.quiesceRunner runnerId jobId order clock).1
  | .quiesceReturned runnerId ref => { broker with quiescing := broker.quiescing.erase (runnerId, ref) }
  | .quiesceFailed runnerId ref => broker.quiesceFailed runnerId ref
  | .quiesced runnerId jobId => (broker.runnerQuiesced runnerId jobId).1
  | .release runnerId jobId => (broker.releaseMaintenance runnerId jobId).1
  | .attach grant websocket => (broker.attachClient grant websocket).1
  | .detach transferId websocket now => (broker.detachClient transferId websocket now).1
  | .clientFrame transferId ciphertext => (broker.clientFrame transferId ciphertext).1
  | .runnerClosed runnerId transferId now => (broker.runnerClosedTransfer runnerId transferId now).1
  | .runnerFrame runnerId framedCiphertext now => (broker.runnerFrame runnerId framedCiphertext now).1
  | .senderWaits transferId => broker.senderWaits transferId
  | .senderTakes ref => (broker.senderTakes ref).1

def Step (before after : Broker) : Prop :=
  ∃ operation, before.Enabled operation ∧ after = before.perform operation

/-- The runner named by the grant of the client attached for a transfer. -/
def owner (broker : Broker) (transferId : Uuid) : Option Text :=
  (broker.client transferId).map (·.2.grant.runnerId)

def Attached (broker : Broker) (ref : Nat) : Prop := ∃ transferId, broker.clients transferId = some ref

/-! ### The two maps -/

structure Registry (broker : Broker) : Prop where
  stored : ∀ transferId ref, broker.clients transferId = some ref →
    ∃ client, broker.objects ref = some client ∧ client.grant.transferId = transferId
  corresponds : ∀ transferId runnerId,
      transferId ∈ broker.sessions runnerId ↔ broker.owner transferId = some runnerId
  fenced : ∀ runnerId, (broker.maintenance runnerId).isSome → broker.sessions runnerId = []
  distinct : ∀ runnerId, (broker.sessions runnerId).Nodup
  limited : ∀ runnerId, (broker.sessions runnerId).length ≤ runnerSessionsMax
  retired : ∀ runnerId runner, broker.runners runnerId = some runner →
    runner.retiredTransfers.length ≤ retiredTransfersMax
  unready : ∀ runnerId runner,
      broker.runners runnerId = some runner → runner.ready = false → runner.sessions = []
  candidates : ∀ runnerId ref, (runnerId, ref) ∈ broker.registering → ∀ runner,
    broker.runners runnerId = some runner → runner.ref = ref → runner.ready = false
  once : broker.registering.Nodup
  pending : ∀ entry ∈ broker.registering, entry.2 < broker.nextRef
  known : ∀ runnerId runner, broker.runners runnerId = some runner → runner.ref < broker.nextRef
  fresh : ∀ ref client, broker.objects ref = some client → ref < broker.nextRef

theorem client_eq_some :
    broker.client transferId = some (ref, client) ↔
    broker.clients transferId = some ref ∧ broker.objects ref = some client := by
  unfold Broker.client
  cases ha : broker.clients transferId with
  | none => simp
  | some hf =>
    cases hs : broker.objects hf with
    | none =>
      simp only [bind_eq_bind, bind_some, hs, bind_none, some.injEq, false_iff, not_and, reduceCtorEq]
      rintro rfl
      simp [hs]
    | some _ =>
      simp only [bind_eq_bind, bind_some, hs, Option.pure_def, Option.some.injEq, Prod.mk.injEq]
      constructor
      · rintro ⟨rfl, rfl⟩
        exact ⟨rfl, hs⟩
      · rintro ⟨rfl, same⟩
        rw [hs] at same
        exact ⟨rfl, Option.some.inj same⟩

def grants (broker : Broker) (ref : Nat) : Option RunnerTransferGrant := (broker.objects ref).map (·.grant)

theorem owner_eq (broker : Broker) (transferId : Uuid) :
    broker.owner transferId =
      (broker.clients transferId).bind fun ref => (broker.grants ref).map (·.runnerId) := by
  unfold owner Broker.client grants
  cases broker.clients transferId with
  | none => rfl
  | some ref => cases hk : broker.objects ref <;> simp [hk]

/-- Only the contents of clients, waiting calls and released fences differ. -/
structure Alike (broker other : Broker) : Prop where
  runners : other.runners = broker.runners
  clients : other.clients = broker.clients
  grants : other.grants = broker.grants
  maintenance : ∀ runnerId, (other.maintenance runnerId).isSome → (broker.maintenance runnerId).isSome
  registering : other.registering.Sublist broker.registering
  nextRef : broker.nextRef ≤ other.nextRef

theorem stored_iff :
    (∃ client, broker.objects ref = some client ∧ client.grant.transferId = transferId) ↔
    ∃ grant, broker.grants ref = some grant ∧ grant.transferId = transferId := by
  unfold grants
  cases broker.objects ref <;> simp

theorem fresh_iff :
    (∀ ref client, broker.objects ref = some client → ref < broker.nextRef) ↔
    ∀ ref, broker.nextRef ≤ ref → broker.grants ref = none := by
  unfold grants
  constructor
  · intro hf ref late
    cases hs : broker.objects ref with
    | none => rfl
    | some client => exact absurd (hf ref client hs) (by omega)
  · intro hu ref _ hs
    by_contra late
    have := hu ref (by omega)
    simp [hs] at this

theorem sessions_congr (hs : other.runners = broker.runners) : other.sessions = broker.sessions := by
  funext runnerId
  rw [sessions, sessions, hs]

theorem owner_congr (clients : other.clients = broker.clients)
    (grants : other.grants = broker.grants) : other.owner = broker.owner := by
  funext transferId
  rw [owner_eq, owner_eq, clients, grants]

theorem Registry.alike (registry : Registry broker) (alike : Alike broker other) :
    Registry other where
  stored := by
    intro transferId ref ha
    rw [alike.clients] at ha
    rw [stored_iff, alike.grants, ← stored_iff]
    exact registry.stored transferId ref ha
  corresponds := by
    rw [sessions_congr alike.runners, owner_congr alike.clients alike.grants]
    exact registry.corresponds
  fenced runnerId active := by
    rw [sessions_congr alike.runners]
    exact registry.fenced runnerId (alike.maintenance runnerId active)
  distinct := by
    rw [sessions_congr alike.runners]
    exact registry.distinct
  limited := by
    rw [sessions_congr alike.runners]
    exact registry.limited
  retired := alike.runners ▸ registry.retired
  unready := alike.runners ▸ registry.unready
  candidates runnerId ref waits := by
    rw [alike.runners]
    exact registry.candidates runnerId ref (alike.registering.subset waits)
  once := registry.once.sublist alike.registering
  pending entry waits := (registry.pending entry (alike.registering.subset waits)).trans_le alike.nextRef
  known runnerId runner found := by
    rw [alike.runners] at found
    exact (registry.known runnerId runner found).trans_le alike.nextRef
  fresh := by
    rw [fresh_iff, alike.grants]
    exact fun ref late => fresh_iff.1 registry.fresh ref (alike.nextRef.trans late)

theorem grants_setClient {old : ClientConnection} (hs : broker.objects ref = some old)
    (same : client.grant = old.grant) : (broker.setClient ref client).grants = broker.grants := by
  funext other
  unfold grants setClient
  by_cases hh : other = ref
  · subst hh
    simp [hs, same]
  · simp [update_of_ne hh]

theorem alike_setClient {old : ClientConnection} (hs : broker.objects ref = some old)
    (same : client.grant = old.grant) : Alike broker (broker.setClient ref client) :=
  ⟨rfl, rfl, grants_setClient hs same, fun _ => id, Sublist.refl _, le_rfl⟩

/-! ### Removing clients -/

structure Popped (broker other : Broker) : Prop where
  runners : other.runners = broker.runners
  maintenance : other.maintenance = broker.maintenance
  registering : other.registering = broker.registering
  nextRef : other.nextRef = broker.nextRef
  grants : other.grants = broker.grants

theorem popped_popClient (broker : Broker) (transferId : Uuid) :
    Popped broker (broker.popClient transferId) := by
  unfold popClient
  split
  · exact ⟨rfl, rfl, rfl, rfl, rfl⟩
  · next ref client hf => exact ⟨rfl, rfl, rfl, rfl, grants_setClient (client_eq_some.1 hf).2 rfl⟩

theorem clients_popClient
    (hs :
      ∀ ref, broker.clients transferId = some ref → ∃ client, broker.objects ref = some client) :
    (broker.popClient transferId).clients = update broker.clients transferId none := by
  unfold popClient
  split
  · next hm =>
      have unattached : broker.clients transferId = none := by
        cases ha : broker.clients transferId with
        | none => rfl
        | some ref =>
          obtain ⟨_, hk⟩ := hs ref ha
          rw [client_eq_some.2 ⟨ha, hk⟩] at hm
          cases hm
      rw [← unattached, update_eq_self]
  · rfl

theorem Popped.trans {first second third : Broker} (front : Popped first second)
    (back : Popped second third) : Popped first third :=
  ⟨back.runners.trans front.runners, back.maintenance.trans front.maintenance,
    back.registering.trans front.registering, back.nextRef.trans front.nextRef,
      back.grants.trans front.grants⟩

def Stored (broker : Broker) : Prop :=
  ∀ transferId ref, broker.clients transferId = some ref → ∃ client, broker.objects ref = some client

theorem Registry.isStored (registry : Registry broker) : Stored broker :=
  fun transferId ref ha => (registry.stored transferId ref ha).imp fun _ hk => hk.1

theorem Stored.popClient (hs : Stored broker) (transferId : Uuid) : Stored (broker.popClient transferId) := by
  intro other ref ha
  rw [clients_popClient (hs transferId)] at ha
  have popped := congrFun (popped_popClient broker transferId).grants ref
  by_cases hh : other = transferId
  · subst hh
    simp at ha
  · rw [update_of_ne hh] at ha
    obtain ⟨client, hk⟩ := hs other ref ha
    unfold grants at popped
    rw [hk] at popped
    cases hf : (broker.popClient transferId).objects ref with
    | none => simp [hf] at popped
    | some client => exact ⟨client, rfl⟩

theorem popClients_spec (hs : Stored broker) (order : List Uuid) :
    Popped broker (order.foldl popClient broker) ∧
    ∀ transferId,
      (order.foldl popClient broker).clients transferId =
        if transferId ∈ order then none else broker.clients transferId := by
  induction order generalizing broker with
  | nil => exact ⟨⟨rfl, rfl, rfl, rfl, rfl⟩, by simp⟩
  | cons first _ ih =>
    obtain ⟨popped, clients⟩ := ih (hs.popClient first)
    refine ⟨(popped_popClient broker first).trans popped, fun transferId => ?_⟩
    rw [foldl_cons, clients, clients_popClient (hs first)]
    by_cases hh : transferId = first
    · subst hh
      simp
    · simp [hh]

theorem sessions_update {next : Option RunnerConnection}
    (runners : other.runners = update broker.runners runnerId next) (id : Text) :
    other.sessions id =
      if id = runnerId then (next.map (·.sessions)).getD [] else broker.sessions id := by
  unfold sessions
  rw [runners]
  by_cases hh : id = runnerId
  · subst hh
    cases next <;> simp
  · simp [hh]

theorem Registry.replace (registry : Registry broker) {next : Option RunnerConnection}
    (visits : order.Perm (broker.sessions runnerId))
    (clients : ∀ transferId,
        other.clients transferId = if transferId ∈ order then none else broker.clients transferId)
    (grants : other.grants = broker.grants)
    (runners : other.runners = update broker.runners runnerId next)
    (maintenance : ∀ id, id ≠ runnerId → other.maintenance id = broker.maintenance id)
    (later : broker.nextRef ≤ other.nextRef)
    (starts : ∀ runner, next = some runner →
        runner.sessions = [] ∧ runner.ready = false ∧
        runner.retiredTransfers.length ≤ retiredTransfersMax ∧ runner.ref < other.nextRef)
    (registering : ∀ entry ∈ other.registering, entry.1 ≠ runnerId → entry ∈ broker.registering)
    (once : other.registering.Nodup)
    (pending : ∀ entry ∈ other.registering, entry.2 < other.nextRef) : Registry other := by
  have empty : (next.map (·.sessions)).getD [] = [] := by
    cases next with
    | none => rfl
    | some runner => simp [(starts runner rfl).1]
  have hl := sessions_update runners
  rw [empty] at hl
  have elsewhere : ∀ id runner, other.runners id = some runner →
      id = runnerId ∧ next = some runner ∨ id ≠ runnerId ∧ broker.runners id = some runner := by
    intro id runner hf
    rw [runners] at hf
    by_cases hh : id = runnerId
    · subst hh
      exact .inl ⟨rfl, by simpa using hf⟩
    · exact .inr ⟨hh, by simpa [hh] using hf⟩
  refine
    { stored := fun transferId ref ha => ?_, corresponds := fun transferId id => ?_
      fenced := fun id active => ?_, distinct := fun id => ?_, limited := fun id => ?_
      retired := fun id runner hf => ?_,
      unready := fun id runner hf waiting => ?_, candidates := fun id ref hw runner hf hs => ?_
      once, pending, known := fun id runner hf => ?_, fresh := ?_ }
  · rw [clients] at ha
    split at ha
    · cases ha
    · rw [stored_iff, grants, ← stored_iff]
      exact registry.stored transferId ref ha
  · have owns := registry.corresponds transferId
    rw [hl, owner_eq, clients, grants]
    by_cases he : transferId ∈ order
    · have ho := (owns runnerId).mp (visits.mem_iff.mp he)
      rw [if_pos he, bind_none]
      by_cases hh : id = runnerId
      · simp [hh]
      · rw [if_neg hh, owns id, ho]
        simpa using Ne.symm hh
    · rw [if_neg he, ← owner_eq, ← owns id]
      by_cases hh : id = runnerId
      · subst hh
        simpa using fun hm => he (visits.mem_iff.mpr hm)
      · rw [if_neg hh]
  · rw [hl]
    by_cases hh : id = runnerId
    · rw [if_pos hh]
    · rw [if_neg hh]
      exact registry.fenced id (by rwa [← maintenance id hh])
  · rw [hl]
    split
    · simp
    · exact registry.distinct id
  · rw [hl]
    split
    · simp
    · exact registry.limited id
  · obtain ⟨-, hr⟩ | ⟨-, hk⟩ := elsewhere id runner hf
    · exact (starts runner hr).2.2.1
    · exact registry.retired id runner hk
  · obtain ⟨-, hr⟩ | ⟨-, hk⟩ := elsewhere id runner hf
    · exact (starts runner hr).1
    · exact registry.unready id runner hk waiting
  · obtain ⟨-, hr⟩ | ⟨apart, hk⟩ := elsewhere id runner hf
    · exact (starts runner hr).2.1
    · exact registry.candidates id ref (registering _ hw apart) runner hk hs
  · obtain ⟨-, hr⟩ | ⟨-, hk⟩ := elsewhere id runner hf
    · exact (starts runner hr).2.2.2
    · exact (registry.known id runner hk).trans_le later
  · rw [fresh_iff, grants]
    exact fun ref late => fresh_iff.1 registry.fresh ref (later.trans late)

theorem Registry.amend (registry : Registry broker) {next : RunnerConnection}
    (found : broker.runners runnerId = some runner)
    (runners : other.runners = update broker.runners runnerId (some next))
    (same : next.ref = runner.ref) (maintenance : other.maintenance = broker.maintenance)
    (later : broker.nextRef ≤ other.nextRef)
    (registering : other.registering.Sublist broker.registering)
    (stored : ∀ transferId ref, other.clients transferId = some ref →
        ∃ client, other.objects ref = some client ∧ client.grant.transferId = transferId)
    (corresponds :
      ∀ transferId id, transferId ∈ other.sessions id ↔ other.owner transferId = some id)
    (fresh : ∀ ref client, other.objects ref = some client → ref < other.nextRef)
    (fenced : (broker.maintenance runnerId).isSome → next.sessions = [])
    (distinct : next.sessions.Nodup) (limited : next.sessions.length ≤ runnerSessionsMax)
    (retired : next.retiredTransfers.length ≤ retiredTransfersMax)
    (unready : next.ready = false → next.sessions = [])
    (candidate : (runnerId, runner.ref) ∈ other.registering → next.ready = false) :
    Registry other := by
  have hl := sessions_update runners
  have elsewhere : ∀ id connection, other.runners id = some connection →
      id = runnerId ∧ connection = next ∨ id ≠ runnerId ∧ broker.runners id = some connection := by
    intro id connection hr
    rw [runners] at hr
    by_cases hh : id = runnerId
    · subst hh
      exact .inl ⟨rfl, by simpa using hr.symm⟩
    · exact .inr ⟨hh, by simpa [hh] using hr⟩
  refine
    { stored, corresponds, fresh, once := registry.once.sublist registering
      fenced := fun id active => ?_, distinct := fun id => ?_, limited := fun id => ?_
      retired := fun id connection hr => ?_
      unready := fun id connection hr waiting => ?_
      candidates := fun id ref hw connection hr hn => ?_
      pending := fun entry hw => (registry.pending entry (registering.subset hw)).trans_le later
      known := fun id connection hr => ?_ }
  · rw [maintenance] at active
    rw [hl]
    by_cases hh : id = runnerId
    · subst hh
      rw [if_pos rfl]
      exact fenced active
    · rw [if_neg hh]
      exact registry.fenced id active
  · rw [hl]
    split
    · exact distinct
    · exact registry.distinct id
  · rw [hl]
    split
    · exact limited
    · exact registry.limited id
  · obtain ⟨-, rfl⟩ | ⟨-, hk⟩ := elsewhere id connection hr
    · exact retired
    · exact registry.retired id connection hk
  · obtain ⟨-, rfl⟩ | ⟨-, hk⟩ := elsewhere id connection hr
    · exact unready waiting
    · exact registry.unready id connection hk waiting
  · obtain ⟨rfl, rfl⟩ | ⟨-, hk⟩ := elsewhere id connection hr
    · exact candidate (by rwa [← same, hn])
    · exact registry.candidates id ref (registering.subset hw) connection hk hn
  · obtain ⟨-, rfl⟩ | ⟨-, hk⟩ := elsewhere id connection hr
    · rw [same]
      exact (registry.known runnerId runner found).trans_le later
    · exact (registry.known id connection hk).trans_le later

theorem sessions_of_runner
    (hf : broker.runners runnerId = some runner) : broker.sessions runnerId = runner.sessions := by
  rw [sessions, hf]

theorem Registry.steady (registry : Registry broker) {next : RunnerConnection}
    (hf : broker.runners runnerId = some runner)
    (runners : other.runners = update broker.runners runnerId (some next))
    (hs : next.sessions = runner.sessions) (owner : other.owner = broker.owner) (transferId : Uuid)
    (id : Text) : transferId ∈ other.sessions id ↔ other.owner transferId = some id := by
  have owns := registry.corresponds transferId id
  rw [sessions_update runners, owner]
  by_cases hh : id = runnerId
  · subst hh
    rw [sessions_of_runner hf, ← hs] at owns
    rw [if_pos rfl]
    exact owns
  · rw [if_neg hh]
    exact owns

theorem length_pruneRetiredTransfers (now : Int) (retired : List (Uuid × Int)) :
    (pruneRetiredTransfers now retired).length ≤ retired.length := by
  induction retired with
  | nil => simp [pruneRetiredTransfers]
  | cons _ _ ih =>
    unfold pruneRetiredTransfers
    split
    · simp
    · exact ih.trans (by simp)

theorem exists_runner (hl : transferId ∈ broker.sessions runnerId) :
    ∃ runner, broker.runners runnerId = some runner := by
  unfold sessions at hl
  split at hl
  · next runner hf => exact ⟨runner, hf⟩
  · cases hl

section
variable (registry : Registry broker)
include registry

theorem Registry.closeTransfer (ho : broker.owner transferId = some runnerId) (now : Int) :
    Registry (broker.closeTransfer runnerId transferId now) ∧
    (∀ id,
      (broker.closeTransfer runnerId transferId now).sessions id =
        if id = runnerId then (broker.sessions id).filter (· ≠ transferId) else
        broker.sessions id) ∧
    (broker.closeTransfer runnerId transferId now).maintenance = broker.maintenance := by
  have popped := popped_popClient broker transferId
  have clients := clients_popClient (registry.isStored transferId)
  obtain ⟨runner, hf⟩ := exists_runner ((registry.corresponds transferId runnerId).mpr ho)
  have hh : (broker.popClient transferId).runners runnerId = some runner := by rw [popped.runners, hf]
  let next : RunnerConnection := { runner with
    sessions := runner.sessions.filter (· ≠ transferId)
    retiredTransfers := retireTransfer runner.retiredTransfers transferId now }
  have hc : broker.closeTransfer runnerId transferId now =
      { broker.popClient transferId with
        runners := update (broker.popClient transferId).runners runnerId (some next) } := by
    unfold Broker.closeTransfer retire
    rw [hh]
  have runners : (broker.closeTransfer runnerId transferId now).runners =
        update broker.runners runnerId (some next) := by
    rw [hc, popped.runners]
  have hl : ∀ id, (broker.closeTransfer runnerId transferId now).sessions id =
      if id = runnerId then (broker.sessions id).filter (· ≠ transferId) else broker.sessions id := by
    intro id
    rw [sessions_update runners]
    by_cases hs : id = runnerId
    · subst hs
      rw [if_pos rfl, if_pos rfl, sessions_of_runner hf]
      rfl
    · rw [if_neg hs, if_neg hs]
  have mine := sessions_of_runner hf
  have clients' : (broker.closeTransfer runnerId transferId now).clients =
        update broker.clients transferId none := by
    rw [hc, ← clients]
  have grants : (broker.closeTransfer runnerId transferId now).grants = broker.grants := by
    rw [hc, ← popped.grants]
    rfl
  have maintenance : (broker.closeTransfer runnerId transferId now).maintenance = broker.maintenance := by
    rw [hc, ← popped.maintenance]
  have registering : (broker.closeTransfer runnerId transferId now).registering = broker.registering := by
    rw [hc, ← popped.registering]
  have nextRef : (broker.closeTransfer runnerId transferId now).nextRef = broker.nextRef := by
    rw [hc, ← popped.nextRef]
  have waiting' : (broker.closeTransfer runnerId transferId now).registering.Sublist broker.registering := by
    rw [registering]
  refine ⟨registry.amend hf runners rfl maintenance nextRef.ge waiting' (fun other ref ha => ?_)
    (fun other id => ?_) ?_ (fun active => ?_) ?_ ?_ ?_ (fun waiting => ?_) (fun hw => ?_), hl, maintenance⟩
  · rw [clients'] at ha
    by_cases hs : other = transferId
    · subst hs
      simp at ha
    · rw [update_of_ne hs] at ha
      rw [stored_iff, grants, ← stored_iff]
      exact registry.stored other ref ha
  · have owns := registry.corresponds other
    rw [hl, owner_eq, clients', grants]
    by_cases hs : other = transferId
    · subst hs
      by_cases its : id = runnerId
      · simp [its]
      · rw [if_neg its, owns id, ho]
        simpa using Ne.symm its
    · rw [update_of_ne hs, ← owner_eq, ← owns id]
      by_cases its : id = runnerId
      · simp [its, hs]
      · rw [if_neg its]
  · rw [fresh_iff, grants, nextRef, ← fresh_iff]
    exact registry.fresh
  · have empty := registry.fenced runnerId active
    rw [mine] at empty
    simp [next, empty]
  · have apart := registry.distinct runnerId
    rw [mine] at apart
    exact apart.filter _
  · have most := registry.limited runnerId
    rw [mine] at most
    exact (length_filter_le _ _).trans most
  · dsimp only [next]
    simp only [retireTransfer, length_drop]
    omega
  · simp [next, registry.unready runnerId runner hf waiting]
  · rw [registering] at hw
    exact registry.candidates runnerId runner.ref hw runner hf rfl

section
variable (visits : order.Perm (broker.sessions runnerId))
include visits

theorem Registry.endSessions (hd : order.Nodup) (clock : Uuid → Int) :
    Registry (broker.endSessions runnerId order clock) ∧
    (broker.endSessions runnerId order clock).sessions runnerId = [] ∧
    (broker.endSessions runnerId order clock).maintenance = broker.maintenance := by
  induction order generalizing broker with
  | nil => exact ⟨registry, perm_nil.mp visits.symm, rfl⟩
  | cons transferId order ih =>
    have ho := (registry.corresponds transferId runnerId).mp (visits.mem_iff.mp (mem_cons_self ..))
    obtain ⟨hk, hl, maintenance⟩ := registry.closeTransfer ho (clock transferId)
    obtain ⟨ha, hd⟩ := nodup_cons.mp hd
    have left : order.Perm
          ((broker.closeTransfer runnerId transferId (clock transferId)).sessions runnerId) := by
      rw [hl, if_pos rfl]
      have cut := visits.filter (· ≠ transferId)
      rw [filter_cons_of_neg (by simp), filter_eq_self.mpr] at cut
      · exact cut
      · intro other hm
        simpa using fun same : other = transferId => ha (same ▸ hm)
    obtain ⟨he, empty, fences⟩ := ih hk left hd
    exact ⟨he, empty, fences.trans maintenance⟩

/-! ### Registry over the operations -/

theorem Registry.register (websocket : Nat) (durableJobId : Option Uuid) :
    Registry (broker.registerRunner runnerId websocket durableJobId order).1 := by
  obtain ⟨popped, clients⟩ := popClients_spec registry.isStored order
  have before := popped.registering
  refine registry.replace visits clients popped.grants (congrArg (update · runnerId _) popped.runners)
    (fun id ha => ?_) (by simp [registerRunner]) (fun runner candidate => ?_)
      (fun entry hw ha => ?_) ?_ (fun entry hw => ?_)
  · simp [registerRunner, ha, popped.maintenance]
  · cases candidate
    simp [registerRunner]
  · simp only [registerRunner, before, mem_cons] at hw
    rcases hw with rfl | hw
    · exact absurd rfl ha
    · exact hw
  · simp only [registerRunner, before, nodup_cons]
    exact ⟨fun hl => lt_irrefl _ (registry.pending _ hl), registry.once⟩
  · simp only [registerRunner, before, mem_cons] at hw ⊢
    rcases hw with rfl | hw
    · simp
    · have := registry.pending entry hw
      omega

theorem Registry.dropRunner (popped : Popped broker other)
    (clients : ∀ transferId,
        other.clients transferId = if transferId ∈ order then none else broker.clients transferId)
    (fences : Text → Option RunnerMaintenance)
    (ha : ∀ id, id ≠ runnerId → fences id = broker.maintenance id) (waits : List (Text × Nat))
    (fewer : waits.Sublist broker.registering) :
    Registry { other with
        runners := update other.runners runnerId none, maintenance := fences,
        registering := waits } :=
  registry.replace visits clients popped.grants (by rw [popped.runners]) ha popped.nextRef.ge
    (fun _ hf => by cases hf) (fun _ hl _ => fewer.subset hl) (registry.once.sublist fewer)
    fun entry hl => popped.nextRef ▸ registry.pending entry (fewer.subset hl)

theorem Registry.unregister (websocket : Nat) :
    Registry (broker.unregisterRunner runnerId websocket order).1 := by
  obtain ⟨popped, clients⟩ := popClients_spec registry.isStored order
  unfold unregisterRunner
  split
  · exact registry
  · split
    · exact registry
    · exact registry.dropRunner visits popped clients _ (fun id _ => congrFun popped.maintenance id) _
        (by rw [popped.registering])

theorem Registry.disconnect : Registry (broker.disconnectRunner runnerId order).1 := by
  have fenceless : Registry { broker with maintenance := update broker.maintenance runnerId none } := by
    refine registry.alike ⟨rfl, rfl, rfl, fun id active => ?_, Sublist.refl _, le_rfl⟩
    by_cases hh : id = runnerId
    · simp [hh] at active
    · simpa [hh] using active
  obtain ⟨popped, clients⟩ := popClients_spec fenceless.isStored order
  unfold disconnectRunner
  split
  · exact fenceless
  · exact fenceless.dropRunner visits popped clients _ (fun id _ => congrFun popped.maintenance id) _
      (by rw [popped.registering])

end

theorem Registry.registered : Registry (broker.registered runnerId ref) := by
  have fewer := erase_sublist (a := (runnerId, ref)) (l := broker.registering)
  unfold Broker.registered
  split
  · next runner hf =>
      split
      · next hs =>
          subst hs
          have mine := sessions_of_runner hf
          exact registry.amend hf rfl rfl rfl le_rfl fewer registry.stored (registry.steady hf rfl rfl rfl)
            registry.fresh (fun active => mine ▸ registry.fenced runnerId active)
              (mine ▸ registry.distinct runnerId)
            (mine ▸ registry.limited runnerId) (registry.retired runnerId runner hf) nofun
            fun hw => absurd hw registry.once.not_mem_erase
      · exact registry.alike ⟨rfl, rfl, rfl, fun _ => id, fewer, le_rfl⟩
  · exact registry.alike ⟨rfl, rfl, rfl, fun _ => id, fewer, le_rfl⟩

theorem Registry.registerFailed (hw : (runnerId, ref) ∈ broker.registering) :
    Registry (broker.registerFailed runnerId ref) := by
  have hf := erase_sublist (a := (runnerId, ref)) (l := broker.registering)
  unfold Broker.registerFailed
  split
  · next runner found =>
      split
      · next hs =>
          -- a candidate that is not ready has no clients yet
          have waiting := registry.candidates runnerId ref hw runner found hs
          have empty : [].Perm (broker.sessions runnerId) := by
            rw [sessions_of_runner found, registry.unready runnerId runner found waiting]
          exact registry.dropRunner empty ⟨rfl, rfl, rfl, rfl, rfl⟩ (by simp) _ (fun _ _ => rfl) _ hf
      · exact registry.alike ⟨rfl, rfl, rfl, fun _ => id, hf, le_rfl⟩
  · exact registry.alike ⟨rfl, rfl, rfl, fun _ => id, hf, le_rfl⟩

theorem Registry.fence (empty : broker.sessions runnerId = []) (maintenance : RunnerMaintenance) :
    Registry { broker with maintenance := update broker.maintenance runnerId (some maintenance) } :=
  { registry with
    fenced := fun id active => by
      by_cases hh : id = runnerId
      · subst hh
        exact empty
      · exact registry.fenced id (by simpa [hh] using active) }

end

def fencing (broker : Broker) (fences : Text → Option RunnerMaintenance)
    (waits : List (Text × Nat)) : Broker :=
  { broker with maintenance := fences, quiescing := waits }

theorem endSessions_fencing (broker : Broker) (fences : Text → Option RunnerMaintenance)
    (waits : List (Text × Nat)) (runnerId : Text) (order : List Uuid) (clock : Uuid → Int) :
    (broker.fencing fences waits).endSessions runnerId order clock =
      (broker.endSessions runnerId order clock).fencing fences waits := by
  have close : ∀ (broker : Broker) transferId now,
        (broker.fencing fences waits).closeTransfer runnerId transferId now =
      (broker.closeTransfer runnerId transferId now).fencing fences waits := by
    intro broker transferId _
    have pop : (broker.fencing fences waits).popClient transferId =
          (broker.popClient transferId).fencing fences waits := by
      have hs : (broker.fencing fences waits).client transferId = broker.client transferId := rfl
      unfold popClient
      rw [hs]
      cases broker.client transferId <;> rfl
    unfold Broker.closeTransfer
    rw [pop]
    unfold retire
    have hs : ((broker.popClient transferId).fencing fences waits).runners =
          (broker.popClient transferId).runners :=
      rfl
    rw [hs]
    cases (broker.popClient transferId).runners runnerId <;> rfl
  induction order generalizing broker with
  | nil => rfl
  | cons _ _ ih =>
    unfold Broker.endSessions at ih ⊢
    rw [foldl_cons, foldl_cons, close, ih]

theorem Registry.quiesceWith (registry : Registry broker)
    (visits : order.Perm (broker.sessions runnerId)) (runner : RunnerConnection)
    (maintenance : RunnerMaintenance) (clock : Uuid → Int) :
    Registry (broker.quiesce runnerId runner maintenance order clock).1 := by
  have hd : order.Nodup := visits.nodup_iff.mpr (registry.distinct runnerId)
  obtain ⟨he, empty, fences⟩ := registry.endSessions visits hd clock
  have fenced := he.fence empty maintenance
  rw [fences] at fenced
  have moved := endSessions_fencing broker (update broker.maintenance runnerId (some maintenance))
    ((runnerId, maintenance.ref) :: broker.quiescing) runnerId order clock
  unfold Broker.quiesce
  dsimp only
  rw [show { broker with
      maintenance := update broker.maintenance runnerId (some maintenance)
      quiescing := (runnerId, maintenance.ref) :: broker.quiescing } = broker.fencing _ _ from rfl, moved]
  exact fenced.alike ⟨rfl, rfl, rfl, fun _ => id, Sublist.refl _, le_rfl⟩

theorem Registry.quiesce (registry : Registry broker)
    (visits : order.Perm (broker.sessions runnerId)) (jobId : Uuid) (clock : Uuid → Int) :
    Registry (broker.quiesceRunner runnerId jobId order clock).1 := by
  unfold quiesceRunner
  split
  · exact registry
  · next runner _ =>
      split
      · next maintenance _ =>
          split
          · exact registry
          · split
            · exact registry
            · exact registry.quiesceWith visits runner maintenance clock
      · have hf : Registry { broker with nextRef := broker.nextRef + 1 } :=
          registry.alike ⟨rfl, rfl, rfl, fun _ => id, Sublist.refl _, by simp⟩
        exact hf.quiesceWith visits runner _ clock

theorem Registry.fences (registry : Registry broker) {fences : Text → Option RunnerMaintenance}
    (hf : ∀ runnerId, (fences runnerId).isSome → (broker.maintenance runnerId).isSome)
    (hw : List (Text × Nat)) : Registry { broker with maintenance := fences, quiescing := hw } :=
  registry.alike ⟨rfl, rfl, rfl, hf, Sublist.refl _, le_rfl⟩

theorem isSome_update {fences : Text → Option RunnerMaintenance} {next : Option RunnerMaintenance}
    (allowed : next.isSome → (fences runnerId).isSome) (id : Text)
    (active : (update fences runnerId next id).isSome) : (fences id).isSome := by
  by_cases hh : id = runnerId
  · subst hh
    exact allowed (by simpa using active)
  · simpa [hh] using active

theorem Registry.quiesceFailed (registry : Registry broker) (runnerId : Text) (ref : Nat) :
    Registry (broker.quiesceFailed runnerId ref) := by
  refine registry.fences (fun id active => ?_) _
  revert active
  split
  · split
    · exact isSome_update (by simp) id
    · exact fun active => active
  · exact fun active => active

theorem Registry.quiesced (registry : Registry broker) (runnerId : Text) (jobId : Uuid) :
    Registry (broker.runnerQuiesced runnerId jobId).1 := by
  unfold runnerQuiesced
  split
  · exact registry
  · next maintenance active =>
      split
      · exact registry
      · exact registry.fences (isSome_update (by simp [active])) _

theorem Registry.release (registry : Registry broker) (runnerId : Text) (jobId : Uuid) :
    Registry (broker.releaseMaintenance runnerId jobId).1 := by
  unfold releaseMaintenance
  split
  · exact registry
  · split
    · exact registry
    · split
      · exact registry
      · exact registry.fences (isSome_update (by simp)) _

theorem attachClient_cases (broker : Broker) (grant : RunnerTransferGrant) (websocket : Nat) :
    (broker.attachClient grant websocket).1 = broker ∨
      ∃ runner, broker.runners grant.runnerId = some runner ∧ runner.ready = true ∧
        broker.maintenance grant.runnerId = none ∧ runner.sessions.length < runnerSessionsMax ∧
        broker.clients grant.transferId = none ∧
        (broker.attachClient grant websocket).1 = { broker with
          runners := update broker.runners grant.runnerId
            (some { runner with sessions := runner.sessions ++ [grant.transferId] })
          clients := update broker.clients grant.transferId (some broker.nextRef)
          objects := update broker.objects broker.nextRef (some { websocket, grant })
          nextRef := broker.nextRef + 1 } := by
  unfold attachClient
  split
  · exact .inl rfl
  · next runner found =>
      split
      · exact .inl rfl
      next ready =>
        split
        · exact .inl rfl
        next unfenced =>
          split
          · exact .inl rfl
          next room =>
            split
            · exact .inl rfl
            next hf =>
              exact .inr ⟨runner, found, by simpa using ready, by simpa using unfenced, by omega,
                by simpa using hf, rfl⟩

theorem Registry.attach (registry : Registry broker) (grant : RunnerTransferGrant)
    (websocket : Nat) : Registry (broker.attachClient grant websocket).1 := by
  obtain hs | ⟨runner, hf, ready, unfenced, room, free, attached⟩ := attachClient_cases broker grant websocket
  · rwa [hs]
  rw [attached]
  have mine := sessions_of_runner hf
  have ha : grant.transferId ∉ runner.sessions := by
    rw [← mine, registry.corresponds, owner_eq, free]
    simp
  have used : ∀ transferId, broker.clients transferId ≠ some broker.nextRef := by
    intro transferId taken
    obtain ⟨client, hst, -⟩ := registry.stored _ _ taken
    exact lt_irrefl _ (registry.fresh _ _ hst)
  refine registry.amend hf rfl rfl rfl (by simp) (Sublist.refl _) (fun transferId ref taken => ?_)
    (fun transferId id => ?_) (fun ref client hst => ?_) (by simp [unfenced]) ?_ ?_
    (registry.retired _ runner hf) (by simp [ready])
    fun hw => registry.candidates _ _ hw runner hf rfl
  · by_cases new : transferId = grant.transferId
    · subst new
      obtain rfl : broker.nextRef = ref := by simpa using taken
      exact ⟨_, update_self .., rfl⟩
    · replace taken : broker.clients transferId = some ref := by simpa [new] using taken
      obtain ⟨client, hst, hn⟩ := registry.stored transferId ref taken
      have older : ref ≠ broker.nextRef := fun hs => used transferId (hs ▸ taken)
      exact ⟨client, by simpa [older] using hst, hn⟩
  · rw [sessions_update rfl, owner_eq]
    by_cases new : transferId = grant.transferId
    · subst new
      by_cases hh : id = grant.runnerId
      · simp [hh, Broker.grants]
      · have unlisted : grant.transferId ∉ broker.sessions id := by
          rw [registry.corresponds, owner_eq, free]
          simp
        simpa [hh, Broker.grants, unlisted] using Ne.symm hh
    · have owns := registry.corresponds transferId id
      have owner : ((broker.clients transferId).bind fun ref =>
          (Option.map (·.grant) (update broker.objects broker.nextRef (some { websocket, grant }) ref)).map
            (·.runnerId)) = broker.owner transferId := by
        rw [owner_eq]
        cases taken : broker.clients transferId with
        | none => rfl
        | some ref =>
          have older : ref ≠ broker.nextRef := fun hs => used transferId (hs ▸ taken)
          simp [older, Broker.grants]
      simp only [Broker.grants, update_of_ne new, owner, ← owns]
      by_cases hh : id = grant.runnerId
      · subst hh
        simp [mine, new]
      · simp [hh]
  · by_cases new : ref = broker.nextRef
    · simp [new]
    · have := registry.fresh ref client (by simpa [new] using hst)
      exact this.trans (by simp)
  · have hd := registry.distinct grant.runnerId
    rw [mine] at hd
    refine nodup_append.mpr ⟨hd, by simp, fun other hl last single => ?_⟩
    obtain rfl := mem_singleton.mp single
    exact fun hs => ha (hs ▸ hl)
  · rw [length_append]
    exact room

theorem owner_of_client (hf : broker.client transferId = some (ref, client)) :
    broker.owner transferId = some client.grant.runnerId := by
  rw [owner, hf]
  rfl

theorem Registry.detach (registry : Registry broker) (transferId : Uuid) (websocket : Nat)
    (now : Int) : Registry (broker.detachClient transferId websocket now).1 := by
  unfold detachClient
  split
  · exact registry
  · next ref client hf =>
      split
      · exact registry
      · exact (registry.closeTransfer (owner_of_client hf) now).1

theorem recordBytes_grant {next : ClientConnection} {origin : Option Text} {ciphertext : Bytes}
    (recorded : client.recordBytes origin ciphertext = .ok next) : next.grant = client.grant := by
  unfold ClientConnection.recordBytes at recorded
  split at recorded
  · cases recorded
  · split at recorded
    · cases recorded
    · cases recorded
      rfl

section
variable (registry : Registry broker)
include registry

theorem Registry.clientFrame (transferId : Uuid) (ciphertext : Bytes) :
    Registry (broker.clientFrame transferId ciphertext).1 := by
  unfold Broker.clientFrame
  split
  · exact registry
  · split
    · exact registry
    · next ref client hf =>
        split
        · exact registry
        · split
          · exact registry
          · next recorded =>
              exact registry.alike (alike_setClient (client_eq_some.1 hf).2 (recordBytes_grant recorded))

theorem Registry.runnerClosed (runnerId : Text) (transferId : Uuid)
    (now : Int) : Registry (broker.runnerClosedTransfer runnerId transferId now).1 := by
  unfold runnerClosedTransfer
  split
  · exact registry
  · split
    · exact registry
    · next ref client hf =>
        split
        · exact registry
        · next hs =>
            have ho := owner_of_client hf
            rw [not_not.mp hs] at ho
            exact (registry.closeTransfer ho now).1

theorem Registry.lateFrame (hf : broker.runners runnerId = some runner) (transferId : Uuid)
    (now : Int) : Registry (broker.lateFrame runnerId runner transferId now).1 := by
  have mine := sessions_of_runner hf
  exact registry.amend hf rfl rfl rfl le_rfl (Sublist.refl _) registry.stored
    (registry.steady hf rfl rfl rfl) registry.fresh (fun active => mine ▸ registry.fenced runnerId active)
    (mine ▸ registry.distinct runnerId) (mine ▸ registry.limited runnerId)
    ((length_pruneRetiredTransfers _ _).trans (registry.retired runnerId runner hf))
    (registry.unready runnerId runner hf) fun hw => registry.candidates runnerId _ hw runner hf rfl

theorem Registry.runnerFrame (runnerId : Text) (framedCiphertext : Bytes) (now : Int) :
    Registry (broker.runnerFrame runnerId framedCiphertext now).1 := by
  unfold Broker.runnerFrame
  split
  · exact registry
  dsimp only
  split
  · exact registry
  · next runner hp =>
      split
      · exact registry.lateFrame hp _ now
      · next ref client hf =>
          split
          · exact registry.lateFrame hp _ now
          · next hs =>
              have ho := owner_of_client hf
              rw [not_not.mp hs] at ho
              split
              · exact (registry.closeTransfer ho now).1
              · split
                · exact (registry.closeTransfer ho now).1
                · split
                  · exact registry
                  · next recorded =>
                      exact registry.alike
                        (alike_setClient (client_eq_some.1 hf).2 (recordBytes_grant recorded :))

theorem Registry.senderWaits (transferId : Uuid) : Registry (broker.senderWaits transferId) := by
  unfold Broker.senderWaits
  split
  · exact registry
  · exact registry.alike ⟨rfl, rfl, rfl, fun _ => id, Sublist.refl _, le_rfl⟩

theorem Registry.senderTakes (ref : Nat) : Registry (broker.senderTakes ref).1 := by
  unfold Broker.senderTakes
  split
  · exact registry
  · next client hf =>
      split
      · exact registry
      · exact registry.alike ⟨rfl, rfl, grants_setClient hf rfl, fun _ => id, Sublist.refl _, le_rfl⟩

theorem Registry.perform {operation : Operation}
    (enabled : broker.Enabled operation) : Registry (broker.perform operation) := by
  cases operation with
  | register runnerId websocket durableJobId order => exact registry.register enabled websocket durableJobId
  | registered runnerId ref => exact registry.registered
  | registerFailed runnerId ref => exact registry.registerFailed enabled
  | unregister runnerId websocket order => exact registry.unregister enabled websocket
  | disconnect runnerId order => exact registry.disconnect enabled
  | quiesce runnerId jobId _ clock => exact registry.quiesce enabled jobId clock
  | quiesceReturned runnerId ref => exact registry.fences (fun _ => id) _
  | quiesceFailed runnerId ref => exact registry.quiesceFailed runnerId ref
  | quiesced runnerId jobId => exact registry.quiesced runnerId jobId
  | release runnerId jobId => exact registry.release runnerId jobId
  | attach grant websocket => exact registry.attach grant websocket
  | detach transferId websocket now => exact registry.detach transferId websocket now
  | clientFrame transferId ciphertext => exact registry.clientFrame transferId ciphertext
  | runnerClosed runnerId transferId now => exact registry.runnerClosed runnerId transferId now
  | runnerFrame runnerId framedCiphertext now => exact registry.runnerFrame runnerId framedCiphertext now
  | senderWaits transferId => exact registry.senderWaits transferId
  | senderTakes ref => exact registry.senderTakes ref

end

theorem registry_empty : Registry {} where
  stored := by simp
  corresponds := by simp [sessions, owner, Broker.client]
  fenced := by simp
  distinct := by simp [sessions]
  limited := by simp [sessions]
  retired := by simp
  unready := by simp
  candidates := by simp
  once := by simp
  pending := by simp
  known := by simp
  fresh := by simp

end Broker

end Yinshi.Relay
