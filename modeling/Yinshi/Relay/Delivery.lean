import Mathlib.Algebra.BigOperators.Group.List.Basic
import Yinshi.Relay.Registry

/-! What the relay broker keeps for each client: its byte budget, the order of the frames
queued to it, and that nothing more is accepted for it once it is detached. -/

namespace Yinshi.Relay
open ByteText Function Runs Relation List Option
variable {client next : ClientConnection}

def runnerFrames (accepted : List (Option Text × Bytes)) : List Bytes :=
  (accepted.filter (·.1.isSome)).map (·.2)

theorem runnerFrames_append (front back : List (Option Text × Bytes)) :
    runnerFrames (front ++ back) = runnerFrames front ++ runnerFrames back := by
  simp [runnerFrames]

structure Sane (attached : Prop) (client : ClientConnection) : Prop where
  bytes : client.ciphertextBytes = (client.accepted.map (·.2.length)).sum
  within : client.ciphertextBytes ≤ client.grant.maxSessionBytes
  named : ∀ frame ∈ client.accepted, ∀ runnerId, frame.1 = some runnerId → runnerId = client.grant.runnerId
  bounded : client.outboundQueue.length ≤ relayQueueFramesMax
  ordered : attached → runnerFrames client.accepted = client.handed ++ client.outboundQueue
  late : (client.handed ++ client.outboundQueue).Sublist (runnerFrames client.accepted ++ [[]])

inductive Change : Prop → Prop → ClientConnection → ClientConnection → Prop
  | kept {before after : Prop} {client : ClientConnection} (same : after ↔ before) :
      Change before after client client
  | closed {before after : Prop} {client : ClientConnection} (was : before) (gone : ¬ after) :
      Change before after client client.closeQueue
  | uploaded {before after : Prop} {client next : ClientConnection} {ciphertext : Bytes}
      (was : before) (stays : after)
      (recorded : client.recordBytes none ciphertext = .ok next) : Change before after client next
  | queued {before after : Prop} {client next : ClientConnection} {ciphertext : Bytes}
      (was : before) (stays : after)
      (recorded : client.recordBytes (some client.grant.runnerId) ciphertext = .ok next)
      (room : client.outboundQueue.length < relayQueueFramesMax) :
      Change before after client { next with outboundQueue := next.outboundQueue ++ [ciphertext] }
  | taken {before after : Prop} {client : ClientConnection} {frame : Bytes} {queue : List Bytes}
      (same : after ↔ before)
      (waiting : client.outboundQueue = frame :: queue) :
      Change before after client { client with outboundQueue := queue, handed := client.handed ++ [frame] }

theorem recordBytes_eq_ok {origin : Option Text} {ciphertext : Bytes} :
    client.recordBytes origin ciphertext = .ok next ↔
      1 ≤ ciphertext.length ∧ client.ciphertextBytes + ciphertext.length ≤ client.grant.maxSessionBytes ∧
      next = { client with
        ciphertextBytes := client.ciphertextBytes + ciphertext.length
        accepted := client.accepted ++ [(origin, ciphertext)] } := by
  unfold ClientConnection.recordBytes
  split
  · next short => exact ⟨nofun, fun ⟨long, _⟩ => absurd short (by omega)⟩
  · next long =>
      split
      · next past => exact ⟨nofun, fun ⟨_, under, _⟩ => absurd past (by omega)⟩
      · next under =>
          rw [Except.ok.injEq]
          exact ⟨fun hs => ⟨by omega, by omega, hs.symm⟩, fun ⟨_, _, hs⟩ => hs.symm⟩

theorem closeClientQueue_spec {queue : List Bytes} (hb : queue.length ≤ relayQueueFramesMax) :
    (closeClientQueue queue).Sublist (queue ++ [[]]) ∧
    (closeClientQueue queue).length ≤ relayQueueFramesMax := by
  induction queue with
  | nil => exact ⟨Sublist.refl _, by decide⟩
  | cons frame queue ih =>
    unfold closeClientQueue
    split
    · next room =>
        refine ⟨Sublist.refl _, ?_⟩
        simp only [length_append, length_cons, length_nil]
        omega
    · have hs : queue.length ≤ relayQueueFramesMax := by
        rw [length_cons] at hb
        omega
      obtain ⟨part, short⟩ := ih hs
      exact ⟨part.trans (sublist_cons_self frame _), short⟩

theorem Sane.change {before after : Prop} (sane : Sane before client)
    (change : Change before after client next) : Sane after next := by
  cases change with
  | kept hs => exact { sane with ordered := fun ha => sane.ordered (hs.mp ha) }
  | closed was gone =>
    obtain ⟨part, short⟩ := closeClientQueue_spec sane.bounded
    refine { sane with bounded := short, ordered := fun ha => absurd ha gone, late := ?_ }
    have all := part.append_left client.handed
    rw [← append_assoc, ← sane.ordered was] at all
    exact all
  | uploaded was stays recorded =>
    obtain ⟨-, under, rfl⟩ := recordBytes_eq_ok.1 recorded
    have hs := fun ciphertext : Bytes => runnerFrames_append client.accepted [(none, ciphertext)]
    simp only [show ∀ ciphertext : Bytes, runnerFrames [(none, ciphertext)] = [] from fun _ => rfl,
      append_nil] at hs
    exact {
      bytes := by simp [sane.bytes]
      within := under
      named := by
        intro frame hm runnerId origin
        rcases mem_append.mp hm with old | new
        · exact sane.named frame old runnerId origin
        · rw [mem_singleton.mp new] at origin
          cases origin
      bounded := sane.bounded
      ordered := fun _ => (hs _).trans (sane.ordered was)
      late := by
        rw [hs]
        exact sane.late }
  | queued was _ recorded room =>
    obtain ⟨-, under, rfl⟩ := recordBytes_eq_ok.1 recorded
    have more : ∀ ciphertext, runnerFrames (client.accepted ++ [(some client.grant.runnerId, ciphertext)]) =
        client.handed ++ (client.outboundQueue ++ [ciphertext]) := by
      intro _
      rw [runnerFrames_append, sane.ordered was, append_assoc]
      rfl
    exact {
      bytes := by simp [sane.bytes]
      within := under
      named := by
        intro frame hm runnerId origin
        rcases mem_append.mp hm with old | new
        · exact sane.named frame old runnerId origin
        · rw [mem_singleton.mp new] at origin
          exact (some.inj origin).symm
      bounded := by
        rw [length_append]
        exact room
      ordered := fun _ => more _
      late := by
        rw [more]
        exact sublist_append_left _ _ }
  | taken hs waiting =>
    exact {
      bytes := sane.bytes
      within := sane.within
      named := sane.named
      bounded := by
        have := sane.bounded
        rw [waiting, length_cons] at this
        exact (Nat.le_succ _).trans this
      ordered := fun ha => by
        rw [sane.ordered (hs.mp ha), waiting]
        simp
      late := by
        have late := sane.late
        rw [waiting] at late
        simpa using late }

theorem Change.frozen {before after : Prop} (detached : ¬ before)
    (change : Change before after client next) : ¬ after ∧ next.accepted = client.accepted := by
  cases change with
  | kept hs | taken hs _ => exact ⟨fun ha => detached (hs.mp ha), rfl⟩
  | closed was _ | queued was _ _ _ | uploaded was _ _ => exact absurd was detached

namespace Broker
variable {broker : Broker}

def Clients (broker : Broker) : Prop :=
  ∀ ref client, broker.objects ref = some client → Sane (broker.Attached ref) client

def Frozen (broker other : Broker) : Prop :=
  ∀ ref client, broker.objects ref = some client → ¬ broker.Attached ref →
    ¬ other.Attached ref ∧ ∃ next, other.objects ref = some next ∧ next.accepted = client.accepted

structure Evolves (broker other : Broker) : Prop where
  each : ∀ ref client, broker.objects ref = some client →
    ∃ next, other.objects ref = some next ∧ Change (broker.Attached ref) (other.Attached ref) client next
  new : ∀ ref next, other.objects ref = some next →
    (broker.objects ref).isSome ∨ ∃ websocket grant, next = { websocket, grant }

structure Progress (broker other : Broker) : Prop where
  clients : Clients broker → Clients other
  frozen : Frozen broker other

theorem Evolves.progress {other : Broker} (evolves : Evolves broker other) : Progress broker other where
  clients sane ref next stored := by
    rcases evolves.new ref next stored with old | ⟨_, _, rfl⟩
    · obtain ⟨client, hk⟩ := isSome_iff_exists.mp old
      obtain ⟨_, hh, change⟩ := evolves.each ref client hk
      rw [stored] at hh
      cases hh
      exact (sane ref client hk).change change
    · exact {
        bytes := rfl
        within := Nat.zero_le _
        named := nofun
        bounded := Nat.zero_le _
        ordered := fun _ => rfl
        late := nil_sublist _ }
  frozen ref client stored detached := by
    obtain ⟨next, hh, change⟩ := evolves.each ref client stored
    obtain ⟨gone, hs⟩ := change.frozen detached
    exact ⟨gone, next, hh, hs⟩

theorem Progress.refl (broker : Broker) : Progress broker broker :=
  ⟨id, fun _ client hs detached => ⟨detached, client, hs, rfl⟩⟩

theorem Progress.trans {first second third : Broker} (front : Progress first second)
    (back : Progress second third) : Progress first third where
  clients sane := back.clients (front.clients sane)
  frozen ref client stored detached := by
    obtain ⟨gone, next, hh, hs⟩ := front.frozen ref client stored detached
    obtain ⟨stays, last, ht, equal⟩ := back.frozen ref next hh gone
    exact ⟨stays, last, ht, equal.trans hs⟩

theorem progress_same {other : Broker} (objects : other.objects = broker.objects)
    (clients : other.clients = broker.clients) : Progress broker other := by
  have ha : other.Attached = broker.Attached := by
    funext ref
    rw [Attached, Attached, clients]
  refine Evolves.progress ⟨fun ref client hs => ?_, fun ref next hs => ?_⟩
  · rw [objects, ha]
    exact ⟨client, hs, .kept Iff.rfl⟩
  · rw [objects] at hs
    exact .inl (isSome_of_mem hs)

theorem progress_setClient {ref : Nat} {client next : ClientConnection}
    (hs : broker.objects ref = some client)
    (change : Change (broker.Attached ref) (broker.Attached ref) client next) :
    Progress broker (broker.setClient ref next) := by
  refine Evolves.progress ⟨fun other hk hf => ?_, fun other last hf => ?_⟩
  · by_cases hh : other = ref
    · subst hh
      rw [hs] at hf
      cases hf
      exact ⟨next, update_self .., change⟩
    · exact ⟨hk, by simpa [setClient, hh] using hf, .kept Iff.rfl⟩
  · by_cases hh : other = ref
    · subst hh
      exact .inl (by simp [hs])
    · exact .inl (isSome_of_mem (by simpa [setClient, hh] using hf))

def Filed (broker : Broker) : Prop :=
  ∀ transferId ref, broker.clients transferId = some ref →
    ∃ client, broker.objects ref = some client ∧ client.grant.transferId = transferId

theorem Filed.unique (hf : Filed broker) {transferId other : Uuid} {ref : Nat}
    (first : broker.clients transferId = some ref) (second : broker.clients other = some ref) :
    other = transferId := by
  obtain ⟨_, hh, hn⟩ := hf transferId ref first
  obtain ⟨_, ht, called⟩ := hf other ref second
  rw [hh] at ht
  cases ht
  rw [← hn, ← called]

theorem Filed.stored (hf : Filed broker) : Stored broker :=
  fun transferId ref ha => (hf transferId ref ha).imp fun _ hk => hk.1

theorem Filed.popClient (hf : Filed broker) (transferId : Uuid) : Filed (broker.popClient transferId) := by
  intro other ref ha
  rw [clients_popClient (hf.stored transferId)] at ha
  by_cases hh : other = transferId
  · subst hh
    simp at ha
  · rw [update_of_ne hh] at ha
    rw [stored_iff, (popped_popClient broker transferId).grants, ← stored_iff]
    exact hf other ref ha

theorem progress_popClient (filed : Filed broker) (transferId : Uuid) :
    Progress broker (broker.popClient transferId) := by
  cases hf : broker.client transferId with
  | none =>
    unfold Broker.popClient
    rw [hf]
    exact .refl broker
  | some entry =>
    obtain ⟨ref, client⟩ := entry
    obtain ⟨ha, stored⟩ := client_eq_some.mp hf
    have popped : broker.popClient transferId =
        { broker.setClient ref client.closeQueue with clients := update broker.clients transferId none } := by
      rw [Broker.popClient, hf]
    rw [popped]
    have others : ∀ other, other ≠ ref → ((∃ key, update broker.clients transferId none key = some other) ↔
        broker.Attached other) := by
      intro other apart
      constructor
      · rintro ⟨key, hh⟩
        by_cases here : key = transferId
        · simp [here] at hh
        · exact ⟨key, by simpa [here] using hh⟩
      · rintro ⟨key, hh⟩
        have here : key ≠ transferId := by
          rintro rfl
          rw [ha] at hh
          exact apart (some.inj hh).symm
        exact ⟨key, by simpa [here] using hh⟩
    refine Evolves.progress ⟨fun other hk hh => ?_, fun other last hh => ?_⟩
    · by_cases here : other = ref
      · subst here
        rw [stored] at hh
        cases hh
        refine ⟨_, update_self .., .closed ⟨transferId, ha⟩ ?_⟩
        rintro ⟨key, still⟩
        by_cases hs : key = transferId
        · simp [hs] at still
        · exact hs (filed.unique ha (by simpa [hs] using still))
      · exact ⟨hk, by simpa [setClient, here] using hh, .kept (others other here)⟩
    · by_cases here : other = ref
      · subst here
        exact .inl (by simp [stored])
      · exact .inl (isSome_of_mem (by simpa [setClient, here] using hh))

section
variable (hf : Filed broker)
include hf

theorem progress_popClients (order : List Uuid) : Progress broker (order.foldl popClient broker) := by
  induction order generalizing broker with
  | nil => exact .refl broker
  | cons first _ ih => exact (progress_popClient hf first).trans (ih (hf.popClient first))

section
variable (runnerId : Text)
include runnerId

theorem progress_closeTransfer (transferId : Uuid)
    (now : Int) : Progress broker (broker.closeTransfer runnerId transferId now) := by
  refine (progress_popClient hf transferId).trans ?_
  unfold Broker.closeTransfer retire
  split
  · exact Progress.refl _
  · exact progress_same rfl rfl

theorem Filed.closeTransfer (transferId : Uuid)
    (now : Int) : Filed (broker.closeTransfer runnerId transferId now) := by
  unfold Broker.closeTransfer retire
  split
  · exact hf.popClient transferId
  · exact hf.popClient transferId

theorem progress_endSessions (order : List Uuid)
    (clock : Uuid → Int) : Progress broker (broker.endSessions runnerId order clock) := by
  induction order generalizing broker with
  | nil => exact .refl broker
  | cons first _ ih =>
    exact (progress_closeTransfer hf runnerId first (clock first)).trans
      (ih (hf.closeTransfer runnerId first (clock first)))

theorem progress_register (websocket : Nat) (durableJobId : Option Uuid) (order : List Uuid) :
    Progress broker (broker.registerRunner runnerId websocket durableJobId order).1 :=
  (progress_popClients hf order).trans (progress_same rfl rfl)

theorem progress_unregister (websocket : Nat)
    (order : List Uuid) : Progress broker (broker.unregisterRunner runnerId websocket order).1 := by
  unfold unregisterRunner
  split
  · exact .refl broker
  · split
    · exact .refl broker
    · exact (progress_popClients hf order).trans (progress_same rfl rfl)

theorem progress_disconnect (order : List Uuid) :
    Progress broker (broker.disconnectRunner runnerId order).1 := by
  unfold disconnectRunner
  split
  · exact progress_same rfl rfl
  · have fenceless : Progress broker { broker with maintenance := update broker.maintenance runnerId none } :=
      progress_same rfl rfl
    have hk : Filed { broker with maintenance := update broker.maintenance runnerId none } := hf
    exact (fenceless.trans (progress_popClients hk order)).trans (progress_same rfl rfl)

theorem progress_quiesce (jobId : Uuid) (order : List Uuid) (clock : Uuid →
    Int) : Progress broker (broker.quiesceRunner runnerId jobId order clock).1 := by
  have ends : ∀ (fenced : Broker), fenced.objects = broker.objects → fenced.clients = broker.clients →
      Progress broker (fenced.endSessions runnerId order clock) := by
    intro _ objects clients
    refine (progress_same objects clients).trans (progress_endSessions ?_ runnerId order clock)
    intro transferId ref ha
    rw [objects]
    exact hf transferId ref (by rwa [clients] at ha)
  unfold quiesceRunner
  split
  · exact .refl broker
  · split
    · split
      · exact .refl broker
      · split
        · exact .refl broker
        · exact ends _ rfl rfl
    · exact ends _ rfl rfl

end

end

theorem progress_attach (registry : Registry broker) (grant : RunnerTransferGrant)
    (websocket : Nat) : Progress broker (broker.attachClient grant websocket).1 := by
  obtain same | ⟨_, -, -, -, -, hf, ha⟩ := attachClient_cases broker grant websocket
  · rw [same]
    exact .refl broker
  rw [ha]
  refine Evolves.progress ⟨fun ref client hs => ?_, fun ref next hs => ?_⟩
  · have older : ref ≠ broker.nextRef := (registry.fresh ref client hs).ne
    refine ⟨client, by simpa [older] using hs, .kept ?_⟩
    constructor
    · rintro ⟨key, holds⟩
      by_cases hh : key = grant.transferId
      · subst hh
        exact absurd (by simpa using holds) older.symm
      · exact ⟨key, by simpa [hh] using holds⟩
    · rintro ⟨key, holds⟩
      have hh : key ≠ grant.transferId := by
        rintro rfl
        rw [hf] at holds
        cases holds
      exact ⟨key, by simpa [hh] using holds⟩
  · by_cases hh : ref = broker.nextRef
    · subst hh
      exact .inr ⟨websocket, grant, by simpa using hs.symm⟩
    · exact .inl (isSome_of_mem (by simpa [hh] using hs))

theorem progress_detach (hf : Filed broker) (transferId : Uuid) (websocket : Nat) (now : Int) :
    Progress broker (broker.detachClient transferId websocket now).1 := by
  unfold detachClient
  split
  · exact .refl broker
  · split
    · exact .refl broker
    · exact progress_closeTransfer hf _ _ _

theorem progress_clientFrame (broker : Broker) (transferId : Uuid) (ciphertext : Bytes) :
    Progress broker (broker.clientFrame transferId ciphertext).1 := by
  unfold Broker.clientFrame
  split
  · exact .refl broker
  · split
    · exact .refl broker
    · next ref client hf =>
        obtain ⟨ha, hs⟩ := client_eq_some.mp hf
        split
        · exact .refl broker
        · split
          · exact .refl broker
          · next recorded =>
              exact progress_setClient hs (.uploaded ⟨transferId, ha⟩ ⟨transferId, ha⟩ recorded)

theorem progress_runnerClosed (hf : Filed broker) (runnerId : Text) (transferId : Uuid)
    (now : Int) : Progress broker (broker.runnerClosedTransfer runnerId transferId now).1 := by
  unfold runnerClosedTransfer
  split
  · exact .refl broker
  · split
    · exact .refl broker
    · split
      · exact .refl broker
      · exact progress_closeTransfer hf _ _ _

theorem progress_runnerFrame (filed : Filed broker) (runnerId : Text) (framedCiphertext : Bytes)
    (now : Int) : Progress broker (broker.runnerFrame runnerId framedCiphertext now).1 := by
  unfold Broker.runnerFrame
  split
  · exact .refl broker
  dsimp only
  split
  · exact .refl broker
  · split
    · exact progress_same rfl rfl
    · next ref client hf =>
        obtain ⟨ha, hs⟩ := client_eq_some.mp hf
        split
        · exact progress_same rfl rfl
        · next same =>
            split
            · exact progress_closeTransfer filed _ _ _
            · split
              · exact progress_closeTransfer filed _ _ _
              · next room =>
                  split
                  · exact .refl broker
                  · next recorded =>
                      rw [← not_not.mp same] at recorded
                      exact progress_setClient hs (.queued ⟨_, ha⟩ ⟨_, ha⟩ recorded (by omega))

theorem progress_senderTakes (broker : Broker) (ref : Nat) : Progress broker (broker.senderTakes ref).1 := by
  unfold Broker.senderTakes
  split
  · exact .refl broker
  · next client hs =>
      split
      · exact .refl broker
      · next waiting => exact (progress_setClient hs (.taken Iff.rfl waiting)).trans (progress_same rfl rfl)

theorem progress_perform (registry : Registry broker) (operation : Operation) :
    Progress broker (broker.perform operation) := by
  have hf : Filed broker := registry.stored
  cases operation with
  | register runnerId websocket durableJobId order =>
    exact progress_register hf runnerId websocket durableJobId order
  | registered runnerId ref | quiesceFailed runnerId ref | quiesceReturned runnerId ref
  | registerFailed runnerId ref => exact progress_same rfl rfl
  | unregister runnerId websocket order => exact progress_unregister hf runnerId websocket order
  | disconnect runnerId order => exact progress_disconnect hf runnerId order
  | quiesce runnerId jobId order clock => exact progress_quiesce hf runnerId jobId order clock
  | quiesced runnerId jobId =>
    simp only [perform, runnerQuiesced]
    split
    · exact .refl broker
    · split
      · exact .refl broker
      · exact progress_same rfl rfl
  | release runnerId _ =>
    simp only [perform, releaseMaintenance]
    split
    · exact .refl broker
    · split
      · exact .refl broker
      · split
        · exact .refl broker
        · exact progress_same rfl rfl
  | attach grant websocket => exact progress_attach registry grant websocket
  | detach transferId websocket now => exact progress_detach hf transferId websocket now
  | clientFrame transferId ciphertext => exact progress_clientFrame broker transferId ciphertext
  | runnerClosed runnerId transferId now => exact progress_runnerClosed hf runnerId transferId now
  | runnerFrame runnerId framedCiphertext now => exact progress_runnerFrame hf runnerId framedCiphertext now
  | senderWaits _ =>
    simp only [perform, Broker.senderWaits]
    split
    · exact .refl broker
    · exact progress_same rfl rfl
  | senderTakes ref => exact progress_senderTakes broker ref

/-- The registry of a broker and the budgets and queues of its clients. -/
structure Sound (broker : Broker) : Prop where
  attached : ∀ transferId ref, broker.clients transferId = some ref → ∃ client runner,
    broker.objects ref = some client ∧ client.grant.transferId = transferId ∧
    broker.runners client.grant.runnerId = some runner ∧ transferId ∈ runner.sessions
  listed : ∀ runnerId runner transferId,
      broker.runners runnerId = some runner → transferId ∈ runner.sessions →
    ∃ ref client, broker.clients transferId = some ref ∧ broker.objects ref = some client ∧
      client.grant.runnerId = runnerId
  fenced : ∀ runnerId transferId ref client, (broker.maintenance runnerId).isSome →
    broker.clients transferId = some ref → broker.objects ref = some client → client.grant.runnerId ≠ runnerId
  limited : ∀ runnerId runner, broker.runners runnerId = some runner →
    runner.sessions.length ≤ runnerSessionsMax ∧ runner.retiredTransfers.length ≤ retiredTransfersMax
  metered : ∀ ref client, broker.objects ref = some client →
    client.ciphertextBytes = (client.accepted.map (·.2.length)).sum ∧
    client.ciphertextBytes ≤ client.grant.maxSessionBytes
  named : ∀ ref client, broker.objects ref = some client → ∀ frame ∈ client.accepted, ∀ runnerId,
    frame.1 = some runnerId → runnerId = client.grant.runnerId
  ordered : ∀ transferId ref client, broker.clients transferId = some ref → broker.objects ref = some client →
    runnerFrames client.accepted = client.handed ++ client.outboundQueue
  /-- A detached client has nothing in its queue but its own frames and the mark of its end. -/
  late : ∀ ref client, broker.objects ref = some client →
    (client.handed ++ client.outboundQueue).Sublist (runnerFrames client.accepted ++ [[]])

theorem Registry.sound (registry : Registry broker) (clients : Clients broker) : Sound broker where
  attached transferId ref hh := by
    obtain ⟨client, hs, hn⟩ := registry.stored transferId ref hh
    have hl := (registry.corresponds transferId client.grant.runnerId).mpr
      (owner_of_client (client_eq_some.mpr ⟨hh, hs⟩))
    obtain ⟨runner, hf⟩ := exists_runner hl
    rw [sessions_of_runner hf] at hl
    exact ⟨client, runner, hs, hn, hf, hl⟩
  listed runnerId runner transferId hf member := by
    rw [← sessions_of_runner hf, registry.corresponds, owner, map_eq_some_iff] at member
    obtain ⟨⟨ref, client⟩, hp, hn⟩ := member
    obtain ⟨hh, hs⟩ := client_eq_some.mp hp
    exact ⟨ref, client, hh, hs, hn⟩
  fenced runnerId transferId ref client active hh hs hn := by
    have hl := (registry.corresponds transferId client.grant.runnerId).mpr
      (owner_of_client (client_eq_some.mpr ⟨hh, hs⟩))
    rw [hn, registry.fenced runnerId active] at hl
    cases hl
  limited runnerId runner hf :=
    ⟨sessions_of_runner hf ▸ registry.limited runnerId, registry.retired runnerId runner hf⟩
  metered ref client hs := ⟨(clients ref client hs).bytes, (clients ref client hs).within⟩
  named ref client hs := (clients ref client hs).named
  ordered transferId ref client hh hs := (clients ref client hs).ordered ⟨transferId, hh⟩
  late ref client hs := (clients ref client hs).late

theorem run_progress {first last : Broker} (registry : Registry first)
    (run : ReflTransGen Step first last) : Registry last ∧ Progress first last := by
  refine run_keeps (fun broker => Registry broker ∧ Progress first broker) ?_ run
    ⟨registry, Progress.refl first⟩
  rintro _ _ ⟨operation, enabled, rfl⟩ ⟨hk, progress⟩
  exact ⟨hk.perform enabled, progress.trans (progress_perform hk operation)⟩

/-- What is forwarded to the runner of a client is what is accepted for the client. -/
def Forwards (broker : Broker) : Prop :=
  ∀ transferId ciphertext outputs, (broker.clientFrame transferId ciphertext).2 = .ok outputs →
    ∃ ref client runner next, broker.client transferId = some (ref, client) ∧
      broker.runners client.grant.runnerId = some runner ∧
      (broker.clientFrame transferId ciphertext).1.objects ref = some next ∧
      next.accepted = client.accepted ++ [(none, ciphertext)] ∧
      outputs = [.frame runner.websocket (transferId ++ ciphertext)]

theorem clientFrame_forwards (broker : Broker) : broker.Forwards := by
  intro transferId ciphertext outputs sent
  unfold Broker.clientFrame at sent ⊢
  split at sent
  · cases sent
  next bounded =>
    rw [if_neg bounded]
    cases attached : broker.client transferId with
    | none =>
      rw [attached] at sent
      cases sent
    | some entry =>
      obtain ⟨ref, client⟩ := entry
      cases connected : broker.runners client.grant.runnerId with
      | none => simp [attached, connected] at sent
      | some runner =>
        cases recorded : client.recordBytes none ciphertext with
        | error error => simp [attached, connected, recorded] at sent
        | ok next =>
          simp only [attached, connected, recorded, Except.ok.injEq] at sent ⊢
          obtain ⟨-, -, rfl⟩ := recordBytes_eq_ok.1 recorded
          exact ⟨ref, client, runner, _, rfl, connected, update_self _ _ _, rfl, sent.symm⟩

/-- The registry invariant in every state that any interleaving of calls reaches. Nothing
more is accepted for a client that is detached, whatever happens later. -/
theorem relay_registry {broker later : Broker} (reached : ReflTransGen Step {} broker)
    (continues : ReflTransGen Step broker later) :
    Sound broker ∧ Frozen broker later ∧ Forwards broker := by
  obtain ⟨registry, progress⟩ := run_progress registry_empty reached
  have clients : Clients broker := progress.clients (by simp [Clients])
  exact ⟨registry.sound clients, (run_progress registry continues).2.frozen, broker.clientFrame_forwards⟩

end Broker

def sampleOperations : List Operation :=
  [.register (text "runner") 1 none [], .registered (text "runner") 0,
    .attach ⟨List.replicate 16 7, text "runner", 600, 1000⟩ 2,
      .runnerFrame (text "runner") (List.replicate 20 7) 0, .clientFrame (List.replicate 16 7) [1]]

def sampleBroker : Broker := sampleOperations.foldl Broker.perform {}

theorem Broker.relay_registry_sampleBroker :
    ((sampleBroker.client (List.replicate 16 7)).map (·.2.accepted)) =
      some [(some (text "runner"), List.replicate 4 7), (none, [1])] ∧ Sound sampleBroker ∧
    Frozen sampleBroker (sampleBroker.perform (.detach (List.replicate 16 7) 2 5)) ∧
    sampleBroker.Forwards := by
  have step : ∀ (broker : Broker) operation, broker.Enabled operation → Step broker (broker.perform operation) :=
    fun _ operation enabled => ⟨operation, enabled, rfl⟩
  refine ⟨by decide, relay_registry ?_ (.single (step _ _ trivial))⟩
  refine .tail (.tail (.tail (.tail (.single (step _ (.register (text "runner") 1 none []) (Perm.refl _)))
    (step _ (.registered (text "runner") 0) (mem_cons_self ..)))
    (step _ (.attach ⟨replicate 16 7, text "runner", 600, 1000⟩ 2) trivial))
    (step _ (.runnerFrame (text "runner") (replicate 20 7) 0) trivial))
    (step _ (.clientFrame (replicate 16 7) [1]) trivial)

end Yinshi.Relay
