import Mathlib.Logic.Relation
import Yinshi.Publication.Honesty

/-! The outcomes of publications and reconciliations, in every run of any number of them. -/

namespace Yinshi.Publication
open ByteText Function Interleaved Interleaved.Proc Interleaved.Wp

section Outcomes
variable {ν : Type} {store : Store ν} {s : Root} {n : Nat} {declaration : Declaration}
variable {receipt : Receipt ν} {source : Source}

theorem harmless_ofOutcome {error : Error} (harmless : Harmless n error s) :
    Harmless n error.ofOutcome s := by
  refine fun bad => harmless ?_
  cases error <;> simp_all [Error.ofOutcome, Error.isRejected]

def Receipted (store : Store ν) (declaration : Declaration) (receipt : Receipt ν) (s : Root) : Prop :=
  ∃ inspection, Inspected store declaration inspection s ∧ receipt = publicationReceipt declaration inspection

theorem Receipted.stays {t : Root} (receipted : Receipted store declaration receipt s)
    (hst : Stays s t) : Receipted store declaration receipt t := by
  obtain ⟨inspection, inspected, hs⟩ := receipted
  exact ⟨inspection, ⟨inspected.published.stays hst, inspected.marker⟩, hs⟩

theorem ends_verifySource [DecidableEq ν] (hva : store.valid declaration = true)
    (start : Idle n s) :
    Ends store n (fun _ => Idle n)
      (fun verification s => Idle n s ∧ Verified store declaration verification)
      (verifySource store declaration source) s := by
  have touches : ∀ label s, Idle n s → Ends store n (fun _ => Idle n) (fun _ => Idle n) (.touch label) s :=
    fun label s hi => .touch _ (.refl n) stable_idle hi (fun _ _ hi _ _ => hi) fun _ hi _ => hi
  cases source with
  | bytes artifacts =>
    dsimp only [verifySource]
    split
    next matching =>
      refine .rescue (fun _ => Idle n) (.seq (fun _ => Idle n) (touches _ s start) fun _ s hi => ?_)
        fun _ _ hi => .raise hi
      exact .orRaise (fun verification verifies => ⟨hi, hva, artifacts, matching, verifies⟩) fun _ _ => hi
    next => exact .raise start
  | opened hv _ =>
    refine .seq (fun _ => Idle n) (ends_recheckSource stable_idle _ start) fun _ s hi => ?_
    refine .seq (fun verification s => Idle n s ∧ Verified store declaration verification)
      (.rescue (fun _ => Idle n) ?_ fun _ _ hi => .raise hi) fun verification s hh => ?_
    · refine .seq (fun _ => Idle n) (touches _ s hi) fun _ s hi => ?_
      split
      next matching =>
        exact .orRaise (fun verification verifies => ⟨hi, hva, hv, matching, verifies⟩)
          fun _ _ => hi
      next => exact .raise hi
    · exact .seq (fun _ => Idle n) (ends_recheckSource stable_idle _ hh.1) fun _ s hi => .pure ⟨hi, hh.2⟩

structure Delivered (store : Store ν) (n : Nat) (declaration : Declaration) (receipt : Receipt ν)
    (s : Root) : Prop where
  receipted : Receipted store declaration receipt s
  maker : s.maker receipt.finalDirectoryIdentity = some (n, declaration)

theorem stable_delivered : Stable (Rely n) (Delivered store n declaration receipt) :=
  fun _ _ rely hh => ⟨hh.receipted.stays rely.stays, rely.maker _ _ hh.maker⟩

theorem ends_publishVerifiedSources [DecidableEq ν] {verification : ν}
    (injective : Injective store.digest) (hv : Verified store declaration verification)
    (start : Idle n s) :
    Ends store n (Harmless n) (Delivered store n declaration)
      (publishVerifiedSources store n declaration verification source) s := by
  have harmless : ∀ (error : Error) s, Idle n s → Harmless n error s := fun _ _ => harmless_of_idle
  refine .seq (fun _ => Idle n)
    ((ends_translated stable_idle (fun _ hi => hi) start).mono harmless fun _ _ => id)
    fun _ s hi => ?_
  refine .seq (fun _ => Idle n)
    (.touch _ (.refl n) stable_idle hi (fun s _ hi _ _ => harmless _ s hi) fun _ hi _ => hi)
    fun _ s hi => ?_
  refine .cleaned (Harmless n) (Delivered store n declaration) (.rescue (Harmless n) ?_ fun error s hh => ?_)
    (fun error s hh => ?_) fun receipt s hh => ?_
  · -- the stage, the rename and the inspection of what was placed
    refine .seq (fun token s => ∃ directory, Stage n declaration token directory s)
      (ends_allocate 16 (fun s hi => ?_) (fun s hi => harmless _ s hi) hi) fun token s staged => ?_
    · refine .act _ (.refl n) stable_idle hi (fun s _ hi _ _ => ⟨fun _ => hi, fun _ => harmless _ s hi⟩)
        (fun s choice token s' hi hs hd => ?_) fun s _ _ hi _ _ => ⟨fun _ => hi, fun _ => harmless _ s hi⟩
      split at hd
      next => exact nomatch hd
      next hf =>
        cases hd
        have clear : s.entry (.pending declaration.operationId choice) = none := by simpa using hf
        exact ⟨guarantee_make hs clear, sane_make hs clear, s.next, stage_make hs hi⟩
    obtain ⟨directory, stage⟩ := staged
    refine .seq (fun _ => Filled store n declaration token directory verification)
      (ends_buildStage injective hv stage)
      fun _ s filled => ?_
    refine .seq (fun _ => Placed store n declaration directory verification)
      (ends_renameStage filled) fun _ s placed => ?_
    refine .seq (fun _ => Placed store n declaration directory verification)
      (.read _ (.refl n) stable_placed placed (fun _ _ _ _ met => met.elim)
        (fun _ _ placed _ _ => placed) fun _ _ _ _ hr => nomatch hr) fun notes s placed => ?_
    refine .seq (fun inspection s => Placed store n declaration directory verification s ∧
        Inspected store declaration inspection s)
      (.rescue (fun _ => Placed store n declaration directory verification)
          (ends_inspectFinal stable_placed hv.valid placed) fun _ _ _ => .raise harmless_unresolved)
        fun inspection s hh => ?_
    refine .pure ⟨⟨inspection, hh.2, rfl⟩, ?_⟩
    cases hh.2.published.entry.symm.trans hh.1.published.entry
    exact hh.1.maker
  · refine .seq (fun _ => Harmless n error) (.read _ (.refl n) (stable_harmless error) hh
        (fun _ _ _ _ met => met.elim) (fun _ _ hh _ _ => hh) fun _ _ _ _ hr => nomatch hr)
      fun notes s hh => ?_
    split
    next => exact .raise harmless_unresolved
    next => exact .raise (harmless_ofOutcome hh)
  · exact .touch _ (.refl n) (stable_harmless error) hh (fun s _ _ _ met => met ▸ harmless_os)
      fun _ hh _ => hh
  · exact .touch _ (.refl n) stable_delivered hh (fun s _ _ _ met => met ▸ harmless_os) fun _ hh _ => hh

theorem ends_publish [DecidableEq ν] {expectedVerification : Option ν}
    (injective : Injective store.digest) (start : Idle n s) :
    Ends store n (Harmless n) (Delivered store n declaration)
      (publish store n declaration source expectedVerification) s := by
  unfold publish
  split
  next hv =>
    refine .seq (fun verification s => Idle n s ∧ Verified store declaration verification)
      ((ends_verifySource hv start).mono (fun _ _ => harmless_of_idle) fun _ _ => id)
        fun verification s hh => ?_
    split
    next => exact .raise (harmless_of_idle hh.1)
    next => exact ends_publishVerifiedSources injective hh.2 hh.1
  next => exact .raise (harmless_of_idle start)

theorem stable_since {begun : Root} : Stable (Rely n) (Stays begun) :=
  fun _ _ rely since => since.trans rely.stays

theorem ends_reconcile [DecidableEq ν] (start : Idle n s) :
    Ends store n (Harmless n)
      (fun receipt? s' => match receipt? with
        | some receipt => Receipted store declaration receipt s'
        | none => s.entry (.final declaration.operationId) = none)
      (reconcile store declaration) s := by
  have stable : Stable (Rely n) fun s' => Idle n s' ∧ Stays s s' := stable_idle.and stable_since
  have hk : ∀ (error : Error) s',
      Idle n s' ∧ Stays s s' → Harmless n error s' := fun _ _ hh => harmless_of_idle hh.1
  unfold reconcile
  split
  next hv =>
    refine .seq (fun _ s' => Idle n s' ∧ Stays s s')
      (.touch _ (.refl n) stable ⟨start, .refl s⟩ (fun s' _ hh _ _ => hk _ s' hh) fun _ hh _ => hh)
      fun _ s' hh => ?_
    refine .seq (fun presence s' =>
        (Idle n s' ∧ Stays s s') ∧
        (presence = false → s.entry (.final declaration.operationId) = none))
      (.rescue (fun _ => Idle n) (.read _ (.refl n) stable hh (fun _ _ hh _ _ => hh.1)
            (fun s' presence hh _ hs => ⟨hh, ?_⟩) fun _ _ _ _ hr => nomatch hr)
          fun _ _ hi => .raise (harmless_of_idle hi)) fun presence s' hh => ?_
    · cases hs
      intro ha
      cases entry : s.entry (.final declaration.operationId) with
      | none => rfl
      | some _ => simp [(hh.2 _ _ entry).1] at ha
    split
    next =>
      refine .seq (fun inspection s' => Idle n s' ∧ Inspected store declaration inspection s')
        (.rescue (fun _ => Idle n) ?_ fun _ _ hi => .raise (harmless_of_idle hi))
        fun inspection s' hh => .pure ⟨inspection, hh.2, rfl⟩
      refine .seq (fun inspection s' => Idle n s' ∧ Inspected store declaration inspection s')
        (ends_inspectFinal stable_idle hv hh.1.1) fun inspection s' hh => ?_
      have stable' : Stable (Rely n)
          fun s' => Idle n s' ∧ Inspected store declaration inspection s' :=
              stable_idle.and stable_inspected
      refine .seq (fun _ s' => Idle n s' ∧ Inspected store declaration inspection s')
        (.touch _ (.refl n) stable' hh (fun _ _ hh _ _ => hh.1) fun _ hh _ => hh) fun _ s' hh => ?_
      exact .seq (fun _ s' => Idle n s' ∧ Inspected store declaration inspection s')
        (.read _ (.refl n) stable' hh (fun _ _ hh _ _ => hh.1) (fun _ _ hh _ _ => hh)
          fun _ _ hh _ _ => hh.1) fun _ s' hh => .pure hh
    next ha => exact .pure (hh.2 (by simpa using ha))
  next => exact .raise (harmless_of_idle start)

theorem settles_inspectFinal [DecidableEq ν] {directory : Nat} {verification : ν}
    (hp : Published store s declaration directory verification) :
    Settles (inspectFinal store declaration none none) s (.ok
        ⟨verification, directory, store.digest (store.markerBytes declaration verification)⟩) := by
  refine .bind (directory, s.folder directory) (.attempt (.read ?_)) (.ensure (.bind () (.attempt .touch)
    (.bind verification (.attempt (.bind () .touch ?_)) ?_)) (.attempt .touch))
  · simp [hp.entry, hp.declared]
  · rw [hp.verified]
    exact .orRaise
  · rw [if_neg nofun, if_neg (not_not.mpr hp.marker)]
    exact .bind () (.attempt (.read (if_pos ⟨hp.entry, rfl⟩))) (.pure _)

theorem settles_reconcile [DecidableEq ν] (receipted : Receipted store declaration receipt s) :
    Settles (reconcile store declaration) s (.ok (some receipt)) := by
  obtain ⟨⟨_, _, _⟩, ⟨hp, marker⟩, rfl⟩ := receipted
  dsimp only at hp marker
  subst marker
  unfold reconcile
  rw [if_pos hp.valid]
  refine .bind () .touch (.bind true (.attempt (.read ?_)) ?_)
  · rw [hp.entry]
    exact rfl
  · refine .bind _ (.attempt
        (.bind _ (settles_inspectFinal hp) (.bind () .touch (.bind () (.read ?_) (.pure _)))))
      (.pure _)
    refine if_pos ⟨hp.entry, hp.declared, ?_⟩
    rw [hp.marker]
    exact rfl

end Outcomes

section Runs
variable {ν : Type} [DecidableEq ν] {store : Store ν} {s t : Root} {n : Nat} {declaration : Declaration}

/-- What a call of the store may end with, in the state `s`. -/
def Ended (store : Store ν) : Call ν → Nat → Root → Except Error (Option (Receipt ν)) → Root → Prop
  | .publish declaration _ _, n, _, .ok (some receipt), s => Delivered store n declaration receipt s
  | .publish _ _ _, _, _, .ok none, _ => False
  | .reconcile declaration, _, _, .ok (some receipt), s => Receipted store declaration receipt s
  | .reconcile declaration, _, begun, .ok none, _ => begun.entry (.final declaration.operationId) = none
  | _, n, _, .error error, s => Harmless n error s

def contract (store : Store ν) : Contract Root Error (Option (Receipt ν)) (Call ν) where
  inv := Sane store
  rely := Rely
  guarantee := Guarantee
  fresh n s := ∀ directory m declaration, s.maker directory = some (m, declaration) → m < n
  failed call n begun error := Ended store call n begun (.error error)
  post call n begun receipt? := Ended store call n begun (.ok receipt?)

omit [DecidableEq ν] in
theorem stable_ended (call : Call ν) (begun : Root) (exit : Except Error (Option (Receipt ν))) :
    Stable (Rely n) (Ended store call n begun exit) := by
  cases exit with
  | error error => cases call <;> exact stable_harmless error
  | ok receipt? =>
    cases receipt? with
    | none => cases call <;> exact fun _ _ _ => id
    | some _ =>
      cases call with
      | publish declaration _ _ => exact stable_delivered
      | reconcile _ => exact fun s t rely receipted => receipted.stays rely.stays

theorem met_contract (injective : Injective store.digest) :
    (contract store).Met (Call.body store) Allowed where
  refl := Rely.refl
  trans _ _ _ _ := Rely.trans
  still := Guarantee.refl
  apart _ _ _ _ different _ does := does.apart different
  post call _ begun receipt? := stable_ended call begun (.ok receipt?)
  failed call _ begun error := stable_ended call begun (.error error)
  later _ _ fresh directory m declaration hm := Nat.lt_succ_of_lt (fresh directory m declaration hm)
  fresh m n s t below fresh does directory k declaration hm := by
    by_cases hs : k = n
    · rw [hs]
      exact below
    · exact fresh directory k declaration ((does.keeps k hs).new directory declaration hm)
  body call n s _ fresh := by
    have hi : Idle n s :=
      fun _ directory declaration _ hm => Nat.lt_irrefl n (fresh directory n declaration hm)
    cases call with
    | publish declaration _ _ =>
      exact .seq (Delivered store n declaration) (ends_publish injective hi)
        fun receipt _ delivered => .pure delivered
    | reconcile _ =>
      refine (ends_reconcile hi).mono (fun _ _ hh => hh) fun receipt? _ hh => ?_
      cases receipt? <;> exact hh

def Root.empty : Root where
  entry _ := none
  folder _ := []
  maker _ := none
  notes _ := {}
  next := 0

omit [DecidableEq ν] in
theorem sane_empty : Sane store .empty := ⟨nofun, nofun, nofun, nofun⟩

variable {system later : System Label Error Root (Option (Receipt ν)) (Call ν)}

theorem holds_of_later (injective : Injective store.digest)
    (hh : (contract store).Holds Allowed system)
    (run : Relation.ReflTransGen (Move (Call.body store) Allowed) system later) :
    (contract store).Holds Allowed later ∧ Stays system.shared later.shared := by
  induction run with
  | refl => exact ⟨hh, .refl _⟩
  | tail _ move ih =>
    refine ⟨ih.1.move (met_contract injective) move, ih.2.trans ?_⟩
    exact ih.1.changes (met_contract injective) (fun _ _ _ _ does => does.stays) move

/-- In every state of every run: each call has ended with what it may end with, nothing
published changes later, and every undisturbed reconciliation of a placed directory gives its
one receipt, which is that of the call that placed it. -/
theorem outcomes_honest (injective : Injective store.digest)
    (reached : Reached (Call.body store) Allowed .empty system) :
    (∀ n call begun exit, system.calls n = some ⟨call, begun, .done exit⟩ →
        Ended store call n begun exit system.shared) ∧
    (∀ later, Relation.ReflTransGen (Move (Call.body store) Allowed) system later →
      Stays system.shared later.shared) ∧
    ∀ directory n declaration, system.shared.maker directory = some (n, declaration) →
      system.shared.entry (.final declaration.operationId) = some directory →
      ∃ receipt,
        (∀ source expectedVerification begun receipt',
            system.calls n =
                some ⟨.publish declaration source expectedVerification, begun,
                    .done (.ok (some receipt'))⟩ → receipt' = receipt) ∧
        ∀ later, Relation.ReflTransGen (Move (Call.body store) Allowed) system later →
          ∀ choices,
            (reconcile store declaration).alone choices later.shared =
              (.ok (some receipt), later.shared) := by
  have hh := Contract.holds_of_reached (met_contract injective) sane_empty nofun reached
  have ends : ∀ n call begun exit, system.calls n = some ⟨call, begun, .done exit⟩ →
      Ended store call n begun exit system.shared := by
    intro n _ begun exit hl
    have way := hh.calls n _ hl
    cases exit <;> exact way
  refine ⟨ends,
    fun later run =>
      (holds_of_later injective hh run).2, fun directory n declaration maker entry => ?_⟩
  obtain ⟨_, _, verification, maker', -, hp⟩ := hh.inv.final _ _ entry
  cases maker.symm.trans maker'
  obtain ⟨receipt, receipted⟩ : ∃ receipt, Receipted store declaration receipt system.shared :=
    ⟨_, ⟨verification, directory, store.digest (store.markerBytes declaration verification)⟩, ⟨hp, rfl⟩, rfl⟩
  refine ⟨receipt, fun source expectedVerification begun receipt' hl => ?_, fun later run choices => ?_⟩
  · have delivered := ends n _ begun _ hl
    have first := (settles_reconcile delivered.receipted).alone id
    have second := (settles_reconcile receipted).alone id
    simpa using first.symm.trans second
  · exact (settles_reconcile (receipted.stays (holds_of_later injective hh run).2)).alone choices

def sampleStore : Store Nat where
  valid _ := true
  digest bytes := bytes.map UInt8.toNat
  verify _ artifacts := .ok (artifacts .bundle).length
  markerBytes _ verification := [UInt8.ofNat verification]

def sampleDeclaration : Declaration where
  operationId := [1]
  repositoryId := [2]
  workspaceId := [3]
  identity := ⟨[4], 1, [5]⟩
  objectFormat := text "sha1"
  sourceStateSha256 := [6]
  reconciliationFingerprint := [7]
  bundle := ⟨[8], [1, 2], 2⟩
  worktree := ⟨[9], [3], 1⟩
  indexObjects := ⟨[10], [4], 1⟩

def sampleArtifacts : Artifacts
  | .bundle => [1, 2]
  | .worktree => [3]
  | .indexObjects => [4]

def sampleCall : Call Nat := .publish sampleDeclaration (.opened sampleArtifacts sampleArtifacts) none

def samplePublished : Except Error (Option (Receipt Nat)) × Root :=
  (sampleCall.body sampleStore 0).alone id .empty

theorem outcomes_honest_sample :
    ∃ receipt, samplePublished.1 = .ok (some receipt) ∧
      (reconcile sampleStore sampleDeclaration).alone id samplePublished.2 =
        (.ok (some receipt), samplePublished.2) := by
  have hs : Reached (Call.body sampleStore) Allowed .empty
      ⟨.empty, update (fun _ => none) 0 (some ⟨sampleCall, .empty, sampleCall.body sampleStore 0⟩), 1⟩ :=
    .move .initial (.start sampleCall)
  have ht : update (fun _ => none) 0 (some ⟨sampleCall, .empty, sampleCall.body sampleStore 0⟩) 0 =
      some (Running.mk sampleCall Root.empty (sampleCall.body sampleStore 0)) := update_self _ _ _
  have hr := hs.alone (n := 0) ht id
  have injective : Injective sampleStore.digest := List.map_injective_iff.mpr fun _ _ => UInt8.toNat_inj.mp
  have maker : samplePublished.2.maker 0 = some (0, sampleDeclaration) := rfl
  have entry : samplePublished.2.entry (.final sampleDeclaration.operationId) = some 0 := rfl
  obtain ⟨receipt', ended⟩ : ∃ receipt', samplePublished.1 = .ok (some receipt') := ⟨_, rfl⟩
  obtain ⟨receipt, same, later⟩ := (outcomes_honest injective hr).2.2 0 0 sampleDeclaration maker entry
  have given := same (.opened sampleArtifacts sampleArtifacts) none .empty receipt' (by
    exact congrArg (fun exit => some (Running.mk sampleCall Root.empty (.done exit))) ended)
  exact ⟨receipt, ended.trans (by rw [given]), later _ .refl id⟩

end Runs

end Yinshi.Publication
