import Yinshi.Materialization.Calls

/-! Runs of calls for one operation id. The journal binds one request, and every receipt that is
returned is the one of the journal, of a final directory that is exactly as the artifacts say. -/

namespace Yinshi.Materialization
open ByteText Artifact Checked Faulty Prog Function Relation List Option

variable {ω : Type} {store : Store ω}

/-- A call, and what the environment does at its steps. -/
structure Invocation where
  entry : Entry
  request : Request
  faults : List (Fault Error)

abbrev Outcome : Type := Request × Exit Error (Option Receipt)

def invoke (store : Store ω) (invocation : Invocation) (d : Disk) : Ran Label Error Disk (Option Receipt) :=
  call store invocation.entry invocation.request invocation.faults d

/-- The calls that the lock of the operation has admitted one after another. -/
def runs (store : Store ω) : List Invocation → Disk → List Outcome × Disk
  | [], d => ([], d)
  | invocation :: invocations, d =>
    let ran := invoke store invocation d
    let later := runs store invocations ran.state
    ((invocation.request, ran.exit) :: later.1, later.2)

def Disk.vacant (tree : Nat → Tree) (next : Nat) : Disk := ⟨none, fun _ => none, tree, next⟩

theorem At.vacant {tree : Nat → Tree} {next : Nat} : At store .absent (.vacant tree next) := ⟨rfl, rfl⟩

def Prefixed (records : Records) : Prop :=
  ∃ count, ∀ kind, (records kind).isSome = true ↔ kind ∈ recordNames.take count

def Binds (store : Store ω) (binding : Binding) (pendingName identity : Nat) : Kind → Record → Prop
  | .intent, value => value = .intent binding (store.requestDigest binding) pendingName
  | .stage, value => value = .stage pendingName identity
  | .prepared, value => ∃ treeSha256, value = .prepared
      { requestSha256 := store.requestDigest binding
        publicationReceiptId := binding.publicationReceiptId
        verificationReceiptId := binding.verificationReceiptId
        sourceStateSha256 := binding.sourceStateSha256
        operationDirectoryIdentity := identity
        stagingTreeSha256 := treeSha256 }
  | .receipt, value => ∃ treeSha256 repository home, value = .receipt (
      let values : ReceiptValues :=
        { operationId := binding.operationId
          artifactSetSha256 := binding.artifactSetSha256
          publicationReceiptId := binding.publicationReceiptId
          verificationReceiptId := binding.verificationReceiptId
          sourceStateSha256 := binding.sourceStateSha256
          limitsSha256 := binding.limitsSha256
          stagingTreeSha256 := treeSha256
          operationDirectoryIdentity := identity
          repoDirectoryIdentity := repository
          homeDirectoryIdentity := home }
      ⟨store.receiptDigest values, values⟩)

structure Consistent (store : Store ω) (d : Disk) : Prop where
  ordered : ∀ journal ∈ d.journal, Prefixed journal.records
  bound : ∀ journal ∈ d.journal, ∀ intent ∈ journal.records .intent,
      ∃ binding pendingName identity, ∀ kind, ∀ value ∈ journal.records kind,
    Binds store binding pendingName identity kind value
  final : ∀ identity, d.staging .final = some identity → ∃ journal ∈ d.journal,
    (journal.records .prepared).isSome = true ∧
      ∃ pendingName, journal.records .stage = some (.stage pendingName identity)

structure Kept (d d' : Disk) : Prop where
  records : ∀ journal ∈ d.journal, ∃ journal' ∈ d'.journal, ∀ kind,
      ∀ value ∈ journal.records kind, journal'.records kind = some value
  final : ∀ identity, d.staging .final = some identity →
      d'.staging .final = some identity ∧ d'.tree identity = d.tree identity

structure Exact (store : Store ω) (opened : Opened ω) (tree : Tree) : Prop where
  entries : tree.names.Perm [repoName, homeName]
  home : Forest.inside [homeName] tree = some .nil
  worktree : ∃ repository, Forest.inside [repoName] tree = some repository ∧
    (repository.without gitName).leaves.Perm (expectedLeaves opened.worktree.entries) ∧
    ∀ path, path ∈ (repository.without gitName).nodes ↔ path ∈ directoriesOf opened.worktree.entries
  git : ∃ git, Forest.inside [repoName, gitName] tree = some git ∧
      readIndex git = opened.worktree.indexBytes ∧
    store.git.verifyRefsAndHead opened git = .ok () ∧ store.git.verifyObjects opened git = .ok () ∧
    store.git.verifyIndexSemantics opened git = .ok ()
  links : ∀ leaf ∈ tree.leaves, ∀ target, leaf.2 = .symlink target →
      leaf ∈ (declaredDestinationSymlinks opened.worktree).map fun link =>
    (link.1, Leaf.symlink link.2)

structure Truthful (store : Store ω) (request : Request) (receipt : Receipt) (d : Disk) : Prop where
  recorded : ∃ journal ∈ d.journal, journal.records .receipt = some (.receipt receipt)
  final : d.staging .final = some receipt.values.operationDirectoryIdentity
  contents : ∃ opened, store.openPublished request = .ok opened ∧
    Exact store opened (d.tree receipt.values.operationDirectoryIdentity)
  digest : receipt.values.stagingTreeSha256 =
      digestOf store (d.tree receipt.values.operationDirectoryIdentity)
  repository : ((d.tree receipt.values.operationDirectoryIdentity).child repoName).map (·.1) =
      some receipt.values.repoDirectoryIdentity
  home : ((d.tree receipt.values.operationDirectoryIdentity).child homeName).map (·.1) =
      some receipt.values.homeDirectoryIdentity

section Trees
variable {opened : Opened ω} {tree : Tree} {path : List Bytes} {check : Tree → Except Error Unit}

theorem inside_of_below (hp : below path check tree = .ok ()) :
    ∃ found, Forest.inside path tree = some found ∧ check found = .ok () := by
  unfold below at hp
  cases found : Forest.inside path tree with
  | some hf' =>
    rw [found] at hp
    exact ⟨hf', rfl, hp⟩
  | none =>
    rw [found] at hp
    exact nomatch hp

theorem eq_nil_of_emptyHome (empty : emptyHome tree = .ok ()) : tree = .nil := by
  unfold emptyHome at empty
  split at empty
  next none =>
    cases tree with
    | nil => rfl
    | leaf _ _ _ | node _ _ _ _ => exact nomatch none
  next => exact nomatch empty

theorem exact_of_built (built : Built store opened tree) : Exact store opened tree where
  entries := isPerm_iff.mp built.entries
  home := by
    obtain ⟨_, hf, empty⟩ := inside_of_below built.empty
    rw [hf, eq_nil_of_emptyHome empty]
  worktree := by
    obtain ⟨repository, hf, hv⟩ := inside_of_below built.worktree
    obtain ⟨limits, payload, aggregate, decoded⟩ := opened.decoded
    have ho := orderly_of_decoded decoded
    unfold verifyWorktree at hv
    dsimp only at hv
    split at hv
    next => exact nomatch hv
    next ha =>
      obtain ⟨leaves, scanned, expected⟩ := not_not.mp ha
      exact ⟨repository, hf, isPerm_iff.mp leaves, fun path =>
        ⟨fun ht => (mem_expectedDirectories ho).mp (scanned path ht),
          fun hl => expected path ((mem_expectedDirectories ho).mpr hl)⟩⟩
  git := by
    obtain ⟨repository, hf, hv⟩ := inside_of_below built.worktree
    obtain ⟨git, hf', refs⟩ := inside_of_below built.refs
    obtain ⟨git', again, objects⟩ := inside_of_below built.objects
    cases hf'.symm.trans again
    obtain ⟨_, again, semantics⟩ := inside_of_below built.index
    cases hf'.symm.trans again
    refine ⟨git, hf', ?_, refs, objects, semantics⟩
    rw [Forest.inside_cons] at hf hf'
    obtain ⟨child, ht, hs⟩ := bind_eq_some_iff.mp hf
    obtain rfl : child.2 = repository := by simpa only [Forest.inside, some.injEq] using hs
    rw [ht, bind_some, Forest.inside_cons] at hf'
    obtain ⟨own, ht', hs'⟩ := bind_eq_some_iff.mp hf'
    obtain rfl : own.2 = git := by simpa only [Forest.inside, some.injEq] using hs'
    unfold verifyWorktree at hv
    dsimp only at hv
    split at hv
    next => exact nomatch hv
    next =>
      rw [ht'] at hv
      dsimp only at hv
      split at hv
      next hs => exact hs
      next => exact nomatch hv
  links leaf ht target symlink := by
    have links := built.links
    unfold syncTreeDigest at links
    split at links
    next => exact nomatch links
    next none =>
      have declared : (declaredDestinationSymlinks opened.worktree).lookup leaf.1 = some target := by
        by_contra other
        refine none (any_eq_true.mpr ⟨leaf, ht, ?_⟩)
        rw [symlink]
        exact decide_eq_true other
      refine mem_map.mpr ⟨(leaf.1, target), ?_, ?_⟩
      · obtain ⟨_, _, _, decoded⟩ := opened.decoded
        exact (lookup_eq_some_iff_mem (declared_distinct (orderly_of_decoded decoded))).mp declared
      · rw [← symlink]

end Trees

section States
variable {p p' : Progress} {d d' : Disk}

theorem prefixed_chain (p : Progress) (tree : Nat → Tree) : Prefixed (recordsOf (p.chain store tree)) := by
  refine ⟨(p.chain store tree).length, fun kind => ?_⟩
  cases p <;> cases kind <;> simp [Progress.chain, recordsOf, recordNames]

theorem recordsOf_of_prefix {chain chain' : List Record} {kind : Kind} {value : Record}
    (first : chain <+: chain') (ht : recordsOf chain kind = some value) :
    recordsOf chain' kind = some value := by
  obtain ⟨rest, rfl⟩ := first
  have grows : ∀ {i : Nat}, chain[i]? = some value → (chain ++ rest)[i]? = some value := fun hf => by
    obtain ⟨hb, -⟩ := List.getElem?_eq_some_iff.mp hf
    rw [getElem?_append_left hb, hf]
  cases kind <;> exact grows ht

theorem binds_chain {tree : Nat → Tree} {intent : Record}
    (intends : recordsOf (p.chain store tree) .intent = some intent) :
    ∃ binding pendingName identity, ∀ kind, ∀ value ∈ recordsOf (p.chain store tree) kind,
      Binds store binding pendingName identity kind value := by
  obtain ⟨binding, pendingName, identity, first⟩ : ∃ binding pendingName identity,
      p.chain store tree <+: [intentOf store binding pendingName, .stage pendingName identity,
        preparedOf store binding identity (tree identity),
        .receipt (receiptOf store binding identity (tree identity))] := by
    cases p with
    | absent | opened => exact nomatch intends
    | intended binding pendingName _ => exact ⟨binding, pendingName, 0, _, rfl⟩
    | staged binding pendingName identity | prepared binding pendingName identity
    | moved binding pendingName identity
    | delivered binding pendingName identity => exact ⟨binding, pendingName, identity, _, rfl⟩
  refine ⟨binding, pendingName, identity, fun kind value ht => ?_⟩
  have hl := recordsOf_of_prefix first ht
  cases kind with
  | intent | stage => exact (some.inj hl).symm
  | prepared => exact ⟨_, (some.inj hl).symm⟩
  | receipt => exact ⟨_, _, _, (some.inj hl).symm⟩

theorem At.records (hh : At store p d) {journal : Journal} (hf : d.journal = some journal) :
    journal.records = recordsOf (p.chain store d.tree) := by
  have hs := hh.journal
  rw [hf] at hs
  split at hs
  next => exact nomatch hs
  next => exact some.inj hs

theorem prepared_of_final {identity : Nat} (final : p.staging .final = some identity)
    {tree : Nat → Tree} :
    p.isAbsent = false ∧ p.preparedIdentity = some identity ∧
    (recordsOf (p.chain store tree) .prepared).isSome = true ∧
    ∃ pendingName, recordsOf (p.chain store tree) .stage = some (.stage pendingName identity) := by
  cases p with
  | absent | opened | intended _ _ _ | staged _ _ _ | prepared _ _ _ => exact nomatch final
  | moved binding pendingName identity' | delivered binding pendingName identity' =>
    cases final
    exact ⟨rfl, rfl, rfl, pendingName, rfl⟩

theorem At.consistent (hh : At store p d) : Consistent store d where
  ordered journal hf := by
    rw [hh.records hf]
    exact prefixed_chain p d.tree
  bound journal hf intent intends := by
    rw [hh.records hf] at intends ⊢
    exact binds_chain intends
  final identity final := by
    rw [hh.staging] at final
    obtain ⟨hp, -, prepared, pendingName, stage⟩ := @prepared_of_final _ store _ _ final d.tree
    obtain ⟨_, hf⟩ := hh.journaled hp
    exact ⟨_, hf, prepared, pendingName, stage⟩

theorem chain_prefix_of_next {tree : Nat → Tree} (next : Progress.Next p p') :
    p.chain store tree <+: p'.chain store tree := by
  cases next with
  | opened | made _ _ _ | moved _ _ _ => exact prefix_rfl
  | intended _ _ | staged _ _ _ | prepared _ _ _ | delivered _ _ _ => exact prefix_append _ [_]

theorem chain_prefix_later {tree : Nat → Tree} (later : ReflTransGen Progress.Next p p') :
    p.chain store tree <+: p'.chain store tree := by
  induction later with
  | refl => exact prefix_rfl
  | tail _ next ih => exact ih.trans (chain_prefix_of_next next)

theorem chain_congr {tree tree' : Nat → Tree}
    (hs : ∀ identity, p.preparedIdentity = some identity → tree' identity = tree identity) :
    p.chain store tree' = p.chain store tree := by
  cases p with
  | absent | opened | intended _ _ _ | staged _ _ _ => rfl
  | prepared _ _ identity | moved _ _ identity | delivered _ _ identity =>
    have own := hs identity rfl
    simp only [Progress.chain, own]

theorem final_later {identity : Nat} (later : ReflTransGen Progress.Next p p')
    (final : p.staging .final = some identity) : p'.staging .final = some identity := by
  induction later with
  | refl => exact final
  | tail _ next ih => cases next <;> first | exact ih | exact nomatch ih

theorem isAbsent_later (later : ReflTransGen Progress.Next p p') (hp : p.isAbsent = false) :
    p'.isAbsent = false := by
  induction later with
  | refl => exact hp
  | tail _ next _ => cases next <;> rfl

theorem Reach.keeps {request : Request} {right : Tree → Prop}
    {allowed : Label → Disk → Fault Error → Prop} (hh : At store p d)
    (reach : Reach store request right allowed p d p' d') : Kept d d' where
  records journal found := by
    have hp : p.isAbsent = false := by
      have hs := hh.journal
      rw [found] at hs
      cases ha : p.isAbsent with
      | false => rfl
      | true =>
        rw [ha] at hs
        exact nomatch hs
    obtain ⟨_, hf'⟩ := reach.here.journaled (isAbsent_later reach.later hp)
    refine ⟨_, hf', fun kind value ht => recordsOf_of_prefix (chain_prefix_later reach.later) ?_⟩
    rwa [chain_congr reach.kept, ← hh.records found]
  final identity final := by
    rw [hh.staging] at final
    have prepared := (@prepared_of_final _ store _ _ final d.tree).2.1
    exact ⟨reach.here.staging ▸ final_later reach.later final, reach.kept identity prepared⟩

theorem truthful_of_delivered {request : Request} {pendingName identity : Nat}
    (source : store.openPublished request = .ok opened)
    (hh : At store (.delivered (requestBinding request) pendingName identity) d)
    (built : Built store opened (d.tree identity)) :
    Truthful store request (receiptOf store (requestBinding request) identity (d.tree identity))
      d where
  recorded := by
    obtain ⟨_, hf⟩ := hh.journaled rfl
    exact ⟨_, hf, rfl⟩
  final := by
    rw [hh.staging]
    rfl
  contents := ⟨opened, source, exact_of_built built⟩
  digest := rfl
  repository := by
    obtain ⟨hf, ht⟩ := isSome_iff_exists.mp built.repository
    change ((d.tree identity).child repoName).map (·.1) = some (identityOf repoName (d.tree identity))
    rw [identityOf_eq ht, ht]
    rfl
  home := by
    obtain ⟨_, ht⟩ := isSome_iff_exists.mp built.home
    change ((d.tree identity).child homeName).map (·.1) = some (identityOf homeName (d.tree identity))
    rw [identityOf_eq ht, ht]
    rfl

theorem Truthful.kept {request : Request} {receipt : Receipt}
    (truthful : Truthful store request receipt d) (hke : Kept d d') :
    Truthful store request receipt d' := by
  obtain ⟨final, hs⟩ := hke.final _ truthful.final
  obtain ⟨journal, hf, recorded⟩ := truthful.recorded
  obtain ⟨journal', hf', hk⟩ := hke.records journal hf
  exact {
    recorded := ⟨journal', hf', hk .receipt _ recorded⟩
    final := final
    contents := by rw [hs]; exact truthful.contents
    digest := by rw [hs]; exact truthful.digest
    repository := by rw [hs]; exact truthful.repository
    home := by rw [hs]; exact truthful.home }

theorem Kept.refl : Kept d d :=
  ⟨fun journal hf => ⟨journal, hf, fun _ _ ht => ht⟩, fun _ final => ⟨final, rfl⟩⟩

theorem Kept.trans {d'' : Disk} (first : Kept d d') (second : Kept d' d'') : Kept d d'' where
  records journal found := by
    obtain ⟨journal', hf', hk⟩ := first.records journal found
    obtain ⟨journal'', hf'', hk'⟩ := second.records journal' hf'
    exact ⟨journal'', hf'', fun kind value ht => hk' kind value (hk kind value ht)⟩
  final identity final := by
    obtain ⟨final', hs⟩ := first.final identity final
    obtain ⟨final'', hs'⟩ := second.final identity final'
    exact ⟨final'', hs'.trans hs⟩

end States

theorem invoke_spec {p : Progress} {d : Disk} (hh : At store p d) (invocation : Invocation) :
    (∃ p', At store p' (invoke store invocation d).state) ∧
    Kept d (invoke store invocation d).state ∧
    ∀ receipt,
      (invoke store invocation d).exit = .value (some receipt) →
      Truthful store invocation.request receipt (invoke store invocation d).state := by
  have spec : Wp (fun _ _ _ => True) (fun d' => (∃ p', At store p' d') ∧ Kept d d')
        (fun _ d' => (∃ p', At store p' d') ∧ Kept d d')
      (fun result d' =>
        (∃ p', At store p' d') ∧ Kept d d' ∧
        ∀ receipt, result = some receipt → Truthful store invocation.request receipt d')
      (call store invocation.entry invocation.request) d := by
    refine call_spec hh (fun p' d' reach => ⟨⟨p', reach.here⟩, reach.keeps hh⟩)
      (fun _ p' d' reach _ => ⟨⟨p', reach.here⟩, reach.keeps hh⟩)
      (fun opened pendingName identity d' source reach built =>
        ⟨⟨_, reach.here⟩, reach.keeps hh, fun receipt hs => ?_⟩)
      fun _ _ => ⟨⟨p, hh⟩, .refl, fun _ => nofun⟩
    cases hs
    exact truthful_of_delivered source reach.here built
  have he := spec invocation.faults fun _ _ => trivial
  unfold Ran.Ends at he
  split at he
  next exit =>
    refine ⟨he.1, he.2.1, fun receipt hr => he.2.2 receipt ?_⟩
    exact Exit.value.inj (exit.symm.trans hr)
  next exit => exact ⟨he.1, he.2, fun receipt hr => nomatch exit.symm.trans hr⟩
  next exit => exact ⟨he.1.1, he.1.2, fun receipt hr => nomatch exit.symm.trans hr⟩

theorem runs_spec {p : Progress} {d : Disk} (hh : At store p d) (invocations : List Invocation) :
    (∃ p', At store p' (runs store invocations d).2) ∧ Kept d (runs store invocations d).2 ∧
    ∀ request receipt,
      (request, .value (some receipt)) ∈ (runs store invocations d).1 →
      Truthful store request receipt (runs store invocations d).2 := by
  induction invocations generalizing p d with
  | nil => exact ⟨⟨p, hh⟩, .refl, fun _ _ => nofun⟩
  | cons invocation _ ih =>
    obtain ⟨⟨_, hh'⟩, hk, own⟩ := invoke_spec hh invocation
    obtain ⟨ends, hk', later⟩ := ih hh'
    refine ⟨ends, hk.trans hk', fun request receipt hr => ?_⟩
    rcases mem_cons.mp hr with hs | hr
    · obtain ⟨rfl, exit⟩ := Prod.mk.inj hs
      exact (own receipt exit.symm).kept hk'
    · exact later request receipt hr

def Refused (ran : Ran Label Error Disk (Option Receipt)) (d : Disk) : Prop :=
  ran.state = d ∧ match ran.exit with
    | .value _ => False
    | .raised _ => True
    | .stopped => ∃ step ∈ ran.met, step.fault = .stop

theorem invoke_conflict {p : Progress} {d : Disk} (hh : At store p d) {binding : Binding}
    (hb : p.binding = some binding) (invocation : Invocation)
    (differs : requestBinding invocation.request ≠ binding) :
    Refused (invoke store invocation d) d := by
  have spec : Wp (fun _ _ _ => True) (· = d) (fun _ d' => True ∧ d' = d) (fun _ _ => False)
      (call store invocation.entry invocation.request) d := by
    refine call_blocked hh (by rw [hb]; rfl) (fun _ _ => .inr fun _ => trivial) (fun _ _ => trivial)
      fun opened intent _ _ intends => ?_
    obtain ⟨_, _, rfl, hb'⟩ := intent_of_chain intends
    cases hb.symm.trans hb'
    refine .bind (fetch_spec rfl (fun _ _ => ⟨trivial, rfl⟩) (fun hf hv => ?_) fun _ _ => ⟨trivial, rfl⟩)
    exact absurd (eq_of_validateIntent hv).1.symm differs
  have he := spec invocation.faults fun _ _ => trivial
  unfold Ran.Ends at he
  unfold Refused invoke
  split at he
  next => exact he.elim
  next exit =>
    rw [exit]
    exact ⟨he.2, trivial⟩
  next exit =>
    rw [exit]
    exact he

/-- The journal grows record by record and binds one request; what is published and what is
renamed stays; another request changes nothing; and every receipt that a call has returned is
the one of the journal, of exactly the published artifacts. -/
theorem receipts_truthful (store : Store ω) (tree : Nat → Tree) (next : Nat)
    (invocations : List Invocation) :
    let ended := runs store invocations (.vacant tree next)
    Consistent store ended.2 ∧
    (∀ later, Kept ended.2 (runs store later ended.2).2) ∧
    (∀ invocation, ∀ journal ∈ ended.2.journal, ∀ binding requestSha256 pendingName,
      journal.records .intent = some (.intent binding requestSha256 pendingName) →
        requestBinding invocation.request ≠ binding →
      Refused (invoke store invocation ended.2) ended.2) ∧
    (∀ request receipt, (request, .value (some receipt)) ∈ ended.1 → Truthful store request receipt ended.2) ∧
    ∀ request receipt, (request, .value (some receipt)) ∈ ended.1 →
      ∀ request' receipt', (request', .value (some receipt')) ∈ ended.1 → receipt = receipt' := by
  obtain ⟨⟨_, hh⟩, -, truthful⟩ := runs_spec (At.vacant : At store .absent (.vacant tree next)) invocations
  refine ⟨hh.consistent, fun later => (runs_spec hh later).2.1, ?_, truthful, ?_⟩
  · intro invocation journal hf _ _ _ intends differs
    rw [hh.records hf] at intends
    obtain ⟨_, _, hs, hb⟩ := intent_of_chain intends
    cases hs
    exact invoke_conflict hh hb invocation differs
  · intro request receipt hr request' receipt' hr'
    obtain ⟨_, hf, recorded⟩ := (truthful request receipt hr).recorded
    obtain ⟨_, hf', recorded'⟩ := (truthful request' receipt' hr').recorded
    cases hf.symm.trans hf'
    exact Record.receipt.inj (some.inj (recorded.symm.trans recorded'))

end Yinshi.Materialization
