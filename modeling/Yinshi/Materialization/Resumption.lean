import Yinshi.Materialization.Receipts
import Yinshi.Publication.Outcomes

/-! Calls after stops. A stop is harmless unless it falls while the temporary file of a record is
there, or between the pending directory and its stage record. -/

namespace Yinshi.Materialization
open ByteText Artifact Checked Faulty Prog Function Relation List Option

variable {ω : Type} {store : Store ω}

def StopsOnly {α : Type} (ran : Ran Label Error Disk α) : Prop :=
  ∀ step ∈ ran.met, ∀ error, step.fault ≠ .fail error

def Undisturbed {α : Type} (ran : Ran Label Error Disk α) : Prop := ∀ step ∈ ran.met, step.fault.isGo = true

def Spared (store : Store ω) : List Invocation → Disk → Prop
  | [], _ => True
  | invocation :: invocations, d =>
    StopsOnly (invoke store invocation d) ∧
      (∀ step ∈ (invoke store invocation d).met, step.fault = .stop → step.label ≠ .record) ∧
      Spared store invocations (invoke store invocation d).state

def Intended (d : Disk) : Prop := ∃ journal ∈ d.journal, (journal.records .intent).isSome = true

def Made (d : Disk) : Prop :=
  ∃ journal ∈ d.journal, journal.records .stage = none ∧ ∃ binding requestSha256 pendingName,
  journal.records .intent = some (.intent binding requestSha256 pendingName) ∧
    (d.staging (.pending pendingName)).isSome = true

section Allowed

def sparing : Label → Disk → Fault Error → Prop
  | _, _, .fail _ => False
  | _, _, .go _ => True
  | label, _, .stop => label ≠ .record

theorem not_untidy_sparing : ¬ Untidy sparing :=
  fun untidy => untidy.elim (fun ⟨_, _, _, met⟩ => met) fun ⟨_, met⟩ => met rfl

end Allowed

structure Sane (store : Store ω) (request : Request) (p : Progress) (d : Disk) : Prop where
  here : At store p d
  tidy : Tidy d
  bound : ∀ binding ∈ p.binding, binding = requestBinding request
  built : ∀ identity, p.preparedIdentity = some identity → Described store request (d.tree identity)

section Runs
variable {request : Request} {opened : Opened ω} {p p' : Progress} {d d' : Disk}
variable {faults : List (Fault Error)}

theorem Sane.vacant {tree : Nat → Tree} {next : Nat} : Sane store request .absent (.vacant tree next) :=
  ⟨.vacant, fun _ => nofun, fun _ => nofun, fun _ => nofun⟩

theorem Sane.reach (hs : Sane store request p d)
    (reach : Reach store request (Described store request) sparing p d p' d') :
    Sane store request p' d' :=
  ⟨reach.here, (reach.tidy hs.tidy).resolve_right not_untidy_sparing, reach.bound hs.bound,
    reach.built hs.built⟩

theorem Sane.invoke (hs : Sane store request p d) {invocation : Invocation}
    (same : invocation.request = request) (hq : StopsOnly (invoke store invocation d))
    (ha : ∀ step ∈ (Materialization.invoke store invocation d).met,
        step.fault = .stop → step.label ≠ .record) :
    ∃ p', Sane store request p' (Materialization.invoke store invocation d).state := by
  subst same
  have spec : Wp sparing (fun d' => ∃ p', Sane store invocation.request p' d')
        (fun _ d' => ∃ p', Sane store invocation.request p' d')
      (fun _ d' => ∃ p', Sane store invocation.request p' d')
        (call store invocation.entry invocation.request) d :=
    call_spec hs.here (fun p' d' reach => ⟨p', hs.reach reach⟩) (fun _ p' d' reach _ => ⟨p', hs.reach reach⟩)
      (fun _ _ _ _ _ reach _ => ⟨_, hs.reach reach⟩) fun _ _ => ⟨p, hs⟩
  have he := spec invocation.faults fun step ht => ?_
  · unfold Ran.Ends at he
    split at he
    next => exact he
    next => exact he
    next => exact he.1
  · cases fault : step.fault with
    | fail error => exact absurd fault (hq step ht error)
    | go _ => trivial
    | stop => exact ha step ht fault

theorem Sane.runs (sane : Sane store request p d) {invocations : List Invocation}
    (hs : ∀ invocation ∈ invocations, invocation.request = request)
    (spared : Spared store invocations d) :
    ∃ p', Sane store request p' (runs store invocations d).2 := by
  induction invocations generalizing p d with
  | nil => exact ⟨p, sane⟩
  | cons invocation _ ih =>
    obtain ⟨hq, ha, later⟩ := spared
    obtain ⟨_, hs'⟩ := sane.invoke (hs invocation (mem_cons_self ..)) hq ha
    exact ih hs' (fun other hl => hs other (mem_cons_of_mem _ hl)) later

theorem made_iff (hh : At store p d) :
    Made d ↔ ∃ binding pendingName identity, p = .intended binding pendingName (some identity) := by
  constructor
  · intro hm
    obtain ⟨_, hf, unstaged, binding, _, pendingName, intends, pending⟩ := hm
    rw [hh.records hf] at unstaged intends
    rw [hh.staging] at pending
    cases p with
    | absent | opened => exact nomatch intends
    | staged _ _ _ | prepared _ _ _ | moved _ _ _ | delivered _ _ _ => exact nomatch unstaged
    | intended binding' pendingName' hm =>
      obtain ⟨identity, ht⟩ := isSome_iff_exists.mp pending
      change (if Name.pending pendingName = .pending pendingName' then hm else none) = some identity at ht
      split at ht
      next => exact ⟨binding', pendingName', identity, by rw [ht]⟩
      next => exact nomatch ht
  · intro hm
    obtain ⟨binding, pendingName, _, rfl⟩ := hm
    obtain ⟨_, hf⟩ := hh.journaled rfl
    refine ⟨_, hf, rfl, binding, _, pendingName, rfl, ?_⟩
    rw [hh.staging]
    simp only [Progress.staging, if_true, isSome_some]

theorem Sane.ready (sane : Sane store request p d)
    (source : store.openPublished request = .ok opened) (hv : store.validSource opened = true)
    (buildable : Buildable store opened) (ha : ¬ Made d) : Ready store request p d :=
  ⟨opened, source, hv, sane.tidy, sane.bound,
    fun _ _ _ hs => ha ((made_iff sane.here).mpr ⟨_, _, _, hs⟩), buildable,
      fun identity ht => sane.built identity ht opened source⟩

end Runs

structure Resumes (store : Store ω) (request : Request) (d : Disk) : Prop where
  unresolved : Made d →
    ∀ entry faults, StopsOnly (call store entry request faults d) →
      (call store entry request faults d).state = d ∧
    ((call store entry request faults d).exit = .raised .unresolved ∨
      (call store entry request faults d).exit = .stopped)
  returns : ¬ Made d → ∀ faults, Undisturbed (call store .materialize request faults d) →
    ∃ receipt, (call store .materialize request faults d).exit = .value (some receipt)
  harmless : ∀ entry faults, StopsOnly (call store entry request faults d) →
    (call store entry request faults d).exit ≠ .raised .rejected ∧
      (call store entry request faults d).exit ≠ .raised .collision
  alike : Intended d →
    ∀ faults, call store .reconcile request faults d = call store .materialize request faults d
  empties : ∀ directory faults, Undisturbed (removeContents directory faults d) →
    (removeContents directory faults d).exit = .value () ∧
      (removeContents directory faults d).state.tree directory = .nil

def sampleEntry : ManifestEntry where
  rawPath := bytes "a"
  kind := .file
  content := [3]

def sampleOpened : Opened Unit where
  worktree :=
    { objectFormat := text "sha1", hasIndex := true, indexBytes := some [1, 2],
      indexEntries := [], headState := text "detached",
      headTarget := [], headOid := [], policyDigest := none,
      entries := [sampleEntry], rootOids := [], sourceStateSha256 := [], totalBytes := 0 }
  artifacts := ()
  decoded := ⟨defaultArtifactLimits, buildManifestPayload [sampleEntry], 1, by decide⟩

def sampleGit : Git Unit where
  init _ := .ok .nil
  importObjects _ git := .ok (git.append (.leaf (bytes "packed") (.file false [4]) .nil))
  restoreRefsAndHead _ git := .ok (git.append (.leaf (bytes "HEAD") (.file false [5]) .nil))
  verifyObjects _ git := if bytes "packed" ∈ git.names then .ok () else .error .other
  verifyRefsAndHead _ git := if bytes "HEAD" ∈ git.names then .ok () else .error .other
  verifyIndexSemantics _ git := if indexName ∈ git.names then .ok () else .error .other
  topology _ _ directories := directories = []

def sampleStore : Store Unit where
  git := sampleGit
  openPublished _ := .ok sampleOpened
  validSource _ := true
  requestDigest binding := binding.operationId
  treeDigest leaves nodes := [leaves.length, nodes.length]
  receiptDigest values := values.stagingTreeSha256

def sampleRequest : Request where
  version := 1
  declaration := Publication.sampleDeclaration
  limitsSha256 := [1]
  artifactSetSha256 := [2]
  publicationReceiptId := [3]
  verificationReceiptId := [4]

end Yinshi.Materialization
