import Yinshi.Materialization.Store

/-! How far a materialization has come, and what the two roots hold at each point of it. -/

namespace Yinshi.Materialization
open ByteText Artifact Faulty Prog Function

variable {ω : Type} {store : Store ω}

inductive Progress
  | absent
  | opened
  | intended (binding : Binding) (pendingName : Nat) (made : Option Nat)
  | staged (binding : Binding) (pendingName identity : Nat)
  | prepared (binding : Binding) (pendingName identity : Nat)
  | moved (binding : Binding) (pendingName identity : Nat)
  | delivered (binding : Binding) (pendingName identity : Nat)

def recordsOf (chain : List Record) : Records
  | .intent => chain[0]?
  | .stage => chain[1]?
  | .prepared => chain[2]?
  | .receipt => chain[3]?

def digestOf (store : Store ω) (tree : Tree) : Text := store.treeDigest tree.leaves tree.nodes

def identityOf (name : Bytes) (tree : Tree) : Nat := ((tree.child name).map (·.1)).getD 0

def intentOf (store : Store ω) (binding : Binding) (pendingName : Nat) : Record :=
  .intent binding (store.requestDigest binding) pendingName

def preparedOf (store : Store ω) (binding : Binding) (identity : Nat) (tree : Tree) : Record := .prepared
  { requestSha256 := store.requestDigest binding
    publicationReceiptId := binding.publicationReceiptId
    verificationReceiptId := binding.verificationReceiptId
    sourceStateSha256 := binding.sourceStateSha256
    operationDirectoryIdentity := identity
    stagingTreeSha256 := digestOf store tree }

def receiptValuesOf (store : Store ω) (binding : Binding) (identity : Nat) (tree : Tree) : ReceiptValues where
  operationId := binding.operationId
  artifactSetSha256 := binding.artifactSetSha256
  publicationReceiptId := binding.publicationReceiptId
  verificationReceiptId := binding.verificationReceiptId
  sourceStateSha256 := binding.sourceStateSha256
  limitsSha256 := binding.limitsSha256
  stagingTreeSha256 := digestOf store tree
  operationDirectoryIdentity := identity
  repoDirectoryIdentity := identityOf repoName tree
  homeDirectoryIdentity := identityOf homeName tree

def receiptOf (store : Store ω) (binding : Binding) (identity : Nat) (tree : Tree) : Receipt :=
  ⟨store.receiptDigest (receiptValuesOf store binding identity tree),
    receiptValuesOf store binding identity tree⟩

namespace Progress

def chain (store : Store ω) (tree : Nat → Tree) : Progress → List Record
  | absent | opened => []
  | intended binding pendingName _ => [intentOf store binding pendingName]
  | staged binding pendingName identity => [intentOf store binding pendingName, .stage pendingName identity]
  | prepared binding pendingName identity | moved binding pendingName identity =>
    [intentOf store binding pendingName, .stage pendingName identity,
      preparedOf store binding identity (tree identity)]
  | delivered binding pendingName identity =>
    [intentOf store binding pendingName, .stage pendingName identity,
      preparedOf store binding identity (tree identity),
      .receipt (receiptOf store binding identity (tree identity))]

def staging : Progress → Name → Option Nat
  | absent, _ | opened, _ => none
  | intended _ pendingName made, name => if name = .pending pendingName then made else none
  | staged _ pendingName identity, name | prepared _ pendingName identity, name =>
    if name = .pending pendingName then some identity else none
  | moved _ _ identity, name | delivered _ _ identity, name => if name = .final then some identity else none

def isAbsent : Progress → Bool
  | absent => true
  | _ => false

def binding : Progress → Option Binding
  | absent | opened => none
  | intended binding _ _ | staged binding _ _ | prepared binding _ _ | moved binding _ _ | delivered
    binding _ _ =>
    some binding

def preparedIdentity : Progress → Option Nat
  | absent | opened | intended _ _ _ | staged _ _ _ => none
  | prepared _ _ identity | moved _ _ identity | delivered _ _ identity => some identity

inductive Next : Progress → Progress → Prop
  | opened : Next absent opened
  | intended (binding : Binding) (pendingName : Nat) : Next opened (intended binding pendingName none)
  | made (binding : Binding) (pendingName identity : Nat) :
      Next (intended binding pendingName none) (intended binding pendingName (some identity))
  | staged (binding : Binding) (pendingName identity : Nat) :
      Next (intended binding pendingName (some identity)) (staged binding pendingName identity)
  | prepared (binding : Binding) (pendingName identity : Nat) :
    Next (staged binding pendingName identity) (prepared binding pendingName identity)
  | moved (binding : Binding) (pendingName identity : Nat) :
    Next (prepared binding pendingName identity) (moved binding pendingName identity)
  | delivered (binding : Binding) (pendingName identity : Nat) :
    Next (moved binding pendingName identity) (delivered binding pendingName identity)

end Progress

structure At (store : Store ω) (progress : Progress) (d : Disk) : Prop where
  journal : d.journal.map (·.records) =
      if progress.isAbsent then none else some (recordsOf (progress.chain store d.tree))
  staging : d.staging = progress.staging

def Tidy (d : Disk) : Prop := ∀ journal, d.journal = some journal → journal.temporaries = []

def Disturbed (allowed : Label → Disk → Fault Error → Prop) : Prop :=
  ∃ label d error, allowed label d (.fail error)

def Untidy (allowed : Label → Disk → Fault Error → Prop) : Prop :=
  Disturbed allowed ∨ ∃ d, allowed .record d .stop

section Specs
variable {α : Type} {allowed : Label → Disk → Fault Error → Prop} {inv : Disk → Prop}
  {failed : Error → Disk → Prop} {d : Disk}

theorem fetch_spec {view : Disk → Except Error α} {post : α → Disk → Prop} (stops : inv d)
    (hf : ∀ error, Disturbed allowed → failed error d)
    (goes : ∀ result, view d = .ok result → post result d)
    (refuses : ∀ error, view d = .error error → failed error d) :
    Wp allowed inv failed post (fetch view) d := by
  refine .act stops (fun error met => hf error ⟨_, _, _, met⟩) (fun _ result d' hd => ?_) fun _ error hr => ?_
  · cases hs : view d with
    | ok value =>
      rw [hs] at hd
      obtain ⟨rfl, rfl⟩ := Prod.mk.inj (Except.ok.inj hd)
      exact goes value hs
    | error error =>
      rw [hs] at hd
      exact nomatch hd
  · cases hs : view d with
    | ok _ =>
      rw [hs] at hr
      exact nomatch hr
    | error raised =>
      rw [hs] at hr
      rw [← Except.error.inj hr]
      exact refuses raised hs

theorem touch_spec {label : Label} {post : Unit → Disk → Prop} (hs : inv d)
    (hf : ∀ error, Disturbed allowed → failed error d) (goes : post () d) :
    Wp allowed inv failed post (Prog.touch label) d :=
  .touch hs (fun error met => hf error ⟨_, _, _, met⟩) goes

theorem choose_spec {β : Type} {f : Nat → β} {post : β → Disk → Prop} (hs : inv d)
    (hf : ∀ error, Disturbed allowed → failed error d) (goes : ∀ choice, post (f choice) d) :
    Wp allowed inv failed post (Prog.act .call fun choice d => .ok (f choice, d)) d := by
  refine .act hs (fun error met => hf error ⟨_, _, _, met⟩) (fun choice result d' hd => ?_)
    fun _ _ hd => nomatch hd
  cases hd
  exact goes choice

theorem publishRecord_spec {kind : Kind} {value : Record} {records : Records}
    {post : Unit → Disk → Prop} (here : d.journal = some ⟨records, []⟩) (free : records kind = none)
    (stops : ∀ records' temporaries, records' = records ∨
          records' = update records kind (some value) → temporaries = [] ∨ Untidy allowed →
        inv { d with journal := some ⟨records', temporaries⟩ })
    (hf : ∀ error records' temporaries, records' = records ∨
          records' = update records kind (some value) → Disturbed allowed →
        failed error { d with journal := some ⟨records', temporaries⟩ })
    (goes : post () { d with journal := some ⟨update records kind (some value), []⟩ }) :
    Wp allowed inv failed post (publishRecord kind value) d := by
  obtain ⟨_, staging, tree, next⟩ := d
  subst here
  refine .bind (choose_spec (stops _ _ (.inl rfl) (.inl rfl))
      (fun error met => hf error _ _ (.inl rfl) met) fun token => ?_)
  refine .cleaned (fun _ d' => Disturbed allowed ∧ ∃ records' temporaries,
      (records' = records ∨ records' = update records kind (some value)) ∧
        d' = ⟨some ⟨records', temporaries⟩, staging, tree, next⟩)
    (fun _ d' => d' = ⟨some ⟨update records kind (some value), []⟩, staging, tree, next⟩) ?_ ?_ ?_
  · refine .rescue (fun _ d' => Disturbed allowed ∧ ∃ records' temporaries,
      (records' = records ∨ records' = update records kind (some value)) ∧
        d' = ⟨some ⟨records', temporaries⟩, staging, tree, next⟩)
      ?_ fun error d' hb => .raise hb
    have hb : ∀ (error : Error) records' temporaries,
          records' = records ∨ records' = update records kind (some value) →
        Disturbed allowed →
          Disturbed allowed ∧
          ∃ records'' temporaries',
            (records'' = records ∨ records'' = update records kind (some value)) ∧
          (⟨some ⟨records', temporaries⟩, staging, tree, next⟩ : Disk) =
            ⟨some ⟨records'', temporaries'⟩, staging, tree, next⟩ :=
      fun _ records' temporaries either met => ⟨met, records', temporaries, either, rfl⟩
    -- the temporary file is made, written and renamed
    refine .bind (.act (stops _ _ (.inl rfl) (.inl rfl))
        (fun error met => hb error _ _ (.inl rfl) ⟨_, _, _, met⟩) (fun _ _ d' hd => ?_)
        fun _ _ hd => nomatch hd)
    cases hd
    iterate 3
      refine .bind (.step (fun met => stops _ _ (.inl rfl) (.inr (.inr ⟨_, met⟩)))
        (fun error met => hb error _ _ (.inl rfl) ⟨_, _, _, met⟩) (fun _ _ d' hd => ?_)
          fun _ _ hd => nomatch hd)
      cases hd
    refine .bind (.step (fun met => stops _ _ (.inl rfl) (.inr (.inr ⟨_, met⟩)))
      (fun error met => hb error _ _ (.inl rfl) ⟨_, _, _, met⟩) (fun _ _ d' hd => ?_) fun _ error hr => ?_)
    · obtain rfl : d' = ⟨some ⟨update records kind (some value), []⟩, staging, tree, next⟩ := by
        rw [if_neg (by simp [free])] at hd
        exact (Prod.mk.inj (Except.ok.inj hd)).2.symm.trans (by simp)
      refine .bind (touch_spec (stops _ _ (.inr rfl) (.inl rfl))
          (fun error met => hb error _ _ (.inr rfl) met) ?_)
      exact touch_spec (stops _ _ (.inr rfl) (.inl rfl)) (fun error met => hb error _ _ (.inr rfl) met) rfl
    · simp [free] at hr
  · intro error d' hh
    obtain ⟨met, records', temporaries, either, rfl⟩ := hh
    refine .rescue (fun _ d' => d' = ⟨some ⟨records', temporaries⟩, staging, tree, next⟩)
      (.change (stops _ _ either (.inr (.inl met))) (fun _ _ => rfl) (hf error _ _ either met))
        fun _ d' hs => ?_
    subst hs
    exact .pure (hf error _ _ either met)
  · intro _ d' hs
    subst hs
    refine .rescue (fun _ d' => d' = ⟨some ⟨update records kind (some value), []⟩, staging, tree, next⟩)
      (.change (stops _ _ (.inr rfl) (.inl rfl)) (fun _ _ => rfl) goes) fun _ d' hs => ?_
    subst hs
    exact .pure goes

end Specs

end Yinshi.Materialization
