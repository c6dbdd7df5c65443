import Yinshi.Threads.Targets

/-! The barrier of a cascading cancellation: a subtree claim on a delegation blocks every
reservation and every acceptance below it. The claim is one column that overlapping
cancellations share, and whoever is complete first clears it. -/

namespace Yinshi.Threads
open ByteText Keyed Checked Runs Relation List
open Prompt (PromptRun)

def Unscoped (db db' : Database) : Prop :=
  List.Forall₂ (fun row row' : Delegation => row'.id = row.id ∧ row'.cancelScope = row.cancelScope)
    db.delegations db'.delegations

section Subtrees
variable {digest : Text → Text} {settings : Settings} {db db' : Database} {rootId : Text} {row : Delegation}

theorem assertNoCancellationFrom_ok {hops : Nat} {seen : List Text} {current : Text}
    (passes : assertNoCancellationFrom db hops seen current = .ok ())
    (hf : db.delegationByChild current = some row) :
    row.cancelScope = none ∧
    ∃ hops seen, assertNoCancellationFrom db hops seen row.parentSessionId = .ok () := by
  cases hops with
  | zero => simp [assertNoCancellationFrom] at passes
  | succ hops =>
    simp only [assertNoCancellationFrom, hf, steps_ok, not_or, not_not] at passes
    exact ⟨passes.2.1.1, hops, _, passes.2.2⟩

section
variable (hb : Below db rootId row) (hf : Formed db)
  (claimed : ∀ root ∈ db.delegations, root.id = rootId → root.cancelScope ≠ none)
include hb hf claimed

theorem Below.blocked {hops : Nat} {seen : List Text} {child : Text} (ha : row.childSessionId =
    some child) : assertNoCancellationFrom db hops seen child ≠ .ok () := by
  induction hb generalizing hops seen child with
  | root hm hs =>
    intro hp
    exact claimed _ hm hs (assertNoCancellationFrom_ok hp (hf.delegationByChild hm ha)).1
  | child _ hm own ih =>
    intro hp
    obtain ⟨-, _, _, upwards⟩ :=
      assertNoCancellationFrom_ok hp (hf.delegationByChild hm ha)
    exact ih own upwards

theorem Below.not_reserved {request : Request} {call : SpawnCall}
    (ha : row.childSessionId = some call.parentSessionId) :
    admitSpawn settings request db call ≠ .ok () := by
  intro admitted
  simp only [admitSpawn, steps_ok] at admitted
  obtain ⟨_, -, -, -, hp, -⟩ := admitted
  exact hb.blocked hf claimed ha hp

theorem Below.not_accepted {guard : Guard} {child : Text} (ha : row.childSessionId = some child) :
    admitInitialRun settings guard db row.id child ≠ .ok () := by
  intro admitted
  simp only [admitInitialRun, steps_ok] at admitted
  obtain ⟨-, _, -, -, hp, -⟩ := admitted
  exact hb.blocked hf claimed ha hp

end

end Subtrees

section Scopes
variable {digest : Text → Text} {settings : Settings} {db db' : Database} {id : Text}
variable {targets complete : List Delegation}

def Claimed (db : Database) (id : Text) : Prop :=
  ∀ row ∈ db.delegations, row.id = id → row.cancelScope = some .subtree

theorem claimTarget_claimed (claimed : Claimed db id) (scope : CancelScope) (other : Text) :
    Claimed (claimTarget db scope other) id := by
  intro _ hm hs
  obtain ⟨row, old, rfl⟩ := mem_map.mp hm
  split at hs
  next chosen =>
    have was := claimed row old hs
    rw [if_pos chosen]
    exact (if_pos was).trans was
  next unchosen =>
    rw [if_neg unchosen]
    exact claimed row old hs

theorem foldl_claimed (entries : List (Delegation × Nat)) (cascade : Bool)
    (claimed : Claimed db id) :
    Claimed (entries.foldl
        (fun db entry => claimTarget db (claimedScope cascade entry.2 entry.1) entry.1.id) db)
      id := by
  induction entries generalizing db with
  | nil => exact claimed
  | cons _ _ ih => exact ih (claimTarget_claimed claimed _ _)

theorem claimCancelTargets_claimed {request : Request} {threadId : Text} {caller : Option Caller}
    {cascade : Bool} {root : Delegation} {rest : List Delegation}
    (hd :
      claimCancelTargets settings request db threadId caller cascade = .ok (db', root :: rest)) :
    cancelTargets settings request db threadId caller cascade = .ok (root :: rest) ∧
    (∀ id, Claimed db id → Claimed db' id) ∧
    (cascade = true ∨ root.cancelScope = some .subtree → Claimed db' root.id) := by
  simp only [claimCancelTargets, steps_ok, Prod.mk.injEq] at hd
  obtain ⟨_, selected, rfl, rfl⟩ := hd
  refine ⟨selected, fun _ claimed => foldl_claimed _ cascade claimed, fun cascading => ?_⟩
  rw [zipIdx_cons, foldl_cons]
  refine foldl_claimed _ cascade ?_
  intro _ hm hs
  obtain ⟨row, _, rfl⟩ := mem_map.mp hm
  have own : row.id = root.id := by split at hs <;> exact hs
  rw [if_pos own]
  by_cases was : row.cancelScope = some .subtree
  · exact (if_pos was).trans was
  · have scope : claimedScope cascade 0 root = .subtree := if_pos ⟨rfl, cascading⟩
    exact (if_neg was).trans (by rw [scope])

theorem completeRows_mem (hf : completeRows digest db targets = .ok complete) :
    ∀ row ∈ complete, row ∈ db.delegations ∧ row.id ∈ targets.map (·.id) := by
  induction targets generalizing complete with
  | nil =>
    cases hf
    simp
  | cons target targets ih =>
    simp only [completeRows, bind_eq_ok] at hf
    obtain ⟨rest, before, hf⟩ := hf
    have later : ∀ row ∈ rest, row ∈ db.delegations ∧ row.id ∈ (target :: targets).map (·.id) := by
      intro row hl
      obtain ⟨hm, ht⟩ := ih before row hl
      exact ⟨hm, mem_cons_of_mem _ ht⟩
    split at hf
    next =>
      obtain rfl := pure_eq_ok.mp hf
      exact later
    next row hr =>
      simp only [steps_ok] at hf
      obtain ⟨_, -, rfl⟩ := hf
      intro other hl
      split at hl
      next =>
        rcases mem_cons.mp hl with rfl | hl
        · refine ⟨mem_of_find?_eq_some hr, ?_⟩
          have hs : other.id = target.id := by simpa using find?_some hr
          rw [hs]
          exact mem_cons_self
        · exact later other hl
      next => exact later other hl

theorem completeRows_terminal (hf : completeRows digest db targets = .ok complete) :
    complete.length ≤ targets.length ∧
    (complete.length = targets.length →
      ∀ target ∈ targets, ∃ row,
        db.delegationById target.id = some row ∧ row.status ∈ terminalStatuses) := by
  induction targets generalizing complete with
  | nil =>
    cases hf
    simp
  | cons _ _ ih =>
    simp only [completeRows, bind_eq_ok] at hf
    obtain ⟨_, before, hf⟩ := hf
    obtain ⟨_, all⟩ := ih before
    split at hf
    next =>
      obtain rfl := pure_eq_ok.mp hf
      refine ⟨by rw [length_cons]; omega, fun equal => ?_⟩
      rw [length_cons] at equal
      omega
    next row hr =>
      simp only [steps_ok] at hf
      obtain ⟨hd, hq, rfl⟩ := hf
      cases hd with
      | false =>
        simp only [Bool.false_eq_true, if_false, length_cons]
        exact ⟨by omega, fun equal => by omega⟩
      | true =>
        simp only [if_true, length_cons]
        refine ⟨by omega, fun equal other hl => ?_⟩
        rcases mem_cons.mp hl with rfl | hl
        · refine ⟨row, hr, ?_⟩
          by_contra active
          rw [quiescent, if_neg active] at hq
          simp at hq
        · exact all (by omega) other hl

theorem foldl_clear_mem {entries : List Delegation} {cleared : Delegation → Prop}
    [DecidablePred cleared] (spared : ∀ entry ∈ entries, entry.id = id → ¬ cleared entry)
    {row : Delegation}
    (hm : row ∈
        (entries.foldl (fun db entry => if cleared entry then
            db.updateDelegations (·.id = entry.id)
              fun row => { row with cancelScope := none } else db) db).delegations)
    (hs : row.id = id) : row ∈ db.delegations := by
  induction entries generalizing db with
  | nil => exact hm
  | cons entry _ ih =>
    have before := ih (fun other hl => spared other (mem_cons_of_mem _ hl)) hm
    dsimp only at before
    split at before
    next chosen =>
      obtain ⟨old, _, rfl⟩ := mem_map.mp before
      have other : old.id ≠ entry.id := by
        intro equal
        rw [if_pos equal] at hs
        exact spared entry mem_cons_self (equal.symm.trans hs) chosen
      rwa [if_neg other]
    next => exact before

theorem clearCancelClaims_claimed (hf : completeRows digest db targets = .ok complete)
    (hd : clearCancelClaims digest db targets = .ok db')
    (spared : complete.length = targets.length → id ∉ targets.map (·.id))
    (claimed : Claimed db id) : Claimed db' id := by
  simp only [clearCancelClaims, steps_ok] at hd
  obtain ⟨_, hs, rfl⟩ := hd
  cases hs.symm.trans hf
  intro row hm own
  refine claimed row (foldl_clear_mem ?_ hm own) own
  rintro entry hl equal (partly | hw)
  · exact partly (claimed entry (completeRows_mem hf entry hl).1 equal)
  · exact spared (by simpa using hw) (equal ▸ (completeRows_mem hf entry hl).2)

end Scopes

/-- A claimed cancellation: the delegation it was asked for, whether it took the subtree, and
what it selected. -/
structure Cancellation where
  rootId : Text
  subtree : Bool
  targets : List Delegation

/-- The tables with the cancellations whose clear has not found every target complete. -/
structure Claims where
  db : Database
  cancellations : List Cancellation

section System
variable (digest : Text → Text) (settings : Settings)

/-- One transaction. A cancellation is a request, an agent's call or a recovery of a persisted
claim; its clear may come at any time after its claim. `allowed` tells which complete clears may
happen beside the other cancellations. -/
inductive ClaimStep (allowed : List Cancellation → Cancellation → Prop) : Claims → Claims → Prop
  | claim {db db' : Database} {cancellations : List Cancellation} (request : Request) (threadId : Text)
      (caller : Option Caller) (cascade : Bool) {root : Delegation} {rest : List Delegation}
      (done : claimCancelTargets settings request db threadId caller cascade = .ok (db', root :: rest)) :
      ClaimStep allowed ⟨db, cancellations⟩ ⟨db', cancellations ++
        [⟨root.id, cascade || root.cancelScope = some .subtree, root :: rest⟩]⟩
  | clear {db db' : Database} {front back : List Cancellation} {own : Cancellation}
      {complete : List Delegation} (found : completeRows digest db own.targets = .ok complete)
      (done : clearCancelClaims digest db own.targets = .ok db')
      (lets : complete.length = own.targets.length → allowed (front ++ back) own) :
      ClaimStep allowed ⟨db, front ++ own :: back⟩
        ⟨db', front ++ (if complete.length = own.targets.length then [] else [own]) ++ back⟩
  | reserve {db db' : Database} {cancellations : List Cancellation} (request : Request) (call : SpawnCall)
      {row : Delegation} (done : reserve settings request db call = .ok (db', row)) (apart : Apart db') :
      ClaimStep allowed ⟨db, cancellations⟩ ⟨db', cancellations⟩
  | accept {db db' : Database} {cancellations : List Cancellation} {row : Delegation} {child : Text}
      (member : row ∈ db.delegations) (attached : row.childSessionId = some child) (guard : Guard)
        (runId : Text)
      {run : PromptRun}
      (done : acceptInitialRun digest settings guard db row.id child runId = .ok (db', run)) :
      ClaimStep allowed ⟨db, cancellations⟩ ⟨db', cancellations⟩
  | adopt {db : Database} {cancellations : List Cancellation} (delegationId : Text)
    {runStatus : Prompt.Status}
      {target : Status} (adopted : runStatusToDelegationStatus runStatus = some target) :
      ClaimStep allowed ⟨db, cancellations⟩ ⟨adoptTerminalCancellation db delegationId target, cancellations⟩
  | elsewhere {db db' : Database} {cancellations : List Cancellation}
      (writes : Elsewhere digest settings db db') (unscoped : Unscoped db db') (apart : Apart db') :
      ClaimStep allowed ⟨db, cancellations⟩ ⟨db', cancellations⟩

end System

/-- A complete clear leaves the claims of the other cascades alone: none of their roots is among
its targets. -/
def Sparing (others : List Cancellation) (own : Cancellation) : Prop :=
  ∀ other ∈ others, other.subtree = true → other.rootId ∉ own.targets.map (·.id)

section Barrier
variable {digest : Text → Text} {settings : Settings} {db db' : Database} {s t : Claims}
  {rootId : Text} {allowed : List Cancellation → Cancellation → Prop}
variable {own : Cancellation}

def Outside (db db' : Database) (rootId : Text) : Prop :=
  ∀ row' ∈ db'.delegations, (∃ row ∈ db.delegations, row.id = row'.id) ∨
    ∀ parent, Below db rootId parent → parent.childSessionId ≠ some row'.parentSessionId

theorem Outside.of_forall₂ {r : Delegation → Delegation → Prop}
    (hs : ∀ row row', r row row' → row'.id = row.id)
    (each : List.Forall₂ r db.delegations db'.delegations) : Outside db db' rootId := by
  intro row' hm
  obtain ⟨row, old, related⟩ := forall₂_mem_right each hm
  exact .inl ⟨row, old, (hs row row' related).symm⟩

theorem Below.origin {adopting : Prop} (he : Explained digest adopting db db') (hf : Formed db)
    (outside : Outside db db' rootId) (exists_root : ∃ root ∈ db.delegations, root.id = rootId)
    {row' : Delegation} (hb : Below db' rootId row') :
    ∃ row attachment, Below db rootId row ∧ Rewrite digest db adopting attachment row row' := by
  obtain ⟨attachment, _, _, hr⟩ := he
  have known : ∀ row' ∈ db'.delegations, (∃ row ∈ db.delegations, row.id = row'.id) →
      ∃ row ∈ db.delegations, Rewrite digest db adopting attachment row row' := by
    intro row' hm hh
    obtain ⟨row, old, hs⟩ := hh
    refine (hr.origin hm).resolve_right fun reserved => ?_
    exact (find?_eq_none_iff Delegation.id).mp reserved.newId row old hs
  induction hb with
  | root hm hs =>
    obtain ⟨root, stored, isRoot⟩ := exists_root
    obtain ⟨row, old, rewrite⟩ := known _ hm ⟨root, stored, isRoot.trans hs.symm⟩
    exact ⟨row, attachment, .root old (rewrite.id.symm.trans hs), rewrite⟩
  | @child parent' row' above hm ha ih =>
    obtain ⟨parent, _, hb, rewrite⟩ := ih
    have session : (db.sessionById row'.parentSessionId).isSome := by
      rcases hr.origin hm with ⟨row, old, hk⟩ | reserved
      · exact hk.parent ▸ hf.parents row old
      · exact reserved.parent
    -- The parent's session is not the one that is attached now: a row already names it.
    obtain ⟨next, hl, again⟩ := hr.successor hb.mem
    have hd := (hr.formed hf).ids
    obtain rfl : next = parent' :=
      key_inj_of_nodup hd hl above.mem (again.id.trans rewrite.id.symm)
    have under : parent.childSessionId = some row'.parentSessionId := by
      rcases again.child with hs | ⟨_, attaches, -, -, isChild⟩
      · rw [← hs, ha]
      · have after := hr.sessions
        rw [attaches] at after
        cases isChild.symm.trans ha
        rw [after.1] at session
        simp at session
    rcases outside row' hm with old | none
    · obtain ⟨row, stored, hk⟩ := known row' hm old
      exact ⟨row, attachment, .child hb stored (by rw [under, hk.parent]), hk⟩
    · exact absurd under (none parent hb)

structure Guarded (db : Database) (own : Cancellation) : Prop where
  stored : ∃ root ∈ db.delegations, root.id = own.rootId
  claimed : Claimed db own.rootId
  covers : ∀ row, Below db own.rootId row → row.id ∈ own.targets.map (·.id)

theorem Guarded.step {adopting : Prop} (hg : Guarded db own) (he : Explained digest adopting db db')
    (hf : Formed db) (outside : Outside db db' own.rootId) (claimed : Claimed db' own.rootId) :
    Guarded db' own := by
  refine ⟨?_, claimed, fun row' hb => ?_⟩
  · obtain ⟨_, hm, hs⟩ := hg.stored
    obtain ⟨attachment, _, _, hr⟩ := he
    obtain ⟨next, hl, rewrite⟩ := hr.successor hm
    exact ⟨next, hl, rewrite.id.trans hs⟩
  · obtain ⟨row, _, before, rewrite⟩ := hb.origin he hf outside hg.stored
    rw [rewrite.id]
    exact hg.covers row before

theorem Guarded.unclaimed (hg : Guarded db own) :
    ∀ root ∈ db.delegations, root.id = own.rootId → root.cancelScope ≠ none := by
  intro root hm hs
  rw [hg.claimed root hm hs]
  simp

structure Upheld (s : Claims) : Prop where
  formed : Formed s.db
  apart : Apart s.db
  guarded : ∀ own ∈ s.cancellations, own.subtree = true → Guarded s.db own

/-! One step. -/

theorem Elsewhere.transaction (writes : Elsewhere digest settings db db') :
    Transaction digest settings db db' := by
  cases writes with
  | plain step => exact .plain step
  | prepareTerminalResult request guard childSessionId runId summary hd =>
    exact .prepareTerminalResult request guard childSessionId runId summary hd
  | commitSeal request guard intent finalized hd => exact .commitSeal request guard intent finalized hd
  | reportResult request childSessionId body hd => exact .reportResult request childSessionId body hd
  | reportAgentResult request caller body hd => exact .reportAgentResult request caller body hd
  | prompt writes => exact .prompt writes

theorem ClaimStep.transaction (step : ClaimStep digest settings allowed s t) :
    Transaction digest settings s.db t.db := by
  cases step with
  | claim request threadId caller cascade hd =>
    exact .plain (.claimCancelTargets request threadId caller cascade hd)
  | clear _ hd => exact .plain (.clearCancelClaims _ hd)
  | reserve request call hd => exact .plain (.reserve request call hd)
  | accept _ _ guard runId hd => exact .acceptInitialRun guard _ _ runId hd
  | adopt delegationId adopted => exact .adoptTerminalCancellation _ delegationId adopted
  | elsewhere writes => exact writes.transaction

theorem ClaimStep.outside (step : ClaimStep digest settings allowed s t) (hf : Formed s.db)
    (hg : Guarded s.db own) : Outside s.db t.db own.rootId := by
  cases step with
  | claim request _ _ _ hd =>
    refine .of_forall₂ ?_ (claimCancelTargets_scopes hd).rows
    rintro row _ ⟨scope, rfl⟩
    rfl
  | clear _ hd =>
    refine .of_forall₂ ?_ (clearCancelClaims_scopes hd).rows
    rintro row _ ⟨_, rfl⟩
    rfl
  | @reserve _ _ _ _ _ row hd =>
    rcases reserve_cases hd with rfl | ⟨admitted, -, rfl, _, rfl⟩
    · exact fun row hm => .inl ⟨row, hm, rfl⟩
    · intro row' hm
      rw [mem_append, mem_singleton] at hm
      rcases hm with old | rfl
      · exact .inl ⟨row', old, rfl⟩
      · refine .inr fun ha hb under => ?_
        exact hb.not_reserved hf hg.unclaimed under admitted
  | accept _ _ _ _ hd =>
    intro row hl
    rw [(acceptInitialRun_beside hd).delegations] at hl
    exact .inl ⟨row, hl, rfl⟩
  | adopt _ _ =>
    intro row' hl
    obtain ⟨row, old, rfl⟩ := mem_map.mp hl
    exact .inl ⟨row, old, by split <;> rfl⟩
  | elsewhere _ unscoped _ => exact .of_forall₂ (fun row row' hk => hk.1) unscoped

theorem ClaimStep.claimed (step : ClaimStep digest settings Sparing s t)
    (before : own ∈ s.cancellations) (after : own ∈ t.cancellations) (subtree : own.subtree = true)
    (hg : Guarded s.db own) : Claimed t.db own.rootId := by
  obtain ⟨root, hst, isRoot⟩ := hg.stored
  cases step with
  | claim request _ _ _ hd => exact (claimCancelTargets_claimed hd).2.1 _ hg.claimed
  | @clear _ db' _ _ _ _ hf hd lets =>
    refine clearCancelClaims_claimed hf hd (fun hw => ?_) hg.claimed
    rw [if_pos hw, append_nil] at after
    exact lets hw own after subtree
  | @reserve _ _ _ _ _ row hd =>
    rcases reserve_cases hd with rfl | ⟨-, hr, rfl, -⟩
    · exact hg.claimed
    · intro row' hm hs
      rw [mem_append, mem_singleton] at hm
      rcases hm with old | rfl
      · exact hg.claimed row' old hs
      · exact absurd (isRoot.trans hs.symm) ((find?_eq_none_iff Delegation.id).mp hr.newId root hst)
  | accept _ _ _ _ hd =>
    intro row hl hs
    rw [(acceptInitialRun_beside hd).delegations] at hl
    exact hg.claimed row hl hs
  | adopt _ _ =>
    intro row' hl hs
    obtain ⟨row, old, rfl⟩ := mem_map.mp hl
    have hk : row.cancelScope = some .subtree := hg.claimed row old (by split at hs <;> exact hs)
    split <;> exact hk
  | elsewhere _ unscoped _ =>
    intro _ hl hs
    obtain ⟨row, old, hk⟩ := forall₂_mem_right unscoped hl
    rw [hk.2]
    exact hg.claimed row old (hk.1.symm.trans hs)

theorem ScopesOnly.apart (scopes : ScopesOnly db db') (ha : Apart db) : Apart db' := by
  intro _ hl
  obtain ⟨row, old, _, rfl⟩ := forall₂_mem_right scopes.rows hl
  rw [scopes.rest]
  exact ha row old

theorem step_upheld (step : ClaimStep digest settings Sparing s t) (upheld : Upheld s) : Upheld t := by
  have hf := step.transaction.formed upheld.formed
  have he := step.transaction.explained upheld.formed.ids
  have old : ∀ own ∈ s.cancellations, own ∈ t.cancellations → own.subtree = true → Guarded t.db own := by
    intro own before after subtree
    have hg := upheld.guarded own before subtree
    exact hg.step he upheld.formed (step.outside upheld.formed hg) (step.claimed before after subtree hg)
  cases step with
  | @claim db db' _ request _ _ cascade root _ hd =>
    refine ⟨hf, (claimCancelTargets_scopes hd).apart upheld.apart, fun own hl subtree => ?_⟩
    rcases mem_append.mp hl with before | new
    · exact old own before hl subtree
    · obtain rfl := mem_singleton.mp new
      have cascading : cascade = true ∨ root.cancelScope = some .subtree := by simpa using subtree
      obtain ⟨selected, -, sets⟩ := claimCancelTargets_claimed hd
      obtain ⟨hs, hc⟩ := cancelTargets_covers upheld.formed upheld.apart selected
      have scopes := (claimCancelTargets_scopes hd).rows
      obtain ⟨_, hl', scope, rfl⟩ := forall₂_mem_left scopes hs
      refine ⟨⟨_, hl', rfl⟩, sets cascading, fun row' hb => ?_⟩
      obtain ⟨row, _, before, rewrite⟩ := hb.origin he upheld.formed
        (.of_forall₂ (by rintro row _ ⟨_, rfl⟩; rfl) scopes) ⟨root, hs, rfl⟩
      rw [rewrite.id]
      exact hc cascading row before
  | @clear _ _ _ _ _ _ _ hd _ =>
    refine ⟨hf, (clearCancelClaims_scopes hd).apart upheld.apart, fun own hl subtree => ?_⟩
    refine old own ?_ hl subtree
    split at hl
    all_goals
      simp only [append_nil, mem_append, mem_cons] at hl ⊢
      tauto
  | reserve request call hd ha
  | elsewhere _ _ ha => exact ⟨hf, ha, fun own hl => old own hl hl⟩
  | accept _ _ _ _ hd =>
    refine ⟨hf, ?_, fun own hl => old own hl hl⟩
    have beside := acceptInitialRun_beside hd
    intro row hl
    rw [beside.delegations] at hl
    rw [Database.sessionById, beside.sessions]
    exact upheld.apart row hl
  | adopt _ _ =>
    refine ⟨hf, ?_, fun own hl => old own hl hl⟩
    intro _ hl
    obtain ⟨row, hs, rfl⟩ := mem_map.mp hl
    split <;> exact upheld.apart row hs

theorem ClaimStep.unaccepted (step : ClaimStep digest settings allowed s t) (hf : Formed s.db)
    (hg : Guarded s.db own) {row' : Delegation} (hb : Below t.db own.rootId row') {run : PromptRun}
    (found : initialRun digest t.db row' = .ok (some run)) : run.name ∈ s.db.prompts.names := by
  have hk : t.db.runs = s.db.runs → run.name ∈ s.db.prompts.names := by
    intro hs
    have hl := (initialRun_named found).1
    rw [hs] at hl
    exact mem_map_of_mem hl
  have origin := hb.origin (step.transaction.explained hf.ids) hf (step.outside hf hg) hg.stored
  cases step with
  | claim request _ _ cascade hd => exact hk (claimCancelTargets_scopes hd).aside.runs
  | clear found hd => exact hk (clearCancelClaims_scopes hd).aside.runs
  | reserve _ _ hd =>
    have both : Explained digest False _ _ ∧ Aside _ _ := reserve_explained hd
    exact hk both.2.runs
  | @accept db _ _ row child member attached _ _ hac hd =>
    have hs := (acceptInitialRun_beside hd).delegations
    simp only [acceptInitialRun, bind_eq_ok] at hd
    obtain ⟨_, _, hd⟩ := hd
    split at hd
    next =>
      simp only [pure_eq_ok, Prod.mk.injEq] at hd
      exact hk (by rw [← hd.1])
    next =>
      simp only [steps_ok, Prod.mk.injEq] at hd
      obtain ⟨admitted, prompts, inserted, rfl, -⟩ := hd
      have hl : run.name ∈ prompts.names := (initialRun_named found).2
      rw [insertRun_names inserted, mem_append, mem_singleton] at hl
      refine hl.resolve_right fun name => ?_
      -- The run is that of the accepted delegation, which would lie in the subtree.
      obtain ⟨_, _, ha, rewrite⟩ := origin
      obtain ⟨_, session, -, theirs, hr⟩ := initialRun_eq_some.mp found
      obtain ⟨-, own, -⟩ := Prompt.runByKey_named hr
      simp only [PromptRun.name, Prod.mk.injEq] at name
      have isChild : session = child := own.symm.trans name.1
      have hm : row' ∈ db.delegations := hs ▸ hb.mem
      have isRow := key_inj_of_nodup hf.ids hm member
          (hf.children row' hm row member child (isChild ▸ theirs) attached)
      have isBefore := key_inj_of_nodup hf.ids ha.mem hm rewrite.id.symm
      rw [isBefore, isRow] at ha
      exact ha.not_accepted hf hg.unclaimed attached admitted
  | adopt _ _ => exact hk rfl
  | elsewhere writes _ _ => exact (writes.onward hf).2 row' hb.mem run found

theorem Guarded.terminal (hg : Guarded db own) (hf : Formed db) {complete : List Delegation}
    (found : completeRows digest db own.targets = .ok complete)
    (hw : complete.length = own.targets.length) {row : Delegation} (hb : Below db own.rootId row) :
    row.status ∈ terminalStatuses := by
  obtain ⟨target, hl, hs⟩ := mem_map.mp (hg.covers row hb)
  obtain ⟨_, isStored, terminal⟩ := (completeRows_terminal found).2 hw target hl
  obtain ⟨hm, id⟩ := (find?_eq_some_iff Delegation.id hf.ids).mp isStored
  rwa [key_inj_of_nodup hf.ids hb.mem hm (hs.symm.trans id.symm)]

/-- In every run in which no complete clear takes away the claim of another cascade, from the
claim of a cascade to its own complete clear no delegation is inserted in its subtree and no
initial run is accepted there; at that clear the whole subtree is terminal. -/
theorem cascade_barrier {first : Claims} (formed : Formed first.db) (apart : Apart first.db)
    (quiet : first.cancellations = [])
    (before : ReflTransGen (ClaimStep digest settings Sparing) first s) {own : Cancellation}
    (inFlight : own ∈ s.cancellations) (subtree : own.subtree = true) :
    (∀ t, ClaimStep digest settings Sparing s t →
        (∀ row' ∈ t.db.delegations, ∀ row, Below s.db own.rootId row →
            row.childSessionId = some row'.parentSessionId →
            ∃ stored ∈ s.db.delegations, stored.id = row'.id) ∧
        (∀ row', Below t.db own.rootId row' →
          ∀ run, initialRun digest t.db row' = .ok (some run) → run.name ∈ s.db.prompts.names)) ∧
    (∀ complete, completeRows digest s.db own.targets = .ok complete →
      complete.length = own.targets.length →
      ∀ row, Below s.db own.rootId row → row.status ∈ terminalStatuses) := by
  have start : Upheld first := ⟨formed, apart, by simp [quiet]⟩
  have upheld := run_keeps Upheld (fun _ _ step => step_upheld step) before start
  have hg := upheld.guarded own inFlight subtree
  refine ⟨fun t step => ⟨?_, ?_⟩, fun complete hf hw row hb => ?_⟩
  · intro row' hm row hb ha
    refine (step.outside upheld.formed hg row' hm).resolve_right fun none => ?_
    exact none row hb ha
  · intro _ hb _ hf
    exact step.unaccepted upheld.formed hg hb hf
  · exact hg.terminal upheld.formed hf hw hb

end Barrier

def claimedParent (scope : Option CancelScope) : Delegation :=
  { sampleChild with status := .cancelled, cancelScope := scope }

def claimedChild (scope : Option CancelScope) : Delegation :=
  { sampleChild with
    id := text "fedcba9876543210fedcba9876543210"
    parentSessionId := text "child"
    childSessionId := some (text "grandchild")
    childWorkspaceId := some (text "grandchild-workspace")
    status := .running
    cancelScope := scope }

def claimedTree (parent child : Option CancelScope) (more : List Delegation) : Database :=
  { rootDatabase with
    workspaces := rootDatabase.workspaces ++ [sampleAttachment.workspace,
      { id := text "grandchild-workspace", repoId := text "repo", path := text "/repo/grandchild" }]
    sessions := rootDatabase.sessions ++ [sampleAttachment.session,
      { id := text "grandchild", workspaceId := text "grandchild-workspace" }]
    delegations := [claimedParent parent, claimedChild child] ++ more }

def deepSettings : Settings := { maxDepth := 3 }

def lateCall : SpawnCall :=
  { sampleCall with
    parentSessionId := text "child"
    idempotencyKey := text "late"
    reservationId := text "00112233445566778899aabbccddeeff" }

def lateReservation : Delegation :=
  { sampleReservation with
    id := text "00112233445566778899aabbccddeeff"
    parentSessionId := text "child"
    idempotencyKey := text "late" }

def recovery : Cancellation := ⟨sampleReservation.id, false, [claimedParent (some .self)]⟩

def cascade : Cancellation :=
  ⟨sampleReservation.id, true, [claimedParent (some .self), claimedChild none]⟩

section Samples
variable {allowed : List Cancellation → Cancellation → Prop}

theorem overlapping :
    ReflTransGen (ClaimStep id deepSettings allowed) ⟨claimedTree (some .self) none [], []⟩
      ⟨claimedTree (some .subtree) (some .self) [], [recovery, cascade]⟩ := by
  have hr : claimCancelTargets deepSettings {} (claimedTree (some .self) none []) sampleReservation.id none
      false = .ok (claimedTree (some .self) none [], [claimedParent (some .self)]) := by decide
  have cascaded : claimCancelTargets deepSettings {}
      (claimedTree (some .self) none []) sampleReservation.id none true =
        .ok (claimedTree (some .subtree) (some .self) [],
            [claimedParent (some .self), claimedChild none]) := by
    decide
  have first : ClaimStep id deepSettings allowed ⟨claimedTree (some .self) none [], []⟩
      ⟨claimedTree (some .self) none [], [recovery]⟩ := .claim {} _ none false hr
  have second : ClaimStep id deepSettings allowed ⟨claimedTree (some .self) none [], [recovery]⟩
      ⟨claimedTree (some .subtree) (some .self) [], [recovery, cascade]⟩ := .claim {} _ none true cascaded
  exact .tail (.single first) second

theorem claimedTree_formed : Formed (claimedTree (some .self) none []) :=
  ⟨by decide, by decide, by decide, by decide, by decide, by decide⟩

theorem claimedTree_apart : Apart (claimedTree (some .self) none []) := by
  unfold Apart
  decide

/-- The recovery is complete and clears the claim of the cascade: a spawn gets through while a
delegation below still runs. -/
theorem barrier_cleared_early :
    ∃ (first s t : Claims) (own : Cancellation), Formed first.db ∧ Apart first.db ∧
      first.cancellations = [] ∧ ReflTransGen (ClaimStep id deepSettings fun _ _ => True) first s ∧
      own ∈ s.cancellations ∧ own.subtree = true ∧ ClaimStep id deepSettings (fun _ _ => True) s t ∧
      (∃ row, Below s.db own.rootId row ∧ row.status = .running) ∧
      ∃ row' ∈ t.db.delegations, ∃ row, Below s.db own.rootId row ∧
        row.childSessionId = some row'.parentSessionId ∧
        ∀ stored ∈ s.db.delegations, stored.id ≠ row'.id := by
  have complete : completeRows id (claimedTree (some .subtree) (some .self) []) recovery.targets =
      .ok [claimedParent (some .subtree)] := by decide
  have clears : clearCancelClaims id (claimedTree (some .subtree) (some .self) []) recovery.targets =
      .ok (claimedTree none (some .self) []) := by decide
  have cleared : ClaimStep id deepSettings (fun _ _ => True)
      ⟨claimedTree (some .subtree) (some .self) [], [recovery, cascade]⟩
      ⟨claimedTree none (some .self) [], [cascade]⟩ :=
    @ClaimStep.clear id deepSettings (fun _ _ => True) _ _ [] [cascade] recovery _ complete clears
      fun _ => trivial
  have hr : reserve deepSettings {} (claimedTree none (some .self) []) lateCall =
      .ok (claimedTree none (some .self) [lateReservation], lateReservation) := by decide
  have parent : Below (claimedTree none (some .self) []) cascade.rootId (claimedParent none) :=
    .root (by decide) (by decide)
  have child : Below (claimedTree none (some .self) []) cascade.rootId (claimedChild (some .self)) :=
    .child parent (by decide) (by decide)
  exact ⟨⟨claimedTree (some .self) none [], []⟩, ⟨claimedTree none (some .self) [], [cascade]⟩,
    ⟨claimedTree none (some .self) [lateReservation], [cascade]⟩, cascade, claimedTree_formed,
    claimedTree_apart, rfl, .tail overlapping cleared, mem_singleton_self _, rfl,
    .reserve {} lateCall hr (by unfold Apart; decide), ⟨_, child, rfl⟩,
    lateReservation, by decide, claimedParent none, parent, by decide, by decide⟩

/-- While both are in flight nothing is inserted under the cancelled delegation. -/
theorem cascade_barrier_overlapping :
    cascade ∈ [recovery, cascade] ∧
    ∀ t, ClaimStep id deepSettings Sparing
          ⟨claimedTree (some .subtree) (some .self) [], [recovery, cascade]⟩ t →
      ∀ row' ∈ t.db.delegations, row'.parentSessionId = text "child" →
        ∃ stored ∈ (claimedTree (some .subtree) (some .self) []).delegations,
          stored.id = row'.id := by
  have hi : cascade ∈ [recovery, cascade] := mem_cons_of_mem _ (mem_singleton_self _)
  refine ⟨hi, fun t step row' hm under => ?_⟩
  have barrier := cascade_barrier claimedTree_formed claimedTree_apart rfl overlapping hi rfl
  have parent : Below (claimedTree (some .subtree) (some .self) []) cascade.rootId
      (claimedParent (some .subtree)) := .root (by decide) (by decide)
  exact (barrier.1 t step).1 row' hm _ parent (by rw [under]; decide)

end Samples

end Yinshi.Threads
