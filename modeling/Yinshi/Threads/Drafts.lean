import Yinshi.Threads.Lifecycle

/-! The result draft of one delegation under any interleaving of reports, fallbacks, seals and
all other transactions. A ghost history records which reports were accepted. -/

namespace Yinshi.Threads
open ByteText Keyed Checked Runs Relation List

structure Content where
  summary : Text
  tests : List TestEntry
  warnings : List Text
  deriving DecidableEq

def ResultRow.content (row : ResultRow) : Content := ⟨row.summary, row.tests, row.warnings⟩

def ReportBody.content (body : ReportBody) : Content := ⟨body.summary, body.tests, body.warnings⟩

/-- The tables with the history of one delegation: the accepted reports, the summary of the
fallback draft, and whether a report was written over that draft. -/
structure Draft where
  db : Database
  accepted : List ReportBody := []
  fallback : Option Text := none
  overDerived : Bool := false
  deriving DecidableEq

namespace Draft

/-- The last accepted report, or the fallback when there was none. -/
def content (s : Draft) : Option Content :=
  match s.accepted.getLast? with
  | some body => some body.content
  | none => s.fallback.map fun summary => ⟨summary, [], [missingReportWarning]⟩

/-- The version of the stored draft, zero before the first write. -/
def version (s : Draft) (delegationId : Text) : Nat :=
  ((s.db.resultOf delegationId).map (·.version)).getD 0

def Reported.isWritten : Reported → Bool
  | .written _ => true
  | .receipt _ | .unchanged _ => false

/-- The history after a report of the delegation of a child session. -/
def afterReport (delegationId : Text) (s : Draft) (db' : Database) (child : Text)
    (body : ReportBody) (reported : Reported) : Draft :=
  if Reported.isWritten reported = true ∧ (s.db.delegationByChild child).map (·.id) = some delegationId then
    { db := db'
      accepted := s.accepted ++ [body]
      fallback := s.fallback
      overDerived := s.overDerived || (s.db.resultOf delegationId).any (·.source = .derived) }
  else { s with db := db' }

def afterPrepare (delegationId : Text) (s : Draft) (db' : Database) (summary : Text) : Draft :=
  if s.db.resultOf delegationId = none ∧ db'.resultOf delegationId ≠ none then
    { s with db := db', fallback := some summary }
  else { s with db := db' }

end Draft

inductive DraftStep (digest : Text → Text) (settings : Settings) (delegationId : Text) : Draft → Draft → Prop
  | report {s : Draft} {db' : Database} (request : Request) (child : Text) (body : ReportBody)
      {reported : Reported} (done : reportResult request s.db child body = .ok (db', reported)) :
      DraftStep digest settings delegationId s (s.afterReport delegationId db' child body reported)
  | agentReport {s : Draft} {db' : Database} (request : Request) (caller : Caller)
      (body : ReportBody) {reported : Reported}
      (done : reportAgentResult digest settings request s.db caller body = .ok (db', reported)) :
      DraftStep digest settings delegationId s (s.afterReport delegationId db' caller.sessionId body reported)
  | prepare {s : Draft} {db' : Database} (request : Request) (guard : Guard)
      (child runId summary : Text) {intent : Option SealIntent}
      (done : prepareTerminalResult digest request guard s.db child runId summary = .ok (db', intent)) :
      DraftStep digest settings delegationId s (s.afterPrepare delegationId db' summary)
  | commitSeal {s : Draft} {db' : Database} (request : Request) (guard : Guard)
      (intent : SealIntent) (finalized : Finalized) {row : ResultRow}
      (done : commitSeal digest settings request guard s.db intent finalized = .ok (db', row)) :
      DraftStep digest settings delegationId s { s with db := db' }
  | other {s : Draft} {db' : Database} (step : Transaction digest settings s.db db')
      (results : db'.results = s.db.results) (calls : db'.reportCalls = s.db.reportCalls) :
      DraftStep digest settings delegationId s { s with db := db' }

section Steps
variable {digest : Text → Text} {settings : Settings} {delegationId : Text} {s t : Draft} {db db' : Database}

theorem afterReport_db (child : Text) (body : ReportBody) (reported : Reported) :
    (s.afterReport delegationId db' child body reported).db = db' := by
  rw [Draft.afterReport]
  split <;> rfl

theorem afterPrepare_db (summary : Text) : (s.afterPrepare delegationId db' summary).db = db' := by
  rw [Draft.afterPrepare]
  split <;> rfl

theorem DraftStep.transaction (step : DraftStep digest settings delegationId s t) :
    Transaction digest settings s.db t.db := by
  cases step with
  | report request child body hd =>
    rw [afterReport_db]
    exact .reportResult request child body hd
  | agentReport request caller body hd =>
    rw [afterReport_db]
    exact .reportAgentResult request caller body hd
  | prepare request guard child runId summary hd =>
    rw [afterPrepare_db]
    exact .prepareTerminalResult request guard child runId summary hd
  | commitSeal request guard intent finalized hd => exact .commitSeal request guard intent finalized hd
  | other step => exact step

end Steps

section Rows
variable {db db' : Database} {delegationId other : Text} {version : Nat} {write : ResultRow → ResultRow}
variable {body : ReportBody} {reported : Reported}

theorem resultOf_insertResult (row : ResultRow) : (db.insertResult row).resultOf delegationId =
    (db.resultOf delegationId).or (if row.delegationId = delegationId then some row else none) := by
  rw [Database.resultOf, Database.insertResult, find?_append]
  congr 1
  by_cases hs : row.delegationId = delegationId
  · simp [hs]
  · simp [hs]

theorem resultOf_updateResult (hk : ∀ row, (write row).delegationId = row.delegationId) :
    (db.updateResult other version write).resultOf delegationId =
      (db.resultOf delegationId).map
        fun row => if row.delegationId = other ∧ row.sealed = false ∧ row.version = version then
          write row else row := by
  rw [Database.resultOf, Database.updateResult, find?_map]
  congr 2
  funext row
  simp only [Function.comp_apply]
  split
  · rw [hk]
  · rfl

theorem overwrite_delegationId (body : ReportBody) (row : ResultRow) :
    (body.overwrite row).delegationId = row.delegationId := rfl

theorem resultOf_delegationId {row : ResultRow} (hf : db.resultOf delegationId = some row) :
    row.delegationId = delegationId := by
  simpa using find?_some hf

inductive Wrote (db : Database) (delegationId : Text) (body : ReportBody) : Database → Reported → Prop
  | first (missing : db.resultOf delegationId = none) (expected : body.expectedVersion = 0) :
      Wrote db delegationId body (db.insertResult (body.draft delegationId)) (.written 1)
  | replayed {row : ResultRow} (found : db.resultOf delegationId = some row)
      (stale : row.version ≠ body.expectedVersion) : Wrote db delegationId body db (.unchanged row.version)
  | next {row : ResultRow} (found : db.resultOf delegationId = some row)
      (unsealed : row.sealed = false) (expected : row.version = body.expectedVersion) :
      Wrote db delegationId body (db.updateResult delegationId row.version body.overwrite)
        (.written (row.version + 1))

theorem writeReport_wrote (hd : writeReport db delegationId body = .ok (db', reported)) :
    Wrote db delegationId body db' reported := by
  rw [writeReport] at hd
  split at hd
  next hm =>
    simp only [steps_ok, Prod.mk.injEq, not_not] at hd
    obtain ⟨expected, rfl, rfl⟩ := hd
    exact .first hm expected
  next row hf =>
    simp only [steps_ok] at hd
    obtain ⟨unsealed, hd⟩ := hd
    split at hd
    next stale =>
      simp only [steps_ok, Prod.mk.injEq] at hd
      obtain ⟨-, rfl, rfl⟩ := hd
      exact .replayed hf stale
    next expected =>
      obtain ⟨rfl, rfl⟩ := hd
      exact .next hf (by simpa using unsealed) (not_not.mp expected)

theorem Wrote.rest (wrote : Wrote db delegationId body db' reported) :
    db' = { db with results := db'.results } := by
  cases wrote <;> rfl

theorem Wrote.resultOf_ne (wrote : Wrote db other body db' reported) (ha : other ≠ delegationId) :
    db'.resultOf delegationId = db.resultOf delegationId := by
  cases wrote with
  | first =>
    rw [resultOf_insertResult]
    simp [ReportBody.draft, ha]
  | replayed => rfl
  | next =>
    rw [resultOf_updateResult (overwrite_delegationId body)]
    cases hf : db.resultOf delegationId with
    | none => rfl
    | some _ =>
      have own := resultOf_delegationId hf
      simp [own, ha.symm]

end Rows

inductive Effect (delegationId : Text) (s t : Draft) : Prop
  | kept (row : t.db.resultOf delegationId = s.db.resultOf delegationId)
      (history : t = { s with db := t.db })
  | reported (body : ReportBody) (missing : s.db.resultOf delegationId = none)
      (row : t.db.resultOf delegationId = some (body.draft delegationId))
      (history : t = { s with db := t.db, accepted := s.accepted ++ [body] })
  | overwritten (body : ReportBody) (old : ResultRow) (found : s.db.resultOf delegationId = some old)
      (unsealed : old.sealed = false) (row : t.db.resultOf delegationId = some (body.overwrite old))
      (history : t = { s with
        db := t.db
        accepted := s.accepted ++ [body]
        overDerived := s.overDerived || decide (old.source = .derived) })
  | derived (summary : Text) (missing : s.db.resultOf delegationId = none)
      (row : t.db.resultOf delegationId = some (derivedResult delegationId summary))
      (history : t = { s with db := t.db, fallback := some summary })
  | closed (finalized : Finalized) (old : ResultRow) (found : s.db.resultOf delegationId = some old)
      (unsealed : old.sealed = false) (row : t.db.resultOf delegationId = some (old.sealWith finalized))
      (history : t = { s with db := t.db })

section Effects
variable {digest : Text → Text} {settings : Settings} {delegationId : Text} {s t : Draft} {db' : Database}
variable {request : Request} {db : Database}

theorem Wrote.effect {written : Database} {body basis : ReportBody} {reported : Reported}
    {row : Delegation} {child : Text} (hf : s.db.delegationByChild child = some row)
    (same : body.content = basis.content) (wrote : Wrote s.db row.id basis written reported)
    (results : db'.results = written.results) :
    Effect delegationId s (s.afterReport delegationId db' child body reported) := by
  have read : ∀ id, db'.resultOf id = written.resultOf id := by
    intro _
    rw [Database.resultOf, Database.resultOf, results]
  by_cases own : row.id = delegationId
  · subst own
    have mapped : (s.db.delegationByChild child).map (·.id) = some row.id := by rw [hf]; rfl
    simp only [ReportBody.content, Content.mk.injEq] at same
    cases wrote with
    | first hm expected =>
      have after : s.afterReport row.id db' child body (.written 1) =
          { s with db := db', accepted := s.accepted ++ [body] } := by
        simp [Draft.afterReport, Draft.Reported.isWritten, mapped, hm]
      rw [after]
      refine .reported body hm ?_ rfl
      rw [read, resultOf_insertResult, hm]
      simp [ReportBody.draft, same.1, same.2.1, same.2.2]
    | @replayed hs old _ =>
      have after : s.afterReport row.id db' child body (.unchanged hs.version) = { s with db := db' } := rfl
      exact after ▸ .kept (read _) rfl
    | @next hs old unsealed _ =>
      have after : s.afterReport row.id db' child body (.written (hs.version + 1)) =
          { s with
            db := db'
            accepted := s.accepted ++ [body]
            overDerived := s.overDerived || decide (hs.source = .derived) } := by
        simp [Draft.afterReport, Draft.Reported.isWritten, mapped, old]
      rw [after]
      refine .overwritten body hs old unsealed ?_ rfl
      rw [read, resultOf_updateResult (overwrite_delegationId basis), old]
      simp [resultOf_delegationId old, unsealed, ReportBody.overwrite, same.1, same.2.1, same.2.2]
  · have after : s.afterReport delegationId db' child body reported = { s with db := db' } := by
      simp [Draft.afterReport, hf, own]
    rw [after]
    exact .kept ((read _).trans (wrote.resultOf_ne own)) rfl

theorem prepareTerminalResult_result {guard : Guard} {child runId summary : Text}
    {intent : Option SealIntent}
    (hd : prepareTerminalResult digest request guard db child runId summary = .ok (db', intent)) :
    db'.reportCalls = db.reportCalls ∧
    (db'.results = db.results ∨
      ∃ id, db.resultOf id = none ∧
        db'.results = (db.insertResult (derivedResult id summary)).results) := by
  simp only [prepareTerminalResult, steps_ok] at hd
  obtain ⟨-, hd⟩ := hd
  split at hd
  next =>
    simp only [pure_eq_ok, Prod.mk.injEq] at hd
    rw [← hd.1]
    exact ⟨rfl, .inl rfl⟩
  next row hf =>
    simp only [bind_eq_ok] at hd
    obtain ⟨_, -, hd⟩ := hd
    split at hd
    next =>
      simp only [pure_eq_ok, Prod.mk.injEq] at hd
      rw [← hd.1]
      exact ⟨rfl, .inl rfl⟩
    next target adopted =>
      rw [adoptRun] at hd
      split at hd
      next =>
        simp only [Except.ok.injEq, Prod.mk.injEq] at hd
        rw [← hd.1]
        exact ⟨rfl, .inl rfl⟩
      next =>
        simp only [steps_ok, Prod.mk.injEq] at hd
        obtain ⟨_, -, rfl, -⟩ := hd
        split
        next hm => exact ⟨rfl, .inr ⟨row.id, by simpa using hm, rfl⟩⟩
        next => exact ⟨rfl, .inl rfl⟩

theorem commitSeal_result {guard : Guard} {intent : SealIntent} {finalized : Finalized}
    {result : ResultRow}
    (hd : commitSeal digest settings request guard db intent finalized = .ok (db', result)) :
    db'.reportCalls = db.reportCalls ∧
    (db'.results = db.results ∨
      ∃ row, db.resultOf intent.delegationId = some row ∧ row.sealed = false ∧
        db'.results =
          (db.updateResult intent.delegationId row.version (·.sealWith finalized)).results) := by
  simp only [commitSeal, steps_ok] at hd
  obtain ⟨-, -, row, found, hd⟩ := hd
  split at hd
  next =>
    simp only [steps_ok, Prod.mk.injEq] at hd
    rw [← hd.2.1]
    exact ⟨rfl, .inl rfl⟩
  next unsealed =>
    simp only [steps_ok, Prod.mk.injEq] at hd
    obtain ⟨-, rfl, -⟩ := hd
    have hf : row.sealed = false := by simpa using unsealed
    split
    next => exact ⟨rfl, .inr ⟨row, found, hf, rfl⟩⟩
    next => exact ⟨rfl, .inr ⟨row, found, hf, rfl⟩⟩

theorem resultOf_congr (hs : db'.results = db.results) (id : Text) : db'.resultOf id = db.resultOf id := by
  rw [Database.resultOf, Database.resultOf, hs]

theorem reportAgentResult_cases {caller : Caller} {body : ReportBody} {reported : Reported}
    (hd : reportAgentResult digest settings request db caller body = .ok (db', reported)) :
    ∃ row, db.delegationByChild caller.sessionId = some row ∧
      ((∃ receipt, db.reportCall caller.runId caller.toolCallId = some receipt ∧ db' = db ∧
          reported = .receipt receipt.version) ∨
        ∃ version written, db.reportCall caller.runId caller.toolCallId = none ∧
          version = ((db.resultOf row.id).map (·.version)).getD 0 ∧
          Wrote db row.id { body with expectedVersion := version } written
            (.written (version + 1)) ∧
          db' =
            { written with
              reportCalls := written.reportCalls ++
                  [⟨caller.runId, caller.toolCallId, row.id, body.payload, version + 1⟩] } ∧
          reported = .written (version + 1)) := by
  simp only [reportAgentResult, loadChildDelegation, steps_ok] at hd
  obtain ⟨-, row, ⟨-, hf⟩, _, -, -, hd⟩ := hd
  refine ⟨row, hf, ?_⟩
  split at hd
  next receipt hs =>
    simp only [steps_ok, Prod.mk.injEq] at hd
    obtain ⟨-, rfl, rfl⟩ := hd
    exact .inl ⟨receipt, hs, rfl, rfl⟩
  next hm =>
    simp only [steps_ok, Prod.mk.injEq, recordReportCall] at hd
    obtain ⟨⟨written, _⟩, wrote, _, ⟨-, rfl⟩, rfl, rfl⟩ := hd
    have full := writeReport_wrote wrote
    refine .inr ⟨_, written, hm, rfl, ?_, rfl, rfl⟩
    -- an agent report carries the version it has read, so it is always written
    cases full with
    | first empty expected =>
      rw [empty]
      exact .first empty rfl
    | @replayed hs old stale => exact absurd (by rw [old]; rfl) stale
    | @next hs old unsealed _ =>
      have version : ((db.resultOf row.id).map (·.version)).getD 0 = hs.version := by rw [old]; rfl
      rw [version]
      exact .next old unsealed rfl

section
variable (step : DraftStep digest settings delegationId s t)
include step

theorem DraftStep.effect : Effect delegationId s t := by
  cases step with
  | report request child body hd =>
    simp only [reportResult, loadChildDelegation, steps_ok] at hd
    obtain ⟨row, ⟨-, hf⟩, wrote⟩ := hd
    exact (writeReport_wrote wrote).effect hf rfl rfl
  | @agentReport db' request caller body _ hd =>
    obtain ⟨row, hf, ⟨receipt, -, rfl, rfl⟩ | ⟨version, _, -, -, wrote, rfl, rfl⟩⟩ :=
      reportAgentResult_cases hd
    · have after : s.afterReport delegationId s.db caller.sessionId body (.receipt receipt.version) = s := rfl
      exact after ▸ .kept rfl rfl
    · have hs : body.content = ({ body with expectedVersion := version } : ReportBody).content := rfl
      exact wrote.effect hf hs rfl
  | @prepare db' request guard _ _ summary intent hd =>
    obtain ⟨-, hs | ⟨id, hm, inserted⟩⟩ := prepareTerminalResult_result hd
    · have read := resultOf_congr hs delegationId
      have after : s.afterPrepare delegationId db' summary = { s with db := db' } := by
        rw [Draft.afterPrepare, read]
        simp
      rw [after]
      exact .kept read rfl
    · have read := (resultOf_congr inserted delegationId).trans (resultOf_insertResult _)
      by_cases own : id = delegationId
      · subst own
        rw [hm] at read
        have row : db'.resultOf id = some (derivedResult id summary) := by
          rw [read]
          simp [derivedResult]
        have after : s.afterPrepare id db' summary = { s with db := db', fallback := some summary } := by
          simp [Draft.afterPrepare, hm, row]
        rw [after]
        exact .derived summary hm row rfl
      · have hk : db'.resultOf delegationId = s.db.resultOf delegationId := by
          rw [read]
          simp [derivedResult, own]
        have after : s.afterPrepare delegationId db' summary = { s with db := db' } := by
          rw [Draft.afterPrepare, hk]
          simp
        rw [after]
        exact .kept hk rfl
  | @commitSeal _ _ _ intent finalized _ hd =>
    obtain ⟨-, hs | ⟨row, hf, unsealed, updated⟩⟩ := commitSeal_result hd
    · exact .kept (resultOf_congr hs delegationId) rfl
    · have read := (resultOf_congr updated delegationId).trans
        (resultOf_updateResult (fun row => rfl))
      by_cases own : intent.delegationId = delegationId
      · subst own
        rw [hf] at read
        refine .closed finalized row hf unsealed ?_ rfl
        rw [read]
        simp [resultOf_delegationId hf, unsealed]
      · refine .kept ?_ rfl
        rw [read]
        cases other : s.db.resultOf delegationId with
        | none => rfl
        | some _ => simp [resultOf_delegationId other, Ne.symm own]
  | other _ results _ => exact .kept (resultOf_congr results delegationId) rfl

theorem DraftStep.reportCalls : ∃ new, t.db.reportCalls = s.db.reportCalls ++ new := by
  have hk : t.db.reportCalls = s.db.reportCalls → ∃ new, t.db.reportCalls = s.db.reportCalls ++ new :=
    fun hs => ⟨[], by rw [hs, append_nil]⟩
  cases step with
  | report request child body hd =>
    simp only [reportResult, bind_eq_ok] at hd
    obtain ⟨row, -, wrote⟩ := hd
    exact hk (by rw [afterReport_db, (writeReport_wrote wrote).rest])
  | agentReport request _ _ hd =>
    rw [afterReport_db] at hk ⊢
    obtain ⟨_, -, ⟨_, -, rfl, -⟩ | ⟨_, _, -, -, wrote, rfl, -⟩⟩ :=
      reportAgentResult_cases hd
    · exact hk rfl
    · exact ⟨_, by rw [wrote.rest]⟩
  | prepare request guard _ _ _ hd => exact hk (by rw [afterPrepare_db, (prepareTerminalResult_result hd).1])
  | commitSeal _ _ _ _ hd => exact hk (commitSeal_result hd).1
  | other _ _ calls => exact hk calls

theorem DraftStep.receipt {runId toolCallId : Text} {receipt : ReportCall}
    (hs : s.db.reportCall runId toolCallId = some receipt) :
    t.db.reportCall runId toolCallId = some receipt := by
  obtain ⟨_, calls⟩ := step.reportCalls
  rw [Database.reportCall] at hs ⊢
  rw [calls, find?_append, hs, Option.some_or]

end

end Effects

structure Tracks (delegationId : Text) (s : Draft) : Prop where
  missing : s.db.resultOf delegationId = none → s.accepted = [] ∧ s.fallback = none ∧ s.overDerived = false
  version : ∀ row, s.db.resultOf delegationId = some row →
    row.version = s.accepted.length + s.fallback.toList.length
  content : ∀ row, s.db.resultOf delegationId = some row → s.content = some row.content
  source : ∀ row, s.db.resultOf delegationId = some row → (row.source = .derived ↔ s.fallback.isSome)
  covered : s.overDerived = true ↔ s.fallback.isSome ∧ s.accepted ≠ []

section Tracks
variable {digest : Text → Text} {settings : Settings} {delegationId : Text} {first s t : Draft}
  {db' : Database}
variable {caller : Caller} {version : Nat}

theorem Effect.tracks (effect : Effect delegationId s t) (ht : Tracks delegationId s) :
    Tracks delegationId t := by
  cases effect with
  | kept row history =>
    rw [history]
    refine ⟨?_, ?_, ?_, ?_, ht.covered⟩
    · exact fun none => ht.missing (row ▸ none)
    · exact fun other hf => ht.version other (row ▸ hf)
    · exact fun other hf => ht.content other (row ▸ hf)
    · exact fun other hf => ht.source other (row ▸ hf)
  | reported body hm row history =>
    obtain ⟨ha, fallback, hc⟩ := ht.missing hm
    rw [history]
    simp only [ha, fallback, hc, nil_append]
    refine ⟨fun none => absurd (none.symm.trans row) (by simp), ?_, ?_, ?_, by simp⟩
    · intro other hf
      cases row.symm.trans hf
      rfl
    · intro other hf
      cases row.symm.trans hf
      rfl
    · intro other hf
      cases row.symm.trans hf
      simp [ReportBody.draft]
  | overwritten _ old hf unsealed row history =>
    have version := ht.version old hf
    have source := ht.source old hf
    have hc := ht.covered
    rw [history]
    refine ⟨fun none => absurd (none.symm.trans row) (by simp), ?_, ?_, ?_, ?_⟩
    · intro other hf
      cases row.symm.trans hf
      simp only [ReportBody.overwrite, length_append, length_singleton]
      omega
    · intro other hf
      cases row.symm.trans hf
      simp [Draft.content, ReportBody.overwrite, ReportBody.content, ResultRow.content]
    · intro other hf
      cases row.symm.trans hf
      exact source
    · simp only [Bool.or_eq_true, decide_eq_true_eq, hc, source]
      simp only [ne_eq, append_eq_nil_iff, cons_ne_self, and_false, not_false_eq_true, and_true]
      tauto
  | derived _ hm row history =>
    obtain ⟨ha, _, hc⟩ := ht.missing hm
    rw [history]
    simp only [ha, hc]
    refine ⟨fun none => absurd (none.symm.trans row) (by simp), ?_, ?_, ?_, by simp⟩
    · intro other hf
      cases row.symm.trans hf
      rfl
    · intro other hf
      cases row.symm.trans hf
      rfl
    · intro other hf
      cases row.symm.trans hf
      simp [derivedResult]
  | closed _ old hf _ row history =>
    have version := ht.version old hf
    have content := ht.content old hf
    have source := ht.source old hf
    rw [history]
    refine ⟨fun none => absurd (none.symm.trans row) (by simp), ?_, ?_, ?_, ht.covered⟩
    · intro other hf
      cases row.symm.trans hf
      exact version
    · intro other hf
      cases row.symm.trans hf
      exact content
    · intro _ hf
      cases row.symm.trans hf
      exact source

theorem Effect.sealed (effect : Effect delegationId s t) {row : ResultRow}
    (hf : s.db.resultOf delegationId = some row) (final : row.sealed = true) :
    t.db.resultOf delegationId = some row := by
  cases effect with
  | kept same => rw [same, hf]
  | reported _ hm | derived _ hm => cases hm.symm.trans hf
  | overwritten _ old hs unsealed | closed _ old hs unsealed =>
    cases hs.symm.trans hf
    cases final.symm.trans unsealed

abbrev DraftRun (digest : Text → Text) (settings : Settings) (delegationId : Text) : Draft → Draft → Prop :=
  ReflTransGen (DraftStep digest settings delegationId)

structure Receipted (digest : Text → Text) (caller : Caller) (payload : Payload) (version : Nat)
    (db : Database) : Prop where
  formed : Formed db
  stored : ∃ row key run, db.delegationByChild caller.sessionId = some row ∧
    db.reportCall caller.runId caller.toolCallId =
      some ⟨caller.runId, caller.toolCallId, row.id, payload, version⟩ ∧
    initialRunIdempotencyKey digest row.id = .ok key ∧
    db.prompts.runByKey caller.sessionId key = some run ∧ run.id = caller.runId

theorem DraftStep.receipted {payload : Payload} (step : DraftStep digest settings delegationId s t)
    (before : Receipted digest caller payload version s.db) :
    Receipted digest caller payload version t.db := by
  obtain ⟨_, key, _, hf, receipt, keyed, hl, own⟩ := before.stored
  obtain ⟨row', hf', hs⟩ := step.transaction.delegationByChild before.formed hf
  obtain ⟨run', hl', advance⟩ := (step.transaction.advance before.formed).runByKey hl
  exact ⟨step.transaction.formed before.formed, row', key, run', hf', by rw [hs]; exact step.receipt receipt,
    by rw [hs]; exact keyed, hl', advance.id.trans own⟩

theorem reportAgentResult_receipted {request : Request} {body : ReportBody} {db : Database}
    (hfo : Formed db)
    (done :
      reportAgentResult digest settings request db caller body = .ok (db', .written version)) :
    Receipted digest caller body.payload version db' := by
  have after : Formed db' := (Transaction.reportAgentResult request caller body done).formed hfo
  have full := done
  simp only [reportAgentResult, loadChildDelegation, steps_ok] at full
  obtain ⟨-, _, ⟨-, hf⟩, key, keyed, initial, -⟩ := full
  obtain ⟨row', again, ⟨_, -, -, written⟩ | ⟨basis, written, hm, -, wrote, rfl, reported⟩⟩ :=
    reportAgentResult_cases done
  · cases written
  · obtain rfl := Option.some.inj (again.symm.trans hf)
    obtain rfl : version = basis + 1 := by simpa using reported
    refine ⟨after, row', key, ?_⟩
    cases hl : db.prompts.runByKey caller.sessionId key with
    | none => simp [hl] at initial
    | some run =>
      have own : run.id = caller.runId := by simpa [hl] using initial
      refine ⟨run, ?_, ?_, keyed, ?_, own⟩
      · rw [wrote.rest]
        exact hf
      · rw [Database.reportCall, find?_append, wrote.rest]
        rw [Database.reportCall] at hm
        rw [hm]
        simp
      · rw [wrote.rest]
        exact hl

theorem reportAgentResult_receipt {request : Request} {body : ReportBody} {payload : Payload}
    {db : Database} (receipted : Receipted digest caller payload version db)
    (hs : body.payload = payload)
    (authorized : authorizeCaller settings request db caller = .ok ()) :
    reportAgentResult digest settings request db caller body = .ok (db, .receipt version) := by
  obtain ⟨row, key, run, hf, receipt, keyed, hl, own⟩ := receipted.stored
  have session : authorizeSession request db caller.sessionId = .ok () := by
    simp only [authorizeCaller, authorizeCallerIdentity, steps_ok] at authorized
    exact authorized.2.2.1
  have initial : rejectIf ((db.prompts.runByKey caller.sessionId key).all (·.id ≠ caller.runId) = true)
      (ThreadError.notFound caller.sessionId) = .ok () := by
    rw [rejectIf_eq_ok, hl]
    simp [own]
  have payloads : rejectIf (row.id ≠ row.id ∨ payload ≠ body.payload)
      (ThreadError.conflict "report call payload changed") = .ok () := by
    simp [hs]
  simp only [reportAgentResult, loadChildDelegation, authorized, session, hf, keyed, initial,
    receipt, payloads, orRaise, bind, Except.bind, pure, Except.pure]

structure DraftContract (digest : Text → Text) (settings : Settings) (delegationId : Text)
    (s : Draft) : Prop where
  counted : ∀ row, s.db.resultOf delegationId = some row →
    row.version = s.accepted.length + s.fallback.toList.length ∧ s.content = some row.content
  expected : ∀ request child body db' version,
    reportResult request s.db child body = .ok (db', .written version) →
    (s.db.delegationByChild child).map (·.id) = some delegationId →
    body.expectedVersion = s.version delegationId ∧ version = body.expectedVersion + 1 ∧
    (db'.resultOf delegationId).map (·.version) = some version
  replayed : ∀ request caller body db' version t,
    reportAgentResult digest settings request s.db caller body = .ok (db', .written version) →
    DraftRun digest settings delegationId
      (s.afterReport delegationId db' caller.sessionId body (.written version)) t →
    ∀ request' body', body'.payload = body.payload →
      authorizeCaller settings request' t.db caller = .ok () →
      reportAgentResult digest settings request' t.db caller body' = .ok (t.db, .receipt version)
  closed : ∀ row t, s.db.resultOf delegationId = some row → row.sealed = true →
    DraftRun digest settings delegationId s t → t.db.resultOf delegationId = some row
  source : ∀ row, s.db.resultOf delegationId = some row →
    ((row.source = .derived ↔ s.accepted = []) ↔ s.overDerived = false)

/-- Through every run: the version counts the accepted writes; a manual report that is written
was based on its expected version; a report call that was written is answered with its version
whenever it is delivered again, and writes nothing; a sealed draft stays; the draft is the last
accepted report, or the fallback. The source tells the two apart exactly when no report was
written over the fallback. -/
theorem result_drafts (formed : Formed first.db) (start : Tracks delegationId first)
    (run : DraftRun digest settings delegationId first s) :
    DraftContract digest settings delegationId s := by
  have hh := run_keeps (fun s : Draft => Formed s.db) (fun _ _ step => step.transaction.formed) run formed
  have ht := run_keeps (Tracks delegationId) (fun _ _ step => step.effect.tracks) run start
  refine ⟨fun row hf => ⟨ht.version row hf, ht.content row hf⟩, ?_, ?_, ?_, ?_⟩
  · intro request _ body db' version hd hn
    simp only [reportResult, loadChildDelegation, steps_ok] at hd
    obtain ⟨row, ⟨-, hf⟩, wrote⟩ := hd
    obtain rfl : row.id = delegationId := by simpa [hf] using hn
    cases writeReport_wrote wrote with
    | first hm expected =>
      refine ⟨by rw [Draft.version, hm, expected]; rfl, by rw [expected], ?_⟩
      rw [resultOf_insertResult, hm]
      simp [ReportBody.draft]
    | @next _ old unsealed expected =>
      refine ⟨by rw [Draft.version, old, ← expected]; rfl, by rw [expected], ?_⟩
      rw [resultOf_updateResult (overwrite_delegationId body), old]
      simp [resultOf_delegationId old, unsealed, ReportBody.overwrite]
  · intro _ caller body _ version t hd later _ _ hs authorized
    refine reportAgentResult_receipt ?_ hs authorized
    refine run_keeps (fun t : Draft => Receipted digest caller body.payload version t.db)
      (fun _ _ step => step.receipted) later ?_
    rw [afterReport_db]
    exact reportAgentResult_receipted hh hd
  · exact fun row t hf final later => run_keeps (fun s : Draft => s.db.resultOf delegationId = some row)
      (fun _ _ step hs => step.effect.sealed hs final) later hf
  · intro row hf
    have hc := ht.covered
    have content := ht.content row hf
    rw [ht.source row hf]
    cases fallback : s.fallback with
    | none =>
      have accepted : s.accepted ≠ [] := by
        intro none
        simp [Draft.content, none, fallback] at content
      simp [fallback, accepted] at hc ⊢
      exact hc
    | some _ =>
      simp [fallback] at hc ⊢
      rw [← Bool.not_eq_true, hc, not_not]

end Tracks

def childDelegation : Delegation :=
  { sampleReservation with
    childSessionId := some (text "child")
    childWorkspaceId := some (text "child-workspace")
    status := .running
    baseKind := some .head
    baseCommit := some (text "base") }

def finishedChild : Database where
  repos := rootDatabase.repos
  workspaces := rootDatabase.workspaces ++
    [{ id := text "child-workspace", repoId := text "repo", path := text "/repo/child", delegated := true }]
  sessions := rootDatabase.sessions ++ [{ id := text "child", workspaceId := text "child-workspace" }]
  runs := [⟨text "run", text "child", childDelegation.id, .completed⟩]
  delegations := [childDelegation]

def preparedChild : Database :=
  { finishedChild with
    delegations := [{ childDelegation with status := .completed }]
    results := [derivedResult childDelegation.id (text "Done.")] }

def lateReport : ReportBody where
  expectedVersion := 1
  summary := text "All tests pass."

def reportedChild : Database :=
  { preparedChild with
    results := [{ derivedResult childDelegation.id (text "All tests pass.") with
      version := 2, warnings := [] }] }

theorem finishedChild_formed : Formed finishedChild :=
  ⟨by decide, by decide, by decide, by decide, by decide, by decide⟩

theorem finishedChild_tracks : Tracks childDelegation.id { db := finishedChild } :=
  ⟨fun _ => ⟨rfl, rfl, rfl⟩, by decide, by decide, by decide, by decide⟩

theorem report_after_fallback :
    DraftRun id {} childDelegation.id { db := finishedChild }
      { db := reportedChild, accepted := [lateReport], fallback := some (text "Done."),
        overDerived := true } := by
  have prepared :
      prepareTerminalResult id {} noGuard finishedChild (text "child") (text "run") (text "Done.") =
      .ok (preparedChild, some {
        delegationId := childDelegation.id
        childSessionId := text "child"
        childWorkspaceId := text "child-workspace"
        baseCommit := text "base"
        parentSessionId := text "root"
        gitArtifactsClaimed := false
        gitArtifactNamespace := none
        resultVersion := 1
        context := ⟨text "repo", text "/repo/child", text "/repo"⟩
        terminal := some (text "run", .completed) }) := by decide
  have reported : reportResult {} preparedChild (text "child") lateReport = .ok (reportedChild, .written 2) := by
    decide
  have fallback : Draft.afterPrepare childDelegation.id { db := finishedChild } preparedChild (text "Done.") =
      { db := preparedChild, fallback := some (text "Done.") } := by decide
  have ha : Draft.afterReport childDelegation.id
      { db := preparedChild, fallback := some (text "Done.") } reportedChild (text "child")
        lateReport (.written 2) =
      { db := reportedChild, accepted := [lateReport], fallback := some (text "Done."),
        overDerived := true } := by
    decide
  rw [← ha]
  refine .tail (.single ?_) (.report {} (text "child") lateReport reported)
  rw [← fallback]
  exact .prepare {} noGuard (text "child") (text "run") (text "Done.") prepared

theorem result_drafts_lateReport :
    Formed finishedChild ∧
    ∀ row, reportedChild.resultOf childDelegation.id = some row →
      ((row.source = .derived ↔ [lateReport] = []) ↔ true = false) :=
  ⟨finishedChild_formed,
    (result_drafts finishedChild_formed finishedChild_tracks report_after_fallback).source⟩

/-- An accepted report leaves the source of the fallback. -/
theorem derived_after_report :
    ∃ s : Draft, DraftRun id {} childDelegation.id { db := finishedChild } s ∧ s.accepted ≠ [] ∧
      ∃ row, s.db.resultOf childDelegation.id = some row ∧ row.source = .derived :=
  ⟨_, report_after_fallback, by simp, by decide⟩

end Yinshi.Threads
