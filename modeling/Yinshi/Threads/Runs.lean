import Yinshi.Threads.Store

/-! The prompt runs under the transactions: a run keeps its key and its status only rises. -/

namespace Yinshi.Threads
open ByteText Keyed Checked Runs Relation List
open Prompt (PromptRun)

structure Advance (run run' : PromptRun) : Prop where
  id : run'.id = run.id
  session : run'.sessionId = run.sessionId
  key : run'.idempotencyKey = run.idempotencyKey
  rises : run.status.rank ≤ run'.status.rank
  final : run.status ∈ Prompt.terminalStatuses → run'.status = run.status

theorem Advance.refl (run : PromptRun) : Advance run run := ⟨rfl, rfl, rfl, le_rfl, fun _ => rfl⟩

theorem Advance.trans {first second third : PromptRun} (front : Advance first second)
    (back : Advance second third) : Advance first third :=
  ⟨back.id.trans front.id, back.session.trans front.session, back.key.trans front.key,
    front.rises.trans back.rises, fun terminal =>
      (back.final (front.final terminal ▸ terminal)).trans (front.final terminal)⟩

def RunsAdvance (runs runs' : List PromptRun) : Prop :=
  ∃ front new, runs' = front ++ new ∧ List.Forall₂ Advance runs front ∧ new.length ≤ 1

theorem RunsAdvance.refl (runs : List PromptRun) : RunsAdvance runs runs :=
  ⟨runs, [], (append_nil runs).symm, forall₂_same.mpr fun run _ => .refl run, by simp⟩

theorem RunsAdvance.of_eq {runs runs' : List PromptRun} (hs : runs' = runs) : RunsAdvance runs runs' :=
  hs ▸ .refl runs

section Prompts
variable {db db' : Prompt.Database}

theorem advance_updateStatus {id : Text} {status : Prompt.Status} {expected : List Prompt.Status}
    (rises : ∀ old ∈ expected, old ∈ Prompt.activeStatuses ∧ old.rank ≤ status.rank) :
    List.Forall₂ Advance db.runs (db.updateStatus id status expected).runs := by
  refine forall₂_map_right_iff.mpr (forall₂_same.mpr fun run _ => ?_)
  split
  next chosen =>
    obtain ⟨active, higher⟩ := rises _ chosen.2
    exact ⟨rfl, rfl, rfl, higher,
      fun terminal => absurd active (Prompt.Database.terminal_not_active terminal)⟩
  next => exact .refl run

theorem forall₂_advance_trans {runs runs' runs'' : List PromptRun}
    (front : List.Forall₂ Advance runs runs') (back : List.Forall₂ Advance runs' runs'') :
    List.Forall₂ Advance runs runs'' := by
  induction front generalizing runs'' with
  | nil => exact back
  | cons hh _ ih =>
    cases back with
    | cons ht rest => exact .cons (hh.trans ht) (ih rest)

theorem advance_recoverRun (row : PromptRun) : List.Forall₂ Advance db.runs (db.recoverRun row).runs := by
  have terminal : ∀ status ∈ Prompt.terminalStatuses, ∀ old ∈ Prompt.activeStatuses,
      old ∈ Prompt.activeStatuses ∧ old.rank ≤ status.rank :=
    fun status isTerminal old active => ⟨active, Prompt.rank_le_terminal isTerminal old⟩
  rw [Prompt.Database.recoverRun]
  split
  next =>
    have hs : ∀ other : Prompt.Database, other.runs = db.runs →
        Forall₂ Advance db.runs (other.updateStatus row.id .interrupted Prompt.activeStatuses).runs := by
      intro _ hk
      rw [← hk]
      exact advance_updateStatus (terminal .interrupted (by decide))
    exact hs _ (by split <;> rfl)
  next derived hf =>
    refine advance_updateStatus (terminal _ ?_)
    split
    · decide
    · obtain ⟨_, -, final⟩ := exists_of_findSome?_eq_some hf
      simp only [Prompt.Event.finalStatus, Option.bind_eq_some_iff] at final
      obtain ⟨_, -, hl⟩ := final
      have : ∀ pair ∈ Prompt.terminalEventFinalStatuses, pair.2 ∈ Prompt.terminalStatuses := by decide
      exact this _ ((lookup_eq_some_iff_mem (by decide)).mp hl)

theorem advance_recover : List.Forall₂ Advance db.runs db.recoverPromptDatabase.runs := by
  have folded : ∀ (rows : List PromptRun) (db : Prompt.Database),
      Forall₂ Advance db.runs (rows.foldl Prompt.Database.recoverRun db).runs := by
    intro rows
    induction rows with
    | nil => exact fun db => forall₂_same.mpr fun run _ => .refl run
    | cons row _ ih => exact fun db => forall₂_advance_trans (advance_recoverRun row) (ih _)
  exact folded _ db

theorem writes_advance (writes : db.Writes db') : RunsAdvance db.runs db'.runs := by
  cases writes with
  | unchanged => exact .refl _
  | inserted new =>
    rw [Prompt.Database.insertRun] at new
    split at new
    next => simp at new
    next =>
      cases new
      exact ⟨db.runs, _, rfl, forall₂_same.mpr fun run _ => .refl run, by simp⟩
  | updated _ _ _ rises => exact ⟨_, [], (append_nil _).symm, advance_updateStatus rises, by simp⟩
  | appended append => exact .of_eq append.attempt_runs
  | recovered => exact ⟨_, [], (append_nil _).symm, advance_recover, by simp⟩

end Prompts

section Lookup
variable {db db' : Database}

theorem RunsAdvance.runByKey (advance : RunsAdvance db.runs db'.runs) {child key : Text}
    {run : PromptRun} (hf : db.prompts.runByKey child key = some run) :
    ∃ run', db'.prompts.runByKey child key = some run' ∧ Advance run run' := by
  obtain ⟨_, _, rows, each, -⟩ := advance
  have agree : ∀ run run', Advance run run' →
      decide (run.sessionId = child ∧ run.idempotencyKey = key) =
        decide (run'.sessionId = child ∧ run'.idempotencyKey = key) := by
    intro _ run' hh
    rw [hh.session, hh.key]
  rcases forall₂_find? agree each with ⟨hm, -⟩ | ⟨_, -, run', -, first, second, hh⟩
  · cases hm.symm.trans hf
  · cases first.symm.trans hf
    refine ⟨run', ?_, hh⟩
    change db'.runs.find? _ = _
    rw [rows, find?_append, second, Option.some_or]

end Lookup

end Yinshi.Threads
