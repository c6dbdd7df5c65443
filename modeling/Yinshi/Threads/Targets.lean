import Yinshi.Threads.Starting
import Yinshi.Threads.Walk

/-! What a cancellation selects. The walk down collects a delegation and everything below it,
each after the delegation of its parent session; the climb up looks for the session of the
caller and does not leave its repository. -/

namespace Yinshi.Threads
open ByteText Keyed Checked List

inductive Below (db : Database) (rootId : Text) : Delegation → Prop
  | root {row : Delegation} (member : row ∈ db.delegations) (same : row.id = rootId) : Below db rootId row
  | child {parent row : Delegation} (above : Below db rootId parent) (member : row ∈ db.delegations)
      (attached : parent.childSessionId = some row.parentSessionId) : Below db rootId row

def Apart (db : Database) : Prop := ∀ row ∈ db.delegations, db.sessionById row.id = none

/-- A delegation is called by its child session or by its own id. -/
def Named (db : Database) (threadId : Text) (row : Delegation) : Prop :=
  row ∈ db.delegations ∧ (row.childSessionId = some threadId ∨ row.id = threadId)

section Targets
variable {settings : Settings} {request : Request} {db : Database}
  {resolve : Text → Except ThreadError Delegation}
variable {threadId : Text} {seen : List Text} {root row : Delegation}
  {frontier : List (Delegation × Nat)} {waiting targets : List Delegation}

theorem Below.mem {rootId : Text} (hb : Below db rootId row) : row ∈ db.delegations := by
  cases hb with
  | root hm | child _ hm => exact hm

def Resolves (db : Database) (resolve : Text → Except ThreadError Delegation) : Prop :=
  ∀ row ∈ db.delegations, ∀ found, resolve row.id = .ok found → found ∈ db.delegations ∧ found.id = row.id

theorem resolveCancelTarget_resolves (ha : Apart db) : Resolves db (resolveCancelTarget request db) := by
  intro row hm _ resolved
  simp only [resolveCancelTarget, ha row hm, steps_ok] at resolved
  obtain ⟨_, hr, -, rfl⟩ := resolved
  exact ⟨mem_of_find?_eq_some hr, by simpa using find?_some hr⟩

theorem authorizeDescendant_eq_ok {caller : Caller} {found : Delegation}
    (authorized : authorizeDescendant settings request db caller threadId = .ok found) :
    resolveCancelTarget request db threadId = .ok found := by
  simp only [authorizeDescendant, steps_ok] at authorized
  obtain ⟨-, -, _, resolved, _, -, -, -, -, rfl⟩ := authorized
  exact resolved

theorem resolveCancelTarget_named {found : Delegation}
    (resolved : resolveCancelTarget request db threadId = .ok found) : Named db threadId found := by
  rw [resolveCancelTarget] at resolved
  split at resolved
  next =>
    obtain ⟨hm, own⟩ := loadChildDelegation_mem resolved
    exact ⟨hm, .inl own⟩
  next =>
    simp only [steps_ok] at resolved
    obtain ⟨_, hr, -, rfl⟩ := resolved
    exact ⟨mem_of_find?_eq_some hr, .inr (by simpa using find?_some hr)⟩

inductive Grown (db : Database) (root : Delegation) : List Delegation → List Delegation → Prop
  | root : Grown db root [root] [root]
  | expand {parent : Delegation} {waiting targets rows : List Delegation}
      (grown : Grown db root (parent :: waiting) targets)
      (children : ∀ row, row ∈ rows ↔ row ∈ db.delegations ∧ parent.childSessionId = some row.parentSessionId)
      (fresh : ((targets ++ rows).map (·.id)).Nodup) : Grown db root (waiting ++ rows) (targets ++ rows)

section
variable (grown : Grown db root waiting targets)
include grown

theorem Grown.waits : ∀ target ∈ waiting, target ∈ targets := by
  induction grown with
  | root => exact fun _ => id
  | expand _ _ _ ih =>
    intro target hm
    rcases mem_append.mp hm with old | new
    · exact mem_append_left _ (ih target (mem_cons_of_mem _ old))
    · exact mem_append_right _ new

theorem Grown.nodup : (targets.map (·.id)).Nodup := by
  cases grown with
  | root => exact nodup_singleton _
  | expand _ _ fresh => exact fresh

theorem Grown.headed : ∃ rest, targets = root :: rest := by
  induction grown with
  | root => exact ⟨[], rfl⟩
  | expand _ _ _ ih =>
    obtain ⟨rest, rfl⟩ := ih
    exact ⟨_, cons_append⟩

theorem Grown.stands (hm : root ∈ db.delegations) : ∀ target ∈ targets, Below db root.id target := by
  induction grown with
  | root =>
    intro target hl
    rw [mem_singleton.mp hl]
    exact .root hm rfl
  | expand grown children _ ih =>
    intro target hl
    rcases mem_append.mp hl with old | new
    · exact ih target old
    · obtain ⟨stored, attached⟩ := (children target).mp new
      exact .child (ih _ (grown.waits _ mem_cons_self)) stored attached

theorem Grown.closed :
    ∀ target ∈ targets, target ∈ waiting ∨
      ∀ row ∈ db.delegations,
        target.childSessionId = some row.parentSessionId → row ∈ targets.tail := by
  induction grown with
  | root => exact fun _ => .inl
  | @expand _ _ _ rows grown children _ ih =>
    obtain ⟨rest, rfl⟩ := grown.headed
    intro target hl
    rcases mem_append.mp hl with old | new
    · rcases ih target old with waits | done
      · rcases mem_cons.mp waits with rfl | later
        · exact .inr fun row hm under => mem_append_right _ ((children row).mpr ⟨hm, under⟩)
        · exact .inl (mem_append_left _ later)
      · exact .inr fun row hm under => mem_append_left _ (done row hm under)
    · exact .inl (mem_append_right _ new)

theorem Grown.follows {front back : List Delegation} (hs : targets = front ++ row :: back) :
    front = [] ∨ ∃ parent ∈ front, parent.childSessionId = some row.parentSessionId := by
  induction grown generalizing front back with
  | root =>
    cases front with
    | nil => exact .inl rfl
    | cons _ _ => simp at hs
  | @expand parent _ targets rows grown children _ ih =>
    rcases append_eq_append_iff.mp hs with ⟨more, rfl, later⟩ | ⟨more, early, later⟩
    · have new : row ∈ rows := by
        rw [later]
        exact mem_append_right _ mem_cons_self
      exact .inr ⟨parent, mem_append_left _ (grown.waits _ mem_cons_self), ((children row).mp new).2⟩
    · cases more with
      | nil =>
        have new : row ∈ rows := by
          rw [← nil_append rows, ← later]
          exact mem_cons_self
        rw [append_nil] at early
        exact .inr ⟨parent, early ▸ grown.waits _ mem_cons_self, ((children row).mp new).2⟩
      | cons _ _ =>
        obtain ⟨rfl, -⟩ := cons.inj later
        exact ih early

end

theorem Grown.ordered (grown : Grown db root [] targets) (hp : Parented db)
    (hm : root ∈ db.delegations) {front back : List Delegation}
    (hs : targets = front ++ row :: back) {parent : Delegation} (hl : parent ∈ targets)
    (under : parent.childSessionId = some row.parentSessionId) : parent ∈ front := by
  have stored :
    ∀ target ∈ targets, target ∈ db.delegations := fun target ht => (grown.stands hm target ht).mem
  have hr : row ∈ targets := by
    rw [hs]
    exact mem_append_right _ mem_cons_self
  rcases grown.follows hs with rfl | ⟨other, before, theirs⟩
  · -- The root is never selected again.
    have again := (grown.closed parent hl).resolve_left (by simp) row (stored row hr) under
    have once := grown.nodup
    rw [hs] at again once
    exact absurd (mem_map_of_mem again) (nodup_cons.mp once).1
  · rw [hp.sameChild (stored parent hl) (stored other (hs ▸ mem_append_left _ before)) under theirs]
    exact before

theorem Grown.complete (grown : Grown db root [] targets) (hp : Parented db)
    (hm : root ∈ db.delegations) : row ∈ targets ↔ Below db root.id row := by
  refine ⟨grown.stands hm row, fun hb => ?_⟩
  induction hb with
  | root stored same =>
    obtain ⟨rest, rfl⟩ := grown.headed
    rw [key_inj_of_nodup hp.ids stored hm same]
    exact mem_cons_self
  | child _ stored under ih =>
    exact mem_of_mem_tail ((grown.closed _ ih).resolve_left (by simp) _ stored under)

theorem addAll_eq_ok (resolves : Resolves db resolve) {depth : Nat} {identifiers seen' : List Text}
    {selection selection' : Selection}
    (stored : ∀ identifier ∈ identifiers, ∃ row ∈ db.delegations, row.id = identifier)
    (hd : Selection.addAll resolve depth selection seen identifiers = .ok (selection', seen')) :
    ∃ rows : List Delegation, rows.map (·.id) = identifiers ∧
      (∀ row ∈ rows, row ∈ db.delegations ∧ resolve row.id = .ok row) ∧
      selection' = ⟨selection.frontier ++ rows.map (·, depth + 1), selection.targets ++ rows⟩ ∧
      seen' = seen ++ identifiers ∧
      (seen.Nodup ∧ seen.length ≤ 500 → seen'.Nodup ∧ seen'.length ≤ 500) := by
  induction identifiers generalizing selection seen with
  | nil =>
    obtain ⟨rfl, rfl⟩ := hd
    exact ⟨[], by simp⟩
  | cons identifier _ ih =>
    simp only [Selection.addAll, Selection.add, steps_ok] at hd
    obtain ⟨_, ⟨few, row, resolved, rfl⟩, hd⟩ := hd
    obtain ⟨hk, hm, rfl⟩ := stored identifier mem_cons_self
    obtain ⟨hr, hs⟩ := resolves hk hm row resolved
    obtain ⟨rows, ids, hl, rfl, rfl, hb⟩ :=
      ih (fun other ho => stored other (mem_cons_of_mem _ ho)) hd
    refine ⟨row :: rows, by simp [hs, ids], ?_, by simp, by simp, fun old => ?_⟩
    · intro other ho
      rcases mem_cons.mp ho with rfl | later
      · exact ⟨hr, by rw [hs, resolved]⟩
      · exact hl other later
    · obtain ⟨unseen, room⟩ := not_or.mp few
      refine hb ⟨nodup_append.mpr ⟨old.1, nodup_singleton _, ?_⟩, ?_⟩
      · intro other ho _ hh
        rw [mem_singleton.mp hh]
        rintro rfl
        exact unseen ho
      · rw [length_append, length_singleton]
        omega

theorem mem_childIds {sessionId identifier : Text} (hl : identifier ∈ childIds db sessionId) :
    ∃ row ∈ db.delegations, row.parentSessionId = sessionId ∧ row.id = identifier := by
  have hm := mem_of_mem_take hl
  rw [mem_sortBy, mem_map] at hm
  obtain ⟨row, chosen, hs⟩ := hm
  obtain ⟨stored, under⟩ := mem_filter.mp chosen
  exact ⟨row, stored, by simpa using under, hs⟩

theorem childIds_complete {sessionId : Text} (few : (childIds db sessionId).length ≤ 500)
    (hm : row ∈ db.delegations) (under : row.parentSessionId = sessionId) :
    row.id ∈ childIds db sessionId := by
  have hw : childIds db sessionId =
        sortBy id ((db.delegations.filter (·.parentSessionId = sessionId)).map (·.id)) := by
    refine take_of_length_le ?_
    rw [childIds, length_take] at few
    omega
  rw [hw, mem_sortBy]
  exact mem_map_of_mem (mem_filter.mpr ⟨hm, by simpa using under⟩)

theorem selectTargets_grown (hp : Parented db) (resolves : Resolves db resolve) {turns : Nat}
    {last : Selection} (grown : Grown db root (frontier.map (·.1)) targets)
    (few : targets.length ≤ 500) (budget : turns + targets.length = 501 + frontier.length)
    (named : ∀ target ∈ targets, ∃ name, resolve name = .ok target)
    (hd : selectTargets db resolve turns ⟨frontier, targets⟩ (targets.map (·.id)) = .ok last) :
    Grown db root [] last.targets ∧ ∀ target ∈ last.targets, ∃ name, resolve name = .ok target := by
  induction turns generalizing frontier targets with
  | zero => omega
  | succ turns ih =>
    cases frontier with
    | nil =>
      simp only [selectTargets, Except.ok.injEq] at hd
      subst hd
      exact ⟨grown, named⟩
    | cons next frontier =>
      rw [length_cons] at budget
      rw [map_cons] at grown
      simp only [selectTargets] at hd
      split at hd
      next bare =>
        have popped := @Grown.expand db root next.1 _ targets [] grown (by simp [bare])
            (by simpa using grown.nodup)
        simp only [append_nil] at popped
        exact ih popped few (by omega) named hd
      next child ha =>
        simp only [steps_ok] at hd
        obtain ⟨-, ⟨_, _⟩, added, hd⟩ := hd
        have stored : ∀ identifier ∈ childIds db child, ∃ row ∈ db.delegations, row.id = identifier := by
          intro identifier hl
          obtain ⟨row, hm, -, hs⟩ := mem_childIds hl
          exact ⟨row, hm, hs⟩
        obtain ⟨rows, ids, hr, rfl, rfl, hb⟩ := addAll_eq_ok resolves stored added
        rw [← ids, ← map_append] at hb hd
        obtain ⟨fresh, few'⟩ := hb ⟨grown.nodup, by rwa [length_map]⟩
        rw [length_map] at few'
        have children : ∀ row, row ∈ rows ↔
              row ∈ db.delegations ∧ next.1.childSessionId = some row.parentSessionId := by
          refine fun row => ⟨fun hl => ?_, ?_⟩
          · obtain ⟨other, ho, under, hs⟩ := mem_childIds (ids ▸ mem_map_of_mem hl)
            rw [key_inj_of_nodup hp.ids ho (hr row hl).1 hs] at under
            exact ⟨(hr row hl).1, by rw [ha, under]⟩
          · rintro ⟨hm, under⟩
            have hl : row.id ∈ childIds db child := by
              refine childIds_complete ?_ hm (Option.some.inj (ha.symm.trans under)).symm
              rw [length_append] at few'
              rw [← ids, length_map]
              omega
            rw [← ids] at hl
            obtain ⟨other, ho, hs⟩ := mem_map.mp hl
            rwa [← key_inj_of_nodup hp.ids (hr other ho).1 hm hs]
        have popped := grown.expand children fresh
        have walked : (frontier ++ rows.map (·, next.2 + 1)).map (·.1) = frontier.map (·.1) ++ rows := by
          simp [Function.comp_def]
        refine ih (walked ▸ popped) few' ?_ ?_ hd
        · simp only [length_append, length_map]
          omega
        · intro target hl
          rcases mem_append.mp hl with old | new
          · exact named target old
          · exact ⟨target.id, (hr target new).2⟩

theorem cancelTargets_grown (hp : Parented db) (ha : Apart db) {caller : Option Caller}
    {cascade : Bool}
    (hd : cancelTargets settings request db threadId caller cascade = .ok targets) :
    ∃ root rest, targets = root :: rest ∧ Named db threadId root ∧
      (cascade = true ∨ root.cancelScope = some .subtree → Grown db root [] targets) ∧
      ∀ agent ∈ caller, ∀ row ∈ targets, ∃ name,
        authorizeDescendant settings request db agent name = .ok row := by
  obtain ⟨resolve, resolves, names, agents, found, resolved, selects⟩ : ∃ resolve,
      Resolves db resolve ∧ (∀ found, resolve threadId = .ok found → Named db threadId found) ∧
      (∀ agent ∈ caller, resolve = authorizeDescendant settings request db agent) ∧ ∃ found,
      resolve threadId = .ok found ∧ (if cascade ∨ found.cancelScope = some .subtree then
        (·.targets) <$> selectTargets db resolve 501 ⟨[(found, 0)], [found]⟩ [found.id]
      else pure [found]) = .ok targets := by
    cases caller with
    | none =>
      simp only [cancelTargets, bind_eq_ok] at hd
      exact ⟨_, resolveCancelTarget_resolves ha, fun _ => resolveCancelTarget_named, by simp, hd⟩
    | some caller =>
      simp only [cancelTargets, bind_eq_ok] at hd
      exact ⟨_,
        (fun row hm hf authorized =>
          resolveCancelTarget_resolves ha row hm hf (authorizeDescendant_eq_ok authorized)),
        fun _ authorized => resolveCancelTarget_named (authorizeDescendant_eq_ok authorized), by simp, hd⟩
  have named : ∀ row ∈ [found], ∃ name, resolve name = .ok row := by
    intro row hl
    rw [mem_singleton.mp hl]
    exact ⟨threadId, resolved⟩
  by_cases cascading : cascade = true ∨ found.cancelScope = some .subtree
  · rw [if_pos cascading] at selects
    simp only [map_eq_ok] at selects
    obtain ⟨_, walked, rfl⟩ := selects
    obtain ⟨grown, all⟩ := selectTargets_grown hp resolves .root (by simp) rfl named walked
    obtain ⟨rest, hs⟩ := grown.headed
    exact ⟨found, rest, hs, names found resolved, fun _ => grown, fun agent hc => agents agent hc ▸ all⟩
  · rw [if_neg cascading] at selects
    cases pure_eq_ok.mp selects
    exact ⟨found, [], rfl, names found resolved, fun isCascade => absurd isCascade cascading,
      fun agent hc => agents agent hc ▸ named⟩

theorem cancelTargets_covers {caller : Option Caller} {cascade : Bool} {rest : List Delegation}
    (hf : Formed db) (ha : Apart db)
    (hd : cancelTargets settings request db threadId caller cascade = .ok (root :: rest)) :
    root ∈ db.delegations ∧
    (cascade = true ∨ root.cancelScope = some .subtree →
      ∀ row, Below db root.id row → row.id ∈ (root :: rest).map (·.id)) := by
  obtain ⟨_, _, hs, named, grown, -⟩ := cancelTargets_grown hf.parented ha hd
  cases hs
  exact ⟨named.1, fun cascading row hb =>
    mem_map_of_mem (((grown cascading).complete hf.parented named.1).mpr hb)⟩

end Targets

inductive Climb (db : Database) (repoId sessionId : Text) : List Text → Delegation → Prop
  | last {row : Delegation} (member : row ∈ db.delegations) (parent : row.parentSessionId = sessionId)
      (home : sessionRepository db row.parentSessionId = .ok repoId) :
      Climb db repoId sessionId [row.parentSessionId] row
  | next {above row : Delegation} {sessions : List Text} (upwards : Climb db repoId sessionId sessions above)
      (member : row ∈ db.delegations) (attached : above.childSessionId = some row.parentSessionId)
      (home : sessionRepository db row.parentSessionId = .ok repoId) :
      Climb db repoId sessionId (row.parentSessionId :: sessions) row

/-- A delegation strictly below a session, through sessions of the session's repository. -/
structure Descends (db : Database) (sessionId : Text) (sessions : List Text) (row : Delegation) : Prop where
  climb : ∃ repoId, sessionRepository db sessionId = .ok repoId ∧ Climb db repoId sessionId sessions row ∧
    ∀ child ∈ row.childSessionId, sessionRepository db child = .ok repoId
  strict : row.childSessionId ≠ some sessionId

section Climbs
variable {settings : Settings} {request : Request} {db : Database} {caller : Caller}
  {repoId threadId : Text} {row : Delegation} {hops : Nat} {visited sessions : List Text}

theorem Climb.mem (climb : Climb db repoId caller.sessionId sessions row) : row ∈ db.delegations := by
  cases climb with
  | last hm | next _ hm => exact hm

theorem climb_of_ok (hm : row ∈ db.delegations)
    (climbs : climbToCaller request db caller repoId threadId hops visited row = .ok ()) :
    ∃ sessions, Climb db repoId caller.sessionId sessions row ∧ sessions.length ≤ hops := by
  induction hops generalizing visited row with
  | zero => simp [climbToCaller] at climbs
  | succ hops ih =>
    simp only [climbToCaller, steps_ok, not_not] at climbs
    obtain ⟨-, -, _, home, rfl, climbs⟩ := climbs
    split at climbs
    next parent => exact ⟨_, .last hm parent home, Nat.succ_le_succ (Nat.zero_le hops)⟩
    next =>
      simp only [steps_ok] at climbs
      obtain ⟨above, hf, climbs⟩ := climbs
      obtain ⟨sessions, upwards, short⟩ := ih (mem_of_find?_eq_some hf) climbs
      exact ⟨_, .next upwards hm (by simpa using find?_some hf) home, Nat.succ_le_succ short⟩

theorem authorizeSession_of_repository {sessionId other : Text}
    (home : sessionRepository db sessionId = .ok repoId)
    (also : sessionRepository db other = .ok repoId)
    (authorized : authorizeSession request db sessionId = .ok ()) :
    authorizeSession request db other = .ok () := by
  simp only [sessionRepository, map_eq_ok, orRaise_eq_ok] at home also
  obtain ⟨workspace, ho, rfl⟩ := home
  obtain ⟨workspace', ho', same⟩ := also
  unfold authorizeSession authorize at authorized ⊢
  by_cases tenant : request.tenant = true
  · rw [if_pos tenant, rejectIf_eq_ok, Option.isNone_iff_eq_none]
    intro unknown
    simp [Database.workspaceOf, unknown] at ho'
  · rw [if_neg tenant] at authorized ⊢
    simp only [steps_ok, Database.location, ho, ho', Option.bind_some, same] at authorized ⊢
    obtain ⟨_, hr, owner⟩ := authorized
    obtain ⟨repo, hh, rfl⟩ := Option.map_eq_some_iff.mp hr
    exact ⟨(workspace', repo), by rw [hh]; rfl, owner⟩

theorem Climb.ok (hp : Parented db) (climb : Climb db repoId caller.sessionId sessions row)
    (own : sessionRepository db caller.sessionId = .ok repoId)
    (authorized : authorizeSession request db caller.sessionId = .ok ())
    (short : sessions.length ≤ hops) (acyclic : (sessions ++ visited).Nodup) :
    climbToCaller request db caller repoId threadId hops visited row = .ok () := by
  induction climb generalizing hops visited with
  | last hm parent home =>
    obtain ⟨hops, rfl⟩ := Nat.exists_eq_succ_of_ne_zero (Nat.pos_iff_ne_zero.mp short)
    simp only [climbToCaller, steps_ok, if_pos parent, home]
    exact ⟨(nodup_cons.mp acyclic).1, authorizeSession_of_repository own home authorized, _,
      rfl, by simp, trivial⟩
  | @next above row sessions upwards hm attached home ih =>
    obtain ⟨hops, rfl⟩ :=
      Nat.exists_eq_succ_of_ne_zero (Nat.ne_of_gt (Nat.lt_of_lt_of_le (Nat.succ_pos _) short))
    obtain ⟨unseen, rest⟩ := nodup_cons.mp acyclic
    have climbs := ih (Nat.le_of_succ_le_succ short)
      ((@nodup_middle _ row.parentSessionId sessions visited).mpr acyclic)
    simp only [climbToCaller, steps_ok, home]
    refine ⟨fun hs => unseen (mem_append_right _ hs), authorizeSession_of_repository own home authorized, _, rfl,
      by simp, ?_⟩
    split
    · rfl
    · simp only [steps_ok, delegationByChild_of_unique hp.ids hp.children upwards.mem attached]
      exact ⟨above, rfl, climbs⟩

theorem Climb.homes (climb : Climb db repoId caller.sessionId sessions row) :
    ∀ session ∈ sessions, sessionRepository db session = .ok repoId := by
  induction climb with
  | last _ _ home => exact fun session hm => mem_singleton.mp hm ▸ home
  | next _ _ _ home ih => exact forall_mem_cons.mpr ⟨home, ih⟩

theorem Climb.home (climb : Climb db repoId caller.sessionId sessions row) :
    sessionRepository db row.parentSessionId = .ok repoId := by
  cases climb with
  | last _ _ home | next _ _ _ home => exact home

theorem sessionById_of_repository {sessionId : Text}
    (home : sessionRepository db sessionId = .ok repoId) : db.sessionById sessionId ≠ none := by
  simp only [sessionRepository, map_eq_ok, orRaise_eq_ok] at home
  obtain ⟨_, ho, -⟩ := home
  intro unknown
  simp [Database.workspaceOf, unknown] at ho

theorem requireRepository_eq_ok {child : Option Text} :
    requireRepository db repoId threadId child = .ok () ↔
    ∀ session ∈ child, sessionRepository db session = .ok repoId := by
  cases child with
  | none => simp [requireRepository]
  | some child =>
    simp only [requireRepository, steps_ok, not_not, Option.mem_some_iff, forall_eq']
    exact exists_eq_right

theorem authorizeDescendant_descends
    (authorized : authorizeDescendant settings request db caller threadId = .ok row) :
    Named db threadId row ∧
    ∃ sessions, Descends db caller.sessionId sessions row ∧ sessions.length ≤ 64 := by
  have named := resolveCancelTarget_named (authorizeDescendant_eq_ok authorized)
  simp only [authorizeDescendant, steps_ok] at authorized
  obtain ⟨-, -, _, -, repoId, own, child, strict, climbs, rfl⟩ := authorized
  obtain ⟨sessions, climb, short⟩ := climb_of_ok named.1 climbs
  exact ⟨named, sessions, ⟨⟨repoId, own, climb, requireRepository_eq_ok.1 child⟩, strict⟩, short⟩

theorem Descends.resolved (hp : Parented db) (ha : Apart db) (named : Named db threadId row)
    (descends : Descends db caller.sessionId sessions row)
    (authorized : authorizeSession request db caller.sessionId = .ok ())
    (acyclic : (sessions ++ row.childSessionId.toList).Nodup) :
    resolveCancelTarget request db threadId = .ok row ∧ threadId ≠ caller.sessionId ∧
    (sessions ++ [threadId]).Nodup := by
  obtain ⟨⟨repoId, own, climb, child⟩, strict⟩ := descends
  obtain ⟨hm, called | rfl⟩ := named
  · have home := child threadId called
    rw [called] at strict acyclic
    refine ⟨?_, fun same => strict (by rw [same]), acyclic⟩
    cases known : db.sessionById threadId with
    | none => exact absurd known (sessionById_of_repository home)
    | some _ =>
      simp only [resolveCancelTarget, known, loadChildDelegation, steps_ok]
      exact ⟨authorizeSession_of_repository own home authorized,
        delegationByChild_of_unique hp.ids hp.children hm called⟩
  · have foreign : ∀ session, sessionRepository db session = .ok repoId → row.id ≠ session :=
      fun session home same => sessionById_of_repository home (same ▸ ha row hm)
    refine ⟨?_, foreign _ own, nodup_append.mpr ⟨acyclic.of_append_left, nodup_singleton _, ?_⟩⟩
    · have found : db.delegationById row.id = some row := (find?_eq_some_iff _ hp.ids).mpr ⟨hm, rfl⟩
      simp only [resolveCancelTarget, ha row hm, steps_ok, found]
      exact ⟨row, rfl, authorizeSession_of_repository own climb.home authorized, rfl⟩
    · intro session hs other hl same
      rw [mem_singleton.mp hl] at same
      exact foreign session (climb.homes session hs) same.symm

theorem authorizeDescendant_of_descends (hp : Parented db) (ha : Apart db)
    (named : Named db threadId row) (descends : Descends db caller.sessionId sessions row)
    (authorized : authorizeCaller settings request db caller = .ok ())
    (acyclic : (sessions ++ row.childSessionId.toList).Nodup) (short : sessions.length ≤ 64) :
    authorizeDescendant settings request db caller threadId = .ok row := by
  have owner : authorizeSession request db caller.sessionId = .ok () := by
    simp only [authorizeCaller, authorizeCallerIdentity, steps_ok] at authorized
    exact authorized.2.2.1
  obtain ⟨resolved, foreign, apart⟩ := descends.resolved hp ha named owner acyclic
  obtain ⟨⟨repoId, own, climb, child⟩, strict⟩ := descends
  simp only [authorizeDescendant, steps_ok]
  exact ⟨authorized, foreign, row, resolved, repoId, own, requireRepository_eq_ok.2 child, strict,
    climb.ok hp own owner short apart, rfl⟩

end Climbs

structure Cascade (db : Database) (threadId : Text) (caller : Option Caller)
    (targets : List Delegation) : Prop where
  root : ∃ root rest, targets = root :: rest ∧ Named db threadId root ∧
    ∀ row, row ∈ targets ↔ Below db root.id row
  distinct : (targets.map (·.id)).Nodup
  ordered : ∀ front row back, targets = front ++ row :: back →
    ∀ parent ∈ targets, parent.childSessionId = some row.parentSessionId → parent ∈ front
  confined : ∀ agent ∈ caller, ∀ row ∈ targets, ∃ sessions, Descends db agent.sessionId sessions row

structure CascadeSelection (settings : Settings) (request : Request) (threadId : Text)
    (db : Database) : Prop where
  cascades : ∀ caller targets, cancelTargets settings request db threadId caller true = .ok targets →
    Cascade db threadId caller targets
  authorized : ∀ caller row, authorizeDescendant settings request db caller threadId = .ok row →
    Named db threadId row ∧
    ∃ sessions, Descends db caller.sessionId sessions row ∧ sessions.length ≤ 64
  found : ∀ caller sessions row, authorizeCaller settings request db caller = .ok () →
    Named db threadId row → Descends db caller.sessionId sessions row →
    (sessions ++ row.childSessionId.toList).Nodup → sessions.length ≤ 64 →
    authorizeDescendant settings request db caller threadId = .ok row

/-- As long as no delegation has the id of a session, a cascade selects the delegation it names
and all below it, each after its parent and none outside of the caller's tree; a delegation at
most 64 sessions below the caller is found. -/
theorem cascade_selection (settings : Settings) (request : Request) (threadId : Text)
    {db : Database} (hp : Parented db) (ha : Apart db) :
    CascadeSelection settings request threadId db := by
  refine ⟨fun caller targets hd => ?_, fun caller row => authorizeDescendant_descends, ?_⟩
  · obtain ⟨root, rest, hs, named, grown, agents⟩ := cancelTargets_grown hp ha hd
    have whole := grown (.inl rfl)
    refine ⟨⟨root, rest, hs, named, fun row => whole.complete hp named.1⟩, whole.nodup,
      fun front row back split parent hl => whole.ordered hp named.1 split hl, fun agent hc row hl => ?_⟩
    obtain ⟨_, authorized⟩ := agents agent hc row hl
    obtain ⟨-, sessions, descends, -⟩ := authorizeDescendant_descends authorized
    exact ⟨sessions, descends⟩
  · exact fun caller sessions row authorized named descends =>
      authorizeDescendant_of_descends hp ha named descends authorized

def misnamed : Delegation :=
  { sampleReservation with id := text "other", parentSessionId := text "child" }

def elsewhere : Delegation :=
  { sampleChild with id := text "fedcba98765432100123456789abcdef", childSessionId := some (text "other") }

def misnamedDatabase : Database :=
  { attachedDatabase .queued with
    sessions := [⟨text "root", text "workspace", none⟩, sampleAttachment.session,
        ⟨text "other", text "workspace", none⟩]
    delegations := [sampleChild, misnamed, elsewhere] }

/-- The walk resolves the id of the child to the session and cancels another thread. -/
theorem selection_leaves_tree :
    Parented misnamedDatabase ∧
    ∃ targets, cancelTargets {} {} misnamedDatabase (text "child") none true = .ok targets ∧
      (Below misnamedDatabase sampleChild.id misnamed ∧ misnamed ∉ targets) ∧ elsewhere ∈ targets ∧
      ¬ Below misnamedDatabase sampleChild.id elsewhere := by
  have selected : cancelTargets {} {} misnamedDatabase (text "child") none true =
        .ok [sampleChild, elsewhere] := by
    decide
  refine ⟨⟨by decide, by decide, by decide⟩, _, selected, ⟨?_, by decide⟩, by decide, fun hb => ?_⟩
  · exact .child (.root (by decide) rfl) (by decide) (by decide)
  · cases hb with
    | root _ same => exact absurd same (by decide)
    | child above _ under =>
      have unparented : ∀ row ∈ misnamedDatabase.delegations,
            row.childSessionId ≠ some elsewhere.parentSessionId := by
        decide
      exact unparented _ above.mem under

def grandchild : Delegation := { elsewhere with parentSessionId := text "child" }

def nestedDatabase : Database := { misnamedDatabase with delegations := [sampleChild, grandchild] }

theorem cascade_selection_nested :
    cancelTargets {} {} nestedDatabase (text "child") none true = .ok [sampleChild, grandchild] ∧
    Cascade nestedDatabase (text "child") none [sampleChild, grandchild] := by
  have selected : cancelTargets {} {} nestedDatabase (text "child") none true =
      .ok [sampleChild, grandchild] := by
    decide
  have parented : Parented nestedDatabase := ⟨by decide, by decide, by decide⟩
  have apart : Apart nestedDatabase := by
    unfold Apart
    decide
  exact ⟨selected, (cascade_selection {} {} (text "child") parented apart).cascades none _ selected⟩

end Yinshi.Threads
