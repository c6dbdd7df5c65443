import Yinshi.Publication.Sharing

/-! Every call on a publication root ends honestly, whatever the other calls do and whichever of its
steps fail. -/

namespace Yinshi.Publication
open ByteText Function Interleaved Interleaved.Proc Interleaved.Wp

section Specs
variable {ν α : Type} {store : Store ν} {s : Root} {n : Nat} {declaration : Declaration}
  {token directory : Nat} {failed : Error → Root → Prop}
variable {holds : Root → Prop} {bytes : Bytes} {verification : ν}

abbrev Ends (store : Store ν) (n : Nat) (failed : Error → Root → Prop) (post : α → Root → Prop)
    (proc : RootM α) (s : Root) : Prop :=
  Wp (Rely n) (Guarantee n) (Sane store) Allowed failed post proc s

theorem ends_allocate {taken : Error} {body : RootM α} {post : α → Root → Prop} (tries : Nat)
    (once : ∀ s, holds s →
        Ends store n (fun error s => (error = taken → holds s) ∧ (error ≠ taken → failed error s))
          post body s) (gone : ∀ s, holds s → failed .unresolved s) (start : holds s) :
    Ends store n failed post (allocate taken body tries) s := by
  induction tries generalizing s with
  | zero => exact .raise (gone s start)
  | succ _ ih =>
    refine .rescue _ (once s start) fun error s' hb => ?_
    split
    next hs => exact ih (hb.1 hs)
    next hd => exact .raise (hb.2 hd)

theorem ends_rename {target : Nat → Name} {after : Root → Root} {identity : Option Nat}
    {post : Name → Root → Prop} {before moved : Root → Prop} (stable : Stable (Rely n) before)
    (stable' : Stable (Rely n) moved) (here : ∀ s, before s → Stage n declaration token directory s)
    (goes : ∀ s choice, before s → Sane store s → s.entry (target choice) = none →
        identity = some directory →
        Sane store (s.move (.pending declaration.operationId token) (target choice)) ∧
        moved (s.move (.pending declaration.operationId token) (target choice)))
    (he : ∀ s name, moved s → Sane store s →
        Guarantee n s (after s) ∧ Sane store (after s) ∧ post name (after s))
    (early : ∀ s error, before s → error.isPublication = true ∨ error = .os → failed error s)
    (late : ∀ s error, moved s → error = .os ∨ error = .publication → failed error s)
    (start : before s) :
    Ends store n failed post
      (atomicRenameNoReplace (.pending declaration.operationId token) target identity after) s := by
  refine .seq (fun _ s => before s ∧ identity = some directory) (.read before (.refl n) stable start
      (fun s error hh _ met => ?_) (fun s _ hh _ hf => ?_) fun s error hh _ hr => ?_)
    fun _ s hh => ?_
  · rcases met with rfl | rfl
    · exact early s _ hh (.inr rfl)
    · exact early s _ hh (.inl rfl)
  · split at hf
    next matched => exact ⟨hh, matched.1.symm.trans (here s hh).entry⟩
    next => exact nomatch hf
  · split at hr
    next => exact nomatch hr
    next =>
      cases hr
      exact early s _ hh (.inl rfl)
  refine .seq (fun _ => moved) (.act (fun s => before s ∧ identity = some directory) (.refl n)
    (stable.and fun _ _ _ same => same) hh (fun s error hh _ met => ?_) (fun s choice name s' hh hs hd => ?_)
    fun s choice error hh _ hr => ?_) fun name s hh => ?_
  · rcases met with rfl | rfl
    · exact early s _ hh.1 (.inr rfl)
    · exact early s _ hh.1 (.inl rfl)
  · split at hd
    next => exact nomatch hd
    next free =>
      cases hd
      have clear : s.entry (target choice) = none := by simpa using free
      have moves := goes s choice hh.1 hs clear hh.2
      exact ⟨guarantee_move (here s hh.1) clear, moves⟩
  · split at hr
    next =>
      cases hr
      exact early s _ hh.1 (.inl rfl)
    next => exact nomatch hr
  refine .seq (fun _ s => post name s) (.change moved (.refl n) stable' hh
      (fun s error hh _ met => late s error hh met) fun s hh hs => he s name hh hs)
    fun _ s hd => .pure hd

theorem ends_cleanup (start : Stage n declaration token directory s) :
    Ends store n (fun _ => Idle n) (fun _ => Idle n) (cleanupPending n declaration token) s := by
  have hi : ∀ s, Stage n declaration token directory s → Idle n s := fun s stage => stage.idle
  refine .rescue (fun _ => Idle n) ?_ fun error s hh => .raise hh
  refine .seq (fun _ => Stage n declaration token directory) (.read _ (.refl n) stable_stage start
      (fun s _ hh _ _ => hh.idle) (fun s _ hh _ _ => hh) fun s _ hh _ _ => hh.idle)
    fun notes s hh => ?_
  refine .seq (fun _ => Idle n) (ends_allocate 16 (fun s hh => ?_) hi hh) fun name s hh => ?_
  · refine ends_rename stable_stage stable_idle (fun _ => id) (fun s choice hh sane hf _ => ?_)
      (fun s _ hh sane => ⟨.refl n s, sane, hh⟩) (fun s _ hh _ => ⟨fun _ => hh, fun _ => hh.idle⟩)
      (fun s error hh met => ⟨fun hs => ?_, fun _ => hh⟩) hh
    · exact ⟨sane_move sane hh hf (fun _ hs => nomatch hs), idle_abandon hh⟩
    · rcases met with rfl | rfl <;> exact nomatch hs
  · exact .read _ (.refl n) stable_idle hh (fun s _ hh _ _ => hh) (fun s _ hh _ _ => hh) fun s _ hh _ _ => hh

/-- What a call learns of its source before it makes a directory. -/
structure Verified (store : Store ν) (declaration : Declaration) (verification : ν) : Prop where
  valid : store.valid declaration = true
  matching : ∃ artifacts, matchContent store declaration artifacts = true ∧
      store.verify declaration artifacts = .ok verification

theorem guarantee_addFile (name : FileName) (stage : Stage n declaration token directory s)
    (hs : Sane store s) :
    Guarantee n s (s.addFile directory name) ∧ Sane store (s.addFile directory name) ∧
    Stage n declaration token directory (s.addFile directory name) :=
  ⟨guarantee_folder stage, sane_folder hs stage (Nat.le_succ _), stage_folder stage⟩

theorem guarantee_write {name : FileName} (stage : Stage n declaration token directory s)
    (hs : Sane store s) :
    Guarantee n s (s.write directory name bytes) ∧ Sane store (s.write directory name bytes) ∧
    Stage n declaration token directory (s.write directory name bytes) :=
  ⟨guarantee_folder stage, sane_folder hs stage le_rfl, stage_folder stage⟩

theorem guarantee_edit (edit : Notes → Notes) (stage : Stage n declaration token directory s)
    (hs : Sane store s) :
    Guarantee n s (s.note n edit) ∧ Sane store (s.note n edit) ∧
    Stage n declaration token directory (s.note n edit) :=
  ⟨guarantee_note edit, sane_note hs edit, stage.idle, stage.entry, stage.maker⟩

theorem ends_writeRegular {name : FileName} (start : Stage n declaration token directory s) :
    Ends store n (fun _ => Stage n declaration token directory)
      (fun _ => Stage n declaration token directory) (writeRegular n directory name bytes) s := by
  have hk : ∀ s (error : Error), Stage n declaration token directory s → Sane store s →
      Allowed .call error → Stage n declaration token directory s := fun _ _ hh _ _ => hh
  refine .seq (fun _ => Stage n declaration token directory) (.act _ (.refl n) stable_stage start hk
    (fun s _ identity s' hh hs hd => ?_) fun s _ error hh _ hr => hh) fun identity s hh => ?_
  · cases hd
    exact guarantee_addFile name hh hs
  refine .seq (fun _ => Stage n declaration token directory) (.change _ (.refl n) stable_stage hh hk
    fun s hh hs => guarantee_write hh hs) fun _ s hh => ?_
  exact .change _ (.refl n) stable_stage hh hk fun s hh hs => guarantee_edit _ hh hs

theorem ends_copyDescriptor {role : Role} (start : Stage n declaration token directory s) :
    Ends store n (fun _ => Stage n declaration token directory)
      (fun _ => Stage n declaration token directory)
      (copyDescriptor store n declaration directory role bytes) s := by
  have hk : ∀ label s (error : Error),
        Stage n declaration token directory s → Sane store s → Allowed label error →
      Stage n declaration token directory s := fun _ _ _ hh _ _ => hh
  refine .seq (fun _ => Stage n declaration token directory) (.act _ (.refl n) stable_stage start (hk _)
    (fun s _ identity s' hh hs hd => ?_) fun s _ error hh _ hr => hh) fun identity s hh => ?_
  · cases hd
    exact guarantee_addFile (.artifact role) hh hs
  refine .seq (fun _ => Stage n declaration token directory) (.change _ (.refl n) stable_stage hh (hk _)
    fun s hh hs => guarantee_edit _ hh hs) fun _ s hh => ?_
  refine .seq (fun _ => Stage n declaration token directory) (.change _ (.refl n) stable_stage hh (hk _)
    fun s hh hs => guarantee_write hh hs) fun _ s hh => ?_
  split
  next => exact .touch _ (.refl n) stable_stage hh (hk _) fun _ hh _ => hh
  next => exact .raise hh

theorem ends_fillStage (source : Source) (start : Stage n declaration token directory s) :
    Ends store n (fun _ => Stage n declaration token directory)
      (fun _ => Stage n declaration token directory)
      (fillStage store n declaration directory verification source) s := by
  cases source with
  | bytes _ =>
    exact .seq (fun _ => Stage n declaration token directory)
      (.each _ (fun _ _ hh => ends_writeRegular hh) _ start)
      fun _ s hh => ends_writeRegular hh
  | opened _ _ =>
    exact .seq (fun _ => Stage n declaration token directory) (ends_writeRegular start)
      fun _ s hh => .each _ (fun _ _ hh => ends_copyDescriptor hh) _ hh

theorem ends_recheckSource (stable : Stable (Rely n) holds) (source : Source) (start : holds s) :
    Ends store n (fun _ => holds) (fun _ => holds) (recheckSource source) s := by
  cases source with
  | bytes _ => exact .pure start
  | opened _ _ =>
    refine .seq (fun _ => holds)
      (.touch _ (.refl n) stable start (fun _ _ hh _ _ => hh) fun _ hh _ => hh) fun _ s hh => ?_
    exact .touch _ (.refl n) stable hh (fun _ _ hh _ _ => hh) fun _ hh _ => hh

theorem artifactsOf_of_matches {artifacts : Artifacts} {folder : Folder}
    (injective : Injective store.digest) (source : matchContent store declaration artifacts = true)
    (hh : matchesDeclaration store declaration folder = true) : artifactsOf folder = artifacts := by
  funext role
  have hl : role ∈ roles := by cases role <;> decide
  have declared := (of_decide_eq_true hh).2 role hl
  have given := of_decide_eq_true (List.all_eq_true.mp source role hl)
  obtain ⟨_, hf, hs⟩ := Option.any_eq_true _ _ |>.mp declared
  have hs := of_decide_eq_true hs
  unfold artifactsOf
  rw [hf]
  exact injective (hs.2.trans given.2.symm)

theorem ends_inspectPending (injective : Injective store.digest)
    (hv : Verified store declaration verification) (start : Stage n declaration token directory s) :
    Ends store n (fun _ => Stage n declaration token directory) (fun _ s =>
        (Stage n declaration token directory s ∧ Ready store s declaration directory verification) ∧
        (s.notes n).pendingIdentity = some directory)
      (inspectPending store n declaration token verification) s := by
  refine .read _ (.refl n) stable_stage start (fun _ _ hh _ _ => hh) (fun s _ hh _ hs => ?_)
    fun _ _ hh _ _ => hh
  rw [hh.entry] at hs
  dsimp only at hs
  split at hs
  next all =>
    obtain ⟨declared, marked, noted, -⟩ := all
    obtain ⟨_, matching, verifies⟩ := hv.matching
    obtain ⟨_, hf, same⟩ := (Option.any_eq_true _ _).mp marked
    have same := injective (of_decide_eq_true same).2
    exact ⟨⟨hh, hv.valid, declared, hf.trans (congrArg some same), by
      rw [artifactsOf_of_matches injective matching declared]
      exact verifies⟩, noted.symm⟩
  next => exact nomatch hs

abbrev Filled (store : Store ν) (n : Nat) (declaration : Declaration) (token directory : Nat)
    (verification : ν) (s : Root) : Prop :=
  (Stage n declaration token directory s ∧ Ready store s declaration directory verification) ∧
    (s.notes n).pendingIdentity = some directory

theorem stable_filled : Stable (Rely n) (Filled store n declaration token directory verification) :=
  stable_ready.and (stable_notes fun notes => notes.pendingIdentity = some directory)

theorem harmless_of_idle {error : Error} (hi : Idle n s) : Harmless n error s := fun _ => hi

theorem harmless_unresolved : Harmless n .unresolved s := fun bad => by
  rcases bad with bad | bad <;> exact nomatch bad

theorem harmless_os : Harmless n .os s := fun bad => by rcases bad with bad | bad <;> exact nomatch bad

theorem ends_buildStage {source : Source} (injective : Injective store.digest)
    (hv : Verified store declaration verification) (start : Stage n declaration token directory s) :
    Ends store n (Harmless n) (fun _ => Filled store n declaration token directory verification)
      (buildStage store n declaration token verification source) s := by
  refine .rescue (fun _ => Stage n declaration token directory) ?_ fun error s hh => ?_
  · refine .seq (fun opened s => Stage n declaration token directory s ∧ opened = directory)
      (.act _ (.refl n) stable_stage start (fun _ _ hh _ _ => hh) (fun s _ opened s' hh hs hd => ?_)
        fun _ _ _ hh _ _ => hh) fun opened s hh => ?_
    · rw [hh.entry] at hd
      cases hd
      obtain ⟨does, hs', hh'⟩ :=
        guarantee_edit (fun notes => { notes with pendingIdentity := some directory }) hh hs
      exact ⟨does, hs', hh', rfl⟩
    obtain ⟨hh, rfl⟩ := hh
    refine .seq (fun _ => Stage n declaration token opened) (ends_fillStage source hh) fun _ s hh => ?_
    refine .seq (fun _ => Stage n declaration token opened)
      (.touch _ (.refl n) stable_stage hh (fun _ _ hh _ _ => hh) fun _ hh _ => hh) fun _ s hh => ?_
    refine .seq (fun _ => Filled store n declaration token opened verification)
      (ends_inspectPending injective hv hh)
      fun _ s hh => ?_
    exact (ends_recheckSource stable_filled source hh).mono (fun _ _ hh => hh.1.1) fun _ _ hh => hh
  · refine .seq (fun _ => Stage n declaration token directory) (.read _ (.refl n) stable_stage hh
        (fun _ _ _ _ met => met.elim) (fun _ _ hh _ _ => hh) fun _ _ _ _ hr => nomatch hr)
      fun notes s hh => ?_
    split
    next => exact .raise harmless_unresolved
    next =>
      exact .seq (fun _ => Idle n) ((ends_cleanup hh).mono (fun _ _ => harmless_of_idle) fun _ _ => id)
        fun _ s hi => .raise (harmless_of_idle hi)

structure Placed (store : Store ν) (n : Nat) (declaration : Declaration) (directory : Nat)
    (verification : ν) (s : Root) : Prop where
  published : Published store s declaration directory verification
  maker : s.maker directory = some (n, declaration)
  noted : (s.notes n).pendingIdentity = some directory

theorem stable_placed : Stable (Rely n) (Placed store n declaration directory verification) := by
  intro _ _ rely placed
  exact ⟨placed.published.stays rely.stays,
    rely.maker _ _ placed.maker, by rw [rely.keeps.notes]; exact placed.noted⟩

theorem ends_renameState_of {identity : Option Nat} (stable : Stable (Rely n) holds)
    (start : holds s) :
    Ends store n (fun _ => holds) (fun _ => holds) (renameState declaration token identity) s := by
  have sees : ∀ s name, holds s →
        Ends store n (fun _ => holds) (fun _ => holds) (.read .call fun s => .ok (s.entry name))
          s :=
    fun s name hh =>
      .read _ (.refl n) stable hh (fun _ _ hh _ _ => hh) (fun _ _ hh _ _ => hh) fun _ _ hh _ _ => hh
  refine .rescue (fun _ => holds) ?_ fun error s hh => ?_
  · exact .seq (fun _ => holds) (sees s _ start)
      fun _ s hh => .seq (fun _ => holds) (sees s _ hh) fun _ s hh => .pure hh
  · split
    next => exact .pure hh
    next => exact .raise hh

theorem ends_renameState (start : Placed store n declaration directory verification s) :
    Ends store n (fun error _ => error = .os) (fun state _ => state ≠ .notMoved)
      (renameState declaration token (some directory)) s := by
  refine .rescue (fun error _ => error = .os) ?_ fun error s same => ?_
  · refine .seq (fun pending s => Placed store n declaration directory verification s ∧ pending ≠ some directory)
      (.read _ (.refl n) stable_placed start (fun _ _ _ _ met => met)
          (fun s pending placed sane hs => ⟨placed, ?_⟩) fun _ _ _ _ hr => nomatch hr)
        fun pending s hh => ?_
    · cases hs
      intro ht
      exact nomatch sane.single _ _ _ ht placed.published.entry
    refine .seq (fun _ _ => True) (.read _ (.refl n) .true trivial (fun _ _ _ _ met => met)
        (fun _ _ _ _ _ => trivial) fun _ _ _ _ hr => nomatch hr) fun final s _ => ?_
    refine .pure ?_
    rw [if_neg fun both => hh.2 both.2.1]
    split <;> exact nofun
  · rw [if_pos (by rw [same]; exact rfl)]
    exact .pure nofun

theorem ends_renameStage (start : Filled store n declaration token directory verification s) :
    Ends store n (Harmless n) (fun _ => Placed store n declaration directory verification)
      (renameStage n declaration token) s := by
  refine .rescue (fun error s => Stage n declaration token directory s ∨
    Placed store n declaration directory verification s ∧
      (error = .os ∨ error = .publication)) ?_ fun error s hb => ?_
  · refine .seq (fun notes s => Filled store n declaration token directory verification s ∧
        notes.pendingIdentity = some directory)
      (.read _ (.refl n) stable_filled start (fun _ _ _ _ met => met.elim) (fun s notes hh _ seen => ⟨hh, ?_⟩)
        fun _ _ _ _ hr => nomatch hr) fun notes s hh => ?_
    · cases seen
      exact hh.2
    refine .seq (fun _ => Placed store n declaration directory verification)
      (ends_rename stable_filled stable_placed (fun _ hh => hh.1.1)
        (fun s choice hh hs hf _ => ⟨?_, published_move hh.1.1 hh.1.2, hh.1.1.maker, hh.2⟩)
        (fun s _ placed hs => ?_) (fun _ _ hh _ => .inl hh.1.1)
        (fun _ _ placed met => .inr ⟨placed, met⟩) hh.1)
      fun _ s placed => .pure placed
    · exact sane_move hs hh.1.1 hf fun operation same => ⟨Name.final.inj same, verification, hh.1.2⟩
    · have does := guarantee_note (s := s) (n := n) fun notes => { notes with moved := true }
      refine ⟨does, sane_note hs _, placed.published.stays does.stays, placed.maker, ?_⟩
      change (update s.notes n _ n).pendingIdentity = _
      rw [update_self]
      exact placed.noted
  rcases hb with hh | ⟨placed, met⟩
  · -- nothing has moved: whatever the handler does, the directory stays hidden
    refine .seq (fun _ => Stage n declaration token directory) (.read _ (.refl n) stable_stage hh
        (fun _ _ _ _ met => met.elim) (fun _ _ hh _ _ => hh) fun _ _ _ _ hr => nomatch hr)
      fun notes s hh => ?_
    have cleans : ∀ s error, Stage n declaration token directory s →
        Ends store n (Harmless n) (fun (_ : Unit) => Placed store n declaration directory verification)
          (do cleanupPending n declaration token; .raise error) s := fun s error hh =>
      .seq (fun _ => Idle n) ((ends_cleanup hh).mono (fun _ _ => harmless_of_idle) fun _ _ => id)
        fun _ s hi => .raise (harmless_of_idle hi)
    split
    next => exact cleans s _ hh
    next =>
      split
      next =>
        refine .seq (fun _ => Stage n declaration token directory) ((ends_renameState_of stable_stage hh).mono
          (fun _ _ hh => harmless_of_idle hh.idle) fun _ _ => id) fun state s hh => ?_
        split
        next => exact cleans s _ hh
        next => exact .raise harmless_unresolved
      next => exact .raise (harmless_of_idle hh.idle)
  · -- the directory is placed: the handler must not take it for hidden
    refine .seq (fun notes s => Placed store n declaration directory verification s ∧
        notes.pendingIdentity = some directory)
      (.read _ (.refl n) stable_placed placed (fun _ _ _ _ met => met.elim)
          (fun s notes placed _ seen => ⟨placed, ?_⟩) fun _ _ _ _ hr => nomatch hr)
        fun notes s hh => ?_
    · cases seen
      exact placed.noted
    rw [if_neg (by rcases met with rfl | rfl <;> exact nofun),
      if_pos (by rcases met with rfl | rfl <;> decide), hh.2]
    refine .seq (fun state _ => state ≠ .notMoved)
      ((ends_renameState hh.1).mono (fun error s same => ?_) fun _ _ => id)
      fun state s hk => ?_
    · rw [same]
      exact harmless_os
    · rw [if_neg hk]
      exact .raise harmless_unresolved

abbrev Found (declaration : Declaration) (found : Nat × Folder) (s : Root) : Prop :=
  s.entry (.final declaration.operationId) = some found.1 ∧ s.folder found.1 = found.2

theorem stable_found {found : Nat × Folder} : Stable (Rely n) (Found declaration found) := by
  intro _ _ rely hh
  obtain ⟨entry, hs⟩ := rely.stays _ _ hh.1
  exact ⟨entry, hs.trans hh.2⟩

structure Inspected (store : Store ν) (declaration : Declaration) (inspection : Inspection ν)
    (s : Root) : Prop where
  published : Published store s declaration inspection.finalDirectoryIdentity inspection.verification
  marker : inspection.publicationMarkerSha256 =
      store.digest (store.markerBytes declaration inspection.verification)

theorem stable_inspected {inspection : Inspection ν} :
    Stable (Rely n) (Inspected store declaration inspection) :=
  fun _ _ rely hh => ⟨hh.published.stays rely.stays, hh.marker⟩

theorem ends_translated {label : Label} {translate : Error → Error} {broken : Root → Prop}
    (stable : Stable (Rely n) holds) (broke : ∀ s, holds s → broken s) (start : holds s) :
    Ends store n (fun _ => broken) (fun _ => holds)
      (Proc.attempt (.touch label) fun error => .raise (translate error)) s := by
  refine .rescue (fun _ => broken)
    (.touch _ (.refl n) stable start (fun s _ hh _ _ => broke s hh) fun _ hh _ => hh) ?_
  exact fun _ _ hh => .raise hh

theorem ends_inspectFinal [DecidableEq ν] {expectedVerification : Option ν}
    {expectedIdentity : Option Nat} (stable : Stable (Rely n) holds)
    (hv : store.valid declaration = true) (start : holds s) :
    Ends store n (fun _ => holds)
      (fun inspection s => holds s ∧ Inspected store declaration inspection s)
      (inspectFinal store declaration expectedVerification expectedIdentity) s := by
  refine .seq (fun hf s =>
      (holds s ∧ Found declaration hf s) ∧ matchesDeclaration store declaration hf.2 = true)
    (.rescue (fun _ => holds) (.read _ (.refl n) stable start (fun _ _ hh _ _ => hh) (fun s hf hh _ hs => ?_)
      fun _ _ hh _ _ => hh) fun _ _ hh => .raise hh) fun hf s hh => ?_
  · split at hs
    next directory entry =>
      split at hs
      next both =>
        cases hs
        exact ⟨⟨hh, entry, rfl⟩, both.2⟩
      next => exact nomatch hs
    next => exact nomatch hs
  obtain ⟨directory, folder⟩ := hf
  obtain ⟨hh, declared⟩ := hh
  have stable' : Stable (Rely n)
      fun s => holds s ∧ Found declaration (directory, folder) s := stable.and stable_found
  have he : ∀ inspection : Inspection ν,
        Stable (Rely n) fun s => holds s ∧ Inspected store declaration inspection s :=
    fun inspection => stable.and stable_inspected
  refine .cleaned (fun _ => holds) (fun inspection s => holds s ∧ Inspected store declaration inspection s) ?_
    (fun error s hh => ends_translated stable (fun _ hh => hh) hh)
    fun inspection s hh => ends_translated (he inspection) (fun _ hh => hh.1) hh
  refine .seq (fun _ s => holds s ∧ Found declaration (directory, folder) s)
    (ends_translated stable' (fun _ hh => hh.1) hh)
    fun _ s hh => ?_
  refine .seq (fun verification s => (holds s ∧ Found declaration (directory, folder) s) ∧
    store.verify declaration (artifactsOf folder) =
      .ok verification) (.rescue (fun _ => holds) ?_ fun _ _ hh => .raise hh)
    fun verification s hh => ?_
  · refine .seq (fun _ s => holds s ∧ Found declaration (directory, folder) s)
      (.touch _ (.refl n) stable' hh (fun _ _ hh _ _ => hh.1) fun _ hh _ => hh) fun _ s hh => ?_
    exact .orRaise (fun verification verifies => ⟨hh, verifies⟩) fun _ _ => hh.1
  obtain ⟨hh, verifies⟩ := hh
  split
  next => exact .raise hh.1
  next =>
    split
    next => exact .raise hh.1
    next marked =>
      refine .seq (fun _ s => holds s ∧ Found declaration (directory, folder) s) (.rescue (fun _ => holds)
        (.read _ (.refl n) stable' hh (fun _ _ hh _ _ => hh.1) (fun _ _ hh _ _ => hh) fun _ _ hh _ _ => hh.1)
        fun _ _ hh => .raise hh) fun _ s hh => ?_
      refine .pure ⟨hh.1, ⟨hv, hh.2.1, ?_, ?_, ?_⟩, rfl⟩
      · rw [hh.2.2]
        exact declared
      · rw [hh.2.2]
        exact not_not.mp marked
      · rw [hh.2.2]
        exact verifies

end Specs

end Yinshi.Publication
