import Mathlib.Logic.Relation
import Yinshi.Materialization.Building

/-! What one call does to the two roots: it only goes on from where an earlier call has stopped. -/

namespace Yinshi.Materialization
open ByteText Artifact Faulty Prog Function Relation Option

variable {ω : Type} {store : Store ω} {opened : Opened ω}

/-! ### Progress -/

namespace Progress

theorem preparedIdentity_later {p p' : Progress} {identity : Nat} (later : ReflTransGen Next p p')
    (ht : p.preparedIdentity = some identity) : p'.preparedIdentity = some identity := by
  induction later with
  | refl => exact ht
  | tail _ next ih => cases next <;> first | exact ih | exact nomatch ih

end Progress

theorem update_recordsOf (chain : List Record) (value : Record) :
    ∀ kind ∈ recordNames[chain.length]?,
      update (recordsOf chain) kind (some value) = recordsOf (chain ++ [value]) := by
  intro _ place
  funext kind'
  rcases chain with _ | ⟨_, _ | ⟨_, _ | ⟨_, _ | ⟨_, _⟩⟩⟩⟩
  · cases place
    cases kind' <;> rfl
  · cases place
    cases kind' <;> rfl
  · cases place
    cases kind' <;> rfl
  · cases place
    cases kind' <;> rfl
  · exact nomatch place

theorem recordsOf_length (chain : List Record) :
    ∀ kind ∈ recordNames[chain.length]?, recordsOf chain kind = none := by
  intro _ place
  rcases chain with _ | ⟨_, _ | ⟨_, _ | ⟨_, _ | ⟨_, _⟩⟩⟩⟩
  · cases place
    rfl
  · cases place
    rfl
  · cases place
    rfl
  · cases place
    rfl
  · exact nomatch place

section At
variable {p : Progress} {d : Disk} {records : Records} {temporaries : List Temporary}

theorem At.journaled (hh : At store p d) (hp : p.isAbsent = false) :
    ∃ temporaries, d.journal = some ⟨recordsOf (p.chain store d.tree), temporaries⟩ := by
  have hs := hh.journal
  rw [hp] at hs
  obtain ⟨journal, hf, rest⟩ := map_eq_some_iff.mp hs
  exact ⟨journal.temporaries, by rw [hf, ← rest]⟩

theorem At.of_journal (journal : d.journal = some ⟨recordsOf (p.chain store d.tree), temporaries⟩)
    (hp : p.isAbsent = false) (staging : d.staging = p.staging) : At store p d where
  journal := by
    rw [journal, hp]
    rfl
  staging := staging

end At

structure Reach (store : Store ω) (request : Request) (right : Tree → Prop)
    (allowed : Label → Disk → Fault Error → Prop) (p : Progress) (d : Disk) (p' : Progress)
    (d' : Disk) : Prop where
  later : ReflTransGen Progress.Next p p'
  here : At store p' d'
  tidy : Tidy d → Tidy d' ∨ Untidy allowed
  kept : ∀ identity, p.preparedIdentity = some identity → d'.tree identity = d.tree identity
  bound : (∀ binding ∈ p.binding, binding = requestBinding request) →
    ∀ binding ∈ p'.binding, binding = requestBinding request
  built : (∀ identity, p.preparedIdentity = some identity → right (d.tree identity)) →
    ∀ identity, p'.preparedIdentity = some identity → right (d'.tree identity)

section Reach
variable {request : Request} {right : Tree → Prop} {allowed : Label → Disk → Fault Error → Prop}
  {p p' p'' : Progress} {d d' d'' : Disk}

theorem Reach.refl (hh : At store p d) : Reach store request right allowed p d p d :=
  ⟨.refl, hh, .inl, fun _ _ => rfl, id, id⟩

theorem Reach.trans (first : Reach store request right allowed p d p' d')
    (second : Reach store request right allowed p' d' p'' d'') :
    Reach store request right allowed p d p'' d'' where
  later := first.later.trans second.later
  here := second.here
  tidy clean := (first.tidy clean).elim second.tidy .inr
  kept identity there := by
    rw [second.kept identity (Progress.preparedIdentity_later first.later there), first.kept identity there]
  bound fits := second.bound (first.bound fits)
  built whole := second.built (first.built whole)

end Reach

structure Covers (store : Store ω) (request : Request) (right : Tree → Prop)
    (allowed : Label → Disk → Fault Error → Prop) (inv : Disk → Prop) (failed : Error → Disk → Prop)
    (good : Prop) (p : Progress) (d : Disk) : Prop where
  holds : ∀ p' d', Reach store request right allowed p d p' d' → inv d'
  raises : ∀ error p' d',
      Reach store request right allowed p d p' d' → (good → Disturbed allowed) → failed error d'

/-! ### The parts of a call -/

section Parts
variable {request : Request} {allowed : Label → Disk → Fault Error → Prop} {inv : Disk → Prop}
  {failed : Error → Disk → Prop} {good : Prop} {p p' : Progress} {d : Disk}

theorem Covers.met {right : Tree → Prop} {d' : Disk}
    (hc : Covers store request right allowed inv failed good p d)
    (reach : Reach store request right allowed p d p' d') (error : Error)
    (met : Disturbed allowed) : failed error d' :=
  hc.raises error p' d' reach fun _ => met

theorem Covers.trans {right : Tree → Prop} {d' : Disk} {good' : Prop}
    (hc : Covers store request right allowed inv failed good p d)
    (first : Reach store request right allowed p d p' d') (weaker : good → good') :
    Covers store request right allowed inv failed good' p' d' :=
  ⟨fun _ _ more => hc.holds _ _ (first.trans more), fun error _ _ more why =>
    hc.raises error _ _ (first.trans more) fun hg => why (weaker hg)⟩

theorem publishNext_spec {kind : Kind} {value : Record} {post : Unit → Disk → Prop}
    (hh : At store p d) (ht : Tidy d) (hp : p.isAbsent = false) (next : Progress.Next p p')
    (chain : p'.chain store d.tree = p.chain store d.tree ++ [value])
    (staging : p'.staging = p.staging) (place : kind ∈ recordNames[(p.chain store d.tree).length]?)
    (hr : (∀ identity, p.preparedIdentity = some identity → Built store opened (d.tree identity)) →
      ∀ identity, p'.preparedIdentity = some identity → Built store opened (d.tree identity))
    (fits : (∀ binding ∈ p.binding, binding = requestBinding request) →
      ∀ binding ∈ p'.binding, binding = requestBinding request)
    (hc : Covers store request (Built store opened) allowed inv failed good p d)
    (goes : ∀ d', Reach store request (Built store opened) allowed p d p' d' → Tidy d' →
        d'.tree = d.tree → post () d') :
    Wp allowed inv failed post (publishRecord kind value) d := by
  obtain ⟨temporaries, journal⟩ := hh.journaled hp
  obtain rfl : temporaries = [] := ht _ journal
  have grown : update (recordsOf (p.chain store d.tree)) kind (some value) =
        recordsOf (p'.chain store d.tree) := by
    rw [chain]
    exact update_recordsOf _ _ _ place
  have free := recordsOf_length _ kind place
  have hp' : p'.isAbsent = false := by cases next <;> rfl
  have old : ∀ temporaries, (temporaries = [] ∨ Untidy allowed) →
      Reach store request (Built store opened) allowed p d p
        { d with journal := some ⟨recordsOf (p.chain store d.tree), temporaries⟩ } :=
    fun temporaries clean => ⟨.refl, .of_journal rfl hp hh.staging,
      fun _ => clean.imp (fun none _ hf => by cases hf; exact none) id, fun _ _ => rfl, id, id⟩
  have new : ∀ temporaries, (temporaries = [] ∨ Untidy allowed) →
      Reach store request (Built store opened) allowed p d p'
        { d with journal := some ⟨recordsOf (p'.chain store d.tree), temporaries⟩ } :=
    fun temporaries clean => ⟨.single next, .of_journal rfl hp' (hh.staging.trans staging.symm),
      fun _ => clean.imp (fun none _ hf => by cases hf; exact none) id, fun _ _ => rfl, fits, hr⟩
  refine publishRecord_spec journal free (fun records' temporaries either clean => ?_)
    (fun error records' temporaries either met => ?_) ?_
  · rcases either with rfl | rfl
    · exact hc.holds _ _ (old temporaries clean)
    · rw [grown]
      exact hc.holds _ _ (new temporaries clean)
  · rcases either with rfl | rfl
    · exact hc.met (old temporaries (.inr (.inl met))) error met
    · rw [grown]
      exact hc.met (new temporaries (.inr (.inl met))) error met
  · rw [grown]
    exact goes _ (new [] (.inl rfl)) (fun _ hf => by cases hf; rfl) rfl

theorem journalRecords_spec {post : Records → Disk → Prop} (hh : At store p d)
    (hp : p.isAbsent = false) (stops : inv d)
    (fails : ∀ error, (Tidy d → Disturbed allowed) → failed error d)
    (goes : Tidy d → post (recordsOf (p.chain store d.tree)) d) :
    Wp allowed inv failed post journalRecords d := by
  obtain ⟨_, journal⟩ := hh.journaled hp
  refine .bind (fetch_spec stops (fun error met => fails error fun _ => met) (fun hf hs => ?_)
      fun error hr => ?_)
  swap
  · rw [journal] at hr
    exact nomatch hr
  rw [journal] at hs
  cases hs
  split
  next some => exact .raise (fails _ fun ht => absurd (ht _ journal) some)
  next none =>
    have ht : Tidy d := fun other hf => by
      cases journal.symm.trans hf
      exact not_not.mp none
    refine .bind (touch_spec stops (fun error met => fails error fun _ => met) ?_)
    have ordered : ((recordNames.dropWhile fun kind => (recordsOf (p.chain store d.tree) kind).isSome).any
        fun kind => (recordsOf (p.chain store d.tree) kind).isSome) = false := by cases p <;> rfl
    rw [if_neg (by rw [ordered]; exact Bool.false_ne_true)]
    exact .pure (goes ht)

section Finish
variable {binding : Binding} {pendingName identity : Nat}
variable {post : Receipt → Disk → Prop} {binding : Binding} {pendingName : Nat}

theorem staging_final (hh : At store p d)
    (last : p = .moved binding pendingName identity ∨ p = .delivered binding pendingName identity) :
    d.staging .final = some identity := by
  rw [hh.staging]
  rcases last with rfl | rfl <;> rfl

theorem identityOf_eq {tree : Tree} {name : Bytes} {value : Nat × Tree}
    (hf : tree.child name = some value) : identityOf name tree = value.1 := by
  unfold identityOf
  rw [hf]
  rfl

theorem finishFinal_spec {receiptValue : Option Record} (here : At store p d) (tidy : Tidy d)
    (last : p = .moved (requestBinding request) pendingName identity ∧ receiptValue = none ∨
      p = .delivered (requestBinding request) pendingName identity ∧
      receiptValue =
        some (.receipt (receiptOf store (requestBinding request) identity (d.tree identity))))
    (right : good → Built store opened (d.tree identity))
    (hc : Covers store request (Built store opened) allowed inv failed good p d)
    (goes : ∀ d', Reach store request (Built store opened) allowed p d
            (.delivered (requestBinding request) pendingName identity) d' → Tidy d' →
        Built store opened (d.tree identity) → d'.tree = d.tree →
        post (receiptOf store (requestBinding request) identity (d.tree identity)) d') :
    Wp allowed inv failed post (finishFinal store request opened (.stage pendingName identity)
        (some (preparedOf store (requestBinding request) identity (d.tree identity))) receiptValue
        identity) d := by
  have hh := hc.holds p d (.refl here)
  have hb := hc.met (.refl here)
  have hp : ∀ {check : Tree → Except Error Unit} {path : List Bytes} {error : Error},
        below path check (d.tree identity) = .error error →
      (good → below path check (d.tree identity) = .ok ()) → failed error d := fun hr hp =>
    hc.raises _ p d (.refl here) fun hg => nomatch (hp hg).symm.trans hr
  unfold finishFinal
  rw [if_neg (by simp [isStageOf])]
  refine .bind (fetch_spec hh hb (fun treeSha256 links => ?_) fun error hr => ?_)
  swap
  · exact hc.raises _ p d (.refl here) fun hg => nomatch (right hg).links.symm.trans hr
  obtain rfl : treeSha256 = digestOf store (d.tree identity) := by
    unfold syncTreeDigest at links
    split at links
    next => exact nomatch links
    next => exact (Except.ok.inj links).symm
  have same : ¬ some (preparedOf store (requestBinding request) identity (d.tree identity)) ≠
      some (.prepared (preparedValue store request identity (digestOf store (d.tree identity)))) :=
        not_not.mpr rfl
  rw [if_neg same]
  refine .bind (fetch_spec hh hb (fun _ entries => ?_) fun error hr => ?_)
  swap
  · refine hc.raises _ p d (.refl here) fun hg => ?_
    rw [if_pos (right hg).entries] at hr
    exact nomatch hr
  refine .bind (fetch_spec hh hb (fun repository foundRepo => ?_) fun error hr => ?_)
  swap
  · refine hc.raises _ p d (.refl here) fun hg => ?_
    obtain ⟨value, hf⟩ := isSome_iff_exists.mp (right hg).repository
    rw [hf] at hr
    exact nomatch hr
  refine .bind (fetch_spec hh hb (fun home foundHome => ?_) fun error hr => ?_)
  swap
  · refine hc.raises _ p d (.refl here) fun hg => ?_
    obtain ⟨_, hf⟩ := isSome_iff_exists.mp (right hg).home
    rw [hf] at hr
    exact nomatch hr
  refine .bind (checkAt_spec hh hb (fun empty => ?_) fun error hr => hp hr fun hg => (right hg).empty)
  refine .bind (checkAt_spec hh hb (fun worktree => ?_) fun error hr => hp hr fun hg => (right hg).worktree)
  refine .bind (checkAt_spec hh hb (fun topology => ?_) fun error hr => hp hr fun hg => (right hg).topology)
  refine .bind (checkAt_spec hh hb (fun refs => ?_) fun error hr => hp hr fun hg => (right hg).refs)
  refine .bind (checkAt_spec hh hb (fun objects => ?_) fun error hr => hp hr fun hg => (right hg).objects)
  refine .bind (checkAt_spec hh hb (fun index => ?_) fun error hr => hp hr fun hg => (right hg).index)
  refine .bind (touch_spec hh hb (.bind (.bind (touch_spec hh hb (touch_spec hh hb ?_)))))
  have entries : hasEntries (d.tree identity) = true := by
    by_contra other
    rw [if_neg other] at entries
    exact nomatch entries
  obtain ⟨repository', ht, rfl⟩ : ∃ hf, (d.tree identity).child repoName = some hf ∧ hf.1 = repository := by
    split at foundRepo
    next hf ht => exact ⟨hf, ht, Except.ok.inj foundRepo⟩
    next => exact nomatch foundRepo
  obtain ⟨home', there', rfl⟩ : ∃ hf, (d.tree identity).child homeName = some hf ∧ hf.1 = home := by
    split at foundHome
    next hf ht => exact ⟨hf, ht, Except.ok.inj foundHome⟩
    next => exact nomatch foundHome
  have hn : d.staging .final = some identity ∧ hasEntries (d.tree identity) = true ∧
      ((d.tree identity).child repoName).map (·.1) = some repository'.1 ∧
        ((d.tree identity).child homeName).map (·.1) = some home'.1 :=
    ⟨staging_final here (last.imp And.left And.left), entries, by rw [ht]; rfl, by rw [there']; rfl⟩
  refine .bind (fetch_spec hh hb (fun _ _ => ?_) fun error hr => ?_)
  swap
  · rw [if_pos hn] at hr
    exact nomatch hr
  refine .bind (checkAt_spec hh hb (fun _ => ?_) fun error hr => nomatch empty.symm.trans hr)
  refine .bind (fetch_spec hh hb (fun again hs => ?_) fun error hr => nomatch links.symm.trans hr)
  cases links.symm.trans hs
  rw [if_neg (not_not.mpr rfl)]
  have hw : Built store opened (d.tree identity) :=
    ⟨entries, by rw [ht]; rfl, by rw [there']; rfl, empty, worktree, topology, refs, objects, index, links⟩
  have receipt : makeReceipt store request (digestOf store (d.tree identity)) identity repository'.1 home'.1 =
      receiptOf store (requestBinding request) identity (d.tree identity) := by
    rw [← identityOf_eq ht, ← identityOf_eq there']
    rfl
  rw [receipt]
  rcases last with ⟨rfl, rfl⟩ | ⟨rfl, rfl⟩
  · refine .bind (publishNext_spec here tidy rfl (.delivered _ _ _) rfl rfl rfl id id hc
        fun d' reach ht' tree => .pure ?_)
    exact goes d' reach ht' hw tree
  · refine .bind (fetch_spec hh hb (fun persisted hs => ?_) fun error hr => ?_)
    · obtain rfl : persisted = receiptOf store (requestBinding request) identity (d.tree identity) := by
        simp only [parseReceipt, receiptOf, if_true] at hs
        exact (Except.ok.inj hs).symm
      rw [if_neg (not_not.mpr rfl)]
      exact .pure (goes d (.refl here) tidy hw rfl)
    · simp only [parseReceipt, receiptOf, if_true] at hr
      exact nomatch hr

theorem Reach.building {tree : Tree} {next : Nat}
    (hh : At store (.staged binding pendingName identity) d) :
    Reach store request (Built store opened) allowed (.staged binding pendingName identity) d
      (.staged binding pendingName identity) (d.building identity tree next) :=
  ⟨.refl, ⟨hh.journal, hh.staging⟩, .inl, fun _ none => (nomatch none), id, fun _ _ none => nomatch none⟩

theorem establishPrepared_spec {prepared : Option Record} {post : Record → Disk → Prop}
    (hh : At store p d) (tidy : Tidy d)
    (last : p = .staged (requestBinding request) pendingName identity ∧ prepared = none ∨
      p = .prepared (requestBinding request) pendingName identity ∧
      prepared = some (preparedOf store (requestBinding request) identity (d.tree identity)))
    (buildable : good → Buildable store opened)
    (right : good →
      ∀ identity, p.preparedIdentity = some identity → Built store opened (d.tree identity))
    (hc : Covers store request (Built store opened) allowed inv failed good p d)
    (goes : ∀ d', Reach store request (Built store opened) allowed p d
            (.prepared (requestBinding request) pendingName identity) d' → Tidy d' →
        (good → Built store opened (d'.tree identity)) →
        post (preparedOf store (requestBinding request) identity (d'.tree identity)) d') :
    Wp allowed inv failed post (establishPrepared store request opened identity prepared) d := by
  rcases last with ⟨rfl, rfl⟩ | ⟨rfl, rfl⟩
  · refine .bind (buildPending_spec (fun tree next _ => hc.holds _ _ (.building hh))
      (fun error tree next _ why =>
      hc.raises error _ _ (.building hh) fun hg => why (buildable hg)) fun tree next _ hw => ?_)
    have reach :
        Reach store request (Built store opened) allowed _ d _ (d.building identity tree next) :=
      .building hh
    refine .bind (fetch_spec (hc.holds _ _ reach) (hc.met reach) (fun treeSha256 hs => ?_) fun error hr => ?_)
    swap
    · rw [tree_building] at hr
      exact nomatch hw.links.symm.trans hr
    rw [tree_building] at hs
    cases hw.links.symm.trans hs
    refine .bind (.bind (touch_spec (hc.holds _ _ reach) (hc.met reach)
          (touch_spec (hc.holds _ _ reach) (hc.met reach) ?_)))
    have ht' : Tidy (d.building identity tree next) := tidy
    have chain : (Progress.prepared (requestBinding request) pendingName identity).chain store
          (d.building identity tree next).tree =
        (Progress.staged (requestBinding request) pendingName identity).chain store
          (d.building identity tree next).tree ++
          [.prepared (preparedValue store request identity (digestOf store tree))] := by
      simp only [Progress.chain, tree_building]
      rfl
    refine .bind (publishNext_spec reach.here ht' rfl (.prepared _ _ _) chain rfl rfl
        (fun _ other same => ?_) id (hc.trans reach id) fun d' more ht'' same => .pure ?_)
    · cases same
      rw [tree_building]
      exact hw
    · have tree' : d'.tree identity = tree := by rw [same, tree_building]
      have given := goes d' (reach.trans more) ht'' fun _ => by rw [tree']; exact hw
      rw [tree'] at given
      exact given
  · refine .bind (fetch_spec (hc.holds _ _ (.refl hh)) (hc.met (.refl hh)) (fun treeSha256 hs => ?_)
        fun error hr => ?_)
    · obtain rfl : treeSha256 = digestOf store (d.tree identity) := by
        unfold syncTreeDigest at hs
        split at hs
        next => exact nomatch hs
        next => exact (Except.ok.inj hs).symm
      have same : ¬ preparedOf store (requestBinding request) identity (d.tree identity) ≠
          .prepared (preparedValue store request identity (digestOf store (d.tree identity))) := not_not.mpr rfl
      rw [if_neg same]
      exact .pure (goes d (.refl hh) tidy fun hg => right hg identity rfl)
    · exact hc.raises error _ _ (.refl hh) fun hg => nomatch (right hg identity rfl).links.symm.trans hr

theorem renamePending_spec {post : Unit → Disk → Prop}
    (hh : At store (.prepared binding pendingName identity) d)
    (hc : Covers store request (Built store opened) allowed inv failed good
        (.prepared binding pendingName identity) d)
    (goes : ∀ d', Reach store request (Built store opened) allowed
            (.prepared binding pendingName identity) d (.moved binding pendingName identity) d' →
        (Tidy d → Tidy d') → d'.tree = d.tree → post () d') :
    Wp allowed inv failed post (renamePending pendingName identity) d := by
  have pending : d.staging (.pending pendingName) = some identity := by
    rw [hh.staging]
    exact if_pos rfl
  have hf : d.staging .final = none := by
    rw [hh.staging]
    rfl
  have moved : Reach store request (Built store opened) allowed
        (.prepared binding pendingName identity) d (.moved binding pendingName identity)
      { d with
        staging := update (update d.staging (.pending pendingName) none) .final
            (d.staging (.pending pendingName)) } := by
    refine ⟨.single (.moved _ _ _), ⟨hh.journal, ?_⟩, .inl, fun _ _ => rfl, id, id⟩
    funext name
    rw [hh.staging]
    cases name with
    | final => simp [Progress.staging]
    | pending token => by_cases hs : token = pendingName <;> simp [Progress.staging, hs]
  refine .rescue (fun _ d' => Disturbed allowed ∧
      ∃ p', Reach store request (Built store opened) allowed
          (.prepared binding pendingName identity) d p' d') ?_
    fun error d' hb => ?_
  · refine .bind (fetch_spec (hc.holds _ _ (.refl hh)) (fun _ met => ⟨met, _, .refl hh⟩)
        (fun _ _ => ?_) fun error hr => ?_)
    swap
    · rw [if_pos pending] at hr
      exact nomatch hr
    refine .bind (.act (hc.holds _ _ (.refl hh)) (fun error met => ⟨⟨_, _, _, met⟩, _, .refl hh⟩)
        (fun _ _ d' hd => ?_) fun _ error hr => ?_)
    · rw [if_neg (by rw [hf]; exact Bool.false_ne_true)] at hd
      cases hd
      exact touch_spec (hc.holds _ _ moved) (fun _ met => ⟨met, _, moved⟩) (goes _ moved id rfl)
    · rw [if_neg (by rw [hf]; exact Bool.false_ne_true)] at hr
      exact nomatch hr
  · obtain ⟨met, p', reach⟩ := hb
    exact .raise (hc.met reach _ met)

theorem finishPending_spec {prepared : Option Record} (hhe : At store p d) (ht : Tidy d)
    (last : p = .staged (requestBinding request) pendingName identity ∧ prepared = none ∨
      p = .prepared (requestBinding request) pendingName identity ∧
      prepared = some (preparedOf store (requestBinding request) identity (d.tree identity)))
    (buildable : good → Buildable store opened)
    (right : good →
      ∀ identity, p.preparedIdentity = some identity → Built store opened (d.tree identity))
    (hc : Covers store request (Built store opened) allowed inv failed good p d)
    (goes : ∀ d', Reach store request (Built store opened) allowed p d
            (.delivered (requestBinding request) pendingName identity) d' → Tidy d' →
        Built store opened (d'.tree identity) →
        post (receiptOf store (requestBinding request) identity (d'.tree identity)) d') :
    Wp allowed inv failed post (finishPending store request opened (.stage pendingName identity)
        prepared none pendingName identity) d := by
  unfold finishPending
  rw [if_neg (by simp)]
  refine .bind (establishPrepared_spec hhe ht last buildable right hc fun d' reach ht' hw => ?_)
  have hh := hc.holds _ _ reach
  refine .bind (.bind (touch_spec hh (hc.met reach) (touch_spec hh (hc.met reach) ?_)))
  refine .bind (renamePending_spec reach.here (hc.trans reach id) fun d'' more ht'' tree => ?_)
  have reach'' := reach.trans more
  have final : d''.staging .final = some identity := staging_final more.here (.inl rfl)
  refine .bind (fetch_spec (hc.holds _ _ reach'') (hc.met reach'') (fun hf seen => ?_)
      fun error hr => nomatch hr)
  obtain rfl := (Except.ok.inj seen).symm
  rw [final]
  rw [← tree]
  refine finishFinal_spec more.here (ht'' ht') (.inl ⟨rfl, rfl⟩)
    (fun hg => by rw [tree]; exact hw hg) (hc.trans reach'' id)
    fun d3 last tidy3 built hs => ?_
  have given := goes d3 (reach''.trans last) tidy3 (by rw [hs]; exact built)
  rwa [hs] at given

theorem establishIntent_spec {createIntent : Bool} {post : Record → Disk → Prop} (hh : At store p d)
    (ht : Tidy d) (hp : p.isAbsent = false) (creates : p = .opened → createIntent = true)
    (hc : Covers store request (Built store opened) allowed inv failed good p d)
    (fresh : ∀ pendingName d', p = .opened →
        Reach store request (Built store opened) allowed p d
          (.intended (requestBinding request) pendingName none) d' → Tidy d' →
        post (intentOf store (requestBinding request) pendingName) d')
    (old : ∀ intent, recordsOf (p.chain store d.tree) .intent = some intent → post intent d) :
    Wp allowed inv failed post
      (establishIntent store request createIntent (recordsOf (p.chain store d.tree))) d := by
  unfold establishIntent
  cases hf : recordsOf (p.chain store d.tree) .intent with
  | some intent => exact .pure (old intent hf)
  | none =>
    obtain rfl : p = .opened := by
      cases p with
      | absent => exact nomatch hp
      | opened => rfl
      | intended _ _ _ | staged _ _ _ | prepared _ _ _ | moved _ _ _ | delivered _ _ _ => exact nomatch hf
    have creates := creates rfl
    subst creates
    refine .bind (choose_spec (hc.holds _ _ (.refl hh)) (hc.met (.refl hh)) fun pendingName => ?_)
    refine .bind (publishNext_spec hh ht rfl (.intended (requestBinding request) pendingName) rfl ?_ rfl
      (fun _ _ none => nomatch none) (fun _ _ hs => (some.inj hs).symm) hc
        fun d' reach ht' _ => .pure (fresh pendingName d' rfl reach ht'))
    funext name
    exact ite_self _

structure Good (store : Store ω) (opened : Opened ω) (request : Request) (p : Progress) (d : Disk) :
    Prop where
  tidy : Tidy d
  binding : ∀ binding ∈ p.binding, binding = requestBinding request
  recorded : ∀ binding pendingName identity, p ≠ .intended binding pendingName (some identity)
  buildable : Buildable store opened
  built : ∀ identity, p.preparedIdentity = some identity → Built store opened (d.tree identity)

theorem establishStage_spec {post : Record × Option Nat → Disk → Prop}
    (hh : At store (.intended binding pendingName none) d) (tidy : Tidy d)
    (hc : Covers store request (Built store opened) allowed inv failed good
        (.intended binding pendingName none) d)
    (goes : ∀ identity d', Reach store request (Built store opened) allowed
            (.intended binding pendingName none) d (.staged binding pendingName identity) d' →
        Tidy d' → post (.stage pendingName identity, some identity) d') :
    Wp allowed inv failed post (establishStage pendingName none none none) d := by
  have hm : Reach store request (Built store opened) allowed (.intended binding pendingName none) d
        (.intended binding pendingName (some d.next))
      { d with
        staging := update d.staging (.pending pendingName) (some d.next),
        tree := update d.tree d.next .nil, next := d.next + 1 } := by
    refine ⟨.single (.made _ _ _), ⟨hh.journal, ?_⟩, .inl,
      fun _ none => (nomatch none), id, fun _ _ none => nomatch none⟩
    funext name
    rw [hh.staging]
    by_cases same : name = .pending pendingName <;> simp [Progress.staging, same]
  refine .bind
    (.change (hc.holds _ _ (.refl hh)) (fun error met => hc.met (.refl hh) error ⟨_, _, _, met⟩) ?_)
  refine .bind (fetch_spec (hc.holds _ _ hm) (hc.met hm) (fun hf hs => ?_) fun error hr => nomatch hr)
  obtain rfl : hf = some d.next := by
    have ht : update d.staging (.pending pendingName) (some d.next) (.pending pendingName) =
          some d.next := update_self _ _ _
    exact (Except.ok.inj hs).symm.trans ht
  refine .bind (touch_spec (hc.holds _ _ hm) (hc.met hm) ?_)
  refine .bind (publishNext_spec hm.here tidy rfl (.staged binding pendingName d.next) rfl ?_ rfl
      (fun _ _ none => nomatch none) id (hc.trans hm id)
      fun d' more ht' _ => .pure (goes _ d' (hm.trans more) ht'))
  funext name
  rfl

theorem establishStage_recorded {identity : Nat} {pending final : Option Nat}
    {recorded : Option Record} {post : Record × Option Nat → Disk → Prop}
    (stage : recorded = some (.stage pendingName identity))
    (hh : post (.stage pendingName identity, pending) d) :
    Wp allowed inv failed post (establishStage pendingName pending final recorded) d := by
  subst stage
  have hk : establishStage pendingName pending final (some (.stage pendingName identity)) =
        pure (.stage pendingName identity, pending) := if_pos rfl
  rw [hk]
  exact .pure hh

theorem validateIntent_intentOf :
    validateIntent store (intentOf store (requestBinding request) pendingName) request =
      .ok pendingName :=
  if_pos rfl

theorem eq_of_validateIntent {found : Nat}
    (hv : validateIntent store (intentOf store binding pendingName) request = .ok found) :
    binding = requestBinding request ∧ pendingName = found := by
  unfold validateIntent intentOf at hv
  dsimp only at hv
  split at hv
  next hs => exact ⟨(Record.intent.inj hs).1, Except.ok.inj hv⟩
  next => exact nomatch hv

theorem intent_of_chain {intent : Record}
    (intends : recordsOf (p.chain store d.tree) .intent = some intent) :
    ∃ binding pendingName,
      intent = intentOf store binding pendingName ∧ p.binding = some binding := by
  cases p with
  | absent | opened => exact nomatch intends
  | intended binding pendingName _ | staged binding pendingName _ | prepared binding pendingName _
  | moved binding pendingName _
  | delivered binding pendingName _ => exact ⟨binding, pendingName, (some.inj intends).symm, rfl⟩

theorem continueFrom_spec {records : Records} {intent : Record} (hhe : At store p d) (tidy : Tidy d)
    (intends : recordsOf (p.chain store d.tree) .intent = some intent)
    (ha : ∀ kind, kind ≠ .intent → records kind = recordsOf (p.chain store d.tree) kind)
    (hc : Covers store request (Built store opened) allowed inv failed
        (Good store opened request p d) p d)
    (goes : ∀ pendingName identity d', Reach store request (Built store opened) allowed p d
            (.delivered (requestBinding request) pendingName identity) d' → Tidy d' →
        Built store opened (d'.tree identity) →
        post (receiptOf store (requestBinding request) identity (d'.tree identity)) d') :
    Wp allowed inv failed post (continueFrom store request opened records intent) d := by
  have hh := hc.holds _ _ (.refl hhe)
  have hb := hc.met (.refl hhe)
  obtain ⟨binding, _, rfl, bound⟩ := intent_of_chain intends
  refine .bind (fetch_spec hh hb (fun found hv => ?_) fun error hr => ?_)
  swap
  · refine hc.raises error _ _ (.refl hhe) fun hg => ?_
    obtain rfl := hg.binding binding bound
    exact nomatch validateIntent_intentOf.symm.trans hr
  obtain ⟨rfl, rfl⟩ := eq_of_validateIntent hv
  refine .bind (fetch_spec hh hb (fun pending hs => ?_) fun error hr => nomatch hr)
  cases hs
  refine .bind (fetch_spec hh hb (fun final hs => ?_) fun error hr => nomatch hr)
  cases hs
  rw [hhe.staging, ha .stage (by decide), ha .prepared (by decide), ha .receipt (by decide)]
  cases p with
  | absent | opened => exact nomatch bound
  | intended _ pendingName' hm =>
    obtain ⟨rfl, -, rfl⟩ := Record.intent.inj (some.inj intends)
    have ht : (Progress.intended (requestBinding request) pendingName' hm).staging
            (.pending pendingName') = hm := if_pos rfl
    have hf : (Progress.intended (requestBinding request) pendingName' hm).staging .final = none := rfl
    rw [ht, hf, if_neg (fun both => nomatch both.2)]
    cases hm with
    | none =>
      refine .bind (establishStage_spec hhe tidy hc fun identity d' reach ht' => ?_)
      exact finishPending_spec reach.here ht' (.inl ⟨rfl, rfl⟩) Good.buildable
        (fun _ _ none => nomatch none) (hc.trans reach id)
        fun d'' more => goes _ _ d'' (reach.trans more)
    | some identity =>
      exact .bind (.raise (hc.raises _ _ _ (.refl hhe) fun hg => absurd rfl (hg.recorded _ _ _)))
  | staged _ pendingName' identity | prepared _ pendingName' identity =>
    obtain ⟨rfl, -, rfl⟩ := Record.intent.inj (some.inj intends)
    simp only [Progress.staging, if_true]
    refine .bind (establishStage_recorded rfl ?_)
    exact finishPending_spec hhe tidy (by first | exact .inl ⟨rfl, rfl⟩ | exact .inr ⟨rfl, rfl⟩)
      Good.buildable Good.built hc
      fun d' => goes _ _ d'
  | moved _ pendingName' identity | delivered _ pendingName' identity =>
    obtain ⟨rfl, -, rfl⟩ := Record.intent.inj (some.inj intends)
    refine .bind (establishStage_recorded rfl ?_)
    refine finishFinal_spec hhe tidy (by first | exact .inl ⟨rfl, rfl⟩ | exact .inr ⟨rfl, rfl⟩)
      (fun hg => hg.built _ rfl) hc
      fun d' reach ht' hw tree => ?_
    rw [← tree] at hw ⊢
    exact goes _ _ d' reach ht' hw

theorem continue_spec {createIntent : Bool} (hh : At store p d) (hp : p.isAbsent = false)
    (creates : p = .opened → createIntent = true)
    (hc : Covers store request (Built store opened) allowed inv failed
        (Good store opened request p d) p d)
    (goes : ∀ pendingName identity d', Reach store request (Built store opened) allowed p d
            (.delivered (requestBinding request) pendingName identity) d' → Tidy d' →
        Built store opened (d'.tree identity) →
        post (receiptOf store (requestBinding request) identity (d'.tree identity)) d') :
    Wp allowed inv failed post (continueOperation store request opened createIntent) d := by
  refine .bind (journalRecords_spec hh hp (hc.holds _ _ (.refl hh))
    (fun error why => hc.raises error _ _ (.refl hh) fun hg => why hg.tidy) fun ht => ?_)
  refine .bind (establishIntent_spec hh ht hp creates hc
    (fun pendingName d' hf reach ht' => ?_) fun intent intends => ?_)
  · subst hf
    have hg' : Good store opened request .opened d →
        Good store opened request (.intended (requestBinding request) pendingName none) d' :=
      fun hg => ⟨ht', fun _ hs => (some.inj hs).symm, fun _ _ _ => nofun, hg.buildable, fun _ => nofun⟩
    refine continueFrom_spec reach.here ht' rfl (fun kind other => ?_) (hc.trans reach hg')
      fun pendingName' identity d'' more => goes _ _ d'' (reach.trans more)
    cases kind <;> first | rfl | exact absurd rfl other
  · exact continueFrom_spec hh ht intends (fun _ _ => rfl) hc goes

def Described (store : Store ω) (request : Request) (tree : Tree) : Prop :=
  ∀ opened, store.openPublished request = .ok opened → Built store opened tree

theorem described_eq (source : store.openPublished request = .ok opened) :
    Described store request = Built store opened := by
  funext tree
  refine propext ⟨fun described => described opened source, fun built opened' source' => ?_⟩
  rwa [← Except.ok.inj (source.symm.trans source')]

/-- What an undisturbed call needs, with the source that it opens. -/
def Ready (store : Store ω) (request : Request) (p : Progress) (d : Disk) : Prop :=
  ∃ opened, store.openPublished request = .ok opened ∧ store.validSource opened = true ∧
    Good store opened request p d

theorem withPublished_spec {α : Type} {body : Opened ω → StoreM α} {post : α → Disk → Prop}
    (hs : inv d) (hf : ∀ error, (Ready store request p d → Disturbed allowed) → failed error d)
    (goes : ∀ opened, store.openPublished request = .ok opened → store.validSource opened = true →
        Wp allowed inv
          (fun error d' => Wp allowed inv failed (fun _ => failed error) (Prog.touch .call) d')
          (fun result d' => Wp allowed inv failed (fun _ => post result) (Prog.touch .call) d')
          (body opened) d) : Wp allowed inv failed post (withPublished store request body) d := by
  refine .bind (fetch_spec hs (fun error met => hf error fun _ => met) (fun opened source => .ensure ?_)
    fun error hr => hf error fun ⟨opened, source, _⟩ => nomatch source.symm.trans hr)
  split
  next hv => exact goes opened source hv
  next invalid =>
    refine .raise (touch_spec hs (fun error met => hf error fun _ => met)
        (hf _ fun ⟨opened', source', hv, _⟩ => ?_))
    rw [Except.ok.inj (source.symm.trans source')] at invalid
    exact absurd hv invalid

theorem createJournal_spec {right : Tree → Prop} {post : Bool → Disk → Prop}
    (here : At store .absent d) (hc : Covers store request right allowed inv failed good .absent d)
    (goes : ∀ d', Reach store request right allowed .absent d .opened d' → Tidy d' → post true d') :
    Wp allowed inv failed post (openJournalOperation true) d := by
  have missing : d.journal = none := map_eq_none_iff.mp here.journal
  have empty : (fun _ => none : Records) = recordsOf (Progress.opened.chain store d.tree) := by
    funext kind
    cases kind <;> rfl
  have ht : Tidy { d with journal := some {} } := fun _ hf => by cases hf; rfl
  have hm : Reach store request right allowed .absent d .opened { d with journal := some {} } :=
    ⟨.single .opened, .of_journal (by rw [← empty]) rfl here.staging,
      fun _ => .inl ht, fun _ => nofun, fun _ _ => nofun, fun _ _ => nofun⟩
  have hh := hc.holds _ _ (.refl here)
  have hb := hc.met (.refl here)
  refine .bind (fetch_spec hh hb (fun there hs => ?_) fun error hr => nomatch hr)
  cases hs
  have writes : ¬ (d.journal.isSome = true ∨ ¬ true = true) := by simp [missing]
  rw [if_neg writes]
  refine .bind (.change hh (fun error met => hb error ⟨_, _, _, met⟩) ?_)
  refine .bind (touch_spec (hc.holds _ _ hm) (hc.met hm) ?_)
  refine .bind (touch_spec (hc.holds _ _ hm) (hc.met hm) ?_)
  exact .pure (goes _ hm ht)

variable {post : Option Receipt → Disk → Prop}

def Delivers (store : Store ω) (request : Request) (allowed : Label → Disk → Fault Error → Prop)
    (p : Progress) (d : Disk) (post : Option Receipt → Disk → Prop) : Prop :=
  ∀ opened pendingName identity d', store.openPublished request = .ok opened →
    Reach store request (Described store request) allowed p d
      (.delivered (requestBinding request) pendingName identity) d' →
    Built store opened (d'.tree identity) →
    post (some (receiptOf store (requestBinding request) identity (d'.tree identity))) d'

theorem runLocked_spec {allowCreate : Bool} (hhe : At store p d)
    (hc : Covers store request (Described store request) allowed inv failed
        (Ready store request p d) p d) (goes : Delivers store request allowed p d post)
    (nothing : allowCreate = false → p.binding = none → post none d) :
    Wp allowed inv failed post (runLocked store request allowCreate) d := by
  have hh := hc.holds _ _ (.refl hhe)
  have hb := hc.met (.refl hhe)
  have thin : ∀ error,
      (Ready store request p d → Disturbed allowed) → failed error d :=
        fun error => hc.raises error _ _ (.refl hhe)
  have closes : ∀ {p' d'} {ends : Unit → Disk → Prop},
        Reach store request (Described store request) allowed p d p' d' → ends () d' →
      Wp allowed inv failed ends (Prog.touch .call) d' := fun reach he =>
    touch_spec (hc.holds _ _ reach) (hc.met reach) he
  refine .bind (.bind (fetch_spec hh hb (fun there hs => ?_) fun error hr => nomatch hr))
  cases hs
  have reads : d.journal.isSome = true ∨ ¬ false = true := .inr Bool.false_ne_true
  rw [if_pos reads]
  refine .pure (.bind (fetch_spec hh hb (fun final hs => ?_) fun error hr => nomatch hr))
  cases hs
  cases ha : p.isAbsent with
  | false =>
    obtain ⟨_, journal⟩ := hhe.journaled ha
    rw [if_pos (by rw [journal]; rfl)]
    refine .bind (journalRecords_spec hhe ha hh
      (fun error why => thin error fun ⟨_, _, _, hg⟩ => why hg.tidy) fun ht => ?_)
    dsimp only
    split
    next neither =>
      refine .pure (nothing (by simpa using neither.2) ?_)
      cases p with
      | absent | opened => rfl
      | intended _ _ _ | staged _ _ _ | prepared _ _ _ | moved _ _ _ | delivered _ _ _ =>
        exact nomatch neither.1
    next =>
      refine withPublished_spec hh thin fun opened source hv => ?_
      unfold Delivers at goes
      rw [described_eq source] at hc goes closes
      refine .bind (continue_spec hhe ha (fun hf => by rw [hf]; rfl)
        ⟨hc.holds, fun error p' d' reach why => ?_⟩
        fun pendingName identity d' reach ht' hw => .pure ?_)
      · exact closes reach
          (hc.raises error _ _ reach
            fun ⟨opened', source', _, hg⟩ =>
              why (by rwa [Except.ok.inj (source.symm.trans source')]))
      · exact closes reach (goes _ _ _ _ source reach hw)
  | true =>
    obtain rfl : p = .absent := by
      cases p with
      | absent => rfl
      | opened | intended _ _ _ | staged _ _ _ | prepared _ _ _ | moved _ _ _ | delivered _ _ _ =>
        exact nomatch ha
    have missing : d.journal = none := map_eq_none_iff.mp hhe.journal
    rw [missing, if_neg (fun some => nomatch some), hhe.staging, if_neg (fun some => nomatch some)]
    split
    next no => exact .pure (nothing (by simpa using no) rfl)
    next =>
      refine withPublished_spec hh thin fun opened source hv => ?_
      unfold Delivers at goes
      rw [described_eq source] at hc goes closes
      refine .bind (createJournal_spec hhe ⟨hc.holds, fun error _ _ reach why =>
        closes reach (hc.raises error _ _ reach why)⟩ fun d' hm ht => ?_)
      have hg : Good store opened request .absent d → Good store opened request .opened d' := fun hg =>
        ⟨ht, fun _ => nofun, fun _ _ _ => nofun, hg.buildable, fun _ => nofun⟩
      refine .bind (continue_spec hm.here rfl (fun _ => rfl) ⟨fun _ _ more => hc.holds _ _ (hm.trans more),
        fun error p'' d'' more why =>
          closes (hm.trans more) ?_⟩ fun pendingName identity d'' more ht' hw => .pure ?_)
      · exact hc.raises error _ _ (hm.trans more) fun ⟨opened', source', _, hg'⟩ =>
          why (hg (by rwa [Except.ok.inj (source.symm.trans source')]))
      · exact closes (hm.trans more) (goes _ _ _ _ source (hm.trans more) hw)

theorem intentExists_spec {post : Bool → Disk → Prop} (stops : inv d)
    (goes : ∀ found, post found d) : Wp allowed inv failed post intentExists d :=
  .rescue (fun _ d' => d' = d) (fetch_spec stops (fun _ _ => rfl) (fun found _ => goes found) fun _ _ => rfl)
    fun _ _ hs => .pure (hs ▸ goes true)

theorem run_spec {allowCreate : Bool} (hh : At store p d)
    (hc : Covers store request (Described store request) allowed inv failed
        (Ready store request p d) p d) (goes : Delivers store request allowed p d post)
    (nothing : allowCreate = false → p.binding = none → post none d) :
    Wp allowed inv failed post (run store request allowCreate) d := by
  refine .rescue (fun _ d' => ∃ p', Reach store request (Described store request) allowed p d p'
          d' ∧ (Ready store request p d → Disturbed allowed))
    (.bind (touch_spec (hc.holds _ _ (.refl hh)) (fun _ met => ⟨_, .refl hh, fun _ => met⟩)
      (.bind (touch_spec (hc.holds _ _ (.refl hh)) (fun _ met => ⟨_, .refl hh, fun _ => met⟩) ?_))))
        fun error d' hb => ?_
  · exact runLocked_spec hh ⟨hc.holds, fun _ p' d' reach why => ⟨p', reach, why⟩⟩ goes nothing
  · obtain ⟨p', reach, why⟩ := hb
    have raises : ∀ error, failed error d' := fun error => hc.raises error p' d' reach why
    cases error with
    | cancelled =>
      refine .bind (intentExists_spec (hc.holds _ _ reach) fun hf => ?_)
      split
      next => exact .raise (raises _)
      next => exact .raise (raises _)
    | rejected | unresolved | collision | publicationCollision | publicationRejected | notFound
    | fileExists | other =>
      exact .raise (raises _)

theorem call_spec {entry : Entry} (hh : At store p d)
    (hs : ∀ p' d', Reach store request (Described store request) allowed p d p' d' → inv d')
    (hf : ∀ error p' d', Reach store request (Described store request) allowed p d p' d' →
        (request.version = 1 → Ready store request p d → Disturbed allowed) → failed error d')
    (goes : Delivers store request allowed p d post)
    (nothing : entry = .reconcile → p.binding = none → post none d) :
    Wp allowed inv failed post (call store entry request) d := by
  unfold call
  split
  next other => exact .raise (hf _ _ _ (.refl hh) fun version => absurd version other)
  next =>
    cases entry with
    | materialize =>
      exact .bind (run_spec hh ⟨hs, fun error p' d' reach why => hf error p' d' reach fun _ => why⟩
        (fun opened pendingName identity d' source reach hw =>
          .pure (goes opened pendingName identity d' source reach hw))
        fun no => nomatch no)
    | reconcile =>
      exact run_spec hh ⟨hs, fun error p' d' reach why => hf error p' d' reach fun _ => why⟩ goes
        fun _ => nothing rfl

theorem present_of_bound (hb : p.binding.isSome = true) : p.isAbsent = false := by
  cases p with
  | absent => exact nomatch hb
  | opened | intended _ _ _ | staged _ _ _ | prepared _ _ _ | moved _ _ _ | delivered _ _ _ => rfl

theorem call_blocked {entry : Entry} {raises : Error → Prop} (hh : At store p d)
    (bound : p.binding.isSome = true)
    (only : ∀ error, raises error → error = .unresolved ∨ ∀ error, raises error)
    (thin : ∀ error,
        (request.version = 1 → Tidy d →
            (∃ opened, store.openPublished request = .ok opened ∧ store.validSource opened = true) →
            Disturbed allowed) → raises error)
    (blocks : ∀ opened intent, store.openPublished request = .ok opened → Tidy d →
        recordsOf (p.chain store d.tree) .intent = some intent →
        Wp allowed (· = d) (fun error d' => raises error ∧ d' = d) (fun _ _ => False)
          (continueFrom store request opened (recordsOf (p.chain store d.tree)) intent) d) :
    Wp allowed (· = d) (fun error d' => raises error ∧ d' = d) (fun _ _ => False)
      (call store entry request) d := by
  have hb : ∀ error, Disturbed allowed → raises error ∧ d = d :=
        fun error met => ⟨thin error fun _ _ _ => met, rfl⟩
  have hp := present_of_bound bound
  obtain ⟨intent, intends⟩ : ∃ intent, recordsOf (p.chain store d.tree) .intent = some intent := by
    cases p with
    | absent | opened => exact nomatch bound
    | intended _ _ _ | staged _ _ _ | prepared _ _ _ | moved _ _ _ | delivered _ _ _ => exact ⟨_, rfl⟩
  have continued : ∀ opened createIntent, store.openPublished request = .ok opened →
      Wp allowed (· = d) (fun error d' => raises error ∧ d' = d) (fun _ _ => False)
        (continueOperation store request opened createIntent) d := by
    intro opened _ source
    refine .bind (journalRecords_spec hh hp rfl
        (fun error why => ⟨thin error fun _ ht _ => why ht, rfl⟩) fun ht => ?_)
    unfold establishIntent
    rw [intends]
    exact .bind (.pure (blocks opened intent source ht intends))
  unfold call
  split
  next other => exact .raise ⟨thin _ fun version => absurd version other, rfl⟩
  next version =>
    have ran : ∀ allowCreate, Wp allowed (· = d) (fun error d' => raises error ∧ d' = d)
            (fun _ _ => False) (run store request allowCreate) d := by
      intro _
      refine .rescue (fun error d' => raises error ∧ d' = d)
        (.bind (touch_spec rfl hb (.bind (touch_spec rfl hb ?_))))
        fun error d' he => ?_
      · refine .bind (.bind (fetch_spec rfl hb (fun there hs => ?_) fun error hr => nomatch hr))
        cases hs
        have reads : d.journal.isSome = true ∨ ¬ false = true := .inr Bool.false_ne_true
        rw [if_pos reads]
        refine .pure (.bind (fetch_spec rfl hb (fun final hs => ?_) fun error hr => nomatch hr))
        obtain ⟨_, journal⟩ := hh.journaled hp
        rw [if_pos (by rw [journal]; rfl)]
        refine .bind (journalRecords_spec hh hp rfl
            (fun error why => ⟨thin error fun _ ht _ => why ht, rfl⟩) fun ht => ?_)
        have hk : (recordNames.all fun kind => (recordsOf (p.chain store d.tree) kind).isNone) = false := by
          refine List.all_eq_false.mpr ⟨.intent, List.mem_cons_self .., ?_⟩
          rw [intends]
          exact Bool.false_ne_true
        rw [hk, if_neg fun both => Bool.false_ne_true both.1]
        refine .bind (fetch_spec rfl hb (fun opened source => .ensure ?_)
            fun error hr => ⟨thin error fun _ _ some => ?_, rfl⟩)
        · split
          next hv =>
            refine .bind ((continued opened false source).weaken (fun _ => id)
                (fun error d' he => ?_) fun _ _ never => never.elim)
            obtain ⟨raised, rfl⟩ := he
            exact touch_spec rfl hb ⟨raised, rfl⟩
          next invalid =>
            refine .raise (touch_spec rfl hb ⟨thin _ fun _ _ some => ?_, rfl⟩)
            obtain ⟨_, source', hv⟩ := some
            rw [Except.ok.inj (source.symm.trans source')] at invalid
            exact absurd hv invalid
        · obtain ⟨_, source, -⟩ := some
          exact nomatch source.symm.trans hr
      · obtain ⟨raised, rfl⟩ := he
        obtain rfl | every := only error raised
        · exact .raise ⟨raised, rfl⟩
        · cases error with
          | cancelled =>
            refine .bind (intentExists_spec rfl fun hf => ?_)
            split
            next => exact .raise ⟨every _, rfl⟩
            next => exact .raise ⟨every _, rfl⟩
          | rejected | unresolved | collision | publicationCollision | publicationRejected
          | notFound | fileExists | other =>
            exact .raise ⟨every _, rfl⟩
    cases entry with
    | materialize => exact .bind ((ran true).weaken (fun _ => id) (fun _ _ => id) fun _ _ never => never.elim)
    | reconcile => exact (ran false).weaken (fun _ => id) (fun _ _ => id) fun _ _ never => never.elim

end Finish

end Parts

end Yinshi.Materialization
