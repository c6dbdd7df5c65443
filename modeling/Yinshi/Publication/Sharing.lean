import Yinshi.Publication.Store

/-! What the calls on one publication root leave to each other: the directories that each has
made, its local variables, and everything that is published. -/

namespace Yinshi.Publication
open ByteText Function Interleaved Option

variable {ν : Type} {store : Store ν} {s t u : Root} {n m : Nat} {declaration : Declaration}

structure Published (store : Store ν) (s : Root) (declaration : Declaration) (directory : Nat)
    (verification : ν) : Prop where
  valid : store.valid declaration = true
  entry : s.entry (.final declaration.operationId) = some directory
  declared : matchesDeclaration store declaration (s.folder directory) = true
  marker : content (s.folder directory) .marker = some (store.markerBytes declaration verification)
  verified : store.verify declaration (artifactsOf (s.folder directory)) = .ok verification

structure Sane (store : Store ν) (s : Root) : Prop where
  used : ∀ name directory, s.entry name = some directory → directory < s.next
  single : ∀ a b directory, s.entry a = some directory → s.entry b = some directory → a = b
  made : ∀ directory maker, s.maker directory = some maker → directory < s.next
  final : ∀ operation directory, s.entry (.final operation) = some directory →
    ∃ n declaration verification,
      s.maker directory = some (n, declaration) ∧ declaration.operationId = operation ∧
      Published store s declaration directory verification

def Stays (s t : Root) : Prop := ∀ operation directory, s.entry (.final operation) = some directory →
  t.entry (.final operation) = some directory ∧ t.folder directory = s.folder directory

structure Keeps (n : Nat) (s t : Root) : Prop where
  folder : ∀ directory declaration,
      s.maker directory = some (n, declaration) → t.folder directory = s.folder directory
  entry : ∀ directory declaration, s.maker directory = some (n, declaration) →
    ∀ name, t.entry name = some directory ↔ s.entry name = some directory
  new : ∀ directory declaration,
      t.maker directory = some (n, declaration) → s.maker directory = some (n, declaration)
  notes : t.notes n = s.notes n

structure Rely (n : Nat) (s t : Root) : Prop where
  maker : ∀ directory maker, s.maker directory = some maker → t.maker directory = some maker
  keeps : Keeps n s t
  stays : Stays s t

structure Guarantee (n : Nat) (s t : Root) : Prop where
  maker : ∀ directory maker, s.maker directory = some maker → t.maker directory = some maker
  keeps : ∀ m, m ≠ n → Keeps m s t
  stays : Stays s t

theorem Keeps.refl (n : Nat) (s : Root) : Keeps n s s :=
  ⟨fun _ _ _ => rfl, fun _ _ _ _ => Iff.rfl, fun _ _ => id, rfl⟩

theorem Stays.refl (s : Root) : Stays s s := fun _ _ entry => ⟨entry, rfl⟩

theorem Rely.refl (n : Nat) (s : Root) : Rely n s s := ⟨fun _ _ => id, .refl n s, .refl s⟩

theorem Guarantee.refl (n : Nat) (s : Root) : Guarantee n s s :=
  ⟨fun _ _ => id, fun m _ => .refl m s, .refl s⟩

theorem Stays.trans (first : Stays s t) (second : Stays t u) : Stays s u := by
  intro operation directory entry
  obtain ⟨between, hs⟩ := first operation directory entry
  obtain ⟨last, hs'⟩ := second operation directory between
  exact ⟨last, hs'.trans hs⟩

theorem Keeps.trans
    (maker : ∀ directory maker, s.maker directory = some maker → t.maker directory = some maker)
    (first : Keeps n s t) (second : Keeps n t u) : Keeps n s u where
  folder directory declaration mine := by
    rw [second.folder directory declaration (maker _ _ mine), first.folder directory declaration mine]
  entry directory declaration mine name := by
    rw [second.entry directory declaration (maker _ _ mine), first.entry directory declaration mine]
  new directory declaration mine := first.new directory declaration (second.new directory declaration mine)
  notes := by rw [second.notes, first.notes]

theorem Rely.trans (first : Rely n s t) (second : Rely n t u) : Rely n s u where
  maker directory maker made := second.maker directory maker (first.maker directory maker made)
  keeps := first.keeps.trans first.maker second.keeps
  stays := first.stays.trans second.stays

theorem Guarantee.trans (first : Guarantee n s t) (second : Guarantee n t u) : Guarantee n s u where
  maker directory maker made := second.maker directory maker (first.maker directory maker made)
  keeps m different := (first.keeps m different).trans first.maker (second.keeps m different)
  stays := first.stays.trans second.stays

theorem Guarantee.apart (hd : m ≠ n) (does : Guarantee n s t) : Rely m s t :=
  ⟨does.maker, does.keeps m hd, does.stays⟩

theorem Published.stays {directory : Nat} {verification : ν}
    (hp : Published store s declaration directory verification) (hst : Stays s t) :
    Published store t declaration directory verification := by
  obtain ⟨entry, hs⟩ := hst _ _ hp.entry
  exact ⟨hp.valid,
    entry, by rw [hs]; exact hp.declared, by rw [hs]; exact hp.marker, by rw [hs]; exact hp.verified⟩

def Idle (n : Nat) (s : Root) : Prop :=
  ∀ operation directory declaration, s.entry (.final operation) = some directory →
  s.maker directory ≠ some (n, declaration)

theorem stable_idle : Stable (Rely n) (Idle n) := by
  intro _ _ rely hi operation directory declaration entry mine
  have before := rely.keeps.new directory declaration mine
  exact hi operation directory declaration ((rely.keeps.entry directory declaration before _).mp entry) before

/-- The errors that a call may end with only when it has placed nothing. -/
def Harmless (n : Nat) (error : Error) (s : Root) : Prop :=
  error.isRejected = true ∨ error = .cancelled → Idle n s

theorem stable_harmless (error : Error) : Stable (Rely n) (Harmless n error) :=
  fun s t rely harmless bad => stable_idle s t rely (harmless bad)

structure Stage (n : Nat) (declaration : Declaration) (token directory : Nat) (s : Root) : Prop where
  idle : Idle n s
  entry : s.entry (.pending declaration.operationId token) = some directory
  maker : s.maker directory = some (n, declaration)

theorem stable_stage {token directory : Nat} : Stable (Rely n) (Stage n declaration token directory) := by
  intro s t rely stage
  exact ⟨stable_idle s t rely stage.idle,
    (rely.keeps.entry directory declaration stage.maker _).mpr stage.entry,
    rely.maker _ _ stage.maker⟩

theorem stable_notes (holds : Notes → Prop) : Stable (Rely n) fun s => holds (s.notes n) := by
  intro _ _ rely _
  rwa [rely.keeps.notes]

section Steps
variable {token directory : Nat}
variable {folder : Folder} {next : Nat} {target : Name}

theorem Stage.hidden (stage : Stage n declaration token directory s) (operation : Text) :
    s.entry (.final operation) ≠ some directory :=
  fun entry => stage.idle operation directory declaration entry stage.maker

theorem guarantee_note (edit : Notes → Notes) : Guarantee n s (s.note n edit) where
  maker _ _ := id
  keeps _ different := ⟨fun _ _ _ => rfl, fun _ _ _ _ => Iff.rfl, fun _ _ => id, update_of_ne different _ _⟩
  stays := .refl s

theorem sane_note (sane : Sane store s) (edit : Notes → Notes) : Sane store (s.note n edit) :=
  ⟨sane.used, sane.single, sane.made, fun operation directory entry => by
    obtain ⟨m, declared, verification, maker, hs, hp⟩ := sane.final operation directory entry
    exact ⟨m, declared, verification, maker, hs, hp.stays (guarantee_note edit).stays⟩⟩

theorem guarantee_folder (stage : Stage n declaration token directory s) :
    Guarantee n s { s with folder := update s.folder directory folder, next := next } where
  maker _ _ := id
  keeps m hd := by
    refine ⟨fun other declared hm => update_of_ne ?_ _ _, fun _ _ _ _ => Iff.rfl, fun _ _ => id, rfl⟩
    rintro rfl
    exact hd (Prod.mk.inj (some.inj (hm.symm.trans stage.maker))).1
  stays operation other entry := by
    refine ⟨entry, update_of_ne ?_ _ _⟩
    rintro rfl
    exact stage.hidden operation entry

theorem sane_folder (sane : Sane store s) (stage : Stage n declaration token directory s)
    (grows : s.next ≤ next) :
    Sane store { s with folder := update s.folder directory folder, next := next } where
  used name other entry := Nat.lt_of_lt_of_le (sane.used name other entry) grows
  single := sane.single
  made other maker found := Nat.lt_of_lt_of_le (sane.made other maker found) grows
  final operation other entry := by
    obtain ⟨m, declared, verification, maker, hs, hp⟩ := sane.final operation other entry
    exact ⟨m, declared, verification, maker, hs, hp.stays (guarantee_folder stage).stays⟩

theorem stage_folder (stage : Stage n declaration token directory s) :
    Stage n declaration token directory
      { s with folder := update s.folder directory folder, next := next } :=
  ⟨stage.idle, stage.entry, stage.maker⟩

theorem entry_make_of_ne {name made : Name} (ha : name ≠ made) :
    (s.make n declaration made).entry name = s.entry name :=
  update_of_ne ha _ _

theorem guarantee_make (hs : Sane store s)
    (hf : s.entry (.pending declaration.operationId token) = none) :
    Guarantee n s (s.make n declaration (.pending declaration.operationId token)) where
  maker other maker found := by
    refine (update_of_ne ?_ _ _).trans found
    exact Nat.ne_of_lt (hs.made other maker found)
  keeps m different := by
    refine ⟨fun other declared hm => update_of_ne (Nat.ne_of_lt (hs.made _ _ hm)) _ _,
      fun other declared hm name => ?_, fun other declared hm => ?_, rfl⟩
    · change update s.entry _ (some s.next) name = some other ↔ _
      by_cases hh : name = .pending declaration.operationId token
      · subst hh
        rw [update_self, hf]
        simp [Nat.ne_of_gt (hs.made _ _ hm)]
      · rw [update_of_ne hh]
    · change update s.maker s.next (some (n, declaration)) other = _ at hm
      by_cases hh : other = s.next
      · subst hh
        rw [update_self] at hm
        exact absurd (Prod.mk.inj (some.inj hm)).1.symm different
      · rwa [update_of_ne hh] at hm
  stays operation other entry := by
    refine ⟨?_, update_of_ne (Nat.ne_of_lt (hs.used _ _ entry)) _ _⟩
    exact (entry_make_of_ne (by simp)).trans entry

theorem sane_make (sane : Sane store s)
    (free : s.entry (.pending declaration.operationId token) = none) :
    Sane store (s.make n declaration (.pending declaration.operationId token)) := by
  have entries : ∀ name other,
        (s.make n declaration (.pending declaration.operationId token)).entry name = some other →
      name = .pending declaration.operationId token ∧ other = s.next ∨ s.entry name = some other := by
    intro name other entry
    change update s.entry _ (some s.next) name = some other at entry
    by_cases hh : name = .pending declaration.operationId token
    · subst hh
      rw [update_self] at entry
      exact .inl ⟨rfl, (some.inj entry).symm⟩
    · exact .inr (by rwa [update_of_ne hh] at entry)
  refine ⟨fun name other entry => ?_, fun a b other first second => ?_,
    fun other maker hf => ?_, fun operation other entry => ?_⟩
  · rcases entries name other entry with ⟨-, rfl⟩ | before
    · exact Nat.lt_succ_self _
    · exact Nat.lt_succ_of_lt (sane.used name other before)
  · rcases entries a other first with ⟨rfl, rfl⟩ | before <;>
      rcases entries b _ second with ⟨rfl, hs⟩ | before'
    · rfl
    · exact absurd (sane.used b _ before') (Nat.lt_irrefl _)
    · exact absurd (hs ▸ sane.used a _ before) (Nat.lt_irrefl _)
    · exact sane.single a b other before before'
  · change update s.maker s.next (some (n, declaration)) other = some maker at hf
    by_cases hh : other = s.next
    · rw [hh]
      exact Nat.lt_succ_self _
    · rw [update_of_ne hh] at hf
      exact Nat.lt_succ_of_lt (sane.made other maker hf)
  · rcases entries _ other entry with ⟨hs, -⟩ | before
    · exact nomatch hs
    · obtain ⟨m, declared, verification, maker, hs, hp⟩ := sane.final operation other before
      have does := guarantee_make (n := n) sane free
      exact ⟨m, declared, verification, does.maker _ _ maker, hs, hp.stays does.stays⟩

theorem stage_make (hs : Sane store s) (hi : Idle n s) :
    Stage n declaration token s.next
      (s.make n declaration (.pending declaration.operationId token)) where
  idle operation other declared entry mine := by
    change update s.maker s.next (some (n, declaration)) other = _ at mine
    rw [update_of_ne (Nat.ne_of_lt (hs.used _ _ entry))] at mine
    exact hi operation other declared entry mine
  entry := update_self _ _ _
  maker := update_self _ _ _

theorem entry_move {name : Name} {other : Nat}
    (entry : s.entry (.pending declaration.operationId token) = some directory)
    (moved : (s.move (.pending declaration.operationId token) target).entry name = some other) :
    name = target ∧ other = directory ∨
    name ≠ .pending declaration.operationId token ∧ s.entry name = some other := by
  change update (update s.entry _ none) target _ name = some other at moved
  by_cases hh : name = target
  · subst hh
    rw [update_self, entry] at moved
    exact .inl ⟨rfl, (some.inj moved).symm⟩
  · rw [update_of_ne hh] at moved
    by_cases source : name = .pending declaration.operationId token
    · subst source
      rw [update_self] at moved
      exact nomatch moved
    · rw [update_of_ne source] at moved
      exact .inr ⟨source, moved⟩

theorem guarantee_move (stage : Stage n declaration token directory s)
    (hf : s.entry target = none) :
    Guarantee n s (s.move (.pending declaration.operationId token) target) := by
  have others : ∀ name other, other ≠ directory →
      ((s.move (.pending declaration.operationId token) target).entry name = some other ↔
        s.entry name = some other) := by
    intro name other hd
    refine ⟨fun moved => ?_, fun entry => ?_⟩
    · rcases entry_move stage.entry moved with ⟨-, hs⟩ | ⟨-, before⟩
      · exact absurd hs hd
      · exact before
    · have ha : name ≠ target := by
        rintro rfl
        exact nomatch hf.symm.trans entry
      have source : name ≠ .pending declaration.operationId token := by
        rintro rfl
        exact hd (some.inj (entry.symm.trans stage.entry))
      change update (update s.entry _ none) target _ name = some other
      rw [update_of_ne ha, update_of_ne source]
      exact entry
  refine ⟨fun _ _ => id, fun m hd => ⟨fun _ _ _ => rfl, fun other declared hm name => others name other ?_,
    fun _ _ => id, rfl⟩, fun operation other entry => ⟨(others _ other ?_).mpr entry, rfl⟩⟩
  · rintro rfl
    exact hd (Prod.mk.inj (some.inj (hm.symm.trans stage.maker))).1
  · rintro rfl
    exact stage.hidden operation entry

structure Ready (store : Store ν) (s : Root) (declaration : Declaration) (directory : Nat)
    (verification : ν) : Prop where
  valid : store.valid declaration = true
  declared : matchesDeclaration store declaration (s.folder directory) = true
  marker : content (s.folder directory) .marker = some (store.markerBytes declaration verification)
  verified : store.verify declaration (artifactsOf (s.folder directory)) = .ok verification

theorem stable_ready {verification : ν} :
    Stable (Rely n)
      fun s => Stage n declaration token directory s ∧
        Ready store s declaration directory verification := by
  intro s t rely hh
  have hs := rely.keeps.folder directory declaration hh.1.maker
  exact ⟨stable_stage s t rely hh.1,
    hh.2.valid, by rw [hs]; exact hh.2.declared, by rw [hs]; exact hh.2.marker,
    by rw [hs]; exact hh.2.verified⟩

theorem published_move {verification : ν} (stage : Stage n declaration token directory s)
    (ready : Ready store s declaration directory verification) :
    Published store
      (s.move (.pending declaration.operationId token) (.final declaration.operationId)) declaration
      directory verification :=
  ⟨ready.valid, (update_self _ _ _).trans stage.entry, ready.declared, ready.marker, ready.verified⟩

theorem sane_move (sane : Sane store s) (stage : Stage n declaration token directory s)
    (hf : s.entry target = none)
    (ready : ∀ operation, target = .final operation →
        declaration.operationId = operation ∧
        ∃ verification, Ready store s declaration directory verification) :
    Sane store (s.move (.pending declaration.operationId token) target) := by
  have does := guarantee_move stage hf
  refine ⟨fun name other entry => ?_, fun a b other first second => ?_, sane.made,
    fun operation other entry => ?_⟩
  · rcases entry_move stage.entry entry with ⟨-, rfl⟩ | ⟨-, before⟩
    · exact sane.used _ _ stage.entry
    · exact sane.used name other before
  · rcases entry_move stage.entry first with ⟨rfl, rfl⟩ | ⟨source, before⟩ <;>
      rcases entry_move stage.entry second with ⟨rfl, hs⟩ | ⟨source', before'⟩
    · rfl
    · exact absurd (sane.single _ _ _ before' stage.entry) source'
    · exact absurd (sane.single _ _ _ (hs ▸ before) stage.entry) source
    · exact sane.single a b other before before'
  · rcases entry_move stage.entry entry with ⟨hs, rfl⟩ | ⟨-, before⟩
    · obtain ⟨rfl, verification, hh⟩ := ready operation hs.symm
      subst hs
      exact ⟨n, declaration, verification, stage.maker, rfl, published_move stage hh⟩
    · obtain ⟨m, declared, verification, maker, hs, hp⟩ := sane.final operation other before
      exact ⟨m, declared, verification, maker, hs, hp.stays does.stays⟩

theorem idle_abandon {attempt choice : Nat} (stage : Stage n declaration token directory s) :
    Idle n (s.move (.pending declaration.operationId token)
        (.abandoned declaration.operationId attempt choice)) := by
  intro operation other declared entry
  rcases entry_move stage.entry entry with ⟨hs, -⟩ | ⟨-, before⟩
  · exact nomatch hs
  · exact stage.idle operation other declared before

end Steps

end Yinshi.Publication
