import Yinshi.DataKey.Calls

/-! One key for all calls, in the runs that withdraw no key that another call has seen and leave
no two kinds of temporary files behind. -/

namespace Yinshi.DataKey
open ByteText Links Links.Directory Function Option

def Abandoned (s : System) (number : Nat) : Prop :=
  s.root.entry (.temporary number) ≠ none ∧ ∀ n call, s.calls n = some call → call.stage.holds ≠ some number

def Leaves (s : System) (number : Nat) : Prop :=
  s.root.entry (.temporary number) ≠ none →
    ∀ other, Abandoned s other → (s.root.entry .key = some other ↔ s.root.entry .key = some number)

/-- The published name is unlinked only before another call has opened it, and a call that ends
without its unlink leaves its temporary file beside others of its kind. -/
def Careful (s : System) : Event → Prop
  | .call _ _ => True
  | .act n _ => ∀ call number, s.calls n = some call → call.stage = .withdrawing number →
      ∀ m other, m ≠ n → s.calls m = some other →
        other.stage.opened = none ∧ ∀ key, other.stage ≠ .returned key
  | .fail n => ∀ call number, s.calls n = some call → call.stage = .clearing number → Leaves s number
  | .stop n => ∀ call number, s.calls n = some call → call.stage.holds = some number → Leaves s number

structure Unpublished (root : Root) (number : Nat) (content : Bytes) : Prop where
  entry : root.entry (.temporary number) = some number
  apart : root.entry .key ≠ some number
  content : (root.inode number).content = content

structure Published (root : Root) (number : Nat) (content : Bytes) : Prop where
  entry : root.entry .key = some number
  content : (root.inode number).content = content

namespace Stage
variable {number : Nat}

def made : Stage → Option Nat
  | .finishing number => some number
  | stage => stage.holds

def Fits (root : Root) (bytes : Bytes) : Stage → Prop
  | .writing number written => Unpublished root number (bytes.take written)
  | .syncing number | .linking number => Unpublished root number bytes
  | .openingRoot number | .publishing number | .unlinking number | .finishing number | .withdrawing number =>
    Published root number bytes
  | .checkingKey _ inode | .loading _ inode | .checkingFinal inode | .listing inode _ =>
    root.entry .key = some inode
  | .openingTemporary inode _ names rest =>
    root.entry .key = some inode ∧ ∀ name ∈ names, name ∉ rest → name = inode
  | .checkingTemporary inode _ names opened rest =>
    root.entry .key = some inode ∧ ∀ name ∈ names, name ∉ rest → name = inode ∨ name = opened
  | .readingFinal inode names => root.entry .key = some inode ∧ ∀ name ∈ names, name = inode
  | .removing inode key rest => Published root inode key ∧ ∀ name ∈ rest, name = inode
  | .syncingFinal inode key | .checkingAlone inode key => Published root inode key
  | .returned key => ∃ inode, Published root inode key
  | _ => True

inductive Effect (root : Root) (stage : Stage) : Root → Prop
  | keep : Effect root stage root
  | create (here : stage = .creating) : Effect root stage (root.create (.temporary root.next) [])
  | write {number written : Nat} {content : Bytes} (here : stage = .writing number written) :
      Effect root stage (root.write number content)
  | link {number inode : Nat} (here : stage = .linking number) (free : root.entry .key = none)
      (source : root.entry (.temporary number) = some inode) : Effect root stage (root.link inode .key)
  | discard {name inode : Nat} (mine : stage.holds = some name)
      (found : root.entry (.temporary name) = some inode) :
      Effect root stage (root.unlink inode (.temporary name))
  | remove {inode linked name : Nat} {key : Bytes} {rest : List Nat}
      (here : stage = .removing inode key (name :: rest))
      (found : root.entry (.temporary name) = some linked) :
        Effect root stage (root.unlink linked (.temporary name))
  | withdraw {number inode : Nat} (here : stage = .withdrawing number)
      (found : root.entry .key = some inode) : Effect root stage (root.unlink inode .key)

theorem act_effect (root : Root) (bytes : Bytes) (count : Nat) (stage : Stage) :
    Effect root stage (stage.act root bytes count).1 := by
  fun_cases act root bytes count stage
  all_goals first
    | exact .keep
    | exact .create rfl
    | exact .write rfl
    | (exact .link rfl ‹_› ‹_›)
    | (exact .discard rfl ‹_›)
    | (exact .remove rfl ‹_›)
    | (exact .withdraw rfl ‹_›)

@[simp] theorem made_checkNext (inode links : Nat) (names rest : List Nat) :
    (checkNext inode links names rest).made = none := by
  unfold checkNext
  repeat' split
  all_goals rfl

@[simp] theorem made_removeNext (inode : Nat) (key : Bytes) (rest : List Nat) :
    (removeNext inode key rest).made = none := by
  unfold removeNext
  split <;> rfl

theorem act_made (root : Root) (bytes : Bytes) (count : Nat) (stage : Stage)
    (made : (stage.act root bytes count).2.made = some number) :
    stage.made = some number ∨ stage = .creating ∧ number = root.next := by
  revert made
  fun_cases act root bytes count stage
  all_goals try split_ifs
  all_goals first
    | (simp [made, holds, eq_comm]; done)
    | simp

theorem Effect.grows {root root' : Root} {stage : Stage} (effect : Effect root stage root') :
    root.next ≤ root'.next := by
  cases effect with
  | create _ => exact Nat.le_succ _
  | _ => exact Nat.le_refl _

theorem Effect.key {root root' : Root} {stage : Stage} (effect : Effect root stage root') :
    root'.entry .key = root.entry .key ∨ root'.entry .key = none ∨
    ∃ number inode, stage = .linking number ∧ root.entry .key = none ∧
      root.entry (.temporary number) = some inode ∧ root'.entry .key = some inode := by
  cases effect with
  | keep | write hh => exact .inl rfl
  | create hh => exact .inl (entry_create_of_ne (by simp))
  | @link number inode hh hf source => exact .inr (.inr ⟨number, inode, hh, hf, source, entry_link_self⟩)
  | discard mine found | remove hh found => exact .inl (entry_unlink_of_ne (by simp))
  | withdraw _ _ => exact .inr (.inl entry_unlink_self)

theorem act_holds (root : Root) (bytes : Bytes) (count : Nat) (stage : Stage)
    (hh : stage.holds = some number)
    (hp : (stage.act root bytes count).1.entry (.temporary number) ≠ none) :
    (stage.act root bytes count).2.holds = some number := by
  revert hh hp
  fun_cases act root bytes count stage
  all_goals try split_ifs
  all_goals first
    | exact fun hh _ => hh
    | (intro hh hp
       cases hh
       first
         | exact absurd entry_unlink_self hp
         | exact absurd ‹_› hp)
    | (intro hh
       exact absurd hh (by simp [Stage.holds]))

theorem act_there (root : Root) (bytes : Bytes) (count : Nat) (stage : Stage)
    (hp : (stage.act root bytes count).1.entry (.temporary number) ≠ none) :
    root.entry (.temporary number) ≠ none ∨ (stage.act root bytes count).2.holds = some number := by
  have effect := act_effect root bytes count stage
  by_cases hh : stage = .creating
  · subst hh
    by_cases hs : number = root.next
    · exact .inr (by rw [hs]; rfl)
    · refine .inl (hp ∘ fun ha => ?_)
      exact (entry_create_of_ne (by simpa using hs)).trans ha
  · refine .inl ?_
    generalize (stage.act root bytes count).1 = root' at effect hp
    cases effect with
    | keep | write _ => exact hp
    | create hh' => exact absurd hh' hh
    | link hh' _ _ => exact hp
    | discard mine hf | remove hh' hf | withdraw hh' hf =>
      intro ha
      cases entry : (root.unlink _ _).entry (.temporary number) with
      | none => exact hp entry
      | some _ => exact nomatch ha.symm.trans (entry_unlink entry).2

end Stage

structure Sane (root : Root) : Prop where
  counted : Counted root
  named : ∀ number inode, root.entry (.temporary number) = some inode → inode = number
  whole : ∀ inode, root.entry .key = some inode → (root.inode inode).content.length = keyBytes

section Effects
variable {root root' : Root} {bytes : Bytes} {stage : Stage} {number : Nat} {content : Bytes}

section
variable (effect : Stage.Effect root stage root') (sane : Sane root) (own : stage.Fits root bytes)
include effect sane own

theorem Unpublished.beside (file : Unpublished root number content)
    (ha : stage.made ≠ some number) : Unpublished root' number content := by
  have hb := sane.counted.used _ _ file.entry
  cases effect with
  | keep => exact file
  | create hh =>
    refine ⟨?_, ?_, ?_⟩
    · rw [entry_create_of_ne (by simpa using Nat.ne_of_lt hb)]
      exact file.entry
    · exact file.apart
    · rw [content_create hb]
      exact file.content
  | @write target _ _ hh =>
    subst hh
    have hd : number ≠ target := fun hs => ha (by rw [hs]; rfl)
    refine ⟨file.entry, file.apart, ?_⟩
    rw [content_write hd]
    exact file.content
  | @link target inode hh _ source =>
    subst hh
    obtain rfl := sane.named _ _ source
    refine ⟨?_, ?_, ?_⟩
    · exact file.entry
    · intro entry
      rcases entry_link entry with ⟨-, hs⟩ | ⟨hd, -⟩
      · exact ha (by rw [hs]; rfl)
      · exact hd rfl
    · rw [content_link]
      exact file.content
  | @discard name inode mine hf =>
    have hd : number ≠ name :=
      fun hs => ha (by rw [hs]; cases stage <;> first | exact mine | exact nomatch mine)
    refine ⟨?_, ?_, ?_⟩
    · rw [entry_unlink_of_ne (by simpa using hd)]
      exact file.entry
    · exact file.apart
    · rw [content_unlink]
      exact file.content
  | @remove inode _ name _ _ hh hf =>
    subst hh
    have hd : number ≠ name := by
      rintro rfl
      exact file.apart (own.2 number (by simp) ▸ own.1.entry)
    refine ⟨?_, ?_, ?_⟩
    · rw [entry_unlink_of_ne (by simpa using hd)]
      exact file.entry
    · exact file.apart
    · rw [content_unlink]
      exact file.content
  | @withdraw _ _ _ _ =>
    refine ⟨?_, ?_, ?_⟩
    · exact file.entry
    · exact fun entry => (entry_unlink entry).1 rfl
    · rw [content_unlink]
      exact file.content

theorem Published.kept (file : Published root number content)
    (stays : ∀ target, stage ≠ .withdrawing target) : Published root' number content := by
  have hb := sane.counted.used _ _ file.entry
  cases effect with
  | keep => exact file
  | create hh =>
    refine ⟨?_, ?_⟩
    · exact file.entry
    · rw [content_create hb]
      exact file.content
  | @write target _ _ hh =>
    subst hh
    have hd : number ≠ target := fun hs => own.apart (hs ▸ file.entry)
    refine ⟨file.entry, ?_⟩
    rw [content_write hd]
    exact file.content
  | @link target inode hh hf _ => cases hf.symm.trans file.entry
  | @discard name inode mine found | @remove _ inode name key rest hh found =>
    refine ⟨?_, ?_⟩
    · exact file.entry
    · rw [content_unlink]
      exact file.content
  | @withdraw target _ hh _ => exact absurd hh (stays target)

theorem Stage.Fits.beside {other : Stage} {otherBytes : Bytes} (fits : other.Fits root otherBytes)
    (ha : ∀ number, other.made = some number → stage.made ≠ some number)
    (careful : root' = root ∨
      ∀ target, stage = .withdrawing target → other.opened = none ∧ ∀ key, other ≠ .returned key) :
    other.Fits root' otherBytes := by
  rcases careful with rfl | careful
  · exact fits
  have hp : ∀ number content, other.made = some number → Published root number content →
      Published root' number content := by
    intro number content hm file
    refine file.kept effect sane own fun target hh => ?_
    subst hh
    have hs := some.inj (own.entry.symm.trans file.entry)
    exact ha number hm (by rw [← hs]; rfl)
  have opened : ∀ number content, (other.opened = some number ∨ ∃ key, other = .returned key) →
      Published root number content → Published root' number content := by
    intro number _ uses file
    refine file.kept effect sane own fun target hh => ?_
    obtain ⟨hc, silent⟩ := careful target hh
    rcases uses with open' | ⟨key, hr⟩
    · rw [hc] at open'
      exact nomatch open'
    · exact silent key hr
  have entry : ∀ number, other.opened = some number → root.entry .key = some number →
        root'.entry .key = some number :=
    fun number uses hf => (opened number _ (.inl uses) ⟨hf, rfl⟩).entry
  cases other with
  | writing number written | syncing number | linking number =>
    exact Unpublished.beside effect sane own fits (ha number rfl)
  | openingRoot number | publishing number | unlinking number | finishing number | withdrawing number =>
    exact hp number otherBytes rfl fits
  | checkingKey attempt inode | loading attempt inode | checkingFinal inode | listing inode links =>
    exact entry inode rfl fits
  | openingTemporary inode links names rest | checkingTemporary inode links names hf rest
  | readingFinal inode names =>
    exact ⟨entry inode rfl fits.1, fits.2⟩
  | removing inode key _ => exact ⟨opened inode key (.inl rfl) fits.1, fits.2⟩
  | syncingFinal inode key | checkingAlone inode key => exact opened inode key (.inl rfl) fits
  | returned key =>
    obtain ⟨inode, file⟩ := fits
    exact ⟨inode, opened inode key (.inr ⟨key, rfl⟩) file⟩
  | _ => trivial

end

theorem Sane.effect (effect : Stage.Effect root stage root') (sane : Sane root)
    (own : stage.Fits root bytes) (length : bytes.length = keyBytes) : Sane root' := by
  cases effect with
  | keep => exact sane
  | create hh =>
    have free : root.entry (.temporary root.next) = none := by
      cases entry : root.entry (.temporary root.next) with
      | none => rfl
      | some inode =>
        have used := sane.counted.used _ _ entry
        rw [sane.named _ _ entry] at used
        exact absurd used (Nat.lt_irrefl _)
    refine ⟨sane.counted.create free [], fun number inode entry => ?_, fun inode entry => ?_⟩
    · rcases entry_create entry with ⟨hs, rfl⟩ | ⟨-, hf⟩
      · exact (Name.temporary.inj hs).symm
      · exact sane.named _ _ hf
    · rcases entry_create entry with ⟨hs, -⟩ | ⟨-, hf⟩
      · exact nomatch hs
      · rw [content_create (sane.counted.used _ _ hf)]
        exact sane.whole inode hf
  | @write target _ content hh =>
    subst hh
    refine ⟨sane.counted.write target content, sane.named, fun inode entry => ?_⟩
    rw [content_write fun (hs : inode = target) => own.apart (hs ▸ entry)]
    exact sane.whole inode entry
  | @link _ _ hh free source =>
    subst hh
    obtain rfl := sane.named _ _ source
    refine ⟨sane.counted.link free (sane.counted.used _ _ source),
      fun number other entry => ?_, fun other entry => ?_⟩
    · rcases entry_link entry with ⟨hs, -⟩ | ⟨-, hf⟩
      · exact nomatch hs
      · exact sane.named _ _ hf
    · rcases entry_link entry with ⟨-, rfl⟩ | ⟨hd, -⟩
      · rw [content_link, own.content]
        exact length
      · exact absurd rfl hd
  | discard mine hf | remove hh hf =>
    refine ⟨sane.counted.unlink hf,
      fun number other entry => sane.named _ _ (entry_unlink entry).2, fun other entry => ?_⟩
    rw [content_unlink]
    exact sane.whole other (entry_unlink entry).2
  | withdraw _ hf =>
    refine ⟨sane.counted.unlink hf,
      fun number other entry => sane.named _ _ (entry_unlink entry).2, fun other entry => ?_⟩
    exact absurd rfl (entry_unlink entry).1

end Effects

namespace Stage
variable {root : Root} {bytes : Bytes} {stage : Stage}

theorem fits_checkNext {inode links : Nat} {names rest : List Nat}
    (entry : root.entry .key = some inode) (hc : ∀ name ∈ names, name ∉ rest → name = inode) :
    (checkNext inode links names rest).Fits root bytes := by
  unfold checkNext
  split
  · split
    · exact ⟨entry, fun name hl => hc name hl (by simp)⟩
    · trivial
  · exact ⟨entry, hc⟩

theorem fits_removeNext {inode : Nat} {key : Bytes} {rest : List Nat}
    (file : Published root inode key) (hs : ∀ name ∈ rest, name = inode) :
    (removeNext inode key rest).Fits root bytes := by
  unfold removeNext
  split
  · exact file
  · exact ⟨file, hs⟩

theorem Fits.fail (hf : stage.Fits root bytes) : stage.fail.Fits root bytes := by
  cases stage with
  | openingRoot number | publishing number => exact hf
  | _ => trivial

theorem Fits.act (count : Nat) (fits : stage.Fits root bytes) (sane : Sane root) :
    (stage.act root bytes count).2.Fits (stage.act root bytes count).1 bytes := by
  cases stage with
  | checking =>
    simp only [Stage.act]
    split <;> trivial
  | creating =>
    have hap : root.entry .key ≠ some root.next := fun entry => Nat.lt_irrefl _ (sane.counted.used _ _ entry)
    refine ⟨update_self _ _ _, ?_, content_create_next⟩
    exact hap
  | writing number _ =>
    simp only [Stage.act]
    split
    · trivial
    · split
      next hw => exact ⟨fits.entry, fits.apart, by rw [content_write_self, hw, List.take_length]⟩
      next => exact ⟨fits.entry, fits.apart, content_write_self⟩
  | syncing number | returned key | syncingFinal inode key | openingRoot number | publishing number => exact fits
  | linking number =>
    simp only [Stage.act]
    split
    · trivial
    next inode free hf =>
      obtain rfl := sane.named _ _ hf
      exact ⟨entry_link_self, by rw [content_link]; exact fits.content⟩
    · trivial
  | discarding number | withdrawing number | clearing number | reading attempt | looking attempt
  | openingFinal =>
    simp only [Stage.act]
    repeat' split
    all_goals trivial
  | unlinking number =>
    simp only [Stage.act]
    split
    · refine ⟨?_, by rw [content_unlink]; exact fits.content⟩
      exact fits.entry
    · trivial
  | finishing number => exact ⟨number, fits⟩
  | checkingKey attempt inode | checkingFinal inode =>
    simp only [Stage.act]
    split
    · exact fits
    · trivial
  | loading _ inode =>
    simp only [Stage.act]
    split
    · exact ⟨inode, fits, rfl⟩
    · trivial
  | listing inode links =>
    simp only [Stage.act]
    split
    · trivial
    · exact fits_checkNext fits fun name hl ha => absurd hl ha
  | openingTemporary inode links names rest =>
    cases rest with
    | nil => exact fits_checkNext fits.1 fits.2
    | cons name rest =>
      simp only [Stage.act]
      split
      next opened hf =>
        obtain rfl := sane.named _ _ hf
        refine ⟨fits.1, fun other hl ha => ?_⟩
        by_cases hs : other = opened
        · exact .inr hs
        · exact .inl (fits.2 other hl (by simp [hs, ha]))
      next => trivial
  | checkingTemporary inode _ names _ rest =>
    simp only [Stage.act]
    split
    next hv =>
      refine fits_checkNext fits.1 fun name hl ha => ?_
      rcases fits.2 name hl ha with hk | rfl
      · exact hk
      · exact hv.2.1
    next => trivial
  | readingFinal inode _ =>
    simp only [Stage.act]
    split
    · exact fits_removeNext ⟨fits.1, rfl⟩ fits.2
    · trivial
  | removing inode key rest =>
    cases rest with
    | nil => exact fits_removeNext fits.1 fits.2
    | cons _ _ =>
      simp only [Stage.act]
      split
      next linked hf =>
        refine fits_removeNext ⟨?_, ?_⟩ fun other hl => fits.2 other (List.mem_cons_of_mem _ hl)
        · exact fits.1.entry
        · rw [content_unlink]
          exact fits.1.content
      next => trivial
  | checkingAlone inode _ =>
    simp only [Stage.act]
    split
    · exact ⟨inode, fits⟩
    · trivial
  | raised | stopped => trivial

end Stage

structure Sound (s : System) : Prop where
  sane : Sane s.root
  length : ∀ n call, s.calls n = some call → call.bytes.length = keyBytes
  fits : ∀ n call, s.calls n = some call → call.stage.Fits s.root call.bytes
  below : ∀ n call number, s.calls n = some call → call.stage.made = some number → number < s.root.next
  apart : ∀ n m call other number,
      s.calls n = some call → s.calls m = some other → call.stage.made = some number →
    other.stage.made = some number → n = m
  /-- The abandoned temporary files are all links of the key, or none is. -/
  alike : ∀ a b, Abandoned s a → Abandoned s b → (s.root.entry .key = some a ↔ s.root.entry .key = some b)

inductive Reached : System → Prop
  | initial : Reached .initial
  | step {s s' : System} {event : Event} (before : Reached s) (careful : Careful s event)
      (next : s.step event = some s') :
      Reached s'

theorem sound_initial : Sound .initial where
  sane := ⟨counted_empty [], fun _ _ entry => (nomatch entry), fun _ entry => nomatch entry⟩
  length _ _ found := nomatch found
  fits _ _ found := nomatch found
  below _ _ _ found := nomatch found
  apart _ _ _ _ _ found := nomatch found
  alike _ _ abandoned := absurd rfl abandoned.1

section Step
variable {s s' : System} {n : Nat} {call : Call}
variable {root : Root} {stage : Stage}

structure Turn (s : System) (n : Nat) (call : Call) (root : Root) (stage : Stage) (s' : System) : Prop where
  found : s.calls n = some call
  working : call.stage.isWorking = true
  root : s'.root = root
  calls : s'.calls = update s.calls n (some { call with stage := stage })

theorem turn_spec {step : Call → Root × Stage} (next : s.turn n step = some s') :
    ∃ call, Turn s n call (step call).1 (step call).2 s' := by
  unfold System.turn at next
  split at next
  next call hf =>
    split at next
    next working =>
      cases next
      exact ⟨call, hf, working, rfl, rfl⟩
    next => exact nomatch next
  next => exact nomatch next

theorem Turn.get (turn : Turn s n call root stage s') {m : Nat} {other : Call}
    (hl : s'.calls m = some other) :
    (m = n ∧ other = { call with stage := stage }) ∨ m ≠ n ∧ s.calls m = some other := by
  rw [turn.calls] at hl
  by_cases hs : m = n
  · subst hs
    rw [update_self] at hl
    exact .inl ⟨rfl, (some.inj hl).symm⟩
  · rw [update_of_ne hs] at hl
    exact .inr ⟨hs, hl⟩

theorem Sound.turn (hs : Sound s) (turn : Turn s n call root stage s')
    (effect : Stage.Effect s.root call.stage root) (hfi : stage.Fits root call.bytes)
    (hm : ∀ number, stage.made = some number →
        call.stage.made = some number ∨ number = s.root.next ∧ number < root.next)
    (grows : s.root.next ≤ root.next)
    (careful : root = s.root ∨
      ∀ target, call.stage = .withdrawing target →
        ∀ m other, m ≠ n → s.calls m = some other →
          other.stage.opened = none ∧ ∀ key, other.stage ≠ .returned key)
    (alike : ∀ a b, Abandoned s' a → Abandoned s' b →
        (s'.root.entry .key = some a ↔ s'.root.entry .key = some b)) : Sound s' where
  sane := by
    rw [turn.root]
    exact hs.sane.effect effect (hs.fits n call turn.found) (hs.length n call turn.found)
  length m other hl := by
    rcases turn.get hl with ⟨rfl, rfl⟩ | ⟨-, hf⟩
    · exact hs.length m call turn.found
    · exact hs.length m other hf
  fits m other hl := by
    rw [turn.root]
    rcases turn.get hl with ⟨rfl, rfl⟩ | ⟨hd, hf⟩
    · exact hfi
    · refine Stage.Fits.beside effect hs.sane (hs.fits n call turn.found) (hs.fits m other hf)
        (fun number mine its => ?_)
        (careful.imp_right fun careful target hh => careful target hh m other hd hf)
      exact hd (hs.apart m n other call number hf turn.found mine its)
  below m other number hl mine := by
    rw [turn.root]
    rcases turn.get hl with ⟨rfl, rfl⟩ | ⟨-, hf⟩
    · rcases hm number mine with before | ⟨-, hb⟩
      · exact Nat.lt_of_lt_of_le (hs.below m call number turn.found before) grows
      · exact hb
    · exact Nat.lt_of_lt_of_le (hs.below m other number hf mine) grows
  apart m k first second number hl hl' mine mine' := by
    rcases turn.get hl with ⟨rfl, rfl⟩ | ⟨_, hf⟩ <;> rcases turn.get hl' with ⟨rfl, rfl⟩ | ⟨_, hf'⟩
    · rfl
    · rcases hm number mine with before | ⟨fresh, -⟩
      · exact hs.apart _ _ _ _ number turn.found hf' before mine'
      · exact absurd fresh (Nat.ne_of_lt (hs.below _ _ number hf' mine'))
    · rcases hm number mine' with before | ⟨fresh, -⟩
      · exact hs.apart _ _ _ _ number hf turn.found mine before
      · exact absurd fresh (Nat.ne_of_lt (hs.below _ _ number hf mine))
    · exact hs.apart _ _ _ _ number hf hf' mine mine'
  alike := alike

theorem Turn.abandoned (turn : Turn s n call root stage s') {number : Nat}
    (left : Abandoned s' number)
    (keeps : call.stage.holds = some number → root.entry (.temporary number) ≠ none →
      stage.holds = some number)
    (there : root.entry (.temporary number) ≠ none →
      s.root.entry (.temporary number) ≠ none ∨ stage.holds = some number) :
    Abandoned s number := by
  obtain ⟨hp, nobody⟩ := left
  rw [turn.root] at hp
  have own : stage.holds ≠ some number := by
    refine nobody n { call with stage := stage } ?_
    rw [turn.calls, update_self]
  refine ⟨(there hp).resolve_right own, fun m other hf hh => ?_⟩
  by_cases hs : m = n
  · subst hs
    cases hf.symm.trans turn.found
    exact own (keeps hh hp)
  · refine nobody m other ?_ hh
    rw [turn.calls, update_of_ne hs]
    exact hf

theorem Sound.act {count : Nat} (sound : Sound s) (careful : Careful s (.act n count))
    (turn : Turn s n call (call.stage.act s.root call.bytes count).1
        (call.stage.act s.root call.bytes count).2 s') : Sound s' := by
  have effect := Stage.act_effect s.root call.bytes count call.stage
  have hfi := sound.fits n call turn.found
  have before : ∀ number, Abandoned s' number → Abandoned s number := fun number left =>
    turn.abandoned left (fun holds hp => Stage.act_holds _ _ _ _ holds hp)
      fun hp => Stage.act_there _ _ _ _ hp
  refine sound.turn turn effect (hfi.act count sound.sane) (fun number hm => ?_) effect.grows
    (.inr fun target hh => careful call target turn.found hh) fun a b left left' => ?_
  · rcases Stage.act_made _ _ _ _ hm with held | ⟨hh, hf⟩
    · exact .inl held
    · rw [hh]
      exact .inr ⟨hf, hf ▸ Nat.lt_succ_self _⟩
  · rw [turn.root]
    rcases effect.key with hs | gone | ⟨number, inode, hh, _, source, linked⟩
    · rw [hs]
      exact sound.alike a b (before a left) (before b left')
    · rw [gone]
      simp
    · -- The new key is the file of this call, which has not let go of it.
      have held : ∀ number, Abandoned s number → inode ≠ number := by
        rintro _ abandoned rfl
        refine abandoned.2 n call turn.found ?_
        rw [hh, sound.sane.named _ _ source]
        rfl
      simp [linked, held a (before a left), held b (before b left')]

theorem Sound.leave (hs : Sound s) (turn : Turn s n call s.root stage s')
    (hf : stage.Fits s.root call.bytes)
    (hho : ∀ number, stage.holds = some number → call.stage.holds = some number)
    (finished : ∀ number, stage ≠ .finishing number)
    (leaves :
      ∀ number, call.stage.holds = some number → stage.holds = some number ∨ Leaves s number) :
    Sound s' := by
  have left : ∀ number, Abandoned s' number →
        Abandoned s number ∨ call.stage.holds = some number ∧ Leaves s number ∧
      s.root.entry (.temporary number) ≠ none := by
    intro number abandoned
    by_cases lost : call.stage.holds = some number ∧ stage.holds ≠ some number
    · refine .inr ⟨lost.1, (leaves number lost.1).resolve_left lost.2, ?_⟩
      have hp := abandoned.1
      rwa [turn.root] at hp
    · exact .inl (turn.abandoned abandoned (fun hh _ => by_contra fun gone => lost ⟨hh, gone⟩) fun hp => .inl hp)
  have hm : ∀ number, stage.made = some number → stage.holds = some number := by
    intro number hm
    cases stage with
    | finishing other => exact absurd rfl (finished other)
    | _ => exact hm
  refine hs.turn turn .keep hf (fun number mine => .inl ?_) (Nat.le_refl _) (.inl rfl)
    fun a b first second => ?_
  · have hh := hho number (hm number mine)
    revert hh
    cases call.stage <;> first | exact id | exact fun hh => nomatch hh
  · rw [turn.root]
    rcases left a first with before | ⟨mine, fine, hp⟩ <;>
      rcases left b second with before' | ⟨mine', fine', hp'⟩
    · exact hs.alike a b before before'
    · exact fine' hp' a before
    · exact (fine hp b before').symm
    · rw [some.inj (mine.symm.trans mine')]

theorem Sound.start {bytes : Bytes} (sound : Sound s) (free : s.calls n = none)
    (length : bytes.length = keyBytes) : Sound (s.put n ⟨bytes, .checking⟩) := by
  have get : ∀ m other,
        (s.put n ⟨bytes, .checking⟩).calls m = some other →
        other = ⟨bytes, .checking⟩ ∨ s.calls m = some other := by
    intro m other hl
    by_cases hs : m = n
    · subst hs
      exact .inl (some.inj (hl.symm.trans (update_self _ _ _)))
    · exact .inr ((update_of_ne hs _ _).symm.trans hl)
  have before : ∀ number, Abandoned (s.put n ⟨bytes, .checking⟩) number → Abandoned s number := by
    refine fun number left => ⟨left.1, fun m other hf => left.2 m other ?_⟩
    have hd : m ≠ n := fun hs => nomatch (hs ▸ hf).symm.trans free
    exact (update_of_ne hd _ _).trans hf
  refine ⟨sound.sane, fun m other hl => ?_, fun m other hl => ?_, fun m other number hl hm => ?_,
    fun m k other third number hl hl' hm hm' =>
      ?_, fun a b left left' => sound.alike a b (before a left) (before b left')⟩
  · rcases get m other hl with rfl | hf
    · exact length
    · exact sound.length m other hf
  · rcases get m other hl with rfl | hf
    · trivial
    · exact sound.fits m other hf
  · rcases get m other hl with rfl | hf
    · exact nomatch hm
    · exact sound.below m other number hf hm
  · rcases get m other hl with rfl | hf
    · exact nomatch hm
    · rcases get k third hl' with rfl | hf'
      · exact nomatch hm'
      · exact sound.apart m k other third number hf hf' hm hm'

theorem sound_step {event : Event} (hs : Sound s) (careful : Careful s event)
    (next : s.step event = some s') : Sound s' := by
  cases event with
  | call number _ =>
    simp only [System.step] at next
    split at next
    next hf =>
      cases next
      exact hs.start hf.1 hf.2
    next => exact nomatch next
  | act number _ =>
    obtain ⟨call, turn⟩ := turn_spec next
    exact hs.act careful turn
  | fail number =>
    obtain ⟨call, turn⟩ := turn_spec next
    refine hs.leave turn (hs.fits number call turn.found).fail (fun hh mine => ?_) (fun hh => ?_)
      fun hh mine => ?_
    · revert mine
      cases call.stage <;> first | exact id | exact fun mine => nomatch mine
    · cases call.stage <;> simp [Stage.fail]
    · by_cases here : call.stage = .clearing hh
      · exact .inr (careful call hh turn.found here)
      · refine .inl ?_
        revert here mine
        cases call.stage <;> simp [Stage.fail, Stage.holds]
  | stop _ =>
    obtain ⟨call, turn⟩ := turn_spec next
    exact hs.leave turn trivial (fun _ mine => nomatch mine) (fun _ finished => nomatch finished)
      fun hh mine =>
      .inr (careful call hh turn.found mine)

theorem sound_reached (hr : Reached s) : Sound s := by
  induction hr with
  | initial => exact sound_initial
  | step _ careful next hs => exact sound_step hs careful next

end Step

theorem returned_key {s : System} {n : Nat} {call : Call} {key : Bytes} (reached : Reached s)
    (found : s.calls n = some call) (hr : call.stage = .returned key) :
    key.length = keyBytes ∧
    ∃ inode, s.root.entry .key = some inode ∧ (s.root.inode inode).content = key := by
  have hs := sound_reached reached
  have hf := hs.fits n call found
  rw [hr] at hf
  obtain ⟨inode, file⟩ := hf
  exact ⟨file.content ▸ hs.sane.whole inode file.entry, inode, file.entry, file.content⟩

end Yinshi.DataKey
