import Mathlib.Data.List.Basic

/-! Programs that are disturbed from outside. At every step the environment lets the step go
on, makes it raise, or stops the process; a handler sees what was raised, and nothing runs
after a stop. `Wp` says what holds after a stop, after an error and after a result. -/

namespace Yinshi.Faulty
open List

/-- What the environment does at a step; `choice` decides what the step itself leaves open. -/
inductive Fault (ε : Type)
  | go (choice : Nat)
  | fail (error : ε)
  | stop

def Fault.isGo {ε : Type} : Fault ε → Bool
  | .go _ => true
  | .fail _ | .stop => false

inductive Exit (ε α : Type)
  | value (result : α)
  | raised (error : ε)
  | stopped
  deriving DecidableEq

/-- A step that was reached: where, in which state, and what the environment did. -/
structure Met (ι ε σ : Type) where
  label : ι
  state : σ
  fault : Fault ε

structure Ran (ι ε σ α : Type) where
  exit : Exit ε α
  state : σ
  faults : List (Fault ε)
  met : List (Met ι ε σ)

def Prog (ι ε σ α : Type) : Type := List (Fault ε) → σ → Ran ι ε σ α

namespace Prog
variable {ι ε σ α β : Type}
variable {first : Prog ι ε σ α} {faults : List (Fault ε)} {s : σ}

def act (label : ι) (effect : Nat → σ → Except ε (α × σ)) : Prog ι ε σ α := fun faults s =>
  match faults.headD (.go 0) with
  | .stop => ⟨.stopped, s, faults.tail, [⟨label, s, .stop⟩]⟩
  | .fail error => ⟨.raised error, s, faults.tail, [⟨label, s, .fail error⟩]⟩
  | .go choice =>
    match effect choice s with
    | .ok (result, s') => ⟨.value result, s', faults.tail, [⟨label, s, .go choice⟩]⟩
    | .error error => ⟨.raised error, s, faults.tail, [⟨label, s, .go choice⟩]⟩

def change (label : ι) (effect : σ → σ) : Prog ι ε σ Unit := act label fun _ s => .ok ((), effect s)

/-- A step that leaves its effect to the environment. -/
def changeBy (label : ι) (effect : Nat → σ → σ) : Prog ι ε σ Unit :=
  act label fun choice s => .ok ((), effect choice s)

def touch (label : ι) : Prog ι ε σ Unit := change label id

def look (f : σ → α) : Prog ι ε σ α := fun faults s => ⟨.value (f s), s, faults, []⟩

def raise (error : ε) : Prog ι ε σ α := fun faults s => ⟨.raised error, s, faults, []⟩

def andThen (first : Prog ι ε σ α) (next : α → Prog ι ε σ β) : Prog ι ε σ β := fun faults s =>
  match first faults s with
  | ⟨.value result, s', rest, met⟩ =>
    let ran := next result rest s'
    { ran with met := met ++ ran.met }
  | ⟨.raised error, s', rest, met⟩ => ⟨.raised error, s', rest, met⟩
  | ⟨.stopped, s', rest, met⟩ => ⟨.stopped, s', rest, met⟩

instance : Monad (Prog ι ε σ) where
  pure result := look fun _ => result
  bind := andThen

def attempt (body : Prog ι ε σ α) (handler : ε → Prog ι ε σ α) : Prog ι ε σ α := fun faults s =>
  match body faults s with
  | ⟨.raised error, s', rest, met⟩ =>
    let ran := handler error rest s'
    { ran with met := met ++ ran.met }
  | ran => ran

/-- `finally`: an error of the cleanup takes the place of what the body gave. -/
def ensure (body : Prog ι ε σ α) (cleanup : Prog ι ε σ Unit) : Prog ι ε σ α :=
  (body.attempt fun error => cleanup.andThen fun _ => raise error).andThen fun result =>
    cleanup.andThen fun _ => look fun _ => result

def onlyIf (condition : Bool) (body : Prog ι ε σ Unit) : Prog ι ε σ Unit := if condition then body else pure ()

def each (body : α → Prog ι ε σ Unit) : List α → Prog ι ε σ Unit
  | [] => pure ()
  | x :: xs => body x >>= fun _ => each body xs

/-- A removal of entries one by one, in the order that the environment chooses. -/
def drain (label : ι) (removals : σ → List σ) : Nat → Prog ι ε σ Unit
  | 0 => pure ()
  | n + 1 => do
      if ← look fun s => (removals s).isEmpty then pure ()
      else do
        changeBy label fun choice s => ((removals s)[choice % (removals s).length]?).getD s
        drain label removals n

theorem bind_value {next : α → Prog ι ε σ β} {result : β}
    (exit : ((first >>= next) faults s).exit = .value result) :
    ∃ mid,
      (first faults s).exit = .value mid ∧
      (next mid (first faults s).faults (first faults s).state).exit = .value result := by
  change (andThen first next faults s).exit = .value result at exit
  unfold andThen at exit
  cases ran : first faults s with
  | mk he _ _ _ =>
    rw [ran] at exit
    cases he with
    | value mid => exact ⟨mid, rfl, exit⟩
    | raised error | stopped => exact nomatch exit

theorem attempt_value {body : Prog ι ε σ α} {handler : ε → Prog ι ε σ α} {result : α}
    (exit : (body.attempt handler faults s).exit = .value result) :
    (body faults s).exit = .value result ∨
    ∃ error,
      (body faults s).exit = .raised error ∧
      (handler error (body faults s).faults (body faults s).state).exit = .value result := by
  unfold attempt at exit
  cases ran : body faults s with
  | mk he _ _ _ =>
    rw [ran] at exit
    cases he with
    | value _ => exact .inl exit
    | raised error => exact .inr ⟨error, rfl, exit⟩
    | stopped => exact nomatch exit

end Prog

section Wp
variable {ι ε σ α β : Type} {allowed : ι → σ → Fault ε → Prop} {inv inv' : σ → Prop}
  {failed failed' : ε → σ → Prop} {post post' : α → σ → Prop} {s : σ}

def Ran.Ends (ran : Ran ι ε σ α) (inv : σ → Prop) (failed : ε → σ → Prop) (post : α → σ → Prop) : Prop :=
  match ran.exit with
  | .value result => post result ran.state
  | .raised error => failed error ran.state
  | .stopped => inv ran.state ∧ ∃ step ∈ ran.met, step.fault = .stop

/-- Whatever allowed faults the steps meet: `inv` after a stop, `failed` after an error, `post`
after a result. -/
def Wp (allowed : ι → σ → Fault ε → Prop) (inv : σ → Prop) (failed : ε → σ → Prop)
    (post : α → σ → Prop) (prog : Prog ι ε σ α) (s : σ) : Prop :=
  ∀ faults,
    (∀ step ∈ (prog faults s).met, allowed step.label step.state step.fault) →
    (prog faults s).Ends inv failed post

namespace Wp
variable {prog first body : Prog ι ε σ α} {label : ι} {next : α → Prog ι ε σ β}

theorem after {ran : Ran ι ε σ α} (met : List (Met ι ε σ)) (ends : ran.Ends inv failed post) :
    { ran with met := met ++ ran.met }.Ends inv failed post := by
  unfold Ran.Ends at ends ⊢
  dsimp only
  split
  next exit => simpa [exit] using ends
  next exit => simpa [exit] using ends
  next exit =>
      rw [exit] at ends
      obtain ⟨hh, step, here, stopped⟩ := ends
      exact ⟨hh, step, mem_append_right _ here, stopped⟩

theorem pure {result : α} (hh : post result s) : Wp allowed inv failed post (Pure.pure result) s :=
  fun _ _ => hh

theorem look {f : σ → α} (hh : post (f s) s) : Wp allowed inv failed post (Prog.look f) s := fun _ _ => hh

theorem raise {error : ε} (hh : failed error s) : Wp allowed inv failed post (Prog.raise error) s :=
  fun _ _ => hh

theorem value {faults : List (Fault ε)} {result : α}
    (hh : Wp (fun _ _ _ => True) inv failed post prog s)
    (exit : (prog faults s).exit = .value result) : post result (prog faults s).state := by
  have ends := hh faults fun _ _ => trivial
  rwa [Ran.Ends, exit] at ends

theorem step {effect : Nat → σ → Except ε (α × σ)} (hs : allowed label s .stop → inv s)
    (hf : ∀ error, allowed label s (.fail error) → failed error s)
    (goes : ∀ choice result s', effect choice s = .ok (result, s') → post result s')
    (refuses : ∀ choice error, effect choice s = .error error → failed error s) :
    Wp allowed inv failed post (Prog.act label effect) s := by
  intro faults met
  unfold Prog.act at met ⊢
  cases fault : faults.headD (.go 0) with
  | stop =>
    simp only [fault, mem_singleton, forall_eq] at met
    exact ⟨hs met, _, mem_singleton_self _, rfl⟩
  | fail error =>
    simp only [fault, mem_singleton, forall_eq] at met
    exact hf error met
  | go choice =>
    cases ran : effect choice s with
    | ok end' =>
      simp only [ran, Ran.Ends]
      exact goes choice end'.1 end'.2 ran
    | error error =>
      simp only [ran, Ran.Ends]
      exact refuses choice error ran

theorem act {effect : Nat → σ → Except ε (α × σ)} (hs : inv s)
    (hf : ∀ error, allowed label s (.fail error) → failed error s)
    (goes : ∀ choice result s', effect choice s = .ok (result, s') → post result s')
    (refuses : ∀ choice error, effect choice s = .error error → failed error s) :
    Wp allowed inv failed post (Prog.act label effect) s := step (fun _ => hs) hf goes refuses

theorem change {effect : σ → σ} {post : Unit → σ → Prop} (hs : inv s)
    (hf : ∀ error, allowed label s (.fail error) → failed error s) (goes : post () (effect s)) :
    Wp allowed inv failed post (Prog.change label effect) s := by
  refine act hs hf (fun _ _ s' hd => ?_) (fun _ _ hd => nomatch hd)
  cases hd
  exact goes

theorem touch {post : Unit → σ → Prop} (hs : inv s)
    (hf : ∀ error, allowed label s (.fail error) → failed error s) (goes : post () s) :
    Wp allowed inv failed post (Prog.touch label) s := change hs hf goes

theorem andThen {post : β → σ → Prop}
    (hho : Wp allowed inv failed (fun result => Wp allowed inv failed post (next result)) first s) :
    Wp allowed inv failed post (first.andThen next) s := by
  intro faults met
  have ends := hho faults
  unfold Prog.andThen at met ⊢
  cases ran : first faults s with
  | mk exit _ rest steps =>
    rw [ran] at ends
    cases exit with
    | value _ =>
      simp only [ran, mem_append] at met ⊢
      exact after steps (ends (fun step hh => met step (.inl hh)) rest fun step hh => met step (.inr hh))
    | raised error | stopped =>
      simp only [ran] at met ⊢
      exact ends met

theorem bind {post : β → σ → Prop}
    (holds :
      Wp allowed inv failed (fun result => Wp allowed inv failed post (next result)) first s) :
    Wp allowed inv failed post (first >>= next) s := andThen holds

theorem attempt {handler : ε → Prog ι ε σ α}
    (hho : Wp allowed inv (fun error => Wp allowed inv failed post (handler error)) post body s) :
    Wp allowed inv failed post (body.attempt handler) s := by
  intro faults met
  have ends := hho faults
  unfold Prog.attempt at met ⊢
  cases ran : body faults s with
  | mk exit _ rest steps =>
    rw [ran] at ends
    cases exit with
    | raised _ =>
      simp only [ran, mem_append] at met ⊢
      exact after steps (ends (fun step hh => met step (.inl hh)) rest fun step hh => met step (.inr hh))
    | value result | stopped =>
      simp only [ran] at met ⊢
      exact ends met

theorem weaken (hh : Wp allowed inv failed post prog s) (hs : ∀ s', inv s' → inv' s')
    (hf : ∀ error s', failed error s' → failed' error s')
    (goes : ∀ result s', post result s' → post' result s') :
    Wp allowed inv' failed' post' prog s := by
  intro faults met
  have ends := hh faults met
  unfold Ran.Ends at ends ⊢
  split
  next exit => exact goes _ _ (by simpa [exit] using ends)
  next exit => exact hf _ _ (by simpa [exit] using ends)
  next exit =>
      rw [exit] at ends
      exact ends.imp (hs _) id

theorem mono (hh : Wp allowed inv failed post prog s)
    (hf : ∀ error s', failed error s' → failed' error s')
    (goes : ∀ result s', post result s' → post' result s') : Wp allowed inv failed' post' prog s :=
  hh.weaken (fun _ => id) hf goes

theorem ensure {cleanup : Prog ι ε σ Unit}
    (hh : Wp allowed inv (fun error => Wp allowed inv failed (fun _ => failed error) cleanup)
        (fun result => Wp allowed inv failed (fun _ => post result) cleanup) body s) :
    Wp allowed inv failed post (body.ensure cleanup) s := by
  refine andThen (attempt (hh.mono (fun error s' hf => ?_) fun result s' goes => ?_))
  · exact andThen (hf.mono (fun _ _ => id) fun _ _ he => raise he)
  · exact andThen (goes.mono (fun _ _ => id) fun _ _ he => look he)

theorem seq (between : α → σ → Prop) {post : β → σ → Prop}
    (before : Wp allowed inv failed between first s)
    (after : ∀ result s', between result s' → Wp allowed inv failed post (next result) s') :
    Wp allowed inv failed post (first >>= next) s := bind (before.mono (fun _ _ => id) after)

theorem rescue (broken : ε → σ → Prop) {handler : ε → Prog ι ε σ α}
    (tries : Wp allowed inv broken post body s)
    (handles : ∀ error s', broken error s' → Wp allowed inv failed post (handler error) s') :
    Wp allowed inv failed post (body.attempt handler) s :=
  attempt (tries.mono handles fun _ _ => id)

theorem cleaned (broken : ε → σ → Prop) (reached : α → σ → Prop) {cleanup : Prog ι ε σ Unit}
    (tries : Wp allowed inv broken reached body s)
    (hf : ∀ error s', broken error s' → Wp allowed inv failed (fun _ => failed error) cleanup s')
    (goes :
      ∀ result s', reached result s' → Wp allowed inv failed (fun _ => post result) cleanup s') :
    Wp allowed inv failed post (body.ensure cleanup) s := ensure (tries.mono hf goes)

theorem drain {removals : σ → List σ} (hh : σ → Prop) (size : σ → Nat) (n : Nat)
    (hs : ∀ s, hh s → allowed label s .stop → inv s)
    (hf : ∀ s error, hh s → allowed label s (.fail error) → failed error s)
    (hk : ∀ s s', hh s → s' ∈ removals s → hh s')
    (smaller : ∀ s s', s' ∈ removals s → size s' < size s) (start : hh s) (enough : size s ≤ n) :
    Wp allowed inv failed (fun _ s' => hh s' ∧ removals s' = []) (Prog.drain label removals n)
      s := by
  induction n generalizing s with
  | zero =>
    refine pure ⟨start, eq_nil_iff_forall_not_mem.mpr fun s' hm => ?_⟩
    exact absurd (smaller s s' hm) (by omega)
  | succ _ more =>
    refine bind (look ?_)
    split
    next empty => exact pure ⟨start, List.isEmpty_iff.mp empty⟩
    next left =>
      refine bind (step (hs s start) (fun error => hf s error start) (fun choice _ s' hd => ?_)
        fun _ _ hd => nomatch hd)
      cases hd
      have position : choice % (removals s).length < (removals s).length :=
        Nat.mod_lt _ (length_pos_iff.mpr fun none => left (by simp [none]))
      have hm : ((removals s)[choice % (removals s).length]?).getD s ∈ removals s := by
        rw [getElem?_eq_getElem position]
        exact getElem_mem position
      have less := smaller s _ hm
      exact more (hk s _ start hm) (Nat.le_of_lt_succ (Nat.lt_of_lt_of_le less enough))

theorem onlyIf {condition : Bool} {body : Prog ι ε σ Unit} {post : Unit → σ → Prop}
    (yes : condition = true → Wp allowed inv failed post body s)
    (no : condition = false → post () s) :
    Wp allowed inv failed post (Prog.onlyIf condition body) s := by
  unfold Prog.onlyIf
  split
  next hp => exact yes hp
  next negative => exact pure (no (by simpa using negative))

end Wp

def Keeps (allowed : ι → σ → Fault ε → Prop) (holds : σ → Prop) (prog : Prog ι ε σ α) : Prop :=
  ∀ s, holds s → Wp allowed holds (fun _ => holds) (fun _ => holds) prog s

namespace Keeps
variable {holds : σ → Prop}

theorem pure {result : α} : Keeps allowed holds (Pure.pure result : Prog ι ε σ α) :=
  fun _ start => Wp.pure start

theorem look {f : σ → α} : Keeps allowed holds (Prog.look f : Prog ι ε σ α) := fun _ start => Wp.look start

theorem raise {error : ε} : Keeps allowed holds (Prog.raise error : Prog ι ε σ α) :=
  fun _ start => Wp.raise start

theorem change {label : ι} {effect : σ → σ} (hk : ∀ s, holds s → holds (effect s)) :
    Keeps allowed holds (Prog.change label effect : Prog ι ε σ Unit) := fun s start =>
  Wp.change start (fun _ _ => start) (hk s start)

theorem bind {first : Prog ι ε σ α} {next : α → Prog ι ε σ β} (before : Keeps allowed hh first)
    (after : ∀ result, Keeps allowed hh (next result)) : Keeps allowed hh (first >>= next) :=
  fun s start =>
  Wp.bind ((before s start).mono (fun _ _ => id) fun result s' => after result s')

theorem attempt {body : Prog ι ε σ α} {handler : ε → Prog ι ε σ α}
    (tries : Keeps allowed holds body) (handles : ∀ error, Keeps allowed holds (handler error)) :
    Keeps allowed holds (body.attempt handler) := fun s start =>
  Wp.attempt ((tries s start).mono (fun error s' => handles error s') fun _ _ => id)

theorem ite {condition : Prop} [Decidable condition] {yes no : Prog ι ε σ α}
    (hp : Keeps allowed holds yes) (negative : Keeps allowed holds no) :
    Keeps allowed holds (if condition then yes else no) := by
  split
  · exact hp
  · exact negative

theorem onlyIf {condition : Bool} {body : Prog ι ε σ Unit} (hk : Keeps allowed holds body) :
    Keeps allowed holds (Prog.onlyIf condition body) := ite hk pure

theorem each {body : α → Prog ι ε σ Unit} (hk : ∀ x, Keeps allowed holds (body x)) (xs : List α) :
    Keeps allowed holds (Prog.each body xs) := by
  induction xs with
  | nil => exact pure
  | cons x _ tail => exact (hk x).bind fun _ => tail

end Keeps
end Wp
end Yinshi.Faulty
