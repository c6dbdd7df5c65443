import Mathlib.Logic.Function.Basic

/-! Programs that share a state. A program is its next step; between two of its steps the others
may do what it relies on, and each of its own steps does what it guarantees. The environment may
make a step raise, and may take a program away. -/

namespace Yinshi.Interleaved
open Function

inductive Proc (ι ε σ α : Type)
  | done (exit : Except ε α)
  | step (label : ι) (effect : Nat → σ → σ) (next : Nat → σ → Proc ι ε σ α) (failed : ε → Proc ι ε σ α)

namespace Proc
variable {ι ε σ α β : Type}

def andThen : Proc ι ε σ α → (α → Proc ι ε σ β) → Proc ι ε σ β
  | done (.ok result), f => f result
  | done (.error error), _ => done (.error error)
  | step label effect next failed, f =>
    step label effect (fun choice s => (next choice s).andThen f) fun error => (failed error).andThen f

instance : Monad (Proc ι ε σ) where
  pure result := done (.ok result)
  bind := andThen

def raise (error : ε) : Proc ι ε σ α := done (.error error)

def attempt : Proc ι ε σ α → (ε → Proc ι ε σ α) → Proc ι ε σ α
  | done (.ok result), _ => done (.ok result)
  | done (.error error), handler => handler error
  | step label effect next failed, handler =>
    step label effect (fun choice s => (next choice s).attempt handler)
      fun error => (failed error).attempt handler

def act (label : ι) (effect : Nat → σ → Except ε (α × σ)) : Proc ι ε σ α :=
  step label (fun choice s => match effect choice s with
      | .ok (_, s') => s'
      | .error _ => s)
    (fun choice s => match effect choice s with
      | .ok (result, _) => done (.ok result)
      | .error error => done (.error error))
    raise

def read (label : ι) (view : σ → Except ε α) : Proc ι ε σ α :=
  act label fun _ s => (view s).map fun result => (result, s)

def change (label : ι) (effect : σ → σ) : Proc ι ε σ Unit := act label fun _ s => .ok ((), effect s)

def touch (label : ι) : Proc ι ε σ Unit := change label id

def orRaise (outcome : Except ε α) : Proc ι ε σ α := done outcome

/-- `finally`: an error of the cleanup takes the place of what the body gave. -/
def ensure (body : Proc ι ε σ α) (cleanup : Proc ι ε σ Unit) : Proc ι ε σ α := do
  let result ← body.attempt fun error => do
    cleanup
    raise error
  cleanup
  pure result

def each (body : α → Proc ι ε σ Unit) : List α → Proc ι ε σ Unit
  | [] => pure ()
  | x :: xs => do
      body x
      each body xs

def alone (choices : Nat → Nat) : Proc ι ε σ α → σ → Except ε α × σ
  | done exit, s => (exit, s)
  | step _ effect next _, s => (next (choices 0) s).alone (fun n => choices (n + 1)) (effect (choices 0) s)

end Proc

section Wp
variable {ι ε σ α β : Type} {rely guarantee : σ → σ → Prop} {inv : σ → Prop}
  {allowed : ι → ε → Prop} {failed failed' : ε → σ → Prop} {post post' : α → σ → Prop} {s s' : σ}

/-- From `s` on, every step of a program keeps `inv` and does what it guarantees, while the others
keep `inv` and do what it relies on; `failed` holds after an error and `post` after a result. -/
def Wp (rely guarantee : σ → σ → Prop) (inv : σ → Prop) (allowed : ι → ε → Prop)
    (failed : ε → σ → Prop) (post : α → σ → Prop) : Proc ι ε σ α → σ → Prop
  | .done (.ok result), s => post result s
  | .done (.error error), s => failed error s
  | .step label effect next raised, s =>
    ∀ s', rely s s' → inv s' →
      (∀ choice, guarantee s' (effect choice s') ∧ inv (effect choice s') ∧
        Wp rely guarantee inv allowed failed post (next choice s') (effect choice s')) ∧
      ∀ error, allowed label error → Wp rely guarantee inv allowed failed post (raised error) s'

def Stable (rely : σ → σ → Prop) (holds : σ → Prop) : Prop := ∀ s s', rely s s' → holds s → holds s'

theorem Stable.and {first second : σ → Prop} (left : Stable rely first) (hr : Stable rely second) :
    Stable rely fun s => first s ∧ second s :=
  fun s s' moved hh => ⟨left s s' moved hh.1, hr s s' moved hh.2⟩

theorem Stable.true : Stable rely fun _ => True := fun _ _ _ _ => trivial

namespace Wp

theorem pure {result : α} (hh : post result s) :
    Wp rely guarantee inv allowed failed post (Pure.pure result : Proc ι ε σ α) s :=
  hh

theorem raise {error : ε} (hh : failed error s) :
    Wp rely guarantee inv allowed failed post (Proc.raise error : Proc ι ε σ α) s :=
  hh

theorem orRaise {outcome : Except ε α} (goes : ∀ result, outcome = .ok result → post result s)
    (hf : ∀ error, outcome = .error error → failed error s) :
    Wp rely guarantee inv allowed failed post (Proc.orRaise outcome : Proc ι ε σ α) s := by
  cases outcome with
  | ok result => exact goes result rfl
  | error error => exact hf error rfl

variable {next : α → Proc ι ε σ β} {first : Proc ι ε σ α}

theorem andThen {post : β → σ → Prop}
    (hho : Wp rely guarantee inv allowed failed
        (fun result => Wp rely guarantee inv allowed failed post (next result)) first s) :
    Wp rely guarantee inv allowed failed post (first.andThen next) s := by
  induction first generalizing s with
  | done exit =>
    cases exit with
    | ok result | error error => exact hho
  | step _ _ _ _ ih ih' =>
    intro s' moved hh
    obtain ⟨goes, hf⟩ := hho s' moved hh
    refine ⟨fun choice => ?_, fun error met => ih' error (hf error met)⟩
    obtain ⟨does, hk, rest⟩ := goes choice
    exact ⟨does, hk, ih choice s' rest⟩

theorem bind {post : β → σ → Prop}
    (hh : Wp rely guarantee inv allowed failed
        (fun result => Wp rely guarantee inv allowed failed post (next result)) first s) :
    Wp rely guarantee inv allowed failed post (first >>= next) s := andThen hh

variable {body : Proc ι ε σ α}

theorem attempt {handler : ε → Proc ι ε σ α}
    (hho : Wp rely guarantee inv allowed
        (fun error => Wp rely guarantee inv allowed failed post (handler error)) post body s) :
    Wp rely guarantee inv allowed failed post (body.attempt handler) s := by
  induction body generalizing s with
  | done exit =>
    cases exit with
    | ok result | error error => exact hho
  | step _ _ _ _ ih ih' =>
    intro s' moved hh
    obtain ⟨goes, hf⟩ := hho s' moved hh
    refine ⟨fun choice => ?_, fun error met => ih' error (hf error met)⟩
    obtain ⟨does, hk, rest⟩ := goes choice
    exact ⟨does, hk, ih choice s' rest⟩

theorem mono {proc : Proc ι ε σ α} (holds : Wp rely guarantee inv allowed failed post proc s)
    (hf : ∀ error s', failed error s' → failed' error s')
    (goes : ∀ result s', post result s' → post' result s') :
    Wp rely guarantee inv allowed failed' post' proc s := by
  induction proc generalizing s with
  | done exit =>
    cases exit with
    | ok result => exact goes result s holds
    | error error => exact hf error s holds
  | step _ _ _ _ ih ih' =>
    intro s' moved hh
    obtain ⟨next, hb⟩ := holds s' moved hh
    refine ⟨fun choice => ?_, fun error met => ih' error (hb error met)⟩
    obtain ⟨does, hk, rest⟩ := next choice
    exact ⟨does, hk, ih choice s' rest⟩

theorem seq (between : α → σ → Prop) {post : β → σ → Prop}
    (before : Wp rely guarantee inv allowed failed between first s)
    (after :
      ∀ result s', between result s' → Wp rely guarantee inv allowed failed post (next result) s') :
    Wp rely guarantee inv allowed failed post (first >>= next) s :=
  bind (before.mono (fun _ _ => id) after)

theorem rescue (broken : ε → σ → Prop) {handler : ε → Proc ι ε σ α}
    (tries : Wp rely guarantee inv allowed broken post body s)
    (handles :
      ∀ error s', broken error s' → Wp rely guarantee inv allowed failed post (handler error) s') :
    Wp rely guarantee inv allowed failed post (body.attempt handler) s :=
  attempt (tries.mono handles fun _ _ => id)

theorem cleaned (broken : ε → σ → Prop) (reached : α → σ → Prop) {cleanup : Proc ι ε σ Unit}
    (tries : Wp rely guarantee inv allowed broken reached body s)
    (hf : ∀ error s',
        broken error s' → Wp rely guarantee inv allowed failed (fun _ => failed error) cleanup s')
    (goes : ∀ result s', reached result s' →
        Wp rely guarantee inv allowed failed (fun _ => post result) cleanup s') :
    Wp rely guarantee inv allowed failed post (body.ensure cleanup) s := by
  refine bind ((rescue broken tries fun error s' hh => ?_).mono (fun _ _ => id) fun result s' hh => ?_)
  · exact bind ((hf error s' hh).mono (fun _ _ => id) fun _ _ he => raise he)
  · exact bind ((goes result s' hh).mono (fun _ _ => id) fun _ _ he => pure he)

theorem each {body : α → Proc ι ε σ Unit} (hho : σ → Prop)
    (once : ∀ x s, hho s → Wp rely guarantee inv allowed failed (fun _ => hho) (body x) s)
    (xs : List α) (start : hho s) :
    Wp rely guarantee inv allowed failed (fun _ => hho) (Proc.each body xs) s := by
  induction xs generalizing s with
  | nil => exact pure start
  | cons x _ ih => exact seq (fun _ => hho) (once x s start) fun _ s' hh => ih hh

section Acting
variable {label : ι} {effect : Nat → σ → Except ε (α × σ)} (holds : σ → Prop)

variable {view : σ → Except ε α} {edit : σ → σ} {ends : Unit → σ → Prop}
variable (reflexive : ∀ s, guarantee s s) (stable : Stable rely holds) (start : holds s)
  (hf : ∀ s error, holds s → inv s → allowed label error → failed error s)
include reflexive stable start hf

theorem act
    (goes : ∀ s choice result s', holds s → inv s → effect choice s = .ok (result, s') →
        guarantee s s' ∧ inv s' ∧ post result s')
    (refuses :
      ∀ s choice error, holds s → inv s → effect choice s = .error error → failed error s) :
    Wp rely guarantee inv allowed failed post (Proc.act label effect) s := by
  intro s' moved hh
  have hhe := stable s s' moved start
  refine ⟨fun choice => ?_, fun error met => hf s' error hhe hh met⟩
  cases outcome : effect choice s' with
  | ok end' =>
    simp only [outcome]
    exact goes s' choice end'.1 end'.2 hhe hh outcome
  | error error =>
    simp only [outcome]
    exact ⟨reflexive s', hh, refuses s' choice error hhe hh outcome⟩

theorem read
    (goes : ∀ s result, holds s → inv s → view s = .ok result → post result s)
    (refuses : ∀ s error, holds s → inv s → view s = .error error → failed error s) :
    Wp rely guarantee inv allowed failed post (Proc.read label view) s := by
  refine act holds reflexive stable start hf (fun s choice result s' hhe hh outcome => ?_)
    fun s choice error hhe hh outcome => ?_
  · cases hs : view s with
    | ok value =>
      rw [hs] at outcome
      obtain ⟨rfl, rfl⟩ := Prod.mk.inj (Except.ok.inj outcome)
      exact ⟨reflexive s, hh, goes s value hhe hh hs⟩
    | error error =>
      rw [hs] at outcome
      exact nomatch outcome
  · cases hs : view s with
    | ok _ =>
      rw [hs] at outcome
      exact nomatch outcome
    | error hr =>
      rw [hs] at outcome
      rw [← Except.error.inj outcome]
      exact refuses s hr hhe hh hs

theorem change
    (goes : ∀ s, holds s → inv s → guarantee s (edit s) ∧ inv (edit s) ∧ ends () (edit s)) :
    Wp rely guarantee inv allowed failed ends (Proc.change label edit) s := by
  refine act holds reflexive stable start hf (fun s _ _ s' hhe hh hd => ?_) fun _ _ _ _ _ hd => nomatch hd
  cases hd
  exact goes s hhe hh

theorem touch (goes : ∀ s, holds s → inv s → ends () s) :
    Wp rely guarantee inv allowed failed ends (Proc.touch label) s :=
  change holds reflexive stable start hf fun s hhe hh => ⟨reflexive s, hh, goes s hhe hh⟩

end Acting

theorem moved {proc : Proc ι ε σ α} (trans : ∀ s t u, rely s t → rely t u → rely s u)
    (result : ∀ result, Stable rely (post result)) (error : ∀ error, Stable rely (failed error))
    (rest : rely s s') (holds : Wp rely guarantee inv allowed failed post proc s) :
    Wp rely guarantee inv allowed failed post proc s' := by
  cases proc with
  | done exit =>
    cases exit with
    | ok value => exact result value s s' rest holds
    | error hr => exact error hr s s' rest holds
  | step _ _ _ _ => exact fun t later hh => holds t (trans s s' t rest later) hh

end Wp

end Wp

section Settles
variable {ι ε σ α β : Type} {s : σ}

def Settles : Proc ι ε σ α → σ → Except ε α → Prop
  | .done exit, _, outcome => exit = outcome
  | .step _ effect next _, s, outcome => ∀ choice, effect choice s = s ∧ Settles (next choice s) s outcome

namespace Settles

theorem alone {proc : Proc ι ε σ α} {outcome : Except ε α} (hse : Settles proc s outcome)
    (choices : Nat → Nat) : proc.alone choices s = (outcome, s) := by
  induction proc generalizing choices with
  | done _ => exact congrArg (·, s) hse
  | step _ _ _ _ ih _ =>
    obtain ⟨hs, rest⟩ := hse (choices 0)
    unfold Proc.alone
    rw [hs]
    exact ih (choices 0) s rest fun n => choices (n + 1)

theorem pure (result : α) : Settles (Pure.pure result : Proc ι ε σ α) s (.ok result) := rfl

theorem bind {first : Proc ι ε σ α} {next : α → Proc ι ε σ β} {outcome : Except ε β} (result : α)
    (before : Settles first s (.ok result)) (after : Settles (next result) s outcome) :
    Settles (first >>= next) s outcome := by
  induction first with
  | done _ =>
    cases before
    exact after
  | step _ _ _ _ ih _ => exact fun choice => ⟨(before choice).1, ih choice s (before choice).2⟩

theorem attempt {body : Proc ι ε σ α} {handler : ε → Proc ι ε σ α} {result : α}
    (hs : Settles body s (.ok result)) : Settles (body.attempt handler) s (.ok result) := by
  induction body with
  | done _ =>
    cases hs
    exact rfl
  | step _ _ _ _ ih _ => exact fun choice => ⟨(hs choice).1, ih choice s (hs choice).2⟩

theorem read {label : ι} {view : σ → Except ε α} {result : α} (hs : view s = .ok result) :
    Settles (Proc.read label view) s (.ok result) := fun choice => by
  simp only [hs, Except.map, true_and]
  exact rfl

theorem touch {label : ι} : Settles (Proc.touch label : Proc ι ε σ Unit) s (.ok ()) := fun _ => ⟨rfl, rfl⟩

theorem orRaise {outcome : Except ε α} : Settles (Proc.orRaise outcome : Proc ι ε σ α) s outcome := rfl

theorem ensure {body : Proc ι ε σ α} {cleanup : Proc ι ε σ Unit} {result : α}
    (hs : Settles body s (.ok result)) (cleans : Settles cleanup s (.ok ())) :
    Settles (body.ensure cleanup) s (.ok result) :=
  bind result (attempt hs) (bind () cleans (pure result))

end Settles

end Settles

section Calls
variable {ι ε σ α κ : Type}

structure Running (ι ε σ α κ : Type) where
  call : κ
  begun : σ
  left : Proc ι ε σ α

/-- The shared state, and the calls; a number is given once. -/
structure System (ι ε σ α κ : Type) where
  shared : σ
  calls : Nat → Option (Running ι ε σ α κ)
  next : Nat

namespace System

def put (system : System ι ε σ α κ) (shared : σ) (n : Nat) (running : Option (Running ι ε σ α κ)) :
    System ι ε σ α κ :=
  { system with shared := shared, calls := update system.calls n running }

variable {system : System ι ε σ α κ} {shared : σ} {n m : Nat} {running : Option (Running ι ε σ α κ)}

theorem calls_put_self : (system.put shared n running).calls n = running := update_self _ _ _

theorem calls_put_of_ne (ha : m ≠ n) : (system.put shared n running).calls m = system.calls m :=
  update_of_ne ha _ _

end System

/-- A call starts, takes a step, meets an error, or is stopped. -/
inductive Move (body : κ → Nat → Proc ι ε σ α) (allowed : ι → ε → Prop) : System ι ε σ α κ →
  System ι ε σ α κ → Prop
  | start {system : System ι ε σ α κ} (call : κ) :
      Move body allowed system { system.put system.shared system.next
        (some ⟨call, system.shared, body call system.next⟩) with
        next := system.next + 1 }
  | go {system : System ι ε σ α κ} {n : Nat} {call : κ} {begun : σ} {label : ι} {effect : Nat → σ → σ}
      {next : Nat → σ → Proc ι ε σ α} {failed : ε → Proc ι ε σ α} (choice : Nat)
      (there : system.calls n = some ⟨call, begun, .step label effect next failed⟩) :
      Move body allowed system
        (system.put (effect choice system.shared) n (some ⟨call, begun, next choice system.shared⟩))
  | fail {system : System ι ε σ α κ} {n : Nat} {call : κ} {begun : σ} {label : ι} {effect : Nat → σ → σ}
      {next : Nat → σ → Proc ι ε σ α} {failed : ε → Proc ι ε σ α} (error : ε) (met : allowed label error)
      (there : system.calls n = some ⟨call, begun, .step label effect next failed⟩) :
      Move body allowed system (system.put system.shared n (some ⟨call, begun, failed error⟩))
  | stop {system : System ι ε σ α κ} (n : Nat) : Move body allowed system (system.put system.shared n none)

structure Contract (σ ε α κ : Type) where
  inv : σ → Prop
  rely : Nat → σ → σ → Prop
  guarantee : Nat → σ → σ → Prop
  fresh : Nat → σ → Prop
  failed : κ → Nat → σ → ε → σ → Prop
  post : κ → Nat → σ → α → σ → Prop

namespace Contract

structure Met (contract : Contract σ ε α κ) (body : κ → Nat → Proc ι ε σ α)
    (allowed : ι → ε → Prop) : Prop where
  refl : ∀ n s, contract.rely n s s
  trans : ∀ n s t u, contract.rely n s t → contract.rely n t u → contract.rely n s u
  still : ∀ n s, contract.guarantee n s s
  apart : ∀ m n s t, m ≠ n → contract.inv s → contract.guarantee n s t → contract.rely m s t
  post : ∀ call n begun result, Stable (contract.rely n) (contract.post call n begun result)
  failed : ∀ call n begun error, Stable (contract.rely n) (contract.failed call n begun error)
  later : ∀ n s, contract.fresh n s → contract.fresh (n + 1) s
  fresh : ∀ m n s t, n < m → contract.fresh m s → contract.guarantee n s t → contract.fresh m t
  body : ∀ call n s, contract.inv s → contract.fresh n s →
    Wp (contract.rely n) (contract.guarantee n) contract.inv allowed (contract.failed call n s)
      (contract.post call n s) (body call n) s

def On (contract : Contract σ ε α κ) (allowed : ι → ε → Prop) (n : Nat)
    (running : Running ι ε σ α κ) (s : σ) : Prop :=
  Wp (contract.rely n) (contract.guarantee n) contract.inv allowed
    (contract.failed running.call n running.begun)
    (contract.post running.call n running.begun) running.left s

structure Holds (contract : Contract σ ε α κ) (allowed : ι → ε → Prop) (system : System ι ε σ α κ) :
    Prop where
  inv : contract.inv system.shared
  fresh : contract.fresh system.next system.shared
  below : ∀ n running, system.calls n = some running → n < system.next
  calls : ∀ n running, system.calls n = some running → contract.On allowed n running system.shared

variable {contract : Contract σ ε α κ} {body : κ → Nat → Proc ι ε σ α} {allowed : ι → ε → Prop}
  {system system' : System ι ε σ α κ}

theorem Holds.put {shared : σ} {n : Nat} {running : Option (Running ι ε σ α κ)}
    (met : contract.Met body allowed) (hh : contract.Holds allowed system) (here : n < system.next)
    (does : contract.guarantee n system.shared shared) (inv : contract.inv shared)
    (own : ∀ after ∈ running, contract.On allowed n after shared) :
    contract.Holds allowed (system.put shared n running) where
  inv := inv
  fresh := met.fresh _ n _ _ here hh.fresh does
  below m kept listed := by
    by_cases hs : m = n
    · rw [hs]
      exact here
    · exact hh.below m kept ((System.calls_put_of_ne hs).symm.trans listed)
  calls m kept listed := by
    by_cases hs : m = n
    · subst hs
      exact own kept (System.calls_put_self.symm.trans listed)
    · have before := hh.calls m kept ((System.calls_put_of_ne hs).symm.trans listed)
      exact before.moved (met.trans m) (met.post kept.call m kept.begun)
        (met.failed kept.call m kept.begun) (met.apart m n _ _ hs hh.inv does)

theorem Holds.move (met : contract.Met body allowed) (hh : contract.Holds allowed system)
    (move : Move body allowed system system') : contract.Holds allowed system' := by
  cases move with
  | start call =>
    have begun := met.body call system.next system.shared hh.inv hh.fresh
    refine ⟨hh.inv, met.later _ _ hh.fresh, fun m hk hl => ?_, fun m hk hl => ?_⟩
    all_goals change (system.put system.shared system.next _).calls m = _ at hl
    · by_cases hs : m = system.next
      · rw [hs]
        exact Nat.lt_succ_self _
      · exact Nat.lt_succ_of_lt (hh.below m hk ((System.calls_put_of_ne hs).symm.trans hl))
    · by_cases hs : m = system.next
      · subst hs
        cases System.calls_put_self.symm.trans hl
        exact begun
      · exact hh.calls m hk ((System.calls_put_of_ne hs).symm.trans hl)
  | @go n call begun label effect next failed choice ht =>
    obtain ⟨does, hk, rest⟩ := (hh.calls n _ ht system.shared (met.refl n _) hh.inv).1 choice
    refine hh.put met (hh.below n _ ht) does hk fun after left => ?_
    cases left
    exact rest
  | @fail n _ _ _ _ _ _ error allows ht =>
    have rest := (hh.calls n _ ht system.shared (met.refl n _) hh.inv).2 error allows
    refine hh.put met (hh.below n _ ht) (met.still n _) hh.inv fun after left => ?_
    cases left
    exact rest
  | stop n =>
    by_cases ht : n < system.next
    · exact hh.put met ht (met.still n _) hh.inv fun _ left => nomatch left
    · refine ⟨hh.inv, hh.fresh, fun m hk hl => ?_, fun m hk hl => ?_⟩
      all_goals
        by_cases hs : m = n
        · subst hs
          exact nomatch System.calls_put_self.symm.trans hl
        · have before := (System.calls_put_of_ne hs).symm.trans hl
          first
            | exact hh.below m hk before
            | exact hh.calls m hk before

theorem Holds.changes {holds : σ → σ → Prop} (met : contract.Met body allowed)
    (table : contract.Holds allowed system)
    (does : ∀ n s t, contract.inv s → contract.guarantee n s t → holds s t)
    (move : Move body allowed system system') : holds system.shared system'.shared := by
  have hs := does 0 _ _ table.inv (met.still 0 system.shared)
  cases move with
  | start call | fail error allows ht | stop n => exact hs
  | @go n _ _ _ _ _ _ choice ht =>
    exact does n _ _ table.inv ((table.calls n _ ht system.shared (met.refl n _) table.inv).1 choice).1

end Contract

inductive Reached (body : κ → Nat → Proc ι ε σ α) (allowed : ι → ε → Prop) (shared : σ) :
    System ι ε σ α κ → Prop
  | initial : Reached body allowed shared ⟨shared, fun _ => none, 0⟩
  | move {system system' : System ι ε σ α κ} (before : Reached body allowed shared system)
      (move : Move body allowed system system') :
      Reached body allowed shared system'

theorem Reached.alone {body : κ → Nat → Proc ι ε σ α} {allowed : ι → ε → Prop} {shared begun : σ}
    {system : System ι ε σ α κ} {n : Nat} {call : κ} {proc : Proc ι ε σ α}
    (hr : Reached body allowed shared system) (there : system.calls n = some ⟨call, begun, proc⟩)
    (choices : Nat → Nat) :
    Reached body allowed shared (system.put (proc.alone choices system.shared).2 n
        (some ⟨call, begun, .done (proc.alone choices system.shared).1⟩)) := by
  induction proc generalizing system choices with
  | done exit =>
    have hs : system.put system.shared n (some ⟨call, begun, .done exit⟩) = system := by
      unfold System.put
      rw [← there, update_eq_self]
    unfold Proc.alone
    rw [hs]
    exact hr
  | step _ _ _ _ ih _ =>
    have step := hr.move (.go (choices 0) there)
    have rest := ih (choices 0) system.shared step System.calls_put_self fun n => choices (n + 1)
    unfold System.put at rest
    rw [update_idem] at rest
    exact rest

theorem Contract.holds_of_reached {contract : Contract σ ε α κ} {body : κ → Nat → Proc ι ε σ α}
    {allowed : ι → ε → Prop} {shared : σ} {system : System ι ε σ α κ}
    (met : contract.Met body allowed) (inv : contract.inv shared) (hf : contract.fresh 0 shared)
    (hr : Reached body allowed shared system) : contract.Holds allowed system := by
  induction hr with
  | initial => exact ⟨inv, hf, fun _ _ none => (nomatch none), fun _ _ none => nomatch none⟩
  | move _ move hh => exact hh.move met move

end Calls

end Yinshi.Interleaved
