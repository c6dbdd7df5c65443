import Yinshi.Base.ByteText
import Yinshi.Base.Links

/-! The runner data-protection key: its file, the temporary files beside it, and the calls of
any number of processes that load or create it. Every operating-system call is one step; `close`
and the sleep between two reads are part of the step before. -/

namespace Yinshi.DataKey
open ByteText Links Function

def keyBytes : Nat := 32

def publishReadAttempts : Nat := 100

/-- The random part of a temporary name never repeats: it is the number of the file. -/
inductive Name
  | key
  | temporary (number : Nat)
  deriving DecidableEq

/-- The database root; every file is regular, of mode 0600 and of one user. -/
abbrev Root := Directory Name Bytes

def temporaries (root : Root) : List Nat :=
  (List.range root.next).filter fun number => (root.entry (.temporary number)).isSome

inductive Stage
  | checking
  | creating
  | writing (number written : Nat)
  | syncing (number : Nat)
  | linking (number : Nat)
  | discarding (number : Nat)
  | openingRoot (number : Nat)
  | publishing (number : Nat)
  | unlinking (number : Nat)
  | finishing (number : Nat)
  /-- The handler of `_create_key`. -/
  | withdrawing (number : Nat)
  | clearing (number : Nat)
  /-- `_read_key` and `lstat`, for one attempt. -/
  | reading (attempt : Nat)
  | checkingKey (attempt inode : Nat)
  | loading (attempt inode : Nat)
  | looking (attempt : Nat)
  /-- `_recover_published_key`. -/
  | openingFinal
  | checkingFinal (inode : Nat)
  | listing (inode links : Nat)
  | openingTemporary (inode links : Nat) (names rest : List Nat)
  | checkingTemporary (inode links : Nat) (names : List Nat) (opened : Nat) (rest : List Nat)
  | readingFinal (inode : Nat) (names : List Nat)
  | removing (inode : Nat) (key : Bytes) (rest : List Nat)
  | syncingFinal (inode : Nat) (key : Bytes)
  | checkingAlone (inode : Nat) (key : Bytes)
  | returned (key : Bytes)
  | raised
  | stopped
  deriving DecidableEq

namespace Stage

def isWorking : Stage → Bool
  | .returned _ | .raised | .stopped => false
  | _ => true

def holds : Stage → Option Nat
  | .writing number _ | .syncing number | .linking number | .discarding number | .openingRoot
    number | .publishing number
  | .unlinking number | .withdrawing number | .clearing number => some number
  | _ => none

def opened : Stage → Option Nat
  | .checkingKey _ inode | .loading _ inode | .checkingFinal inode | .listing inode
    _ | .openingTemporary inode _ _ _
  | .checkingTemporary inode _ _ _ _ | .readingFinal inode _ | .removing inode _ _ | .syncingFinal inode _
  | .checkingAlone inode _ => some inode
  | _ => none

def fail : Stage → Stage
  | .writing number _ | .syncing number | .linking number | .discarding number | .unlinking
      number | .withdrawing number =>
    .clearing number
  | .openingRoot number | .publishing number => .withdrawing number
  | .reading attempt => .looking attempt
  | _ => .raised

/-- The loop of `_recover_published_key` over the temporary names. -/
def checkNext (inode links : Nat) (names : List Nat) : List Nat → Stage
  | [] => if links = names.length + 1 then .readingFinal inode names else .raised
  | rest => .openingTemporary inode links names rest

def removeNext (inode : Nat) (key : Bytes) : List Nat → Stage
  | [] => .syncingFinal inode key
  | rest => .removing inode key rest

/-- The next operating-system call of a call that would publish `bytes`; a write takes `count`
bytes. -/
def act (root : Root) (bytes : Bytes) (count : Nat) : Stage → Root × Stage
  | .checking => (root, if (root.entry .key).isSome then .reading 0 else .creating)
  | .creating => (root.create (.temporary root.next) [], .writing root.next 0)
  | .writing number written =>
    if count = 0 then (root, .clearing number)
    else
      let total := min (written + count) bytes.length
      (root.write number (bytes.take total),
        if total = bytes.length then .syncing number else .writing number total)
  | .syncing number => (root, .linking number)
  | .linking number =>
    match root.entry .key, root.entry (.temporary number) with
    | some _, _ => (root, .discarding number)
    | none, some inode => (root.link inode .key, .openingRoot number)
    | none, none => (root, .clearing number)
  | .discarding number =>
    match root.entry (.temporary number) with
    | some inode => (root.unlink inode (.temporary number), .reading 0)
    | none => (root, .clearing number)
  | .openingRoot number => (root, .publishing number)
  | .publishing number => (root, .unlinking number)
  | .unlinking number =>
    match root.entry (.temporary number) with
    | some inode => (root.unlink inode (.temporary number), .finishing number)
    | none => (root, .clearing number)
  | .finishing _ => (root, .returned bytes)
  | .withdrawing number =>
    match root.entry .key with
    | some inode => (root.unlink inode .key, .clearing number)
    | none => (root, .clearing number)
  | .clearing number =>
    match root.entry (.temporary number) with
    | some inode => (root.unlink inode (.temporary number), .raised)
    | none => (root, .raised)
  | .reading attempt =>
    match root.entry .key with
    | some inode => (root, .checkingKey attempt inode)
    | none => (root, .looking attempt)
  | .checkingKey attempt inode =>
    (root, if (root.inode inode).links = 1 then .loading attempt inode else .looking attempt)
  | .loading attempt inode =>
    (root,
      if (root.inode inode).content.length = keyBytes then .returned (root.inode inode).content else
      .looking attempt)
  | .looking attempt =>
    match root.entry .key with
    | some inode =>
      (root, if (root.inode inode).links ≤ 1 then .raised
        else if attempt + 1 = publishReadAttempts then .openingFinal else .reading (attempt + 1))
    | none => (root, .raised)
  | .openingFinal =>
    match root.entry .key with
    | some inode => (root, .checkingFinal inode)
    | none => (root, .raised)
  | .checkingFinal inode =>
    (root,
      if (root.inode inode).content.length = keyBytes then .listing inode (root.inode inode).links
      else .raised)
  | .listing inode links =>
    (root,
      if temporaries root = [] then .raised else
      checkNext inode links (temporaries root) (temporaries root))
  | .openingTemporary inode links names [] => (root, checkNext inode links names [])
  | .openingTemporary inode links names (name :: rest) =>
    match root.entry (.temporary name) with
    | some opened => (root, .checkingTemporary inode links names opened rest)
    | none => (root, .raised)
  | .checkingTemporary inode links names opened rest =>
    (root,
      if (root.inode opened).content.length = keyBytes ∧ opened = inode ∧
        (root.inode opened).links = links then checkNext inode links names rest else .raised)
  | .readingFinal inode names =>
    (root,
      if (root.inode inode).content.length = keyBytes then
      removeNext inode (root.inode inode).content names else .raised)
  | .removing inode key [] => (root, removeNext inode key [])
  | .removing inode key (name :: rest) =>
    match root.entry (.temporary name) with
    | some found => (root.unlink found (.temporary name), removeNext inode key rest)
    | none => (root, .raised)
  | .syncingFinal inode key => (root, .checkingAlone inode key)
  | .checkingAlone inode key => (root, if (root.inode inode).links = 1 then .returned key else .raised)
  | .returned key => (root, .returned key)
  | .raised => (root, .raised)
  | .stopped => (root, .stopped)

end Stage

/-- A `load_or_create_runner_data_key` with its legacy or random key. -/
structure Call where
  bytes : Bytes
  stage : Stage
  deriving DecidableEq

structure System where
  root : Root
  calls : Nat → Option Call

inductive Event
  | call (number : Nat) (bytes : Bytes)
  | act (number count : Nat)
  | fail (number : Nat)
  | stop (number : Nat)

namespace System

def initial : System := ⟨.empty [], fun _ => none⟩

def put (s : System) (number : Nat) (call : Call) : System :=
  { s with calls := update s.calls number (some call) }

def turn (s : System) (number : Nat) (step : Call → Root × Stage) : Option System :=
  match s.calls number with
  | some call =>
    if call.stage.isWorking then
      some { s.put number { call with stage := (step call).2 } with root := (step call).1 } else
      none
  | none => none

def step (s : System) : Event → Option System
  | .call number bytes =>
    if s.calls number = none ∧ bytes.length = keyBytes then some (s.put number ⟨bytes, .checking⟩) else none
  | .act number count => s.turn number fun call => call.stage.act s.root call.bytes count
  | .fail number => s.turn number fun call => (s.root, call.stage.fail)
  | .stop number => s.turn number fun _ => (s.root, .stopped)

end System

end Yinshi.DataKey
