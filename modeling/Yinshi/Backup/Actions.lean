import Yinshi.Backup.Commits

/-! Each action of a worker leads onward, to a stage that rests on facts. -/

namespace Yinshi.Backup
open ByteText Checked Function Rows Option

namespace System

def allows (s : System) (w : Worker) (now : Nat) : Action → Prop
  | .removeObject effect => effect = true → s.leased w now
  | .fail _ => s.leased w now ∧ (w.operation.operation = .delete →
      ∀ a ∈ s.db.archives, a.id = w.operation.archiveId → a.Present s.objects)
  | _ => True

end System

section Plan
variable {naming : Naming} {s : System} {w : Worker} {now : Nat} {action : Action}
  {next : Reply → Stage} {stage : Stage} {input : Input}

section
variable (ht : Truth s)
include ht

end

end Plan

end Yinshi.Backup
