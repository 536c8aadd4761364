import PostScriptCore.Memory.Basic
import PostScriptCore.Object.Text

/-!
# Summary of a memory

* `Memory.summary` — one line with the bank, the number of entities, the cursor, the capacity and
  the save level.
-/

namespace PostScriptCore.Memory

/-- One line about a memory. -/
def summary (m : Memory) : String :=
  recordText "Memory"
    [("bank", m.bank.label), ("entities", toString m.entityCount),
      ("used", toString m.arena.used), ("max", toString m.arena.max),
      ("level", toString m.level)]

end PostScriptCore.Memory
