import PostScriptCore.Machine.Session
import PostScriptCore.Memory.Save

/-!
# Memory operators

`save`, `restore`, `vmstatus` and `vmreclaim`.  `restore` refuses to leave an object on a stack
whose entity would vanish with the level.
-/

namespace PostScriptCore.Action

variable {ν : Type}

/-- Opens a save level of the local memory. -/
def save : Action ν Unit := do
  let level ← Session.onLocalVM Memory.save
  Session.push (Object.save level)

/-- Whether an object names a local entity that was added to the table after a level was opened. -/
def isNewerThan (m : Memory) (level : Nat) (obj : Object) : Bool :=
  match obj.bank, obj.entity? with
  | .localVM, some id => m.createdAfter id level
  | _, _ => false

/-- Closes a save level of the local memory, unless an object on a stack would be left dangling. -/
def restore (obj : Object) : Action ν Unit := do
  match obj.asSave? with
  | none => throw .typeCheck
  | some level =>
    let c := (← get).context
    if level = 0 ∨ c.localVM.level < level then throw .invalidRestore
    if c.stackSet.roots.any (isNewerThan c.localVM level) then throw .invalidRestore
    Session.onLocalVM (Memory.restore level)

/-- A number as an integer object, at most the largest one. -/
def clamp (n : Nat) : Object := Object.int (if n ≤ 2147483647 then n else 2147483647)

/-- Pushes the save level, the bytes in use and the capacity of the local memory. -/
def vmStatus : Action ν Unit := do
  let m := (← get).context.localVM
  Session.push (clamp m.level)
  Session.push (clamp m.arena.used)
  Session.push (clamp m.arena.max)

/-- `1` collects the local memory and `2` the global one as well.  From `-2` to `0` the operand only
chooses a mode of automatic collection, and nothing happens. -/
def vmReclaim (mode : Object) : Action ν Unit := do
  match mode.asInt? with
  | none => throw .rangeCheck
  | some z =>
    if -2 ≤ z ∧ z ≤ 0 then return
    if z ≠ 1 ∧ z ≠ 2 then throw .rangeCheck
    discard <| Session.onContext Context.collectLocal
    if z = 2 then
      let s ← get
      discard <| Session.onGlobalVM
        (Memory.collect (s.context.roots ++ s.scheduler.roots) true false)

end PostScriptCore.Action
