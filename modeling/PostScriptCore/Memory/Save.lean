import PostScriptCore.Memory.Basic

/-!
# Save and restore

`save` opens a level; from then on every entity is remembered before its first change.  `restore`
brings the memory back to the moment before the level was opened, closing the levels inside it
first.

* `Memory.save` — opens a level and returns its number, counted from 1.
* `Memory.restore` — closes a level and every level inside it.
* `Memory.createdAfter` — whether an entity would vanish with a level.
-/

namespace PostScriptCore.Memory

/-- Opens a save level. -/
def save : MemoryM Nat := fun m =>
  if Mark.maxLevel ≤ m.level then .error .limitCheck m
  else .ok (m.level + 1) { m with saves := ⟨m.entityCount, m.arena.used, []⟩ :: m.saves }

/-- Puts back what the snapshots remember, in the given order. -/
def replay : List Snapshot → MemoryM Unit
  | [] => pure ()
  | snapshot :: rest => do
    if 0 < snapshot.row.size then
      onArena (Arena.write snapshot.row.address snapshot.bytes)
    modifyRow snapshot.id fun _ => snapshot.row
    replay rest

/-- Undoes the changes of a level that has just been taken off the save levels: first the changed
entities, then the new ones, then the arena's cursor. -/
def rollBack (record : SaveRecord) : MemoryM Unit := do
  replay record.snapshots
  modify fun m =>
    let m := m.releaseResources record.entityCount (m.entityCount - record.entityCount)
    { m with rows := m.rows.take record.entityCount }
  onArena (Arena.truncate record.used)

/-- Closes the innermost `count` levels. -/
def closeLevels : Nat → MemoryM Unit
  | 0 => pure ()
  | count + 1 => do
    match (← get).saves with
    | [] => pure ()
    | record :: outer =>
      modify fun m => { m with saves := outer }
      rollBack record
      closeLevels count

/-- Undoes every change since the level was opened. -/
def restore (level : Nat) : MemoryM Unit := do
  let m ← get
  if level = 0 ∨ m.level < level then throw .invalidRestore
  closeLevels (m.level - level + 1)

/-- Whether an entity was added to the table after a level was opened. -/
def createdAfter (m : Memory) (id level : Nat) : Bool :=
  if level = 0 then false
  else
    match m.saves.reverse[level - 1]? with
    | some record => decide (record.entityCount ≤ id)
    | none => false

end PostScriptCore.Memory
