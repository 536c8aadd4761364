import PostScriptCore.Memory.Collector

/-!
# Allocation

Storage comes from the free list if it has something large enough, and from the arena's cursor
otherwise.  When the free list asks for a collection, one is run and the list is searched again.

* `Memory.tableAlloc` — a new row over fresh bytes.
* `Memory.allocate` — free list, collection if asked for, then a new row.
* `Memory.allocateWithoutGc` — the same without ever collecting.
* `Memory.realloc`, `Memory.reallocWithoutGc` — moves the contents of an entity into a new one.
-/

namespace PostScriptCore.Memory

/-- Appends a row over fresh bytes of the arena.  An entity of size zero takes no bytes.  The number of
the row is not cut to a word: what is said of objects and links, which hold words, assumes that there are
at most `wordBound` rows. -/
def tableAlloc (size : Nat) (tag : Tag) : MemoryM Nat := do
  let size ← query fun m =>
    match if size = 0 then some 0 else alignUp size arenaAlign with
    | none => .error .vmFull
    | some size => if m.maxEntities ≤ m.entityCount then .error .vmFull else .ok size
  let address ← if size = 0 then (fun m => m.arena.used) <$> get else onArena (Arena.alloc size)
  modifyGet fun m =>
    (m.entityCount, { m with rows := m.rows.push ⟨address, size, Mark.createdAt m.level, tag⟩ })

/-- Allocates an entity.  `roots` has to cover every object still needed that cannot be reached
from storage of this memory. -/
def allocate (size : Nat) (tag : Tag) (roots : List Object) : MemoryM Nat := do
  match ← findStorage size tag with
  | .reused id => return id
  | .needsCollection =>
    attempt (collect roots true false)
    match ← findStorage size tag with
    | .reused id => return id
    | _ => tableAlloc size tag
  | .miss => tableAlloc size tag

/-- Allocates an entity without running the collector, for callers that hold references nobody
could report as roots. -/
def allocateWithoutGc (size : Nat) (tag : Tag) : MemoryM Nat := do
  match ← findStorage size tag with
  | .reused id => return id
  | _ => tableAlloc size tag

/-- The row of an entity whose contents may be moved: neither free nor the owner of a file. -/
def movable (m : Memory) (id : Nat) : Except Fault Row :=
  match m.row id with
  | .error fault => .error fault
  | .ok row => if row.isFree || row.tag.ownsResource then .error .invalidAccess else .ok row

/-- Copies what fits of an entity's contents into another one and frees the first. -/
def moveContents (id oldSize target newSize : Nat) : MemoryM Nat := do
  let keep := if oldSize < newSize then oldSize else newSize
  if 0 < keep then
    let source ← query fun m => m.row id
    let destination ← query fun m => m.row target
    onArena (Arena.copyWithin source.address destination.address keep)
  free id
  return target

/-- Moves the contents of an entity into a new one of `newSize` bytes and frees the old one. -/
def realloc (id newSize : Nat) (roots : List Object) : MemoryM Nat := do
  let old ← query fun m => m.movable id
  let target ← allocate newSize old.tag roots
  moveContents id old.size target newSize

/-- `realloc` without ever collecting. -/
def reallocWithoutGc (id newSize : Nat) : MemoryM Nat := do
  let old ← query fun m => m.movable id
  let target ← allocateWithoutGc newSize old.tag
  moveContents id old.size target newSize

end PostScriptCore.Memory
