import PostScriptCore.Memory.FreeList

/-!
# Garbage collection

Non-moving mark and sweep over one memory.  The roots are the composites a caller reports and the
pinned entities; from an array or a dictionary the collection goes on to the entities stored in it.
Only references into the memory's own bank are followed, and only strings, arrays, dictionaries and
files are swept.

* `Memory.mark` — marks what can be reached, with a stack of entities still to be visited.
* `Memory.markEverything` — marks every live entity without following references.
* `Memory.sweep` — frees what is unmarked, in the order of the table.
* `Memory.collect` — a whole collection under the memory's collector.
-/

namespace PostScriptCore.Memory

/-- The entities that a list of objects refers to in a bank. -/
def references (bank : Bank) (objects : List Object) : List Nat :=
  objects.filterMap fun obj => if obj.bank = bank then obj.entity? else none

/-- The numbers of all entities but the reserved one. -/
def entityIds (m : Memory) : List Nat := List.range' 1 (m.entityCount - 1)

/-- Whether a live entity is pinned. -/
def isPinned (m : Memory) (id : Nat) : Bool :=
  match m.rows[id]? with
  | some row => !row.isFree && decide (0 < row.mark.refcount.val)
  | none => false

/-- The pinned entities, in the order of the table. -/
def pinned (m : Memory) : List Nat := m.entityIds.filter m.isPinned

/-- The entities that a live array or dictionary refers to, in slot order. -/
def children (m : Memory) (id : Nat) : Except Fault (List Nat) :=
  match m.row id with
  | .error fault => .error fault
  | .ok row =>
    if row.tag.kind.holdsObjects then
      match m.stored id with
      | .ok objects => .ok (references m.bank objects)
      | .error fault => .error fault
    else .ok []

/-- Whether an entity is live and not yet marked. -/
def isUnmarked (m : Memory) (id : Nat) : Bool :=
  match m.rows[id]? with
  | some row => !row.isFree && !row.mark.marked
  | none => false

/-- Sets the collector bit of an entity. -/
def setMarked (id : Nat) : MemoryM Unit :=
  modifyRow id fun row => { row with mark := row.mark.withMarked true }

/-- Marks everything that can be reached from a stack of entities, its first element on top.  Each
entity is expanded at most once, so `steps` only has to cover the stack and all slots. -/
def markFrom : Nat → List Nat → MemoryM Unit
  | 0, _ => pure ()
  | _, [] => pure ()
  | steps + 1, id :: rest => do
    if (← get).isUnmarked id then
      setMarked id
      let children ← query fun m => m.children id
      markFrom steps (children.reverse ++ rest)
    else markFrom steps rest

/-- How many slots all entities have together. -/
def slotCount (m : Memory) : Nat :=
  m.rows.foldl (fun total row => total + row.size / objectSize) 0

/-- Marks what can be reached from the roots and the pinned entities. -/
def mark (roots : List Object) : MemoryM Unit := do
  let m ← get
  let start := references m.bank roots ++ m.pinned
  markFrom (start.length + m.slotCount) start.reverse

/-- Applies a function to every row but the reserved one. -/
def mapRows (m : Memory) (f : Row → Row) : Memory :=
  { m with rows := m.rows.mapIdx fun id row => if id = 0 then row else f row }

/-- Marks every live entity. -/
def markEverything : MemoryM Unit :=
  modify fun m => m.mapRows fun row =>
    if row.isFree then row else { row with mark := row.mark.withMarked true }

/-- Whether the collector may reclaim a row. -/
def isGarbage (row : Row) : Bool :=
  decide (0 < row.size) && row.tag.kind.isCollectable && !row.mark.marked

/-- Frees the unmarked entities among those listed and returns how many bytes that are. -/
def sweepList : List Nat → MemoryM Nat
  | [] => pure 0
  | id :: rest => do
    let row ← query fun m => m.row id
    if isGarbage row then
      free id
      let others ← sweepList rest
      return row.size + others
    else sweepList rest

/-- Frees every unmarked collectable entity and returns how many bytes that are. -/
def sweep : MemoryM Nat := do
  sweepList (← get).entityIds

/-- Clears the collector bit of every entity. -/
def clearMarks : MemoryM Unit :=
  modify fun m => m.mapRows fun row => { row with mark := row.mark.withMarked false }

/-- Marks, sweeps if asked to, and clears the marks.  Returns how many bytes were given to the free
list. -/
def markSweep (roots : List Object) (sweeping markAll : Bool) : MemoryM Nat := do
  if markAll then markEverything else mark roots
  let reclaimed ← if sweeping then sweep else pure 0
  clearMarks
  return reclaimed

/-- Runs the memory's collector; without one nothing is reclaimed. -/
def collect (roots : List Object) (sweeping markAll : Bool) : MemoryM Nat := fun m =>
  match m.collector with
  | none => .ok 0 m
  | some .markSweep => markSweep roots sweeping markAll m
  | some (.failing fault) => .error fault m

end PostScriptCore.Memory
