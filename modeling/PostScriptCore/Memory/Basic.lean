import PostScriptCore.Arena
import PostScriptCore.Entity
import PostScriptCore.File
import PostScriptCore.Object.Codec
import PostScriptCore.Settings
import PostScriptCore.Step

/-!
# Memories

A memory is an entity table on top of an arena.  Everything stored in it is reached through an
entity number, and addresses are looked up in the table at the moment of use.  Row 0 is reserved:
its address field holds the head of the free list.

* `Memory` — the table, the arena, the open save levels, the resource slots and the allocation
  policy.
* `MemoryM` — an operation on a memory; a failure keeps the memory reached so far.
* `Memory.row`, `Memory.bytesAt`, `Memory.stored` — reading.
* `Memory.touch` — records an entity in the innermost save level before its first change there.
* `Memory.put`, `Memory.setAddress`, … — writing, always after `touch`.  `Memory.setMark` is the
  exception, because marks are the collector's.
-/

namespace PostScriptCore

/-- An entity as it was before its first change at some save level. -/
structure Snapshot where
  id : Nat
  row : Row
  bytes : List UInt8

/-- An open save level. -/
structure SaveRecord where
  /-- How many rows the table had when the level was opened. -/
  entityCount : Nat
  /-- Where the arena's cursor stood. -/
  used : Nat
  /-- What was changed since, the latest first. -/
  snapshots : List Snapshot

/-- Outcome of a search for recycled storage. -/
inductive Fit
  | reused (id : Nat)
  /-- Enough misses in a row: collect and search again. -/
  | needsCollection
  | miss
  deriving DecidableEq

/-- How recycled storage is searched. -/
inductive FitPolicy
  /-- The first entity of the free list that is large enough. -/
  | firstFit
  /-- Always the same answer, without looking at the free list. -/
  | fixed (answer : Except Fault Fit)

/-- How garbage is collected. -/
inductive Collector
  | markSweep
  /-- Refuses every collection. -/
  | failing (fault : Fault)

/-- An entity table on top of an arena. -/
structure Memory where
  arena : Arena
  rows : Array Row
  maxEntities : Nat
  bank : Bank
  policy : FitPolicy
  collector : Option Collector
  /-- Misses between two requests for a collection. -/
  gcPeriod : Nat
  /-- Misses left until the next request. -/
  gcCountdown : Nat
  /-- The open save levels, the innermost first. -/
  saves : List SaveRecord
  resources : ResourceTable

/-- An operation on a memory. -/
abbrev MemoryM := EStateM Fault Memory

namespace Memory

/-! ## Starting and stopping -/

/-- A fresh memory over the given backing.  No collector is registered. -/
def withBacking (bank : Bank) (backing : Backing) (settings : Settings) : Except Fault Memory :=
  match Arena.init backing settings.initialArenaSize settings.pageSize settings.maxArenaSize with
  | .ok arena =>
    .ok
      { arena, rows := #[Row.head], maxEntities := settings.maxEntities, bank
        policy := .firstFit, collector := none
        gcPeriod := settings.gcPeriod, gcCountdown := settings.gcPeriod
        saves := [], resources := ResourceTable.empty }
  | .error fault => .error fault

/-- A fresh memory that collects by mark and sweep. -/
def create (bank : Bank) (settings : Settings) : Except Fault Memory :=
  match withBacking bank .anonymous settings with
  | .ok m => .ok { m with collector := some .markSweep }
  | .error fault => .error fault

/-- A memory without storage, which stands in for a memory that is being worked on. -/
def vacant : Memory :=
  ⟨Arena.vacant, #[], 0, .localVM, .firstFit, none, 0, 0, [], ResourceTable.empty⟩

/-- How many rows the table has, the reserved one included. -/
def entityCount (m : Memory) : Nat := m.rows.size

/-- The number of open save levels. -/
def level (m : Memory) : Nat := m.saves.length

/-! ## Reading -/

/-- The row of an entity. -/
def row (m : Memory) (id : Nat) : Except Fault Row :=
  match m.rows[id]? with
  | some row => .ok row
  | none => .error (.invalidEntity id)

/-- The address of a range inside an entity's storage. -/
def checkedAddress (m : Memory) (id offset count : Nat) : Except Fault Nat :=
  match m.row id with
  | .error fault => .error fault
  | .ok row =>
    if row.size < offset + count then .error .rangeCheck
    else if wordBound ≤ row.address + offset then .error .wordOverflow
    else .ok (row.address + offset)

/-- `count` bytes of an entity's storage. -/
def bytesAt (m : Memory) (id offset count : Nat) : Except Fault (List UInt8) :=
  match m.checkedAddress id offset count with
  | .ok address => m.arena.read address count
  | .error fault => .error fault

/-- Where an entity's storage lies, if all of it can be read. -/
def storage (m : Memory) (id : Nat) : Except Fault Row :=
  match m.row id with
  | .error fault => .error fault
  | .ok row =>
    match m.checkedAddress id 0 row.size with
    | .error fault => .error fault
    | .ok address =>
      match m.arena.obstacle? address row.size with
      | some fault => .error fault
      | none => .ok row

/-- All bytes of an entity's storage. -/
def bytes (m : Memory) (id : Nat) : Except Fault (List UInt8) :=
  match m.storage id with
  | .ok row => .ok (m.arena.image.read row.address row.size)
  | .error fault => .error fault

/-- The bytes of an entity's storage without the zeros at the end. -/
def trimmedBytes (m : Memory) (id : Nat) : Except Fault (List UInt8) :=
  match m.storage id with
  | .ok row =>
    let listed := m.arena.image.listed row.address row.size
    .ok ((m.arena.image.read row.address listed).reverse.dropWhile (· == 0)).reverse
  | .error fault => .error fault

/-- The word at an offset of an entity's storage. -/
def readWord (m : Memory) (id offset : Nat) : Except Fault Nat :=
  match m.bytesAt id offset 4 with
  | .ok bytes => .ok (wordOfBytes bytes)
  | .error fault => .error fault

/-- The object at an offset of an entity's storage. -/
def readObject (m : Memory) (id offset : Nat) : Except Fault Object :=
  match m.bytesAt id offset objectSize with
  | .ok bytes => Object.decode bytes
  | .error fault => .error fault

/-- The object in a slot of an entity, if the slot decodes. -/
def slot? (m : Memory) (id index : Nat) : Option Object :=
  match m.readObject id (index * objectSize) with
  | .ok obj => some obj
  | .error _ => none

/-- The objects in the whole slots of an entity's storage; a slot that does not decode is passed
over. -/
def stored (m : Memory) (id : Nat) : Except Fault (List Object) :=
  match m.storage id with
  | .ok row => .ok ((List.range (row.size / objectSize)).filterMap (m.slot? id))
  | .error fault => .error fault

/-- The composites stored in one entity, if it is a live array or dictionary. -/
def storedComposites (m : Memory) (id : Nat) : List Object :=
  match m.row id with
  | .error _ => []
  | .ok row =>
    if row.tag.kind.holdsObjects then
      match m.stored id with
      | .ok objects => objects.filter Object.isComposite
      | .error _ => []
    else []

/-- Every composite stored in a live array or dictionary, in the order of the table. -/
def allStoredComposites (m : Memory) : List Object :=
  (List.range m.entityCount).flatMap m.storedComposites

/-! ## Writing -/

/-- Runs an operation of the arena. -/
@[inline] def onArena {α : Type} (x : EStateM Fault Arena α) : MemoryM α :=
  focus Memory.arena (fun arena m => { m with arena }) Arena.vacant x

/-- Changes a row. -/
def modifyRow (id : Nat) (f : Row → Row) : MemoryM Unit :=
  modify fun m => { m with rows := m.rows.modify id f }

/-- Adds a snapshot to the innermost save level. -/
def addSnapshot (snapshot : Snapshot) : List SaveRecord → List SaveRecord
  | [] => []
  | record :: outer => { record with snapshots := snapshot :: record.snapshots } :: outer

/-- What an entity is remembered by, if its next change is the first one at the current save
level. -/
def pendingSnapshot (m : Memory) (id : Nat) : Except Fault (Option Snapshot) :=
  if m.level = 0 then .ok none
  else
    match m.row id with
    | .error fault => .error fault
    | .ok row =>
      if m.level ≤ row.mark.created.val ∨ m.level ≤ row.mark.snapshot.val then .ok none
      else if row.size = 0 then .ok (some ⟨id, row, []⟩)
      else
        match m.arena.read row.address row.size with
        | .ok bytes => .ok (some ⟨id, row, bytes⟩)
        | .error fault => .error fault

/-- Remembers an entity before its first change at the current save level. -/
def touch (id : Nat) : MemoryM Unit := do
  match ← query fun m => m.pendingSnapshot id with
  | none => pure ()
  | some snapshot =>
    modify fun m => { m with saves := addSnapshot snapshot m.saves }
    let level := (← get).level
    modifyRow id fun row => { row with mark := row.mark.withSnapshot level }

/-- Changes a row after remembering the entity. -/
def changeRow (id : Nat) (f : Row → Row) : MemoryM Unit := do
  touch id
  discard <| query fun m => m.row id
  modifyRow id f

/-- Sets the address of an entity. -/
def setAddress (id address : Nat) : MemoryM Unit :=
  changeRow id fun row => { row with address }

/-- Sets the size of an entity. -/
def setSize (id size : Nat) : MemoryM Unit :=
  changeRow id fun row => { row with size }

/-- Sets the tag of an entity. -/
def setTag (id : Nat) (tag : Tag) : MemoryM Unit :=
  changeRow id fun row => { row with tag }

/-- Sets the mark of an entity.  Marks are not part of what a save level remembers. -/
def setMark (id : Nat) (mark : Mark) : MemoryM Unit := do
  discard <| query fun m => m.row id
  modifyRow id fun row => { row with mark }

/-- Overwrites part of an entity's storage. -/
def put (id offset : Nat) (bytes : List UInt8) : MemoryM Unit := do
  let address ← query fun m => m.checkedAddress id offset bytes.length
  touch id
  onArena (Arena.write address bytes)

/-- Zeroes the whole storage of an entity. -/
def putZeros (id : Nat) : MemoryM Unit := do
  let row ← query fun m => m.row id
  let address ← query fun m => m.checkedAddress id 0 row.size
  touch id
  onArena (Arena.zero address row.size)

/-- Stores an object at an offset of an entity's storage. -/
def writeObject (id offset : Nat) (obj : Object) : MemoryM Unit :=
  put id offset obj.encode

/-! ## Pins -/

/-- Pins an entity, so that the collector treats it as a root. -/
def retain (id : Nat) : MemoryM Unit := do
  let row ← query fun m => m.row id
  if row.mark.refcount.val = Mark.maxRefcount then throw .limitCheck
  setMark id (row.mark.withRefcount (row.mark.refcount.val + 1))

/-- Takes back one pin. -/
def release (id : Nat) : MemoryM Unit := do
  let row ← query fun m => m.row id
  if row.mark.refcount.val = 0 then throw .rangeCheck
  setMark id (row.mark.withRefcount (row.mark.refcount.val - 1))

/-! ## Resources -/

/-- The resource slot named by the first word of a file entity. -/
def resourceSlot (m : Memory) (id : Nat) : Except Fault Nat := m.readWord id 0

/-- Empties the resource slot of a live file entity; any other entity is left alone. -/
def releaseResourceOf (m : Memory) (id : Nat) : Memory :=
  match m.row id with
  | .error _ => m
  | .ok row =>
    if row.tag.ownsResource then
      match m.resourceSlot id with
      | .ok slot => { m with resources := (m.resources.release slot).2 }
      | .error _ => m
    else m

/-- Empties the resource slots of the live file entities numbered from `first` on, `count` of
them. -/
def releaseResources (first count : Nat) (m : Memory) : Memory :=
  (List.range' first count).foldl releaseResourceOf m

/-- How many files the memory holds open. -/
def openResources (m : Memory) : Nat := m.resources.live

/-- Releases the arena and every file.  The reserved row stays, and with it what it says of the
free list. -/
def exit (m : Memory) : Memory :=
  let m := m.releaseResources 0 m.entityCount
  { m with rows := m.rows.take 1, saves := [], arena := m.arena.exit }

end Memory

end PostScriptCore
