import PostScriptCore.Memory.Composite

/-!
# Copying between memories

A context cannot see another context's local memory, so an object that moves between contexts takes
a copy of everything it reaches along.  Global and immediate objects pass unchanged.  One `Transfer`
remembers what it has copied, so that sharing and cycles survive over all copies made with it.

* `Transfer` — which entity became which, and the copies whose slots still name source entities.
* `Transfer.mapObject` — the image of one object, copying its entity's bytes if they are new.
* `Transfer.copy` — the image of an object with everything reachable from it.

The target is never collected meanwhile: the copies are not reachable from any root yet.
-/

namespace PostScriptCore

/-- What has been copied so far between two memories. -/
structure Transfer where
  /-- Copied entities with their copies. -/
  copied : List (Nat × Nat)
  /-- Copies whose slots still name entities of the source, the next one first. -/
  pending : List Nat

/-- An operation on a transfer and its target. -/
abbrev TransferM := EStateM Fault (Transfer × Memory)

namespace Transfer

/-- A transfer that has copied nothing. -/
def empty : Transfer := ⟨[], []⟩

/-- Runs an operation of the target. -/
@[inline] def onTarget {α : Type} (x : MemoryM α) : TransferM α :=
  focus Prod.snd (fun m s => (s.1, m)) Memory.vacant x

/-- Changes what is known of the copies. -/
def modifyTransfer (f : Transfer → Transfer) : TransferM Unit :=
  modify fun s => (f s.1, s.2)

/-- Fills a copy: a file entity gets a slot of its own with a handle of the same open file, any
other entity the bytes of the source. -/
def fill (source : Memory) (old fresh : Nat) (row : Row) : TransferM Unit := do
  if row.tag.ownsResource then
    let slot ← query fun _ => source.resourceSlot old
    let handle ← query fun _ => source.resources.duplicate slot
    let slot ← onTarget <| modifyGet fun m =>
      let (slot, resources) := m.resources.insert handle
      (slot, { m with resources })
    onTarget (Memory.put fresh 0 (wordBytes slot))
  else if 0 < row.size then
    let bytes ← query fun _ => source.bytes old
    onTarget (Memory.put fresh 0 bytes)

/-- The copy of an entity, made now if there is none yet. -/
def mapEntity (source : Memory) (old : Nat) : TransferM Nat := do
  match (← get).1.copied.lookup old with
  | some fresh => return fresh
  | none =>
    let row ← query fun _ => source.row old
    let fresh ← onTarget (Memory.allocateWithoutGc row.size row.tag)
    fill source old fresh row
    modifyTransfer fun t =>
      { copied := (old, fresh) :: t.copied
        pending := if row.tag.kind.holdsObjects then fresh :: t.pending else t.pending }
    return fresh

/-- The image of an object.  Only local composites change. -/
def mapObject (source : Memory) (obj : Object) : TransferM Object :=
  match obj.entity? with
  | none => pure obj
  | some old =>
    if obj.bank = .globalVM then pure obj
    else do
      let fresh ← mapEntity source old
      return obj.rebased fresh

/-- Redirects the slots of a copy at the given offsets. -/
def redirectSlots (source : Memory) (fresh : Nat) : List Nat → TransferM Unit
  | [] => pure ()
  | offset :: rest => do
    let slot ← query fun s => s.2.readObject fresh offset
    if slot.bank = .localVM ∧ slot.isComposite = true then
      let image ← mapObject source slot
      onTarget (Memory.writeObject fresh offset image)
    redirectSlots source fresh rest

/-- The offsets at which the slots of `size` bytes begin. -/
def slotOffsets (size : Nat) : List Nat :=
  (List.range ((size + (objectSize - 1)) / objectSize)).map (· * objectSize)

/-- Redirects the slots of pending copies, at most `steps` of them. -/
def drain (source : Memory) : Nat → TransferM Unit
  | 0 => pure ()
  | steps + 1 => do
    match (← get).1.pending with
    | [] => pure ()
    | fresh :: rest =>
      modifyTransfer fun t => { t with pending := rest }
      let row ← query fun s => s.2.row fresh
      redirectSlots source fresh (slotOffsets row.size)
      drain source steps

/-- The image of an object, with everything reachable from it copied.  Every copy is pending once,
so the source's entities and what was pending before bound the work. -/
def copy (source : Memory) (obj : Object) : TransferM Object := do
  let image ← mapObject source obj
  drain source (source.entityCount + (← get).1.pending.length)
  return image

/-- The images of objects, in order. -/
def copyAll (source : Memory) : List Object → TransferM (List Object)
  | [] => pure []
  | obj :: rest => do
    let image ← copy source obj
    let images ← copyAll source rest
    return image :: images

end Transfer

end PostScriptCore
