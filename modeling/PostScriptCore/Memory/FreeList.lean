import PostScriptCore.Memory.Basic

/-!
# The free list

Freed entities form a list that is threaded through their own storage: the first word of each is
the number of the next, zero ends the list, and the head is kept in the address field of row 0.

* `Memory.free` — gives an entity's storage to the list.
* `Memory.freeEntities` — the list, head first.
* `Memory.firstFit` — the first listed entity that is large enough, taken out, zeroed and retagged;
  a miss counts towards the next request for a collection.
* `Memory.findStorage` — the search under the memory's policy.
-/

namespace PostScriptCore.Memory

/-- Bytes of a link. -/
abbrev linkSize : Nat := 4

/-- The first entity of the free list, or zero. -/
def freeHead (m : Memory) : Except Fault Nat :=
  match m.row 0 with
  | .ok row => .ok row.address
  | .error fault => .error fault

/-- The entity after a listed one, or zero. -/
def readLink (m : Memory) (id : Nat) : Except Fault Nat := m.readWord id 0

/-- Makes `next` the entity after `previous`, or the head of the list if `previous` is row 0. -/
def writeLink (previous next : Nat) : MemoryM Unit :=
  if previous = 0 then setAddress 0 next else put previous 0 (wordBytes next)

/-- Follows the links from `cursor` for at most `steps` entities. -/
def followLinks (m : Memory) : Nat → Nat → Except Fault (List Nat)
  | 0, _ => .ok []
  | steps + 1, cursor =>
    if cursor = 0 then .ok []
    else
      match m.readLink cursor with
      | .error fault => .error fault
      | .ok next =>
        match followLinks m steps next with
        | .ok rest => .ok (cursor :: rest)
        | .error fault => .error fault

/-- The listed entities, head first.  The walk stops after as many entities as the table has. -/
def freeEntities (m : Memory) : Except Fault (List Nat) :=
  match m.freeHead with
  | .ok head => m.followLinks m.entityCount head
  | .error fault => .error fault

/-- A listed entity that is large enough. -/
structure Candidate where
  /-- The listed entity before it, or zero. -/
  previous : Nat
  id : Nat
  /-- The listed entity after it, or zero. -/
  next : Nat

/-- The first listed entity of at least `wanted` bytes, from `cursor` on.  A list that goes on for
more than `steps` entities has no end. -/
def findCandidate (m : Memory) (wanted : Nat) : Nat → Nat → Nat → Except Fault (Option Candidate)
  | steps, previous, cursor =>
    if cursor = 0 then .ok none
    else
      match steps with
      | 0 => .error (.invalidEntity cursor)
      | steps + 1 =>
        match m.row cursor, m.readLink cursor with
        | .error fault, _ => .error fault
        | .ok _, .error fault => .error fault
        | .ok row, .ok next =>
          if wanted ≤ row.size then .ok (some ⟨previous, cursor, next⟩)
          else findCandidate m wanted steps cursor next

/-- Hands an entity to a new owner with zeroed storage. -/
def reuse (id : Nat) (tag : Tag) : MemoryM Unit := do
  setTag id tag
  putZeros id
  setMark id (Mark.createdAt (← get).level)

/-- Counts a miss; every `gcPeriod`-th one in a row asks for a collection. -/
def countMiss : MemoryM Fit := fun m =>
  if m.gcCountdown ≤ 1 then .ok .needsCollection { m with gcCountdown := m.gcPeriod }
  else .ok .miss { m with gcCountdown := m.gcCountdown - 1 }

/-- Takes the first listed entity that is large enough out of the list. -/
def firstFit (size : Nat) (tag : Tag) : MemoryM Fit := do
  let found ← query fun m =>
    match alignUp size arenaAlign with
    | none => .error .vmFull
    | some wanted =>
      match m.freeHead with
      | .ok head => m.findCandidate wanted m.entityCount 0 head
      | .error fault => .error fault
  match found with
  | some candidate =>
    writeLink candidate.previous candidate.next
    reuse candidate.id tag
    modify fun m => { m with gcCountdown := m.gcPeriod }
    return .reused candidate.id
  | none => countMiss

/-- Searches recycled storage under the memory's policy. -/
def findStorage (size : Nat) (tag : Tag) : MemoryM Fit := fun m =>
  match m.policy with
  | .firstFit => firstFit size tag m
  | .fixed (.ok fit) => .ok fit m
  | .fixed (.error fault) => .error fault m

/-- Gives an entity's storage to the free list, closing the file it owns.  Row 0, storage too small
for a link and entities that are free already are refused. -/
def free (id : Nat) : MemoryM Unit := do
  let row ← query fun m => m.row id
  if id = 0 ∨ row.size < linkSize ∨ row.isFree then throw .invalidAccess
  modify fun m => m.releaseResourceOf id
  let head ← query freeHead
  setTag id Tag.free
  put id 0 (wordBytes head)
  setMark id ((row.mark.withMarked false).withRefcount 0)
  setAddress 0 id

end PostScriptCore.Memory
