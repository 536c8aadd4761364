import PostScriptCore.Object.Basic

/-!
# Segmented stacks

A stack of objects built from segments of a fixed capacity, bounded by a limit.  Segments are kept
once allocated, so a stack that shrinks and grows again reuses them.

* `Stack` — the segments, the segment that holds the top and how far it is filled.
* `Stack.push` — refuses to go past the limit with the stack's own fault.
* `Stack.pop?`, `Stack.drop`, `Stack.clear`, `Stack.free` — removal from the top.
* `Stack.fromBottom?`, `Stack.fromTop?`, `Stack.replaceFromBottom`, `Stack.replaceFromTop` — access
  by position.
* `Stack.toList` — the view: the items from the bottom up.
-/

namespace PostScriptCore

/-- A stack built from fixed-capacity segments. -/
structure Stack where
  segments : Array (Array Object)
  /-- The segment that holds the top item. -/
  top : Nat
  /-- How many slots of the top segment are occupied; zero only when the stack is empty. -/
  fill : Nat
  segmentSize : Nat
  limit : Nat
  /-- What a push past the limit reports. -/
  overflow : Fault

namespace Stack

/-- A segment of null objects. -/
def freshSegment (size : Nat) : Array Object := Array.replicate size Object.null

/-- The empty stack with one segment. -/
def create (segmentSize limit : Nat) (overflow : Fault) : Stack :=
  ⟨#[freshSegment segmentSize], 0, 0, segmentSize, limit, overflow⟩

/-- A stack without segments or room, which stands in for a stack that is being worked on. -/
def vacant : Stack := ⟨#[], 0, 0, 1, 0, .stackOverflow⟩

/-- How many items the stack holds. -/
def count (s : Stack) : Nat := s.top * s.segmentSize + s.fill

/-- Whether the stack holds no item. -/
def isEmpty (s : Stack) : Bool := s.fill == 0

/-- The object in a slot. -/
def slot (s : Stack) (index : Nat) : Object :=
  match s.segments[index / s.segmentSize]? with
  | some segment => segment.getD (index % s.segmentSize) Object.null
  | none => Object.null

/-- Overwrites a slot. -/
def setSlot (s : Stack) (segment position : Nat) (obj : Object) : Stack :=
  { s with segments := s.segments.modify segment fun slots => slots.setIfInBounds position obj }

/-- Moves on to the next segment if the top one is full, allocating it if needed. -/
def makeRoom (s : Stack) : Stack :=
  if s.fill = s.segmentSize then
    if s.top + 1 = s.segments.size then
      { s with
        segments := s.segments.push (freshSegment s.segmentSize), top := s.top + 1, fill := 0 }
    else { s with top := s.top + 1, fill := 0 }
  else s

/-- Puts an object on top.  At the limit the stack is left as it was. -/
def push (obj : Object) : EStateM Fault Stack Unit := fun s =>
  if s.limit ≤ s.count then .error s.overflow s
  else
    let s := s.makeRoom
    let s := s.setSlot s.top s.fill obj
    .ok () { s with fill := s.fill + 1 }

/-- The top item and the stack without it. -/
def pop? (s : Stack) : Option (Object × Stack) :=
  if s.fill = 0 then none
  else
    let fill := s.fill - 1
    let obj := (s.segments.getD s.top #[]).getD fill Object.null
    if fill = 0 ∧ 0 < s.top then some (obj, { s with top := s.top - 1, fill := s.segmentSize })
    else some (obj, { s with fill })

/-- Removes and returns the top item, or reports `fault` on an empty stack. -/
def popOr (fault : Fault) : EStateM Fault Stack Object := fun s =>
  match s.pop? with
  | some (obj, s) => .ok obj s
  | none => .error fault s

/-- Sets the number of items, leaving the segments alone. -/
def setCount (s : Stack) (count : Nat) : Stack :=
  if count = 0 then { s with top := 0, fill := 0 }
  else
    let top := (count - 1) / s.segmentSize
    { s with top, fill := count - top * s.segmentSize }

/-- Removes `n` items from the top, or none of them if there are fewer. -/
def drop (n : Nat) : EStateM Fault Stack Unit := fun s =>
  if s.count < n then .error .stackUnderflow s else .ok () (s.setCount (s.count - n))

/-- Empties the stack and keeps its segments. -/
def clear (s : Stack) : Stack := s.setCount 0

/-- Empties the stack and gives back every segment but the first. -/
def free (s : Stack) : Stack := { s.clear with segments := s.segments.take 1 }

/-- The item at a position counted from the oldest. -/
def fromBottom? (s : Stack) (index : Nat) : Option Object :=
  if index < s.count then some (s.slot index) else none

/-- The item at a position counted from the most recent. -/
def fromTop? (s : Stack) (index : Nat) : Option Object :=
  if index < s.count then s.fromBottom? (s.count - 1 - index) else none

/-- The most recent item. -/
def peek? (s : Stack) : Option Object := s.fromTop? 0

/-- Overwrites the item at a position counted from the oldest. -/
def replaceFromBottom (index : Nat) (obj : Object) : EStateM Fault Stack Unit := fun s =>
  if index < s.count then
    .ok () (s.setSlot (index / s.segmentSize) (index % s.segmentSize) obj)
  else .error .rangeCheck s

/-- Overwrites the item at a position counted from the most recent. -/
def replaceFromTop (index : Nat) (obj : Object) : EStateM Fault Stack Unit := fun s =>
  if index < s.count then replaceFromBottom (s.count - 1 - index) obj s
  else .error .rangeCheck s

/-- The items from the bottom up. -/
def toList (s : Stack) : List Object := (List.range s.count).map s.slot

/-- The distance from the top to the topmost mark. -/
def countToMark (s : Stack) : Except Fault Nat :=
  match s.toList.reverse.findIdx? (fun obj => obj.ty == .mark) with
  | some distance => .ok distance
  | none => .error .unmatchedMark

/-- The `n` most recent items, the deepest first. -/
def topmost (s : Stack) (n : Nat) : List Object := s.toList.drop (s.count - n)

/-- Pushes objects in order until one does not fit. -/
def pushAll : List Object → EStateM Fault Stack Unit
  | [] => pure ()
  | obj :: rest => do
    push obj
    pushAll rest

end Stack

end PostScriptCore
