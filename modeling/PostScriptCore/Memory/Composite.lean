import PostScriptCore.Memory.Allocate

/-!
# Strings, arrays, dictionaries and files

Composite objects are views of entity storage.  An accessor checks the type of the object, then its
access level, then the range.  `Memory.dictLength` and `Memory.fileHandle` look at no access level.

* `Memory.newString`, `Memory.newArray`, `Memory.newProc`, `Memory.newDict`, `Memory.newFile`.
* `Memory.stringBytes`, `Memory.arrayGet`, `Memory.arrayPut`, `Memory.arrayElements`.
* `Memory.dictGet?`, `Memory.dictPut`, `Memory.dictLength` — a dictionary is a list of key and value
  pairs, packed from the front; the first null key ends it.
* `Memory.fileHandle` — the open file behind a file object.
-/

namespace PostScriptCore.Memory

/-- Bytes of a dictionary entry: a key and a value. -/
abbrev dictEntrySize : Nat := 2 * objectSize

/-- A composite over the whole storage of an entity of this memory. -/
def wholeView (m : Memory) (ty : ObjectType) (id length : Nat) : Object :=
  Object.composite ty m.bank id 0 length

/-! ## Construction -/

/-- A string of `length` bytes, which are asked for once there is room for them. -/
def newStringOf (length : Nat) (content : Unit → List UInt8) (roots : List Object) :
    MemoryM Object := do
  if wordBound ≤ length then throw .limitCheck
  let id ← allocate length (Tag.ofKind .string) roots
  put id 0 (content ())
  return (← get).wholeView .string id length

/-- A string that holds the given bytes. -/
def newString (bytes : List UInt8) (roots : List Object) : MemoryM Object :=
  newStringOf bytes.length (fun _ => bytes) roots

/-- Storage for `length` elements of `width` bytes each. -/
def newElements (kind : Kind) (ty : ObjectType) (width length : Nat) (roots : List Object) :
    MemoryM Object := do
  if wordBound ≤ length * width then throw .limitCheck
  let id ← allocate (length * width) (Tag.ofKind kind) roots
  return (← get).wholeView ty id length

/-- An array of `length` null objects. -/
def newArray (length : Nat) (roots : List Object) : MemoryM Object :=
  newElements .array .array objectSize length roots

/-- A dictionary with room for `capacity` entries. -/
def newDict (capacity : Nat) (roots : List Object) : MemoryM Object :=
  newElements .dict .dict dictEntrySize capacity roots

/-- A file object that owns an open file.  The file is closed with the entity. -/
def newFile (handle : Handle) (writable : Bool) (roots : List Object) : MemoryM Object := do
  let id ← allocate 8 (Tag.ofKind .file) roots
  let slot ← modifyGet fun m =>
    let (slot, resources) := m.resources.insert handle
    (slot, { m with resources })
  put id 0 (wordBytes slot)
  let obj := (← get).wholeView .file id 1
  return if writable then obj else obj.restrict .readOnly

/-! ## Strings and arrays -/

/-- The entity of an object of the given composite type. -/
def expectType (obj : Object) (ty : ObjectType) : Except Fault Nat :=
  match obj.entity? with
  | some id => if obj.ty = ty then .ok id else .error .typeCheck
  | none => .error .typeCheck

/-- The bytes of a string. -/
def stringBytes (m : Memory) (string : Object) : Except Fault (List UInt8) :=
  match expectType string .string with
  | .error fault => .error fault
  | .ok id =>
    if string.rcheck then m.bytesAt id string.offset.toNat string.length.toNat
    else .error .invalidAccess

/-- The byte offset of an array element, which has to be a word. -/
def elementOffset (array : Object) (index : Nat) : Except Fault Nat :=
  if wordBound ≤ array.offset.toNat + index * objectSize then .error .wordOverflow
  else .ok (array.offset.toNat + index * objectSize)

/-- Whether the elements of an array may be looked at.  A procedure stays runnable when it may
only be executed. -/
def elementsReadable (array : Object) : Bool :=
  array.rcheck || (array.executable && array.access == .executeOnly)

/-- The element of an array at an index. -/
def arrayGet (m : Memory) (array : Object) (index : Nat) : Except Fault Object :=
  match expectType array .array with
  | .error fault => .error fault
  | .ok id =>
    if !elementsReadable array then .error .invalidAccess
    else if array.length.toNat ≤ index then .error .rangeCheck
    else
      match elementOffset array index with
      | .ok offset => m.readObject id offset
      | .error fault => .error fault

/-- Stores an element of an array. -/
def arrayPut (array : Object) (index : Nat) (value : Object) : MemoryM Unit := do
  let id ← query fun _ => expectType array .array
  if !array.wcheck then throw .invalidAccess
  if array.length.toNat ≤ index then throw .rangeCheck
  let offset ← query fun _ => elementOffset array index
  writeObject id offset value

/-- The elements of an array from an index on, `count` of them. -/
def elementsFrom (m : Memory) (array : Object) : Nat → Nat → Except Fault (List Object)
  | 0, _ => .ok []
  | count + 1, index =>
    match m.arrayGet array index with
    | .error fault => .error fault
    | .ok obj =>
      match elementsFrom m array count (index + 1) with
      | .ok rest => .ok (obj :: rest)
      | .error fault => .error fault

/-- Every element of an array, in order. -/
def arrayElements (m : Memory) (array : Object) : Except Fault (List Object) :=
  m.elementsFrom array array.length.toNat 0

/-- Stores objects in an array from an index on. -/
def putElements (array : Object) : Nat → List Object → MemoryM Unit
  | _, [] => pure ()
  | index, obj :: rest => do
    arrayPut array index obj
    putElements array (index + 1) rest

/-- An executable array of the given elements.  Composite elements are only safe from a collection
that the allocation runs if `roots` reports them. -/
def newProc (elements : List Object) (roots : List Object) : MemoryM Object := do
  if wordBound ≤ elements.length then throw .limitCheck
  let array ← newArray elements.length roots
  putElements array 0 elements
  return array.cvx

/-! ## Dictionaries -/

/-- Where a search through a dictionary ends. -/
inductive DictSlot
  /-- The entry has the key. -/
  | occupied (entry : Nat)
  /-- The entry is the first unused one. -/
  | unused (entry : Nat)
  /-- Every entry is used, and none has the key. -/
  | full
  deriving DecidableEq

/-- Searches the entries from `entry` on, `count` of them, for a key. -/
def findEntry (m : Memory) (id : Nat) (key : Object) : Nat → Nat → Except Fault DictSlot
  | 0, _ => .ok .full
  | count + 1, entry =>
    match m.readObject id (entry * dictEntrySize) with
    | .error fault => .error fault
    | .ok stored =>
      if stored.ty = .null then .ok (.unused entry)
      else if stored.same key then .ok (.occupied entry)
      else findEntry m id key count (entry + 1)

/-- The value stored under a key. -/
def dictGet? (m : Memory) (dict key : Object) : Except Fault (Option Object) :=
  match expectType dict .dict with
  | .error fault => .error fault
  | .ok id =>
    if !dict.rcheck then .error .invalidAccess
    else
      match m.findEntry id key dict.length.toNat 0 with
      | .error fault => .error fault
      | .ok (.occupied entry) =>
        match m.readObject id (entry * dictEntrySize + objectSize) with
        | .ok value => .ok (some value)
        | .error fault => .error fault
      | .ok _ => .ok none

/-- Stores a value under a key, in the entry that has the key or in the first unused one. -/
def dictPut (dict key value : Object) : MemoryM Unit := do
  let id ← query fun _ => expectType dict .dict
  if !dict.wcheck then throw .invalidAccess
  if key.ty = .null then throw .typeCheck
  match ← query fun m => m.findEntry id key dict.length.toNat 0 with
  | .full => throw .limitCheck
  | .occupied entry | .unused entry =>
    writeObject id (entry * dictEntrySize) key
    writeObject id (entry * dictEntrySize + objectSize) value

/-- Counts the used entries from `entry` on, among `count` of them. -/
def usedEntries (m : Memory) (id : Nat) : Nat → Nat → Except Fault Nat
  | 0, _ => .ok 0
  | count + 1, entry =>
    match m.readObject id (entry * dictEntrySize) with
    | .error fault => .error fault
    | .ok stored =>
      if stored.ty = .null then .ok 0
      else
        match usedEntries m id count (entry + 1) with
        | .ok n => .ok (n + 1)
        | .error fault => .error fault

/-- How many entries of a dictionary are used. -/
def dictLength (m : Memory) (dict : Object) : Except Fault Nat :=
  match expectType dict .dict with
  | .error fault => .error fault
  | .ok id => m.usedEntries id dict.length.toNat 0

/-! ## Files -/

/-- The open file behind a file object. -/
def fileHandle (m : Memory) (file : Object) : Except Fault Handle :=
  match expectType file .file with
  | .error fault => .error fault
  | .ok id =>
    match m.resourceSlot id with
    | .ok slot => m.resources.get slot
    | .error fault => .error fault

end PostScriptCore.Memory
