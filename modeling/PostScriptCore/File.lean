import PostScriptCore.Fault

/-!
# Open files and the slots that hold them

An open file has contents and one position, which every handle of it shares.  A memory refers to
its files through a table of slots; a released slot is handed to the next file.

* `OpenFile`, `FileStore` — the open files, by handle; reading, writing and seeking.
* `ResourceTable` — the slots of one memory.  `ResourceTable.duplicate` gives a handle of the same
  open file for another slot.
-/

namespace PostScriptCore

/-- A file with the position of the next read or write. -/
structure OpenFile where
  content : List UInt8
  position : Nat

namespace OpenFile

/-- Up to `count` bytes from the position on, which moves past them. -/
def read (file : OpenFile) (count : Nat) : List UInt8 × OpenFile :=
  let bytes := (file.content.drop file.position).take count
  (bytes, { file with position := file.position + bytes.length })

/-- Overwrites the contents from the position on.  A gap after the end is filled with zeros. -/
def write (file : OpenFile) (bytes : List UInt8) : OpenFile :=
  if bytes.isEmpty then file
  else
    let gap := List.replicate (file.position - file.content.length) 0
    { content := file.content.take file.position ++ gap ++ bytes ++
        file.content.drop (file.position + bytes.length)
      position := file.position + bytes.length }

/-- Moves the position. -/
def seek (file : OpenFile) (position : Nat) : OpenFile := { file with position }

end OpenFile

/-- A handle of an open file: its number in the store. -/
abbrev Handle := Nat

/-- All open files. -/
structure FileStore where
  files : Array OpenFile

namespace FileStore

/-- The store without files. -/
def empty : FileStore := ⟨#[]⟩

/-- Opens a file with the given contents, positioned at its start. -/
def openFile (store : FileStore) (content : List UInt8) : Handle × FileStore :=
  (store.files.size, ⟨store.files.push ⟨content, 0⟩⟩)

/-- The file behind a handle. -/
def get (store : FileStore) (handle : Handle) : OpenFile := store.files.getD handle ⟨[], 0⟩

/-- Changes the file behind a handle. -/
def update (store : FileStore) (handle : Handle) (f : OpenFile → OpenFile) : FileStore :=
  ⟨store.files.modify handle f⟩

end FileStore

/-! ## Slots -/

/-- The slots that one memory holds files in. -/
structure ResourceTable where
  slots : Array (Option Handle)
  /-- Empty slots, the one to be used next first. -/
  vacant : List Nat

namespace ResourceTable

/-- The table without slots. -/
def empty : ResourceTable := ⟨#[], []⟩

/-- Puts a handle into the most recently released slot, or into a new one. -/
def insert (table : ResourceTable) (handle : Handle) : Nat × ResourceTable :=
  match table.vacant with
  | slot :: rest => (slot, ⟨table.slots.setIfInBounds slot (some handle), rest⟩)
  | [] => (table.slots.size, ⟨table.slots.push (some handle), []⟩)

/-- The handle in a slot, if the slot exists and is occupied. -/
def occupant? (table : ResourceTable) (slot : Nat) : Option Handle :=
  match table.slots[slot]? with
  | some occupant => occupant
  | none => none

/-- The handle in a slot. -/
def get (table : ResourceTable) (slot : Nat) : Except Fault Handle :=
  match table.occupant? slot with
  | some handle => .ok handle
  | none => .error .invalidFileAccess

/-- Empties a slot.  The answer is false if it held nothing. -/
def release (table : ResourceTable) (slot : Nat) : Bool × ResourceTable :=
  match table.occupant? slot with
  | some _ => (true, ⟨table.slots.setIfInBounds slot none, slot :: table.vacant⟩)
  | none => (false, table)

/-- A second handle of the file in a slot.  It shares the file's position. -/
def duplicate (table : ResourceTable) (slot : Nat) : Except Fault Handle := table.get slot

/-- How many slots are occupied. -/
def live (table : ResourceTable) : Nat := (table.slots.filter Option.isSome).size

end ResourceTable

end PostScriptCore
