import PostScriptCore.Fault
import PostScriptCore.Word

/-!
# Arenas

An arena is one growable run of bytes, addressed by offsets from its start.  Allocation moves a
cursor forward; growth adds whole pages up to a limit.  The bytes may be the contents of a file, in
which case the file is resized along with the arena and outlives it.

The system is taken to map whatever the limit allows.  An arena over a system that may refuse is
`Arena.backedBy`, and what it does then is what it does at its limit; memories have an arena without it.

* `Image` — the bytes behind an arena.  Bytes that were never written read as zero.
* `Arena` — the image, the cursor `used`, the capacity `max`, and the page size and limit.
* `Arena.init`, `Arena.exit` — mapping and release; a released arena refuses everything.
* `Arena.alloc`, `Arena.grow` — either complete or change nothing.
* `Arena.read`, `Arena.write`, `Arena.copyWithin`, `Arena.zero`, `Arena.truncate` — access below the
  cursor.
-/

namespace PostScriptCore

/-! ## Images -/

/-- `length` bytes, of which `cells` lists a first part and the others are zero. -/
structure Image where
  cells : Array UInt8
  length : Nat
  deriving DecidableEq

namespace Image

/-- An image of zeros. -/
def blank (length : Nat) : Image := ⟨#[], length⟩

/-- The byte at an offset. -/
def byte (image : Image) (offset : Nat) : UInt8 := image.cells.getD offset 0

/-- An image of the given length that begins with the given bytes, cut off if they are too
many. -/
def ofBytes (bytes : List UInt8) (length : Nat) : Image :=
  ⟨(bytes.take length).toArray, length⟩

/-- The image with a larger length; the new bytes are zero. -/
def resize (image : Image) (length : Nat) : Image := { image with length }

/-- `count` bytes from `offset` on. -/
def read (image : Image) (offset count : Nat) : List UInt8 :=
  (List.range' offset count).map image.byte

/-- How many of `count` bytes from `offset` on may differ from zero, because they are listed. -/
def listed (image : Image) (offset count : Nat) : Nat :=
  if offset + count ≤ image.cells.size then count else image.cells.size - offset

/-- Lists the cells at least up to `count`. -/
def materialise (cells : Array UInt8) (count : Nat) : Array UInt8 :=
  if cells.size < count then cells ++ Array.replicate (count - cells.size) 0 else cells

/-- Overwrites the cells from `offset` on. -/
def writeCells (cells : Array UInt8) (offset : Nat) : List UInt8 → Array UInt8
  | [] => cells
  | b :: rest => writeCells (cells.setIfInBounds offset b) (offset + 1) rest

/-- Overwrites the bytes from `offset` on. -/
def write (image : Image) (offset : Nat) (bytes : List UInt8) : Image :=
  { image with cells := writeCells (materialise image.cells (offset + bytes.length)) offset bytes }

/-- Zeroes cells from `offset` on, `count` of them. -/
def zeroCells (cells : Array UInt8) (offset : Nat) : Nat → Array UInt8
  | 0 => cells
  | count + 1 => zeroCells (cells.setIfInBounds offset 0) (offset + 1) count

/-- Zeroes the bytes in `[offset, limit)`. -/
def zero (image : Image) (offset limit : Nat) : Image :=
  let stop := if limit < image.cells.size then limit else image.cells.size
  { image with cells := zeroCells image.cells offset (stop - offset) }

end Image

/-! ## Arenas -/

/-- What an arena's bytes are kept in. -/
inductive Backing
  | anonymous
  /-- The contents of a file, which may refuse to be written. -/
  | file (content : List UInt8) (writable : Bool)

/-- A growable run of bytes. -/
structure Arena where
  /-- The bytes; of a file-backed arena, the file's contents also after release. -/
  image : Image
  mapped : Bool
  fileBacked : Bool
  used : Nat
  max : Nat
  pageSize : Nat
  limit : Nat

namespace Arena

/-- A released arena, which stands in for an arena that is being worked on. -/
def vacant : Arena := ⟨Image.blank 0, false, false, 0, 0, osPageSize, 0⟩

/-- Rounds a capacity up to whole pages; at least one byte is wanted. -/
def pages (wanted pageSize : Nat) : Option Nat :=
  alignUp (if wanted = 0 then 1 else wanted) pageSize

/-- Maps an arena of at least `initial` bytes that may later grow up to `limit`.  Only a file that cannot
be written is refused; that the system has no room for the mapping is left out. -/
def init (backing : Backing) (initial pageSize limit : Nat) : Except Fault Arena :=
  match pages initial pageSize with
  | none => .error .limitCheck
  | some max =>
    if limit < max then .error .limitCheck
    else
      match backing with
      | .anonymous => .ok ⟨Image.blank max, true, false, 0, max, pageSize, limit⟩
      | .file content true => .ok ⟨Image.ofBytes content max, true, true, 0, max, pageSize, limit⟩
      | .file _ false => .error .vmFull

/-- Releases the bytes.  Of a file-backed arena the file keeps its contents. -/
def exit (a : Arena) : Arena :=
  { a with
    image := if a.fileBacked then a.image else Image.blank 0
    mapped := false, used := 0, max := 0 }

/-- The contents of the file behind the arena. -/
def file? (a : Arena) : Option Image := if a.fileBacked then some a.image else none

/-- Adds at least `extra` bytes of capacity, in whole pages.  Below the limit the system has them;
`Arena.backedBy` is growth that it may refuse. -/
def grow (extra : Nat) : EStateM Fault Arena Unit := fun a =>
  match pages extra a.pageSize with
  | none => .error .vmFull a
  | some extra =>
    if wordBound ≤ a.max + extra ∨ a.limit < a.max + extra then .error .vmFull a
    else if a.mapped then
      .ok () { a with image := a.image.resize (a.max + extra), max := a.max + extra }
    else .error .uninitialized a

/-- Moves the cursor past `size` bytes, rounded up to the granule, and returns where they begin.
Grows first if they do not fit. -/
def alloc (size : Nat) : EStateM Fault Arena Nat := fun a =>
  if a.mapped then
    match alignUp size arenaAlign with
    | none => .error .vmFull a
    | some size =>
      if wordBound ≤ a.used + size then .error .vmFull a
      else if a.max < a.used + size then
        match grow (a.used + size - a.max) a with
        | .ok _ a => .ok a.used { a with used := a.used + size }
        | .error fault a => .error fault a
      else .ok a.used { a with used := a.used + size }
  else .error .uninitialized a

/-- Whether `count` bytes from `offset` on lie below the cursor. -/
def inBounds (a : Arena) (offset count : Nat) : Prop :=
  offset + count < wordBound ∧ offset + count ≤ a.used

instance (a : Arena) (offset count : Nat) : Decidable (a.inBounds offset count) :=
  inferInstanceAs (Decidable (_ ∧ _))

/-- Why `count` bytes from `offset` on cannot be accessed: a range past the cursor comes before a
released arena. -/
def obstacle? (a : Arena) (offset count : Nat) : Option Fault :=
  if ¬ a.inBounds offset count then some .rangeCheck
  else if a.mapped then none
  else some .uninitialized

/-- `count` bytes from `offset` on. -/
def read (a : Arena) (offset count : Nat) : Except Fault (List UInt8) :=
  match a.obstacle? offset count with
  | some fault => .error fault
  | none => .ok (a.image.read offset count)

/-- Overwrites the bytes from `offset` on. -/
def write (offset : Nat) (bytes : List UInt8) : EStateM Fault Arena Unit := fun a =>
  match a.obstacle? offset bytes.length with
  | some fault => .error fault a
  | none => .ok () { a with image := a.image.write offset bytes }

/-- Zeroes `count` bytes from `offset` on. -/
def zero (offset count : Nat) : EStateM Fault Arena Unit := fun a =>
  match a.obstacle? offset count with
  | some fault => .error fault a
  | none => .ok () { a with image := a.image.zero offset (offset + count) }

/-- Copies `count` bytes; the two ranges may overlap. -/
def copyWithin (source target count : Nat) : EStateM Fault Arena Unit := fun a =>
  if ¬ a.inBounds source count then .error .rangeCheck a
  else
    match a.obstacle? target count with
    | some fault => .error fault a
    | none => .ok () { a with image := a.image.write target (a.image.read source count) }

/-- Moves the cursor back and zeroes the bytes it passes, so that they look like fresh ones. -/
def truncate (used : Nat) : EStateM Fault Arena Unit := fun a =>
  if a.used < used then .error .rangeCheck a
  else if a.mapped then .ok () { a with image := a.image.zero used a.used, used }
  else .error .uninitialized a

end Arena

end PostScriptCore
