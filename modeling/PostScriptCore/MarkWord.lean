import PostScriptCore.Entity

/-!
# Packed mark words

A mark is kept in one word of 32 bits.  Each of its parts is a run of bits, which is read by shifting and masking
and written by clearing the run and putting the value in its place.  A value that is too wide loses its upper bits.

* `BitRun` — a run of bits; `BitRun.get` and `BitRun.set` read and write it.
* `MarkWord` — a packed mark, with a reader and a setter for each part.
* `MarkWord.mark`, `Mark.packed` — what a word says, and the word that says it.
-/

namespace PostScriptCore

/-- A run of bits in a word. -/
structure BitRun where
  /-- The lowest bit of the run. -/
  shift : Nat
  width : Nat
  fits : shift + width ≤ 32

namespace BitRun

/-- As many ones as the run is wide. -/
def mask (run : BitRun) : BitVec 32 := (BitVec.allOnes run.width).setWidth 32

/-- The value of the run. -/
def get (run : BitRun) (word : BitVec 32) : BitVec 32 := (word >>> run.shift) &&& run.mask

/-- The word with another value in the run. -/
def set (run : BitRun) (word value : BitVec 32) : BitVec 32 :=
  (word &&& ~~~(run.mask <<< run.shift)) ||| ((value &&& run.mask) <<< run.shift)

end BitRun

/-- A mark packed into a word.  From the highest bit: the collector bit, the pin count, the creation level and
the snapshot level. -/
structure MarkWord where
  bits : BitVec 32
  deriving DecidableEq

namespace MarkWord

def gcBit : BitVec 32 := 1 <<< 31

def refcountRun : BitRun := ⟨24, 7, by decide⟩

def createdRun : BitRun := ⟨12, 12, by decide⟩

def snapshotRun : BitRun := ⟨0, 12, by decide⟩

def isMarked (word : MarkWord) : Bool := word.bits &&& gcBit != 0

def refcount (word : MarkWord) : BitVec 32 := refcountRun.get word.bits

def created (word : MarkWord) : BitVec 32 := createdRun.get word.bits

def snapshot (word : MarkWord) : BitVec 32 := snapshotRun.get word.bits

/-- Sets or clears the collector bit. -/
def withMarked (word : MarkWord) (marked : Bool) : MarkWord :=
  if marked then ⟨word.bits ||| gcBit⟩ else ⟨word.bits &&& ~~~gcBit⟩

def withRefcount (word : MarkWord) (count : BitVec 32) : MarkWord := ⟨refcountRun.set word.bits count⟩

def withCreated (word : MarkWord) (level : BitVec 32) : MarkWord := ⟨createdRun.set word.bits level⟩

def withSnapshot (word : MarkWord) (level : BitVec 32) : MarkWord := ⟨snapshotRun.set word.bits level⟩

/-- The word of an entity that is allocated at a save level. -/
def createdAt (level : BitVec 32) : MarkWord := ((⟨0⟩ : MarkWord).withCreated level).withSnapshot level

/-- What the word says. -/
def mark (word : MarkWord) : Mark :=
  ((((Mark.createdAt 0).withMarked word.isMarked).withRefcount word.refcount.toNat).withCreated
    word.created.toNat).withSnapshot word.snapshot.toNat

end MarkWord

/-- The word of a mark. -/
def Mark.packed (mark : Mark) : MarkWord := ⟨.ofNat 32 mark.toWord⟩

end PostScriptCore
