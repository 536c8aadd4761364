/-!
# Entities

Everything stored in a memory belongs to an entity, and the entity table has one row for each.
A row holds where the storage lies, a mark word and a tag word.

* `Kind` — what the storage is for; it decides what the collector may reclaim and follow.
* `Tag` — the tag word: the kind in the low byte, the rest free for the owner.
* `Mark` — the mark word: collector bit, pin count, the save level of creation and the highest
  level that already holds a snapshot.  `Mark.toWord` and `Mark.ofWord` give its 32-bit layout,
  and `Mark.ofWord_toWord` says that nothing is lost in it.
* `Row` — one line of the entity table.
-/

namespace PostScriptCore

/-- What an entity's storage is for. -/
inductive Kind
  | free
  /-- Bookkeeping storage, never collected. -/
  | system
  | string
  | array
  | dict
  /-- Owns a slot of the resource table. -/
  | file
  deriving DecidableEq

namespace Kind

/-- Kinds the collector may reclaim. -/
def isCollectable : Kind → Bool
  | string | array | dict | file => true
  | free | system => false

/-- Kinds whose storage is a sequence of encoded objects. -/
def holdsObjects : Kind → Bool
  | array | dict => true
  | _ => false

/-- The number of the kind in a tag word. -/
def code : Kind → UInt32
  | free => 0
  | system => 1
  | string => 2
  | array => 3
  | dict => 4
  | file => 5

/-- The kind's name, for listings. -/
def label : Kind → String
  | free => "Free"
  | system => "System"
  | string => "String"
  | array => "Array"
  | dict => "Dict"
  | file => "File"

end Kind

/-- The tag word of an entity. -/
structure Tag where
  word : UInt32
  deriving DecidableEq

namespace Tag

/-- The plain tag of a kind. -/
def ofKind (kind : Kind) : Tag := ⟨kind.code⟩

/-- The tag of a freed entity. -/
def free : Tag := ofKind .free

/-- The kind named by the low byte; a byte that names no kind counts as free. -/
def kind (tag : Tag) : Kind :=
  match tag.word.toNat % 256 with
  | 1 => .system
  | 2 => .string
  | 3 => .array
  | 4 => .dict
  | 5 => .file
  | _ => .free

/-- Whether the entity owns a slot of the resource table. -/
def ownsResource (tag : Tag) : Bool := tag.kind == .file

@[simp] theorem kind_ofKind (kind : Kind) : (ofKind kind).kind = kind := by
  cases kind <;> rfl

end Tag

/-! ## Mark words -/

/-- The mark word of an entity.  In 32 bits, from the highest: one collector bit, seven bits of
pin count, twelve bits of creation level and twelve bits of snapshot level. -/
structure Mark where
  marked : Bool
  /-- How often the entity is pinned. -/
  refcount : Fin 128
  /-- The save level that was current when the entity was allocated. -/
  created : Fin 4096
  /-- The highest save level that holds a snapshot of the entity. -/
  snapshot : Fin 4096
  deriving DecidableEq

namespace Mark

/-- The deepest save level a mark can record. -/
abbrev maxLevel : Nat := 4095

/-- The highest pin count a mark can record. -/
abbrev maxRefcount : Nat := 127

/-- Sets or clears the collector bit. -/
def withMarked (mark : Mark) (marked : Bool) : Mark := { mark with marked }

/-- Sets the pin count, modulo its width. -/
def withRefcount (mark : Mark) (count : Nat) : Mark :=
  { mark with refcount := Fin.ofNat 128 count }

/-- Sets the creation level, modulo its width. -/
def withCreated (mark : Mark) (level : Nat) : Mark :=
  { mark with created := Fin.ofNat 4096 level }

/-- Sets the snapshot level, modulo its width. -/
def withSnapshot (mark : Mark) (level : Nat) : Mark :=
  { mark with snapshot := Fin.ofNat 4096 level }

/-- The mark of an entity allocated at a save level. -/
def createdAt (level : Nat) : Mark :=
  ⟨false, 0, Fin.ofNat 4096 level, Fin.ofNat 4096 level⟩

/-- The 32-bit layout of a mark. -/
def toWord (mark : Mark) : Nat :=
  (if mark.marked then 2147483648 else 0) + mark.refcount.val * 16777216 +
    mark.created.val * 4096 + mark.snapshot.val

/-- The mark laid out in a word. -/
def ofWord (word : Nat) : Mark :=
  ⟨decide (word / 2147483648 % 2 = 1), Fin.ofNat 128 (word / 16777216),
    Fin.ofNat 4096 (word / 4096), Fin.ofNat 4096 word⟩

/-- A mark fits in a word. -/
theorem toWord_lt (mark : Mark) : mark.toWord < 4294967296 := by
  have hr := mark.refcount.isLt
  have hc := mark.created.isLt
  have hs := mark.snapshot.isLt
  unfold toWord
  split <;> omega

/-- Reading back the word of a mark gives the mark, so the four fields do not overlap. -/
theorem ofWord_toWord (mark : Mark) : ofWord mark.toWord = mark := by
  obtain ⟨marked, ⟨count, hr⟩, ⟨created, hc⟩, ⟨snapshot, hs⟩⟩ := mark
  cases marked <;>
    simp only [ofWord, toWord, Mark.mk.injEq, Fin.ext_iff, Fin.ofNat] <;>
    refine ⟨?_, ?_, ?_, ?_⟩ <;> simp <;> omega

end Mark

/-! ## Rows -/

/-- One row of the entity table. -/
structure Row where
  /-- Where the storage begins; in the head row, the first entity of the free list. -/
  address : Nat
  size : Nat
  mark : Mark
  tag : Tag
  deriving DecidableEq

namespace Row

/-- Whether the row belongs to no live entity. -/
def isFree (row : Row) : Bool := row.tag.kind == .free

/-- The reserved first row.  Its address field holds the head of the free list and its size is
zero, so no collection ever considers it. -/
def head : Row := ⟨0, 0, Mark.createdAt 0, Tag.ofKind .system⟩

end Row

end PostScriptCore
