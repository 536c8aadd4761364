import PostScriptCore.Transfer
import PostScriptCore.Proofs.Memory.Cells

/-!
# Objects that are copied

Which entities belong to an object, what becomes of a reference to one of them, and how slots are
read from raw bytes.  Nothing is assumed of the memory that is read.

* `Object.localEntity?` — the entity that a transfer has to copy for an object.
* `Object.relocated` — an object after its entity was renamed.
* `Reached` — the entities found from some objects through the slots of arrays and dictionaries.
* `slotIn` — a slot of raw bytes; `Memory.slot?_of_bytes` says that slots are read this way.
* `Transfer.Sends` — the image that a transfer has for an object.
-/

namespace PostScriptCore

/-! ## References -/

namespace Object

/-- The entity of a composite in local memory. -/
def localEntity? (obj : Object) : Option Nat := if obj.bank = .localVM then obj.entity? else none

/-- The object after the local entities were renamed.  Everything else stays. -/
def relocated (f : Nat → Nat) (obj : Object) : Object :=
  match obj.localEntity? with
  | some e => obj.rebased (f e)
  | none => obj

lemma localEntity?_eq_none {obj : Object} :
    obj.localEntity? = none ↔ ¬ (obj.bank = .localVM ∧ obj.isComposite = true) := by
  rw [localEntity?, entity?]
  split_ifs with hbank hcomposite
  · exact ⟨fun h => (nomatch h), fun h => absurd ⟨hbank, hcomposite⟩ h⟩
  · exact ⟨fun _ h => hcomposite h.2, fun _ => rfl⟩
  · exact ⟨fun _ h => hbank h.1, fun _ => rfl⟩

end Object

/-! ## Slots of raw bytes -/

/-- A whole slot of raw bytes, if it decodes. -/
def slotIn (bytes : List UInt8) (index : Nat) : Option Object :=
  if index * objectSize + objectSize ≤ bytes.length then
    match Object.decode ((bytes.drop (index * objectSize)).take objectSize) with
    | .ok obj => some obj
    | .error _ => none
  else none

lemma slotIn_le {bytes : List UInt8} {index : Nat} {obj : Object} (h : slotIn bytes index = some obj) :
    index * objectSize + objectSize ≤ bytes.length := by
  rw [slotIn] at h
  split at h
  · assumption
  · contradiction

/-- A slot depends on its own bytes only. -/
lemma slotIn_congr {bytes bytes' : List UInt8} {index : Nat}
    (hlength : index * objectSize + objectSize ≤ bytes.length ↔ index * objectSize + objectSize ≤ bytes'.length)
    (hbytes : (bytes.drop (index * objectSize)).take objectSize =
      (bytes'.drop (index * objectSize)).take objectSize) : slotIn bytes index = slotIn bytes' index := by
  simp only [slotIn, hlength, hbytes]

lemma slotIn_patched {bytes : List UInt8} {index : Nat} (obj : Object)
    (hfit : index * objectSize + objectSize ≤ bytes.length) :
    slotIn (patched bytes (index * objectSize) obj.encode) index = some obj := by
  have hfit' : index * objectSize + obj.encode.length ≤ bytes.length := by
    rw [Object.length_encode]; omega
  have hread := take_drop_patched hfit'
  rw [Object.length_encode] at hread
  rw [slotIn, length_patched hfit', if_pos hfit, hread, Object.decode_encode]

lemma slotIn_patched_of_ne {bytes : List UInt8} {index other : Nat} (obj : Object)
    (hfit : index * objectSize + objectSize ≤ bytes.length) (hne : other ≠ index) :
    slotIn (patched bytes (index * objectSize) obj.encode) other = slotIn bytes other := by
  have hfit' : index * objectSize + obj.encode.length ≤ bytes.length := by
    rw [Object.length_encode]; omega
  refine slotIn_congr (by rw [length_patched hfit']) (take_drop_patched_of_outside hfit' ?_)
  rw [Object.length_encode]
  simp only [objectSize]
  omega

/-- Writing over the front decides the slots of the front. -/
lemma slotIn_patched_front {bytes written : List UInt8} {index : Nat}
    (hlength : written.length ≤ bytes.length) (hfit : index * objectSize + objectSize ≤ written.length) :
    slotIn (patched bytes 0 written) index = slotIn written index := by
  have hfit' : 0 + written.length ≤ bytes.length := by omega
  refine slotIn_congr (by rw [length_patched hfit']; omega) (List.ext_getElem? fun i => ?_)
  simp only [List.getElem?_take, List.getElem?_drop]
  split
  · rw [getElem?_patched hfit', if_pos (by simp only [objectSize] at *; omega), Nat.sub_zero]
  · rfl

/-- Zeros are null objects. -/
lemma slotIn_zeros {bytes : List UInt8} {index : Nat} (hfit : index * objectSize + objectSize ≤ bytes.length)
    (hzero : ∀ i, index * objectSize ≤ i → i < index * objectSize + objectSize → bytes[i]? = some 0) :
    slotIn bytes index = some Object.null := by
  have hread : (bytes.drop (index * objectSize)).take objectSize = List.replicate objectSize 0 := by
    refine List.ext_getElem? fun i => ?_
    simp only [List.getElem?_take, List.getElem?_drop, List.getElem?_replicate]
    split
    · exact hzero _ (by omega) (by omega)
    · rfl
  rw [slotIn, if_pos hfit, hread]
  rfl

namespace Memory

variable {m : Memory} {id : Nat} {bytes : List UInt8}

/-- All bytes of an entity were read from where its row says. -/
lemma bytes_eq_ok (h : m.bytes id = .ok bytes) :
    ∃ row, m.row id = .ok row ∧ bytes = m.arena.image.read row.address row.size ∧
      m.arena.obstacle? row.address row.size = none := by
  rw [Memory.bytes] at h
  split at h
  · next row hstorage =>
    injection h with h
    rw [storage] at hstorage
    split at hstorage
    · contradiction
    · next r hrow =>
      split at hstorage
      · contradiction
      · next address hcheck =>
        obtain ⟨r', hrow', -, rfl⟩ := checkedAddress_eq_ok hcheck
        obtain rfl : r = r' := Except.ok.inj (hrow.symm.trans (row_ok hrow'))
        split at hstorage
        · contradiction
        · next hobstacle =>
          injection hstorage with hstorage
          subst hstorage
          exact ⟨r, hrow, h.symm, hobstacle⟩
  · contradiction

lemma length_of_bytes {row : Row} (hrow : m.row id = .ok row) (h : m.bytes id = .ok bytes) :
    bytes.length = row.size := by
  obtain ⟨row', hrow', rfl, -⟩ := bytes_eq_ok h
  obtain rfl : row = row' := Except.ok.inj (hrow.symm.trans hrow')
  exact Image.length_read ..

/-- Where all bytes can be read, part of them can. -/
lemma readObject_of_bytes (h : m.bytes id = .ok bytes) (offset : Nat) :
    m.readObject id offset =
      if offset + objectSize ≤ bytes.length then
        Object.decode ((bytes.drop offset).take objectSize)
      else .error .rangeCheck := by
  obtain ⟨row, hrow, rfl, hobstacle⟩ := bytes_eq_ok h
  rw [readObject, bytesAt, checkedAddress, hrow, Image.length_read]
  dsimp only
  by_cases hfit : offset + objectSize ≤ row.size
  · obtain ⟨⟨hbound, hused⟩, hmapped⟩ : m.arena.inBounds row.address row.size ∧
        m.arena.mapped = true := by
      rw [Arena.obstacle?] at hobstacle
      split_ifs at hobstacle with hin hmapped
      exact ⟨hin, hmapped⟩
    have hnone : m.arena.obstacle? (row.address + offset) objectSize = none := by
      rw [Arena.obstacle?, if_neg (not_not.mpr ⟨by omega, by omega⟩), if_pos hmapped]
    rw [if_pos hfit, if_neg (Nat.not_lt.mpr hfit), if_neg (by simp only [objectSize] at hfit; omega)]
    dsimp only
    rw [Arena.read, hnone, Image.take_drop_read _ hfit]
  · rw [if_neg hfit, if_pos (Nat.lt_of_not_le hfit)]

/-- **Slots are read from the raw bytes.** -/
lemma slot?_of_bytes (h : m.bytes id = .ok bytes) (index : Nat) :
    m.slot? id index = slotIn bytes index := by
  rw [slot?, readObject_of_bytes h, slotIn]
  split_ifs <;> rfl

/-- What can be read lies inside the entity. -/
lemma le_of_bytesAt {row : Row} {offset count : Nat} (hrow : m.row id = .ok row)
    (h : m.bytesAt id offset count = .ok bytes) : offset + count ≤ row.size := by
  rw [bytesAt] at h
  split at h
  · next address hcheck =>
    obtain ⟨r, hr, hfit, -⟩ := checkedAddress_eq_ok hcheck
    obtain rfl : row = r := Except.ok.inj (hrow.symm.trans (row_ok hr))
    exact hfit
  · contradiction

lemma slot?_le {row : Row} {index : Nat} {obj : Object} (hrow : m.row id = .ok row)
    (h : m.slot? id index = some obj) : index * objectSize + objectSize ≤ row.size := by
  rw [slot?, readObject] at h
  cases hread : m.bytesAt id (index * objectSize) objectSize with
  | ok bytes => exact le_of_bytesAt hrow hread
  | error fault =>
      rw [hread] at h
      contradiction

/-- The word of a file entity needs room. -/
lemma le_of_resourceSlot {row : Row} {slot : Nat} (hrow : m.row id = .ok row)
    (h : m.resourceSlot id = .ok slot) : linkSize ≤ row.size := by
  rw [resourceSlot, readWord] at h
  cases hread : m.bytesAt id 0 4 with
  | ok bytes => simpa using le_of_bytesAt hrow hread
  | error fault =>
      rw [hread] at h
      contradiction

end Memory

/-! ## What an object reaches -/

/-- The local entities of some objects, and those found in the slots of arrays and dictionaries
already reached. -/
inductive Reached (source : Memory) (roots : List Object) : Nat → Prop
  | root {obj : Object} {e : Nat} (hobj : obj ∈ roots) (he : obj.localEntity? = some e) :
      Reached source roots e
  | slot {e index e' : Nat} {row : Row} {obj : Object} (he : Reached source roots e)
      (hrow : source.row e = .ok row) (hkind : row.tag.kind.holdsObjects = true)
      (hslot : source.slot? e index = some obj) (he' : obj.localEntity? = some e') :
      Reached source roots e'

/-! ## Images -/

namespace Transfer

/-- The copy of an entity. -/
def image? (t : Transfer) (e : Nat) : Option Nat := t.copied.lookup e

/-- The transfer has an image for an object.  Only local composites need a copy. -/
def Sends (t : Transfer) (obj image : Object) : Prop :=
  match obj.localEntity? with
  | none => image = obj
  | some e => ∃ f, t.image? e = some f ∧ image = obj.rebased f

variable {t t' : Transfer}

lemma image?_cons (e f : Nat) (copied : List (Nat × Nat)) (pending : List Nat) (e' : Nat) :
    Transfer.image? ⟨(e, f) :: copied, pending⟩ e' =
      if e' = e then some f else copied.lookup e' := by
  rw [image?, List.lookup_cons]
  by_cases he : e' = e
  · simp [he]
  · rw [if_neg he, beq_eq_false_iff_ne.mpr he]

lemma Sends.of_none {obj : Object} (h : obj.localEntity? = none) : t.Sends obj obj := by
  rw [Sends, h]

lemma Sends.of_some {obj : Object} {e f : Nat} (h : obj.localEntity? = some e)
    (hf : t.image? e = some f) : t.Sends obj (obj.rebased f) := by
  rw [Sends, h]
  exact ⟨f, hf, rfl⟩

lemma Sends.image {obj image : Object} {e : Nat} (h : t.Sends obj image)
    (he : obj.localEntity? = some e) : ∃ f, t.image? e = some f := by
  rw [Sends, he] at h
  obtain ⟨f, hf, -⟩ := h
  exact ⟨f, hf⟩

lemma Sends.mono {obj image : Object} (h : t.Sends obj image)
    (himages : ∀ e f, t.image? e = some f → t'.image? e = some f) : t'.Sends obj image := by
  cases he : obj.localEntity? with
  | none =>
      rw [Sends, he] at h ⊢
      exact h
  | some e =>
      rw [Sends, he] at h ⊢
      obtain ⟨f, hf, himage⟩ := h
      exact ⟨f, himages e f hf, himage⟩

lemma Sends.relocated {obj image : Object} (h : t.Sends obj image) :
    image = obj.relocated fun e => (t.image? e).getD 0 := by
  cases he : obj.localEntity? with
  | none =>
      rw [Sends, he] at h
      rw [Object.relocated, he]
      exact h
  | some e =>
      rw [Sends, he] at h
      obtain ⟨f, hf, himage⟩ := h
      rw [Object.relocated, he, himage]
      dsimp only
      rw [hf]
      rfl

end Transfer

end PostScriptCore
