import PostScriptCore.Memory.Composite
import PostScriptCore.Proofs.Memory.Cells

/-!
# Records of a fixed width

Tables and arrays lie in storage as records of one width, from the start of their entity on.

* `Packed` — storage begins with the records.
* `Packed.patched`, `Packed.concat` — writing a record.
* `Memory.StoresArray` — an entity that holds objects.
* `Memory.arrayElements_of_stores` — what a program reads out of it.
-/

namespace PostScriptCore

section Packed

variable {α : Type} {encode : α → List UInt8} {width : Nat} {records : List α} {bytes : List UInt8}

/-- The storage begins with the records, in order, `width` bytes for each. -/
def Packed (encode : α → List UInt8) (width : Nat) (records : List α) (bytes : List UInt8) : Prop :=
  ∀ i x, records[i]? = some x →
    (i + 1) * width ≤ bytes.length ∧ (bytes.drop (i * width)).take width = encode x

lemma Packed.nil : Packed encode width [] bytes := by
  intro i x hx
  simp at hx

/-- More bytes at the end do no harm. -/
lemma Packed.of_prefix (h : Packed encode width records bytes) {bytes' : List UInt8}
    (hbegins : bytes <+: bytes') : Packed encode width records bytes' := by
  obtain ⟨rest, rfl⟩ := hbegins
  intro i x hx
  obtain ⟨hroom, hread⟩ := h i x hx
  have hlt : i * width + width ≤ bytes.length := by rw [Nat.succ_mul] at hroom; exact hroom
  refine ⟨by rw [List.length_append]; omega, ?_⟩
  rw [List.drop_append_of_le_length (by omega),
    List.take_append_of_le_length (by rw [List.length_drop]; omega), hread]

lemma Packed.length_le (h : Packed encode width records bytes) :
    records.length * width ≤ bytes.length := by
  cases hlength : records.length with
  | zero => simp
  | succ last => exact (h last _ (List.getElem?_eq_getElem (by omega))).1

/-- Writing one record leaves the others alone. -/
lemma Packed.patched (h : Packed encode width records bytes) {i : Nat} {x : α} {records' : List α}
    (hx : (encode x).length = width) (hroom : (i + 1) * width ≤ bytes.length)
    (hrecords : ∀ j y, records'[j]? = some y → if j = i then y = x else records[j]? = some y) :
    Packed encode width records' (patched bytes (i * width) (encode x)) := by
  have hfit : i * width + (encode x).length ≤ bytes.length := by
    rw [hx]; rw [Nat.succ_mul] at hroom; exact hroom
  intro j y hy
  have hcase := hrecords j y hy
  rw [length_patched hfit]
  split at hcase
  · next he =>
    subst he hcase
    refine ⟨hroom, ?_⟩
    have hread := take_drop_patched hfit
    rwa [hx] at hread
  · next hne =>
    obtain ⟨hroom', hread⟩ := h j y hcase
    refine ⟨hroom', ?_⟩
    rw [take_drop_patched_of_outside hfit, hread]
    rw [hx]
    rcases Nat.lt_or_gt_of_ne hne with hlt | hlt
    · exact .inl (Nat.succ_mul j width ▸ Nat.mul_le_mul_right width hlt)
    · exact .inr (Nat.succ_mul i width ▸ Nat.mul_le_mul_right width hlt)

/-- The record after the last one. -/
lemma Packed.concat (h : Packed encode width records bytes) {x : α}
    (hx : (encode x).length = width) (hroom : (records.length + 1) * width ≤ bytes.length) :
    Packed encode width (records ++ [x])
      (PostScriptCore.patched bytes (records.length * width) (encode x)) := by
  refine h.patched hx hroom fun j y hy => ?_
  rw [List.getElem?_append] at hy
  split at hy
  · next hlt =>
    rw [if_neg (Nat.ne_of_lt hlt)]
    exact hy
  · next hge =>
    obtain ⟨hj, hxy⟩ : j - records.length = 0 ∧ x = y := by simpa [List.getElem?_singleton] using hy
    rw [if_pos (by omega)]
    exact hxy.symm

end Packed

/-! ## Arrays -/

/-- The executable array over the whole of an entity. -/
def Object.procedure (bank : Bank) (id length : Nat) : Object := (Object.composite .array bank id 0 length).cvx

namespace Memory

variable {m : Memory} {id : Nat} {es : List Object}

/-- The entity is live and begins with the objects. -/
def StoresArray (m : Memory) (id : Nat) (es : List Object) : Prop :=
  ∃ cell, m.cell? id = some cell ∧ cell.isFree = false ∧ Packed Object.encode objectSize es cell.bytes

lemma arrayGet_of_stores (hs : Sound m) (h : m.StoresArray id es) (bank : Bank) (hid : id < wordBound)
    (hword : es.length * objectSize < wordBound) {i : Nat} {obj : Object} (hi : es[i]? = some obj) :
    m.arrayGet (Object.procedure bank id es.length) i = .ok obj := by
  obtain ⟨cell, hcell, -, hpacked⟩ := h
  obtain ⟨hroom, hread⟩ := hpacked i obj hi
  have hlt : i < es.length := (List.getElem?_eq_some_iff.mp hi).1
  have hvalue : (Object.procedure bank id es.length).value.toNat = id := UInt32.toNat_ofNat_of_lt' hid
  have hlength : (Object.procedure bank id es.length).length.toNat = es.length :=
    UInt32.toNat_ofNat_of_lt' (show es.length < wordBound by unfold objectSize at hword; omega)
  have hoffset : elementOffset (Object.procedure bank id es.length) i = .ok (i * objectSize) := by
    have hzero : (Object.procedure bank id es.length).offset.toNat = 0 := rfl
    rw [elementOffset, hzero, Nat.zero_add, if_neg]
    exact Nat.not_le.mpr (Nat.lt_trans (Nat.mul_lt_mul_of_pos_right hlt (by decide)) hword)
  have htype : expectType (Object.procedure bank id es.length) .array = .ok id :=
    congrArg Except.ok hvalue
  have hreadable : elementsReadable (Object.procedure bank id es.length) = true := rfl
  rw [arrayGet, htype]
  simp only [hreadable, hlength, Nat.not_le.mpr hlt, Bool.not_true, Bool.false_eq_true, if_false, hoffset]
  rw [readObject_cell hs hcell, if_pos (by rw [Nat.succ_mul] at hroom; exact hroom), hread,
    Object.decode_encode]

/-- **The elements of a procedure** are the objects that its entity begins with. -/
lemma arrayElements_of_stores (hs : Sound m) (h : m.StoresArray id es) (bank : Bank)
    (hid : id < wordBound) (hword : es.length * objectSize < wordBound) :
    m.arrayElements (Object.procedure bank id es.length) = .ok es := by
  have hfrom : ∀ count index, index + count = es.length →
      m.elementsFrom (Object.procedure bank id es.length) count index = .ok (es.drop index) := by
    intro count
    induction count with
    | zero =>
        intro index hindex
        rw [elementsFrom, List.drop_eq_nil_of_le (by omega)]
    | succ count ih =>
        intro index hindex
        have hlt : index < es.length := by omega
        rw [elementsFrom, arrayGet_of_stores hs h bank hid hword (List.getElem?_eq_getElem hlt)]
        dsimp only
        rw [ih (index + 1) (by omega), List.drop_eq_getElem_cons hlt]
  have hlength : (Object.procedure bank id es.length).length.toNat = es.length :=
    UInt32.toNat_ofNat_of_lt' (show es.length < wordBound by unfold objectSize at hword; omega)
  rw [arrayElements, hlength]
  exact hfrom es.length 0 (Nat.zero_add _)

end Memory

end PostScriptCore
