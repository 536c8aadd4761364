import PostScriptCore.Proofs.Memory.Supply

/-!
# Fresh storage is zero

Whatever an allocation hands out reads as zeros, wherever it comes from: bytes beyond the cursor were never
written, and storage from the free list is cleared.  So a new array holds null objects, and a new dictionary
has no entries.

* `Memory.Zeroed` — an entity with room for a request, all of whose bytes are zero.
* `Memory.HandsOut.zeros` — every way to allocate hands out such an entity.
* `Memory.newElements_eq_ok` — a new array or dictionary is a view of what its allocation handed out.
* `Memory.arrayGet_wholeView`, `Memory.dictGet?_zeros` — reading one over zeros.
* `Memory.fresh_storage_zero` — the theorem.
-/

namespace PostScriptCore.Memory

variable {m n : Memory} {id size : Nat} {tag : Tag}

/-! ## What is handed out -/

/-- The entity has at least `size` bytes, and all of them are zero. -/
def Zeroed (m : Memory) (id size : Nat) : Prop :=
  ∃ length, size ≤ length ∧ m.bytes id = .ok (List.replicate length 0)

lemma HandsOut.zeros (h : HandsOut m size tag id n) (hblank : m.arena.Blank) :
    ∃ length, size ≤ length ∧ n.cell? id = some ⟨tag, List.replicate length 0⟩ := by
  obtain ⟨length, hcell⟩ := h.zeroed hblank
  obtain ⟨row, hid, hrow, hroom, -, -⟩ := h.owned
  have hsame := congrArg (Option.map fun cell => cell.bytes.length) ((cell?_of_row hid hrow).symm.trans hcell)
  simp only [Option.map_some, Image.length_read, List.length_replicate, Option.some.injEq] at hsame
  exact ⟨length, hsame ▸ hroom, hcell⟩

lemma HandsOut.isZeroed (h : HandsOut m size tag id n) (hblank : m.arena.Blank) : n.Zeroed id size := by
  obtain ⟨length, hroom, hcell⟩ := h.zeros hblank
  exact ⟨length, hroom, bytes_cell h.sound hcell⟩

/-- The collection that an allocation may run writes nothing beyond the cursor either. -/
lemma zeros_of_allocate {roots : List Object} (hs : Sound m) (hblank : m.arena.Blank)
    (h : allocate size tag roots m = .ok id n) :
    Sound n ∧ ∃ length, size ≤ length ∧ n.cell? id = some ⟨tag, List.replicate length 0⟩ := by
  rcases handsOut_allocate hs h with ⟨-, hhanded⟩ | ⟨-, hhanded⟩
  · exact ⟨hhanded.sound, hhanded.zeros (blank_after hs hblank _)⟩
  · exact ⟨hhanded.sound, hhanded.zeros hblank⟩

/-! ## Reading zeros -/

/-- Sixteen zeros are the null object. -/
lemma decode_zeros : Object.decode (List.replicate objectSize 0) = .ok Object.null := by decide

lemma readObject_zeros (hs : Sound m) {length offset : Nat}
    (hcell : m.cell? id = some ⟨tag, List.replicate length 0⟩) (hfit : offset + objectSize ≤ length) :
    m.readObject id offset = .ok Object.null := by
  rw [readObject_cell hs hcell, if_pos (by simpa using hfit), List.drop_replicate, List.take_replicate,
    Nat.min_eq_left (by omega), decode_zeros]

/-- A new array or dictionary is a view of what was handed out for it, and it is no longer than a word. -/
lemma newElements_eq_ok {kind : Kind} {ty : ObjectType} {width length : Nat} {roots : List Object}
    {obj : Object} (h : newElements kind ty width length roots m = .ok obj n) :
    length * width < wordBound ∧ ∃ id, obj = n.wholeView ty id length ∧
      allocate (length * width) (Tag.ofKind kind) roots m = .ok id n := by
  rw [newElements] at h
  split at h
  · contradiction
  · next hword =>
    refine ⟨Nat.lt_of_not_le hword, ?_⟩
    dsimp only at h
    cases hrun : allocate (length * width) (Tag.ofKind kind) roots m with
    | error fault k =>
        rw [bind_error hrun] at h
        contradiction
    | ok id k =>
        rw [bind_ok hrun] at h
        injection h with hobj hk
        subst hk
        exact ⟨id, hobj.symm, rfl⟩

lemma expectType_wholeView {ty : ObjectType} (hty : ty.isComposite = true) (hid : id < wordBound)
    (length : Nat) : expectType (m.wholeView ty id length) ty = .ok id := by
  have hentity : (m.wholeView ty id length).entity? = some id := by
    rw [Object.entity?, Object.isComposite, wholeView, Object.composite, if_pos hty,
      UInt32.toNat_ofNat_of_lt' hid]
  rw [expectType, hentity]
  exact if_pos rfl

lemma length_wholeView (m : Memory) (ty : ObjectType) (id : Nat) {length : Nat} (h : length < wordBound) :
    (m.wholeView ty id length).length.toNat = length :=
  UInt32.toNat_ofNat_of_lt' h

/-- An element of a whole array is the object in its slot. -/
lemma arrayGet_wholeView {length i : Nat} (hid : id < wordBound) (hword : length * objectSize < wordBound)
    (hi : i < length) :
    m.arrayGet (m.wholeView .array id length) i = m.readObject id (i * objectSize) := by
  have hlength : (m.wholeView .array id length).length.toNat = length :=
    length_wholeView m .array id (Nat.lt_of_le_of_lt (Nat.le_mul_of_pos_right length (by decide)) hword)
  have hoffset : elementOffset (m.wholeView .array id length) i = .ok (i * objectSize) := by
    have hzero : (m.wholeView .array id length).offset.toNat = 0 := rfl
    rw [elementOffset, hzero, Nat.zero_add, if_neg]
    exact Nat.not_le.mpr (Nat.lt_trans (Nat.mul_lt_mul_of_pos_right hi (by decide)) hword)
  have hreadable : elementsReadable (m.wholeView .array id length) = true := rfl
  rw [arrayGet, expectType_wholeView rfl hid]
  simp only [hreadable, hlength, Nat.not_le.mpr hi, hoffset, Bool.not_true, Bool.false_eq_true, if_false]

section Dictionary

variable {length capacity : Nat} (hs : Sound m)
  (hcell : m.cell? id = some ⟨tag, List.replicate length 0⟩) (hfit : capacity * dictEntrySize ≤ length)

include hs hcell hfit

/-- The first entry over zeros is unused. -/
lemma findEntry_zeros (key : Object) :
    m.findEntry id key capacity 0 = .ok (if capacity = 0 then .full else .unused 0) := by
  cases capacity with
  | zero => rfl
  | succ rest =>
      have hfirst : m.readObject id (0 * dictEntrySize) = .ok Object.null :=
        readObject_zeros hs hcell (by simp only [dictEntrySize, objectSize] at *; omega)
      rw [findEntry, hfirst]
      rfl

lemma usedEntries_zeros : m.usedEntries id capacity 0 = .ok 0 := by
  cases capacity with
  | zero => rfl
  | succ rest =>
      have hfirst : m.readObject id (0 * dictEntrySize) = .ok Object.null :=
        readObject_zeros hs hcell (by simp only [dictEntrySize, objectSize] at *; omega)
      rw [usedEntries, hfirst]
      rfl

lemma dictGet?_zeros (hid : id < wordBound) (hword : capacity < wordBound) (key : Object) :
    m.dictGet? (m.wholeView .dict id capacity) key = .ok none := by
  have hreadable : (m.wholeView .dict id capacity).rcheck = true := rfl
  rw [dictGet?, expectType_wholeView rfl hid]
  simp only [hreadable, length_wholeView m .dict id hword, findEntry_zeros hs hcell hfit, Bool.not_true,
    Bool.false_eq_true, if_false]
  by_cases h : capacity = 0
  · rw [if_pos h]
  · rw [if_neg h]

lemma dictLength_zeros (hid : id < wordBound) (hword : capacity < wordBound) :
    m.dictLength (m.wholeView .dict id capacity) = .ok 0 := by
  rw [dictLength, expectType_wholeView rfl hid]
  simp only [length_wholeView m .dict id hword]
  exact usedEntries_zeros hs hcell hfit

end Dictionary

/-! ## Every reached memory -/

/-- The bytes from the cursor to the capacity are zero, and whatever an allocation hands out is.  Entity
numbers have to be words where an object names the entity. -/
structure HandsOutZeros (m : Memory) : Prop where
  beyond : ∀ a, m.arena.used ≤ a → a < m.arena.max → m.arena.image.byte a = 0
  tableAlloc : ∀ size tag id n, tableAlloc size tag m = .ok id n → n.Zeroed id size
  firstFit : ∀ size tag id n, firstFit size tag m = .ok (.reused id) n → n.Zeroed id size
  allocate : ∀ size tag roots id n, allocate size tag roots m = .ok id n → n.Zeroed id size
  allocateWithoutGc : ∀ size tag id n, allocateWithoutGc size tag m = .ok id n → n.Zeroed id size
  newArray : ∀ length roots array n, newArray length roots m = .ok array n → n.entityCount ≤ wordBound →
    ∀ i < length, n.arrayGet array i = .ok Object.null
  newDict : ∀ capacity roots dict n, newDict capacity roots m = .ok dict n → n.entityCount ≤ wordBound →
    n.dictLength dict = .ok 0 ∧ ∀ key, n.dictGet? dict key = .ok none

/-- **Fresh storage is zero.**  Over an arena that starts with zeros, and after every history of allocations,
writes, frees, collections, saves and restores, the bytes from the cursor on are zero, everything that is
handed out is zero over its whole size, a new array holds null objects and a new dictionary nothing. -/
theorem fresh_storage_zero {bank : Bank} {backing : Backing} {settings : Settings} {start : Memory}
    (hblank : backing.IsBlank) (hstart : withBacking bank backing settings = .ok start)
    (ops : List MemoryOp) : (start.afterAll ops).HandsOutZeros := by
  have hs := sound_afterAll (sound_of_withBacking hstart) ops
  have hzero := blank_afterAll (sound_of_withBacking hstart) (blank_of_withBacking hblank hstart) ops
  refine
    { beyond := fun a ha _ => hzero a ha
      tableAlloc := fun size tag id n h => (handsOut_tableAlloc hs h).2.isZeroed hzero
      firstFit := fun size tag id n h => (handsOut_firstFit hs h).isZeroed hzero
      allocate := fun size tag roots id n h => ?_
      allocateWithoutGc := fun size tag id n h => (handsOut_allocateWithoutGc hs h).isZeroed hzero
      newArray := fun length roots array n h hcount i hi => ?_
      newDict := fun capacity roots dict n h hcount => ?_ }
  · obtain ⟨hn, length, hroom, hcell⟩ := zeros_of_allocate hs hzero h
    exact ⟨length, hroom, bytes_cell hn hcell⟩
  · obtain ⟨hword, id, rfl, hrun⟩ := newElements_eq_ok h
    obtain ⟨hn, room, hroom, hcell⟩ := zeros_of_allocate hs hzero hrun
    rw [arrayGet_wholeView (Nat.lt_of_lt_of_le (cell_lt hcell) hcount) hword hi]
    refine readObject_zeros hn hcell (Nat.le_trans ?_ hroom)
    rw [← Nat.succ_mul]
    exact Nat.mul_le_mul_right _ hi
  · obtain ⟨hword, id, rfl, hrun⟩ := newElements_eq_ok h
    obtain ⟨hn, room, hroom, hcell⟩ := zeros_of_allocate hs hzero hrun
    have hid : id < wordBound := Nat.lt_of_lt_of_le (cell_lt hcell) hcount
    have hcapacity : capacity < wordBound :=
      Nat.lt_of_le_of_lt (Nat.le_mul_of_pos_right capacity (by decide)) hword
    exact ⟨dictLength_zeros hn hcell hroom hid hcapacity, dictGet?_zeros hn hcell hroom hid hcapacity⟩

/-- A string is filled and freed, another one is written inside a level, and the level is closed. -/
def dirtyingRun : List MemoryOp :=
  [.newString (List.replicate 40 255) [], .free 1, .save, .newString (List.replicate 64 7) [],
    .put 2 8 [1, 2, 3], .restore 1]

/-- What was written inside the level is gone, and the recycled bytes are handed out as null objects. -/
theorem fresh_storage_zero_dirtied :
    Backing.anonymous.IsBlank ∧ withBacking .localVM .anonymous Settings.standard = .ok freshLocal ∧
      ((freshLocal.afterAll (dirtyingRun.take 5)).arena.image.byte 48 = 1 ∧
        (freshLocal.afterAll dirtyingRun).arena.image.byte 48 = 0) ∧
      ((freshLocal.afterAll dirtyingRun).after (.newArray 2 [])).entityCount ≤ wordBound ∧
      answer? (newArray 2 []) (freshLocal.afterAll dirtyingRun) =
        some (.composite .array .localVM 1 0 2) ∧
      ((freshLocal.afterAll dirtyingRun).after (.newArray 2 [])).arrayGet
        (.composite .array .localVM 1 0 2) 1 = .ok Object.null := by
  have hblank : Backing.anonymous.IsBlank := trivial
  have hrun := fresh_storage_zero hblank withBacking_freshLocal dirtyingRun
  have hcount : ((freshLocal.afterAll dirtyingRun).after (.newArray 2 [])).entityCount ≤ wordBound := by
    decide +kernel
  have hanswer : answer? (newArray 2 []) (freshLocal.afterAll dirtyingRun) =
      some (.composite .array .localVM 1 0 2) := by decide +kernel
  have harray := run_of_answer? hanswer
  have hafter : (freshLocal.afterAll dirtyingRun).after (.newArray 2 []) =
      finalState (newArray 2 []) (freshLocal.afterAll dirtyingRun) := after_of_ok rfl harray
  rw [← hafter] at harray
  have hgone := hrun.beyond 48 (by decide +kernel) (by decide +kernel)
  exact ⟨hblank, withBacking_freshLocal, ⟨by decide +kernel, hgone⟩, hcount, hanswer,
    hrun.newArray 2 [] _ _ harray hcount 1 (by decide)⟩

end PostScriptCore.Memory
