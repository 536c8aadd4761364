import PostScriptCore.Context.Basic
import PostScriptCore.Proofs.Memory.Upkeep
import PostScriptCore.Proofs.Transfer.Objects

/-!
# What a context can reach

A composite on a stack leads to an array or dictionary, its slots lead on, and the way may change from
the context's local memory to the global one at any slot.  A collection knows one memory only: what it
marks has to cover the part of every such way that lies in this memory.

* `Memory.Survives` — an entity outlives an operation.
* `Memory.mem_storedComposites` — what is stored in an entity.
* `Memory.Collected.mem_storedComposites_iff`, `Memory.Collected.survives` — what a collection keeps.
* `Context.Reaches` — reachability across the two memories of a context.
* `Context.Reaches.within_localVM`, `Context.Reaches.within_globalVM` — the part that a collection of
  one memory has to see.
* `Context.Unharmed` — what collections must not do to a context.
-/

namespace PostScriptCore

namespace Memory

variable {m n : Memory} {roots : List Object} {id : Nat}

/-- The entity is live in both memories, with the same tag, size and bytes. -/
structure Survives (m n : Memory) (id : Nat) : Prop where
  row : ∃ row row', m.rows[id]? = some row ∧ n.rows[id]? = some row' ∧ row'.isFree = false ∧
    row'.tag = row.tag ∧ row'.size = row.size
  bytes : 0 < id → n.bytes id = m.bytes id

lemma Survives.live (h : Survives m n id) : Live n id := by
  obtain ⟨-, row', -, hrow', hlive, -⟩ := h.row
  exact ⟨row', hrow', hlive⟩

lemma Live.survives (h : Live m id) : Survives m m id := by
  obtain ⟨row, hrow, hlive⟩ := h
  exact ⟨⟨row, row, hrow, hrow, hlive, rfl, rfl⟩, fun _ => rfl⟩

/-! ## The composites stored in an entity -/

/-- Row 0 is not among the entities that store composites. -/
lemma ne_zero_of_holdsObjects (hhead : PlainHead m) {row : Row} (hrow : m.rows[id]? = some row)
    (hholds : row.tag.kind.holdsObjects = true) : id ≠ 0 := by
  rintro rfl
  rw [hhead row hrow] at hholds
  contradiction

/-- **What an entity stores**: the composites in the slots of an array or dictionary. -/
lemma mem_storedComposites (hs : Sound m) (hhead : PlainHead m) {obj : Object} :
    obj ∈ m.storedComposites id ↔
      ∃ row index, m.rows[id]? = some row ∧ row.tag.kind.holdsObjects = true ∧
        index < row.size / objectSize ∧ m.slot? id index = some obj ∧ obj.isComposite = true := by
  rw [storedComposites]
  cases hrow : m.rows[id]? with
  | none =>
      rw [row_error (Array.getElem?_eq_none_iff.mp hrow)]
      simp
  | some row =>
      rw [row_ok hrow]
      dsimp only
      by_cases hholds : row.tag.kind.holdsObjects = true
      · -- the reserved row holds no objects, so the storage can be read
        have hid := ne_zero_of_holdsObjects hhead hrow hholds
        rw [if_pos hholds, stored, storage_ok hs hid hrow]
        simp only [List.mem_filter, List.mem_filterMap, List.mem_range, Option.some.injEq]
        constructor
        · rintro ⟨⟨index, hindex, hslot⟩, hcomposite⟩
          exact ⟨row, index, rfl, hholds, hindex, hslot, hcomposite⟩
        · rintro ⟨_, index, rfl, -, hindex, hslot, hcomposite⟩
          exact ⟨⟨index, hindex, hslot⟩, hcomposite⟩
      · simp [hholds]

lemma mem_allStoredComposites (hs : Sound m) (hhead : PlainHead m) {obj : Object} :
    obj ∈ m.allStoredComposites ↔ ∃ id, obj ∈ m.storedComposites id := by
  rw [allStoredComposites, List.mem_flatMap]
  constructor
  · rintro ⟨id, -, h⟩
    exact ⟨id, h⟩
  · rintro ⟨id, h⟩
    obtain ⟨row, -, hrow, -⟩ := (mem_storedComposites hs hhead).mp h
    exact ⟨id, List.mem_range.mpr (row_lt hrow), h⟩

/-- A stored composite of the same bank is a reference. -/
lemma refers_of_mem_storedComposites (hs : Sound m) (hhead : PlainHead m) {parent : Nat}
    {obj : Object} (h : obj ∈ m.storedComposites parent) (hbank : obj.bank = m.bank)
    (hid : obj.entity? = some id) : Refers m parent id := by
  obtain ⟨row, index, hrow, hholds, hindex, hslot, -⟩ := (mem_storedComposites hs hhead).mp h
  exact ⟨row, index, obj, hrow, hholds, hindex, hslot, hbank, hid⟩

/-! ## What a collection keeps -/

namespace Collected

variable {garbage : Nat → Prop}

lemma slot?_kept (hs : Sound m) (h : Collected m garbage n) {row : Row} (hid : id ≠ 0)
    (hrow : m.rows[id]? = some row) (hkept : ¬ garbage id) (index : Nat) :
    n.slot? id index = m.slot? id index := by
  have hbytes := bytes_ok hs hid hrow
  rw [slot?_of_bytes hbytes, slot?_of_bytes ((h.kept id row hid hrow hkept).2.trans hbytes)]

/-- What is kept stores what it stored, and what is gone stores nothing. -/
lemma mem_storedComposites_iff (hs : Sound m) (ht : Tidy m) (h : Collected m garbage n)
    {obj : Object} :
    obj ∈ n.storedComposites id ↔ obj ∈ m.storedComposites id ∧ ¬ garbage id := by
  rw [mem_storedComposites hs ht.plainHead, mem_storedComposites h.sound h.tidy.plainHead]
  constructor
  · rintro ⟨row', index, hrow', hholds, hindex, hslot, hcomposite⟩
    have hid := ne_zero_of_holdsObjects h.tidy.plainHead hrow' hholds
    obtain ⟨row, hrow⟩ := exists_row (m := m) (h.count ▸ row_lt hrow' : id < m.entityCount)
    have hkept : ¬ garbage id := by
      intro hgarbage
      obtain rfl := Option.some.inj (hrow'.symm.trans (h.gone id row hid hrow hgarbage))
      contradiction
    obtain rfl := Option.some.inj (hrow'.symm.trans (h.kept id row hid hrow hkept).1)
    rw [h.slot?_kept hs hid hrow hkept] at hslot
    exact ⟨⟨row', index, hrow, hholds, hindex, hslot, hcomposite⟩, hkept⟩
  · rintro ⟨⟨row, index, hrow, hholds, hindex, hslot, hcomposite⟩, hkept⟩
    have hid := ne_zero_of_holdsObjects ht.plainHead hrow hholds
    rw [← h.slot?_kept hs hid hrow hkept] at hslot
    exact ⟨row, index, (h.kept id row hid hrow hkept).1, hholds, hindex, hslot, hcomposite⟩

/-- A live entity that can be reached outlives the collection. -/
lemma survives (hs : Sound m) (h : Collected m (Garbage m roots) n) (hreach : Reaches m roots id)
    (hlive : Live m id) : Survives m n id := by
  obtain ⟨row, hrow, hfree⟩ := hlive
  rcases Nat.eq_zero_or_pos id with rfl | hpos
  · obtain ⟨row', hrow', htag⟩ := h.head row hrow
    obtain ⟨r, hr, hsize⟩ := hs.head
    obtain ⟨r', hr', hsize'⟩ := h.sound.head
    obtain rfl := Option.some.inj (hrow.symm.trans hr)
    obtain rfl := Option.some.inj (hrow'.symm.trans hr')
    refine ⟨⟨row, row', hrow, hrow', ?_, htag, hsize'.trans hsize.symm⟩, fun h0 => absurd h0 (Nat.lt_irrefl 0)⟩
    rw [Row.isFree, htag]
    exact hfree
  · have hkept : ¬ Garbage m roots id := by
      rintro ⟨-, -, -, -, hnot⟩
      exact hnot hreach
    obtain ⟨hrow', hbytes⟩ := h.kept id row hpos.ne' hrow hkept
    exact ⟨⟨row, row, hrow, hrow', hfree, rfl, rfl⟩, fun _ => hbytes⟩

end Collected

end Memory

/-! ## Reachability across two memories -/

namespace Context

/-- The memory of a bank, as the context sees it next to a global memory. -/
def memory (c : Context) (globalVM : Memory) : Bank → Memory
  | .localVM => c.localVM
  | .globalVM => globalVM

/-- The entity of a bank that a context can reach: a composite on one of its stacks names it, or one
stored in an array or dictionary that the context can reach, in whichever memory. -/
inductive Reaches (c : Context) (globalVM : Memory) : Bank → Nat → Prop
  | root {obj : Object} {id : Nat} (hmem : obj ∈ c.stackSet.roots) (hid : obj.entity? = some id) :
      Reaches c globalVM obj.bank id
  | stored {bank : Bank} {parent : Nat} {obj : Object} {id : Nat} (h : Reaches c globalVM bank parent)
      (hmem : obj ∈ (c.memory globalVM bank).storedComposites parent)
      (hid : obj.entity? = some id) : Reaches c globalVM obj.bank id

namespace Reaches

variable {c : Context} {globalVM : Memory} {bank : Bank} {id : Nat}

/-- No way into the local memory leads through the global one, if that stores no local composites. -/
lemma within_localVM (h : c.Reaches globalVM bank id) (hlocal : c.localVM.InOrder .localVM)
    (hglobal : ∀ id, ∀ obj ∈ globalVM.storedComposites id, obj.bank = .globalVM) :
    bank = .localVM → c.localVM.Reaches c.stackSet.roots id := by
  induction h with
  | root hmem hid => exact fun hbank => .root hmem (hbank.trans hlocal.bank_eq.symm) hid
  | @stored bank parent obj id _ hmem hid ih =>
      intro hbank
      cases bank with
      | localVM =>
          exact .stored (ih rfl) (Memory.refers_of_mem_storedComposites hlocal.sound
            hlocal.tidy.plainHead hmem (hbank.trans hlocal.bank_eq.symm) hid)
      | globalVM => exact absurd (hbank.symm.trans (hglobal parent obj hmem)) nofun

/-- Every way into the global memory enters it from a stack or from an entity of the local memory that
the context can reach. -/
lemma within_globalVM (h : c.Reaches globalVM bank id) (hglobal : globalVM.InOrder .globalVM)
    {roots : List Object} (hroots : ∀ obj ∈ c.stackSet.roots, obj ∈ roots)
    (hstored : ∀ id, c.Reaches globalVM .localVM id →
      ∀ obj ∈ c.localVM.storedComposites id, obj ∈ roots) :
    bank = .globalVM → globalVM.Reaches roots id := by
  induction h with
  | root hmem hid => exact fun hbank => .root (hroots _ hmem) (hbank.trans hglobal.bank_eq.symm) hid
  | @stored bank parent obj id hparent hmem hid ih =>
      intro hbank
      cases bank with
      | localVM =>
          exact .root (hstored parent hparent obj hmem) (hbank.trans hglobal.bank_eq.symm) hid
      | globalVM =>
          exact .stored (ih rfl) (Memory.refers_of_mem_storedComposites hglobal.sound
            hglobal.tidy.plainHead hmem (hbank.trans hglobal.bank_eq.symm) hid)

end Reaches

section Unharmed

variable {c d : Context} {globalVM globalVM' : Memory}

/-- Two contexts reach the same if they have the same composites on their stacks and the entities that
one of them reaches store the same. -/
lemma reaches_iff_of_stored
    (hroots : ∀ obj id, obj.entity? = some id →
      (obj ∈ d.stackSet.roots ↔ obj ∈ c.stackSet.roots))
    (hstored : ∀ bank id, c.Reaches globalVM bank id → ∀ obj,
      obj ∈ (d.memory globalVM' bank).storedComposites id ↔
        obj ∈ (c.memory globalVM bank).storedComposites id) (bank : Bank) (id : Nat) :
    d.Reaches globalVM' bank id ↔ c.Reaches globalVM bank id := by
  constructor
  · intro h
    induction h with
    | root hmem hid => exact .root ((hroots _ _ hid).mp hmem) hid
    | stored _ hmem hid ih => exact .stored ih ((hstored _ _ ih _).mp hmem) hid
  · intro h
    induction h with
    | root hmem hid => exact .root ((hroots _ _ hid).mpr hmem) hid
    | stored hparent hmem hid ih => exact .stored ih ((hstored _ _ hparent _).mpr hmem) hid

/-- What the context `c` could reach is what `d` can reach, and all of it is as it was. -/
structure Unharmed (c : Context) (globalVM : Memory) (d : Context) (globalVM' : Memory) : Prop where
  reaches_iff : ∀ bank id, d.Reaches globalVM' bank id ↔ c.Reaches globalVM bank id
  survives : ∀ bank id, c.Reaches globalVM bank id →
    (c.memory globalVM bank).Survives (d.memory globalVM' bank) id

end Unharmed

end Context

end PostScriptCore
