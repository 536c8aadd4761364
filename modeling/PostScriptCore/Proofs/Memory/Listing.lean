import PostScriptCore.Proofs.Memory.FirstFit
import PostScriptCore.Proofs.Memory.Collection
import Mathlib.Logic.Relation

/-!
# What the free list leads to

Whoever follows the links from the head of the free list reads words out of storage that anybody may have
written to, and may be led anywhere, even in circles.  What matters to the owner of an entity is that the
links do not lead to it.

* `Memory.LinksTo`, `Memory.Listed` — one link, and what the links from the head lead to.
* `Memory.InUse` — a live entity that the links do not lead to.
* `Memory.Lists.inUse`, `Memory.FreeList.inUse` — with a list in order every live entity is in use.
* `Memory.inUse_of_respectsAll` — and the list is in order while nobody writes to free storage.
* `Memory.listed_freed` — freeing an entity adds this one to the list.
* `Memory.collect_cases`, `Memory.InUse.collected` — a collection frees an entity or leaves it in use.
-/

namespace PostScriptCore.Memory

variable {m n : Memory} {id j : Nat}

/-! ## Following links -/

/-- The first word of the one entity is the number of the other. -/
def LinksTo (m : Memory) (id following : Nat) : Prop := m.readLink id = .ok following

/-- The links from the head of the free list lead to the entity. -/
def Listed (m : Memory) (id : Nat) : Prop :=
  ∃ head, m.head? = some head ∧ Relation.ReflTransGen m.LinksTo head id

/-- The entity is live, and the free list does not lead to it. -/
structure InUse (m : Memory) (id : Nat) : Prop where
  live : ∃ cell, m.cell? id = some cell ∧ cell.isFree = false
  unlisted : ¬ m.Listed id

/-- Row 0 has no storage, and so no link. -/
lemma linksTo_iff (hs : Sound m) {following : Nat} : m.LinksTo id following ↔
    ∃ cell, m.cell? id = some cell ∧ linkSize ≤ cell.bytes.length ∧ cell.link = following := by
  by_cases hid : id = 0
  · subst hid
    obtain ⟨row, hrow, hsize⟩ := hs.head
    have hcheck : m.checkedAddress 0 0 4 = .error .rangeCheck := by
      rw [checkedAddress, row_ok hrow]
      exact if_pos (by omega)
    simp [LinksTo, readLink, readWord, bytesAt, hcheck, cell?]
  · constructor
    · exact cell_of_readLink hs hid
    · rintro ⟨cell, hcell, hsize, rfl⟩
      exact readWord_cell hs hcell hsize

lemma linksTo_congr (hs : Sound m) (hn : Sound n) (h : n.cell? id = m.cell? id) {following : Nat} :
    n.LinksTo id following ↔ m.LinksTo id following := by
  rw [linksTo_iff hn, linksTo_iff hs, h]

lemma Listed.head (h : m.head? = some id) : m.Listed id := ⟨id, h, .refl⟩

lemma Listed.next {following : Nat} (h : m.Listed id) (hlink : m.LinksTo id following) :
    m.Listed following := by
  obtain ⟨head, hhead, hpath⟩ := h
  exact ⟨head, hhead, hpath.tail hlink⟩

lemma Listed.of_cells (hs : Sound m) (hn : Sound n) (hhead : n.head? = m.head?)
    (hcells : ∀ j, n.cell? j = m.cell? j) (h : n.Listed id) : m.Listed id := by
  obtain ⟨head, hfirst, hpath⟩ := h
  refine ⟨head, hhead.symm.trans hfirst, ?_⟩
  exact Relation.ReflTransGen.mono (fun a _ hlink => (linksTo_congr hs hn (hcells a)).mp hlink) _ _ hpath

/-! ## Lists in order -/

lemma Links.mem_of_path {cursor : Nat} {ids : List Nat} (hs : Sound m) (h : Links m cursor ids)
    (hpath : Relation.ReflTransGen m.LinksTo cursor id) (hid : id ≠ 0) : id ∈ ids := by
  induction h with
  | stop =>
      -- row 0 ends the list: it has no link to go on with
      rcases hpath.cases_head with rfl | ⟨following, hlink, -⟩
      · exact absurd rfl hid
      · obtain ⟨cell, hcell, -⟩ := (linksTo_iff hs).mp hlink
        exact absurd rfl (ne_zero_of_cell hcell)
  | @next first following rest h0 hlink _ ih =>
      rcases hpath.cases_head with rfl | ⟨other, hother, hrest⟩
      · exact List.mem_cons_self ..
      · obtain rfl := Except.ok.inj (hlink.symm.trans hother)
        exact List.mem_cons_of_mem _ (ih hrest)

/-- The links lead to what is listed, and to the end of the list. -/
lemma Lists.mem_of_listed {ids : List Nat} (h : Lists m ids) (hs : Sound m) (hlisted : m.Listed id)
    (hid : id ≠ 0) : id ∈ ids := by
  obtain ⟨head, hhead, hlinks⟩ := h.links
  obtain ⟨first, hfirst, hpath⟩ := hlisted
  obtain rfl := Option.some.inj (hhead.symm.trans hfirst)
  exact hlinks.mem_of_path hs hpath hid

lemma Lists.inUse {ids : List Nat} {cell : Cell} (h : Lists m ids) (hs : Sound m)
    (hcell : m.cell? id = some cell) (hlive : cell.isFree = false) (hid : id ∉ ids) : m.InUse id :=
  ⟨⟨cell, hcell, hlive⟩, fun hlisted => hid (h.mem_of_listed hs hlisted (ne_zero_of_cell hcell))⟩

/-- **A free list in order leads to no live entity.** -/
lemma FreeList.inUse {ids : List Nat} {cell : Cell} (h : FreeList m ids) (hs : Sound m)
    (hcell : m.cell? id = some cell) (hlive : cell.isFree = false) : m.InUse id := by
  refine (h.threads.lists hs).inUse hs hcell hlive fun hid => ?_
  rw [h.threads.isFree hid hcell] at hlive
  contradiction

/-- **While nobody writes to free storage**, the free list leads to no live entity. -/
lemma inUse_of_respectsAll {bank : Bank} {backing : Backing} {settings : Settings} {start : Memory}
    {ops : List MemoryOp} {cell : Cell} (hstart : withBacking bank backing settings = .ok start)
    (hops : start.respectsAll ops = true) (hwords : (start.afterAll ops).entityCount ≤ wordBound)
    (hcell : (start.afterAll ops).cell? id = some cell) (hlive : cell.isFree = false) :
    (start.afterAll ops).InUse id := by
  obtain ⟨ids, hids⟩ := ((layered_of_withBacking hstart).afterAll hops).orderly.listed hwords
  exact hids.inUse (sound_afterAll (sound_of_withBacking hstart) ops) hcell hlive

/-! ## Freeing and collecting -/

/-- The number at the head of the list fits into a link. -/
def HeadFits (m : Memory) : Prop := ∀ head, m.head? = some head → head < wordBound

lemma entityCount_freed (m : Memory) (id : Nat) (row : Row) (next : Nat) :
    ((m.retired id row next).linked id).entityCount = m.entityCount := by
  rw [linked, entityCount_amended, retired, entityCount_amended, entityCount_releaseResourceOf]

section Freed

variable {row head : Row} (hs : Sound m) (hid : id ≠ 0) (hrow : m.rows[id]? = some row)
  (hsize : linkSize ≤ row.size) (hhead : m.rows[0]? = some head)

include hs hrow hsize

lemma sound_freed (next : Nat) : Sound ((m.retired id row next).linked id) := by
  have hretired := (carries_retired hs hrow hsize next).sound hs
  exact ((Change.relinked id).carries hretired).sound hretired

include hid

lemma cell?_freed (next : Nat) : ((m.retired id row next).linked id).cell? j =
    if j = id then
      some ⟨Tag.free, patched (m.arena.image.read row.address row.size) 0 (wordBytes next)⟩
    else m.cell? j :=
  (cell?_linked _ id j).trans (cell?_retired hs hid hrow hsize next j)

include hhead

/-- **Freeing an entity adds this one to the list.**  Its link is the old head, and no other link is
written. -/
lemma listed_freed (hfits : m.HeadFits) (h : ((m.retired id row head.address).linked id).Listed j) :
    j = id ∨ m.Listed j := by
  have hretired := (carries_retired hs hrow hsize head.address).sound hs
  have hn := sound_freed hs hrow hsize head.address
  have hfirst : m.head? = some head.address := by rw [head?, hhead]; rfl
  obtain ⟨first, hfound, hpath⟩ := h
  obtain rfl := Option.some.inj ((head?_linked hretired id).symm.trans hfound)
  induction hpath with
  | refl => exact .inl rfl
  | @tail before after _ hlink ih =>
      right
      by_cases hbefore : before = id
      · subst hbefore
        obtain ⟨cell, hcell, -, rfl⟩ := (linksTo_iff hn).mp hlink
        rw [cell?_freed hs hid hrow hsize, if_pos rfl] at hcell
        obtain rfl := Option.some.inj hcell
        rw [Cell.link_patched (by simpa using hsize) (hfits _ hfirst)]
        exact .head hfirst
      · have hsame : ((m.retired id row head.address).linked id).cell? before = m.cell? before := by
          rw [cell?_freed hs hid hrow hsize, if_neg hbefore]
        exact (ih.resolve_left hbefore).next ((linksTo_congr hs hn hsame).mp hlink)

end Freed

/-- What a step keeps holds after its operation. -/
lemma invariant_after {α : Type} {I : Memory → Prop} {P : α → Memory → Prop} {x : MemoryM α} {op : MemoryOp}
    (hop : op.perform = discard x) (h : Keeps I x m P) : I (m.after op) := by
  rw [after, hop, finalState_discard]
  exact h.finalState

/-- **A collection frees an entity or leaves it as it is**, also one that fails half-way. -/
lemma collect_cases (hs : Sound m) (id : Nat) (roots : List Object) (sweeping markAll : Bool) :
    (m.after (.collect roots sweeping markAll)).isSpare id = true ∨
      (m.after (.collect roots sweeping markAll)).cell? id = m.cell? id := by
  have hkeeps : Keeps (fun n => Sound n ∧ (n.isSpare id = true ∨ n.cell? id = m.cell? id))
      (collect roots sweeping markAll) m fun _ _ => True := by
    refine keeps_collect ?_ ?_ ⟨hs, .inr rfl⟩ roots sweeping markAll
    · rintro n k ⟨hn, hid⟩ hmarks
      have hcell := hmarks.alike.cell? hn id
      refine ⟨(hmarks.carries hn).sound hn, ?_⟩
      rw [isSpare, hcell]
      exact hid
    · rintro n j row ⟨hn, hid⟩ - -
      rcases free_cases j hn with ⟨fault, hrun⟩ | ⟨row, head, h0, hrow, hsize, -, -, hrun⟩
      · exact .of_error hrun ⟨hn, hid⟩
      · refine .of_ok hrun ⟨sound_freed hn hrow hsize _, ?_⟩ trivial
        rw [isSpare, cell?_freed hn h0 hrow hsize]
        by_cases hj : id = j
        · left
          rw [if_pos hj]
          rfl
        · rw [if_neg hj]
          exact hid
  exact (invariant_after rfl hkeeps).2

/-- **A collection lists what it frees**, and leaves every other entity off the list. -/
lemma listed_collected (hs : Sound m) (hwords : m.entityCount ≤ wordBound) (hfits : m.HeadFits)
    (hid : ¬ m.Listed id) (roots : List Object) (sweeping markAll : Bool)
    (h : (m.after (.collect roots sweeping markAll)).Listed id) :
    (m.after (.collect roots sweeping markAll)).isSpare id = true := by
  have hkeeps : Keeps (fun n => Sound n ∧ n.entityCount ≤ wordBound ∧ n.HeadFits ∧
      (n.Listed id → n.isSpare id = true)) (collect roots sweeping markAll) m fun _ _ => True := by
    refine keeps_collect ?_ ?_ ⟨hs, hwords, hfits, fun h => absurd h hid⟩ roots sweeping markAll
    · rintro n k ⟨hn, hcount, hhead, hlisted⟩ hmarks
      have hk := (hmarks.carries hn).sound hn
      have hcells := hmarks.alike.cell? hn
      refine ⟨hk, hmarks.alike.count ▸ hcount, fun first h => hhead first (hmarks.alike.head? ▸ h), ?_⟩
      intro h
      rw [isSpare, hcells]
      exact hlisted (h.of_cells hn hk hmarks.alike.head? hcells)
    · rintro n j row ⟨hn, hcount, hhead, hlisted⟩ - -
      rcases free_cases j hn with ⟨fault, hrun⟩ | ⟨row, head, h0, hrow, hsize, -, hfirst, hrun⟩
      · exact .of_error hrun ⟨hn, hcount, hhead, hlisted⟩
      · have hretired := (carries_retired hn hrow hsize head.address).sound hn
        refine .of_ok hrun ⟨sound_freed hn hrow hsize _, ?_, ?_, ?_⟩ trivial
        · rw [entityCount_freed]
          exact hcount
        · intro first hfound
          obtain rfl := Option.some.inj ((head?_linked hretired j).symm.trans hfound)
          exact Nat.lt_of_lt_of_le (row_lt hrow) hcount
        · intro h
          rw [isSpare, cell?_freed hn h0 hrow hsize]
          by_cases hj : id = j
          · rw [if_pos hj]
            rfl
          · rw [if_neg hj]
            exact hlisted ((listed_freed hn h0 hrow hsize hfirst hhead h).resolve_left hj)
  exact (invariant_after rfl hkeeps).2.2.2 h

/-- An entity that is not free after a collection was not freed by it. -/
lemma isSpare_iff_freed (h : m.InUse id) : n.isSpare id = true ↔ Freed m n id := by
  obtain ⟨cell, hcell, hlive⟩ := h.live
  obtain ⟨row, hid, hrow, htag, -⟩ := row_of_cell hcell
  have hrowLive : row.isFree = false := by rw [Row.isFree, htag]; exact hlive
  constructor
  · intro hspare
    obtain ⟨cell', hcell', hfree⟩ := (Option.any_eq_true ..).mp hspare
    obtain ⟨row', -, hrow', htag', -⟩ := row_of_cell hcell'
    refine ⟨⟨row, hrow, hrowLive⟩, row', hrow', ?_⟩
    rw [Row.isFree, htag']
    exact hfree
  · rintro ⟨-, row', hrow', hfree⟩
    rw [isSpare, cell?_of_row hid hrow']
    exact hfree

/-- **What a collection does not free stays in use.** -/
lemma InUse.collected (h : m.InUse id) (hs : Sound m) (hwords : m.entityCount ≤ wordBound)
    (hfits : m.HeadFits) {roots : List Object} {sweeping markAll : Bool}
    (hkept : ¬ Freed m (m.after (.collect roots sweeping markAll)) id) :
    (m.after (.collect roots sweeping markAll)).InUse id := by
  rw [← isSpare_iff_freed h] at hkept
  refine ⟨?_, fun hlisted => hkept (listed_collected hs hwords hfits h.unlisted _ _ _ hlisted)⟩
  rw [(collect_cases hs id roots sweeping markAll).resolve_left hkept]
  exact h.live

end PostScriptCore.Memory
