import PostScriptCore.Proofs.Memory.FreeList
import PostScriptCore.Proofs.Memory.Placement
import PostScriptCore.Proofs.Memory.History
import PostScriptCore.Proofs.Memory.Invariants

/-!
# The free list lists the free entities

Along every run that hands out no entity as free and writes into no free entity, the free list is a
finite chain through exactly the free entities.  A link is a word, so that this is a statement about
memories whose entity numbers are words.

* `Memory.FreeList` — the chain, and every free entity is on it.
* `Memory.Orderly` — the invariant of single operations; `Memory.sustains_orderly` says that the
  steps they are made of keep it.
* `MemoryOp.respects` — what a run may do to free entities.
* `Memory.Layered` — the invariant of runs: closing levels leads to orderly memories.
* `Memory.free_list_exact` — the theorem.
-/

namespace PostScriptCore

namespace Memory

variable {m n : Memory} {ids : List Nat}

/-- The free list is a chain that visits every free entity. -/
structure FreeList (m : Memory) (ids : List Nat) : Prop where
  threads : Threads m ids
  complete : ∀ (id : Nat) (cell : Cell), m.cell? id = some cell → cell.isFree = true → id ∈ ids

/-- In working order, with a free list that lists the free entities if entity numbers are words. -/
structure Orderly (m : Memory) : Prop where
  sound : Sound m
  listed : m.entityCount ≤ wordBound → ∃ ids, FreeList m ids

/-- The entity exists and is free. -/
def isSpare (m : Memory) (id : Nat) : Bool := (m.cell? id).any Cell.isFree

lemma isSpare_eq_false {id : Nat} :
    m.isSpare id = false ↔ ∀ cell, m.cell? id = some cell → cell.isFree = false := by
  rw [isSpare]
  cases m.cell? id <;> simp

lemma Owned.not_spare {id size : Nat} {tag : Tag} (h : Owned m id size tag)
    (htag : tag.kind ≠ .free) : m.isSpare id = false := by
  obtain ⟨row, hid, hrow, -, rfl, -⟩ := h
  simp [isSpare, cell?_of_row hid hrow, Cell.isFree, htag]

lemma isSpare_of_shape {id : Nat} (h : n.shape? id = m.shape? id) : n.isSpare id = m.isSpare id := by
  rw [isSpare, isSpare]
  cases hm : m.cell? id <;> cases hn : n.cell? id <;> simp_all [shape?, Cell.shape, Cell.isFree]

/-! ## Changes the free list does not notice -/

lemma Orderly.congr (h : Orderly m) (hs : Sound n) (hcount : n.entityCount = m.entityCount)
    (hhead : n.head? = m.head?) (hcell : ∀ id, n.cell? id = m.cell? id) : Orderly n where
  sound := hs
  listed := by
    intro hbound
    obtain ⟨ids, hids⟩ := h.listed (hcount ▸ hbound)
    exact ⟨ids, hids.threads.congr hhead fun id _ => hcell id,
      fun id cell hid => hids.complete id cell (hcell id ▸ hid)⟩

lemma Orderly.unmoved (h : Orderly m) (hn : Unmoved m n) : Orderly n :=
  h.congr hn.sound hn.count hn.head hn.cell

lemma entityCount_of_outline (h : ∀ id, n.outline id = m.outline id) :
    n.entityCount = m.entityCount := by
  refine Nat.le_antisymm ?_ ?_
  · exact outline_eq_none_iff.mp (by rw [h]; exact outline_eq_none_iff.mpr (Nat.le_refl _))
  · exact outline_eq_none_iff.mp (by rw [← h]; exact outline_eq_none_iff.mpr (Nat.le_refl _))

lemma Change.entityCount_eq (h : Change m n) : n.entityCount = m.entityCount := by
  cases h with
  | idle h => exact entityCount_of_outline fun id =>
      outline_eq_of_map Row.plain_unpinned (h.rows id)
  | opened => rfl
  | remembered => exact entityCount_touched _ _
  | wrote => exact entityCount_amended ..
  | relinked => exact entityCount_amended ..
  | freed => exact (entityCount_amended ..).trans (entityCount_releaseResourceOf ..)

/-- A collection neither adds nor removes a row. -/
lemma Sweeps.entityCount_eq (h : Sweeps m n) : n.entityCount = m.entityCount := by
  induction h with
  | refl => rfl
  | tail _ hstep ih =>
      rcases hstep with hstep | hstep
      · exact hstep.entityCount_eq.trans ih
      · exact (entityCount_of_outline fun id =>
          outline_eq_of_map Row.plain_unmarked (hstep.rows id)).trans ih

lemma Orderly.of_outline (h : Orderly m) (hs : Sound n) (harena : n.arena = m.arena)
    (hout : ∀ id, n.outline id = m.outline id) : Orderly n :=
  h.congr hs (entityCount_of_outline hout) (head?_congr hout) (cell?_congr harena hout)

lemma Orderly.idle (h : Orderly m) (hn : Idle m n) : Orderly n :=
  h.of_outline (((Change.idle hn).carries h.sound).sound h.sound) hn.arena fun id =>
    outline_eq_of_map Row.plain_unpinned (hn.rows id)

lemma Orderly.marks (h : Orderly m) (hn : Marks m n) : Orderly n :=
  h.of_outline ((hn.carries h.sound).sound h.sound) hn.arena fun id =>
    outline_eq_of_map Row.plain_unmarked (hn.rows id)

/-- Beyond the words there is nothing to keep in order. -/
lemma Orderly.of_moves {A : Nat → Prop} (hs : Sound m) (hbound : ¬ m.entityCount ≤ wordBound)
    (h : Moves A m n) : Orderly n where
  sound := h.sound hs
  listed := fun hn => absurd (Nat.le_trans (h.anchors hs).count_le hn) hbound

/-- Writing into a live entity leaves the free list alone. -/
lemma Orderly.replaces (h : Orderly m) {id : Nat} {cell cell' : Cell} (hn : Replaces m n id cell')
    (hcell : m.cell? id = some cell) (htag : cell'.tag = cell.tag) (hlive : cell.isFree = false) :
    Orderly n where
  sound := hn.sound
  listed := by
    intro hbound
    obtain ⟨ids, hids⟩ := h.listed (hn.count ▸ hbound)
    refine ⟨ids, hids.threads.congr hn.head fun j hj => ?_, fun j found hj hfree => ?_⟩
    · rw [hn.cell, if_neg]
      rintro rfl
      obtain ⟨listed, hlisted, hfree, -⟩ := hids.threads.cell hj
      obtain rfl := Option.some.inj (hlisted.symm.trans hcell)
      rw [hlive] at hfree
      contradiction
    · rw [hn.cell] at hj
      split at hj
      · obtain rfl := Option.some.inj hj
        rw [Cell.isFree, htag] at hfree
        rw [Cell.isFree, hfree] at hlive
        contradiction
      · exact hids.complete j found hj hfree

lemma Replaces.shape {id : Nat} {cell cell' : Cell} (h : Replaces m n id cell')
    (hcell : m.cell? id = some cell) (hshape : cell'.shape = cell.shape) (j : Nat) :
    n.shape? j = m.shape? j := by
  rw [shape?, h.cell]
  split
  · next he =>
    subst he
    rw [shape?, hcell, Option.map_some, Option.map_some, hshape]
  · rfl

/-! ## Single steps -/

/-- Entities are handed out as live ones, and only live ones are written.  Beyond the words there is
nothing to respect. -/
def orderlyTerms : Terms where
  tag := fun tag => tag.kind ≠ .free
  write := fun m id => m.entityCount ≤ wordBound → m.isSpare id = false
  free := fun _ => True
  collect := fun _ _ _ _ => True
  files := True

lemma orderlyTerms_writes (hcount : n.entityCount = m.entityCount)
    (hshape : ∀ id, n.shape? id = m.shape? id) : orderlyTerms.Writes m n := by
  intro id hid hn
  rw [isSpare_of_shape (hshape id)]
  exact hid (hcount ▸ hn)

/-- Beyond the words an operation keeps the order whatever it does. -/
lemma orderly_of_performs {α : Type} {x : MemoryM α} {A : Nat → Prop} {Q R : α → Memory → Prop}
    (hs : Sound m) (hbound : ¬ m.entityCount ≤ wordBound) (hx : Performs A x m Q)
    (hR : ∀ a n, ¬ n.entityCount ≤ wordBound → Q a n → R a n) : Keeps Orderly x m R := by
  refine Ends.mono hx (fun a n hn => ⟨.of_moves hs hbound hn.1, hR a n (fun hword => hbound ?_) hn.2⟩)
    fun _ n hn => .of_moves hs hbound hn
  exact Nat.le_trans (hn.1.anchors hs).count_le hword

lemma keeps_put (h : Orderly m) {id : Nat} (hid : orderlyTerms.write m id) (offset : Nat)
    (bytes : List UInt8) :
    Keeps Orderly (put id offset bytes) m fun _ n => orderlyTerms.Writes m n := by
  by_cases hbound : m.entityCount ≤ wordBound
  · refine Ends.mono (ends_put h.sound id offset bytes) (fun _ n hn => ?_) fun _ _ hn => h.unmoved hn
    rcases hn with hn | ⟨cell, hcell, hfit, hn⟩
    · exact ⟨h.unmoved hn, orderlyTerms_writes hn.count fun j => by rw [shape?, hn.cell, shape?]⟩
    · have hlive := isSpare_eq_false.mp (hid hbound) cell hcell
      refine ⟨h.replaces hn hcell rfl hlive, orderlyTerms_writes hn.count (hn.shape hcell ?_)⟩
      rw [Cell.shape, Cell.shape, length_patched hfit]
  · exact orderly_of_performs h.sound hbound (performs_put (A := fun _ => True) id offset bytes h.sound)
      fun _ n hn _ _ _ hword => absurd hword hn

lemma keeps_free (h : Orderly m) (id : Nat) :
    Keeps Orderly (free id) m fun _ _ => True := by
  rcases free_cases id h.sound with
    ⟨fault, hrun⟩ | ⟨row, head, h0, hrow, hsize, hlive, hhead, hrun⟩
  · exact .of_error hrun h
  · have hretired := (carries_retired h.sound hrow hsize head.address).sound h.sound
    refine .of_ok hrun ⟨((Change.relinked id).carries hretired).sound hretired, fun hbound => ?_⟩
      trivial
    rw [linked, entityCount_amended, retired, entityCount_amended,
      entityCount_releaseResourceOf] at hbound
    obtain ⟨ids, hids⟩ := h.listed hbound
    refine ⟨id :: ids, hids.threads.freed h.sound hbound h0 hrow hsize hlive hhead, ?_⟩
    intro j cell hj hfree
    rw [cell?_linked, cell?_retired h.sound h0 hrow hsize] at hj
    split at hj
    · next he => exact List.mem_cons.mpr (.inl he)
    · exact List.mem_cons_of_mem _ (hids.complete j cell hj hfree)

lemma keeps_tableAlloc (h : Orderly m) {tag : Tag} (htag : tag.kind ≠ .free) (size : Nat) :
    Keeps Orderly (tableAlloc size tag) m fun id n => orderlyTerms.Hands size tag id n := by
  rcases tableAlloc_cases size tag h.sound.arena with hrun | ⟨row, arena, hext, rfl, halign, hrun⟩
  · exact .of_error hrun h
  · have hcells := cell?_pushed h.sound hext
    have howned := owned_pushed h.sound hext (le_of_alignUp halign)
    refine .of_ok hrun ⟨(carries_pushed h.sound hext).sound h.sound, fun hbound => ?_⟩
      ⟨howned, fun _ _ => howned.not_spare htag⟩
    have hcount : (m.pushed row arena).entityCount = m.entityCount + 1 := Array.size_push _
    obtain ⟨ids, hids⟩ := h.listed (by omega)
    refine ⟨ids, hids.threads.pushed h.sound hext, fun j cell hj hfree => ?_⟩
    rw [hcells] at hj
    split at hj
    · obtain rfl := Option.some.inj hj
      simp [Cell.isFree, htag] at hfree
    · exact hids.complete j cell hj hfree

/-- Taking an entity out of the list for a live owner leaves a list of the free entities. -/
lemma FreeList.takes {id : Nat} {tag : Tag} (h : FreeList m ids) (hn : Takes m ids id tag n)
    (htag : tag.kind ≠ .free) : FreeList n (ids.erase id) where
  threads := hn.threads
  complete := by
    intro j cell hj hfree
    have hspare : n.isSpare j = true := by simp [isSpare, hj, hfree]
    have hne : j ≠ id := by
      rintro rfl
      obtain ⟨old, -, hcell⟩ := hn.cell
      obtain rfl := Option.some.inj (hj.symm.trans hcell)
      simp [Cell.isFree, htag] at hfree
    rw [isSpare_of_shape (hn.shape j hne), isSpare, Option.any_eq_true] at hspare
    obtain ⟨cell', hcell', hfree'⟩ := hspare
    exact (List.mem_erase_of_ne hne).mpr (h.complete j cell' hcell' hfree')

lemma keeps_firstFit (h : Orderly m) {tag : Tag} (htag : tag.kind ≠ .free) (size : Nat) :
    Keeps Orderly (firstFit size tag) m fun fit n =>
      (∀ id, fit = .reused id → orderlyTerms.Hands size tag id n) ∧
        (fit = .needsCollection → ∀ roots, orderlyTerms.collect m roots true false →
          orderlyTerms.collect n roots true false) := by
  have hhands : ∀ {fit n}, FitOwned size tag fit n →
      (∀ id, fit = .reused id → orderlyTerms.Hands size tag id n) ∧
        (fit = .needsCollection → ∀ roots, orderlyTerms.collect m roots true false →
          orderlyTerms.collect n roots true false) := fun hfit =>
    ⟨fun id he => ⟨hfit id he, fun _ _ => (hfit id he).not_spare htag⟩, fun _ _ _ => trivial⟩
  have hperforms := performs_firstFit (A := fun _ => True) size tag h.sound fun _ _ _ _ _ => trivial
  by_cases hbound : m.entityCount ≤ wordBound
  · obtain ⟨ids, hids⟩ := h.listed hbound
    have hkeeps : Keeps Orderly (firstFit size tag) m fun _ _ => True := by
      rcases firstFit_cases h.sound hids.threads size tag with
        ⟨-, hrun⟩ | ⟨fit, count, -, hrun⟩ | ⟨id, n, hrun, hn, -⟩
      · exact .of_error hrun h
      · exact .of_ok hrun (h.idle ⟨rfl, rfl, rfl, h.sound.policy, fun _ => rfl⟩) trivial
      · exact .of_ok hrun ⟨hn.sound, fun _ => ⟨_, hids.takes hn htag⟩⟩ trivial
    exact Ends.mono (hkeeps.and hperforms) (fun _ _ hn => ⟨hn.1.1, hhands hn.2.2⟩) fun _ _ hn => hn.1
  · exact orderly_of_performs h.sound hbound hperforms fun _ _ _ hfit => hhands hfit

/-- Copying to a new entity is refused without any change, or it patches that entity. -/
lemma copyWithin_cases (source : Nat) (hs : Sound m) {target count : Nat} {row : Row} (hid : target ≠ 0)
    (hrow : m.rows[target]? = some row) (hmark : row.mark = Mark.createdAt m.level)
    (hfit : count ≤ row.size) :
    (∃ fault, onArena (Arena.copyWithin source row.address count) m = .error fault m) ∨
    ∃ n, onArena (Arena.copyWithin source row.address count) m = .ok () n ∧
      Replaces m n target ⟨row.tag, patched (m.arena.image.read row.address row.size) 0
        (m.arena.image.read source count)⟩ := by
  have hknown : m.touched target = m := by
    refine touched_of_known hs hrow (.inr (.inl ?_))
    rw [hmark]
    exact Nat.le_of_eq hs.createdAt_level.1.symm
  have hfit' : 0 + (m.arena.image.read source count).length ≤ row.size := by
    rw [Image.length_read]; omega
  have hreplaces := replaces_overwritten hs hid hrow hfit'
  rw [overwritten, amended, edited_id, hknown] at hreplaces
  by_cases hbound : ¬ m.arena.inBounds source count
  · have hcopy : Arena.copyWithin source row.address count m.arena = .error .rangeCheck m.arena := by
      rw [Arena.copyWithin, if_pos hbound]
    exact .inl ⟨_, onArena_error hcopy⟩
  · cases hobstacle : m.arena.obstacle? row.address count with
    | some fault =>
        have hcopy : Arena.copyWithin source row.address count m.arena = .error fault m.arena := by
          rw [Arena.copyWithin, if_neg hbound, hobstacle]
        exact .inl ⟨_, onArena_error hcopy⟩
    | none =>
        have hcopy : Arena.copyWithin source row.address count m.arena =
            .ok () { m.arena with
              image := m.arena.image.write row.address (m.arena.image.read source count) } := by
          rw [Arena.copyWithin, if_neg hbound, hobstacle]
        exact .inr ⟨_, onArena_ok hcopy, hreplaces⟩

/-- Copying writes into the new entity only, which is live. -/
lemma keeps_copyWithin (h : Orderly m) {id : Nat} {row : Row} (hwrite : orderlyTerms.write m id)
    (hid : id ≠ 0) (hrow : m.rows[id]? = some row) (hmark : row.mark = Mark.createdAt m.level)
    (source count : Nat) (hfit : count ≤ row.size) :
    Keeps Orderly (onArena (Arena.copyWithin source row.address count)) m fun _ _ => True := by
  by_cases hbound : m.entityCount ≤ wordBound
  · rcases copyWithin_cases source h.sound hid hrow hmark hfit with ⟨fault, hrun⟩ | ⟨n, hrun, hn⟩
    · exact .of_error hrun h
    · have hcell := cell?_of_row hid hrow
      exact .of_ok hrun (h.replaces hn hcell rfl (isSpare_eq_false.mp (hwrite hbound) _ hcell)) trivial
  · exact orderly_of_performs h.sound hbound (performs_copy (A := fun _ => True) h.sound hrow hmark hfit)
      fun _ _ _ _ => trivial

/-- **The single steps keep the free list in order.** -/
lemma sustains_orderly : Sustains Orderly orderlyTerms where
  honest := fun h => h.sound.policy
  put := fun h hid offset bytes => keeps_put h hid offset bytes
  free := fun h _ => keeps_free h _
  setRefcount := fun h hrow count =>
    .of_ok (setMark_run hrow _) (h.idle (idle_setMark h.sound hrow count)) trivial
  tableAlloc := fun h htag size => keeps_tableAlloc h htag size
  firstFit := fun h htag size => keeps_firstFit h htag size
  collect := fun h _ => keeps_collect Orderly.marks (fun h _ _ => keeps_free h _) h _ _ _
  copy := fun h hwrite hid hrow hmark source count hfit =>
    keeps_copyWithin h hwrite hid hrow hmark source count hfit
  registered := fun h honest _ => h.idle ⟨rfl, rfl, rfl, honest, fun _ => rfl⟩
  opened := fun {m} h _ handle =>
    have hs := ((Change.opened handle).carries h.sound).sound h.sound
    ⟨h.of_outline hs rfl fun _ => rfl, orderlyTerms_writes rfl fun _ => rfl⟩
  word := by
    intro m id _ hid hlt hbound
    rw [UInt32.toNat_ofNat_of_lt' (Nat.lt_of_lt_of_le hlt hbound)]
    exact hid hbound
  tag := fun hlive _ => hlive
  fileTag := fun _ => show (Tag.ofKind .file).kind ≠ .free by decide

/-- What may be moved is live. -/
lemma kind_of_movable {id : Nat} {row : Row} (h : m.movable id = .ok row) :
    row.tag.kind ≠ .free := by
  rw [movable] at h
  split at h
  · contradiction
  · split at h
    · contradiction
    · next hlive =>
      injection h with h
      subst h
      simp only [Bool.or_eq_true, not_or, Row.isFree, beq_iff_eq] at hlive
      exact hlive.1

/-- Whether an object names an entity that is free. -/
def namesSpare (m : Memory) (obj : Object) : Bool :=
  match obj.entity? with
  | some id => m.isSpare id
  | none => false

lemma isSpare_of_expectType {obj : Object} {ty : ObjectType} {id : Nat}
    (h : m.namesSpare obj = false) (hid : expectType obj ty = .ok id) : m.isSpare id = false := by
  rw [expectType] at hid
  rw [namesSpare] at h
  split at hid
  · next hentity =>
    split at hid
    · injection hid with hid
      subst hid
      rw [hentity] at h
      exact h
    · contradiction
  · contradiction

end Memory

/-! ## Runs -/

/-- Whether an operation, run from a memory, hands out nothing as free, writes into no free entity
and retags nothing by hand. -/
def MemoryOp.respects (m : Memory) : MemoryOp → Bool
  | tableAlloc _ tag | allocate _ tag _ | allocateWithoutGc _ tag | firstFit _ tag =>
    tag.kind != .free
  | put id .. | writeObject id .. => !m.isSpare id
  | arrayPut array .. => !m.namesSpare array
  | dictPut dict .. => !m.namesSpare dict
  | setTag .. => false
  | _ => true

namespace Memory

variable {m n : Memory}

/-- The same for a run, operation by operation. -/
def respectsAll : Memory → List MemoryOp → Bool
  | _, [] => true
  | m, op :: rest => op.respects m && (m.after op).respectsAll rest

lemma meets_of_respects {op : MemoryOp} (hop : op.respects m = true) (hsave : op ≠ .save)
    (hrestore : ∀ level, op ≠ .restore level) : op.Meets orderlyTerms m := by
  refine ⟨?_, fun _ _ _ _ => trivial⟩
  cases op with
  | tableAlloc size tag => exact bne_iff_ne.mp hop
  | allocateWithoutGc size tag => exact bne_iff_ne.mp hop
  | firstFit size tag => exact bne_iff_ne.mp hop
  | allocate size tag roots => exact bne_iff_ne.mp hop
  | put id offset bytes => exact fun _ => Bool.not_eq_true' _ ▸ hop
  | writeObject id offset obj => exact fun _ => Bool.not_eq_true' _ ▸ hop
  | arrayPut array index value =>
      exact fun id hid _ => isSpare_of_expectType (Bool.not_eq_true' _ ▸ hop) hid
  | dictPut dict key value =>
      exact fun id hid _ => isSpare_of_expectType (Bool.not_eq_true' _ ▸ hop) hid
  | setTag id tag => contradiction
  | save => contradiction
  | restore level => exact absurd rfl (hrestore level)
  | _ => trivial

lemma orderly_after (h : Orderly m) {op : MemoryOp} (hop : op.respects m = true)
    (hsave : op ≠ .save) (hrestore : ∀ level, op ≠ .restore level) : Orderly (m.after op) :=
  sustains_orderly.after h (meets_of_respects hop hsave hrestore)

/-- Every memory that closing levels leads to is orderly. -/
def Layered (m : Memory) : Prop := ∀ count ≤ m.level, Orderly (closed^[count] m)

lemma Orderly.alike (h : Orderly m) (hs : Sound n) (halike : Alike m n) : Orderly n :=
  h.congr hs halike.count.symm halike.head? (halike.cell? h.sound)

lemma Layered.orderly (h : Layered m) : Orderly m := h 0 (Nat.zero_le _)

lemma Layered.opened (h : Layered m) (hdepth : m.level < Mark.maxLevel) : Layered m.opened := by
  have hs := h.orderly.sound
  have hopened := sound_opened hs hdepth
  intro count hcount
  cases count with
  | zero => exact h.orderly.of_outline hopened rfl fun _ => rfl
  | succ count =>
      refine (h count (Nat.le_of_succ_le_succ hcount)).alike (sound_iterate_closed _ hopened) ?_
      have hback := (alike_undone_opened m).iterate_undone hopened.restorable.undone count
      exact (alike_iterate_closed count hs).symm.trans
        (hback.symm.trans (alike_iterate_closed (count + 1) hopened))

lemma Layered.carries (h : Layered m) (hn : Orderly n) (hc : Carries m n) : Layered n := by
  have hs := h.orderly.sound
  intro count hcount
  rw [hc.level] at hcount
  cases count with
  | zero => exact hn
  | succ count =>
      refine (h _ hcount).alike (sound_iterate_closed _ hn.sound) ?_
      exact (alike_iterate_closed _ hs).symm.trans
        ((hc.iterate_undone hs (Nat.succ_pos _) hcount).trans (alike_iterate_closed _ hn.sound))

lemma Layered.iterate_closed (h : Layered m) {count : Nat} (hcount : count ≤ m.level) :
    Layered (closed^[count] m) := by
  intro further hfurther
  rw [level_iterate_closed] at hfurther
  rw [← Function.iterate_add_apply]
  exact h _ (by omega)

lemma Layered.after (h : Layered m) {op : MemoryOp} (hop : op.respects m = true) :
    Layered (m.after op) := by
  have hs := h.orderly.sound
  by_cases hsave : op = .save
  · subst hsave
    rw [after_save]
    split
    · next hdepth => exact h.opened hdepth
    · exact h
  · by_cases hrestore : ∃ level, op = .restore level
    · obtain ⟨level, rfl⟩ := hrestore
      rw [after_restore hs]
      split
      · next hlevel => exact h.iterate_closed (by omega)
      · exact h
    · have hrestore' : ∀ level, op ≠ .restore level := fun level he => hrestore ⟨level, he⟩
      exact h.carries (orderly_after h.orderly hop hsave hrestore')
        (carries_after hs hsave hrestore')

lemma Layered.afterAll (h : Layered m) {ops : List MemoryOp} (hops : m.respectsAll ops = true) :
    Layered (m.afterAll ops) := by
  induction ops generalizing m with
  | nil => exact h
  | cons op rest ih =>
      rw [respectsAll, Bool.and_eq_true] at hops
      exact ih (h.after hops.1) hops.2

/-- A fresh memory has no free entity. -/
lemma layered_of_withBacking {bank : Bank} {backing : Backing} {settings : Settings} {m : Memory}
    (h : withBacking bank backing settings = .ok m) : Layered m := by
  have hs := sound_of_withBacking h
  have hrows : m.rows = #[Row.head] := by
    rw [withBacking] at h
    split at h
    · injection h with h
      subst h
      rfl
    · contradiction
  intro count hcount
  rw [level_of_withBacking h, Nat.le_zero] at hcount
  subst hcount
  show Orderly m
  refine ⟨hs, fun _ => ⟨[], ⟨⟨0, by rw [head?, hrows]; rfl, .nil⟩, List.nodup_nil⟩, ?_⟩⟩
  intro id cell hcell
  have hlt := cell_lt hcell
  have hid := ne_zero_of_cell hcell
  rw [entityCount, hrows] at hlt
  exact fun _ => absurd (Nat.lt_one_iff.mp hlt) hid

/-! ## Exactness -/

/-- Reading links from an entity on gives the listed entities and then ends. -/
inductive Links (m : Memory) : Nat → List Nat → Prop
  | stop : Links m 0 []
  | next {id following : Nat} {rest : List Nat} (hid : id ≠ 0)
      (hlink : m.readLink id = .ok following) (hrest : Links m following rest) :
      Links m id (id :: rest)

lemma Chain.links (hs : Sound m) {cursor : Nat} {ids : List Nat} (h : Chain m cursor ids) :
    Links m cursor ids := by
  induction h with
  | nil => exact .stop
  | cons hcell _ hsize _ ih => exact .next (ne_zero_of_cell hcell) (readWord_cell hs hcell hsize) ih

/-- The links from the head visit each free entity once and nothing else, the list that is answered
is the same, and a search along it faults for a size that cannot be rounded only. -/
structure ListsFree (m : Memory) (ids : List Nat) : Prop where
  links : ∃ head, m.freeHead = .ok head ∧ Links m head ids
  nodup : ids.Nodup
  mem_iff : ∀ id, id ∈ ids ↔ 1 ≤ id ∧ ∃ row, m.row id = .ok row ∧ row.tag.kind = .free
  size : ∀ id ∈ ids, ∀ row, m.row id = .ok row → 8 ≤ row.size
  answered : m.freeEntities = .ok ids
  search : ∀ (size : Nat) (tag : Tag) (fault : Fault) (n : Memory),
    firstFit size tag m = .error fault n → fault = .vmFull ∧ alignUp size arenaAlign = none

lemma FreeList.listsFree {ids : List Nat} (h : FreeList m ids) (hs : Sound m) : ListsFree m ids where
  links := by
    obtain ⟨head, hhead, hchain⟩ := h.threads.chain
    exact ⟨head, freeHead_of_head hhead, hchain.links hs⟩
  nodup := h.threads.nodup
  mem_iff := by
    refine fun id => ⟨fun hid => ?_, fun ⟨hid, row, hrow, hfree⟩ => ?_⟩
    · obtain ⟨cell, hcell, hfree, -⟩ := h.threads.cell hid
      obtain ⟨row, h0, hrow, htag, -⟩ := row_of_cell hcell
      refine ⟨Nat.pos_of_ne_zero h0, row, row_ok hrow, ?_⟩
      simpa [Cell.isFree, ← htag] using hfree
    · refine h.complete id _ (cell?_of_row (by omega) (row_eq_ok_iff.mp hrow)) ?_
      simp [Cell.isFree, hfree]
  size := by
    intro id hid row hrow
    obtain ⟨cell, hcell, -, hsize⟩ := h.threads.cell hid
    obtain ⟨row', h0, hrow', -, hlength, -⟩ := row_of_cell hcell
    obtain rfl : row' = row := Option.some.inj (hrow'.symm.trans (row_eq_ok_iff.mp hrow))
    have halign := (hs.fits h0 hrow').2.1
    simp only [arenaAlign, linkSize] at halign hsize
    omega
  answered := h.threads.freeEntities hs
  search := by
    intro size tag fault n hrun
    rcases firstFit_cases hs h.threads size tag with
      ⟨halign, hcase⟩ | ⟨fit, count, -, hcase⟩ | ⟨id, k, hcase, -⟩
    · rw [hcase] at hrun
      injection hrun with hfault
      exact ⟨hfault.symm, halign⟩
    · rw [hcase] at hrun
      contradiction
    · rw [hcase] at hrun
      contradiction

/-- **The free list lists exactly the free entities**, after every run that hands out nothing as free
and writes into no free entity, as long as entity numbers are words. -/
theorem free_list_exact {bank : Bank} {backing : Backing} {settings : Settings} {start : Memory}
    (hstart : withBacking bank backing settings = .ok start) (ops : List MemoryOp)
    (hops : start.respectsAll ops = true)
    (hwords : (start.afterAll ops).entityCount ≤ wordBound) :
    ∃ ids, ListsFree (start.afterAll ops) ids := by
  have horderly := ((layered_of_withBacking hstart).afterAll hops).orderly
  obtain ⟨ids, hids⟩ := horderly.listed hwords
  exact ⟨ids, hids.listsFree horderly.sound⟩

/-- Three strings are freed, the middle one of the list is recycled inside a level for a shorter one,
a collection frees it again, and the level is closed. -/
def splicingRun : List MemoryOp :=
  [.newString (List.replicate 24 1) [], .newString (List.replicate 16 2) [],
    .newString (List.replicate 8 3) [], .free 1, .free 2, .free 3, .useCollector .markSweep, .save,
    .newString (List.replicate 12 4) [], .put 2 0 [9], .collect [] true false, .restore 1]

theorem free_list_exact_splicing :
    withBacking .localVM .anonymous Settings.standard = .ok freshLocal ∧
      freshLocal.respectsAll splicingRun = true ∧
      (freshLocal.afterAll splicingRun).entityCount ≤ wordBound ∧
      ∃ ids, ListsFree (freshLocal.afterAll splicingRun) ids :=
  have hops : freshLocal.respectsAll splicingRun = true := by decide +kernel
  have hwords : (freshLocal.afterAll splicingRun).entityCount ≤ wordBound := by decide +kernel
  ⟨withBacking_freshLocal, hops, hwords,
    free_list_exact withBacking_freshLocal splicingRun hops hwords⟩

end Memory

end PostScriptCore
