import PostScriptCore.Proofs.Memory.Recycling

/-!
# System storage is left alone

Whoever keeps tables in system entities relies on everybody else: allocations, collections and the
freeing of other entities must not touch them.  That takes less than an exact free list.  It is enough
that the list is a chain of free entities; a free entity on no list does no harm, so that entities may
even be handed out as free.

* `Memory.Threaded` — in working order, with a free list that is a chain.
* `Memory.Secures` — the same, and the secured system entities have the cells they had.
* `Memory.Writable` — an entity that may be written to.
* `Memory.secures_put`, `Memory.secures_free`, … — the single steps; `Memory.sustains_secures` says
  that all of them leave the secured entities alone.
* `MemoryOp.spares` — what a run may do to system entities and to free ones.
* `Memory.Secures.afterAll` — such a run leaves every system entity alone.
-/

namespace PostScriptCore

namespace Memory

variable {P : Nat → Prop} {b m n : Memory}

/-- In working order, with a free list that is a chain if entity numbers are words. -/
structure Threaded (m : Memory) : Prop where
  sound : Sound m
  chained : m.entityCount ≤ wordBound → ∃ ids, Threads m ids

/-- `n` comes from `m` without a loss of rows, and every entity in `P`, all of them system entities,
has the cell it had. -/
structure Secures (P : Nat → Prop) (m n : Memory) : Prop extends Threaded n where
  system : ∀ id, P id → ∃ cell, m.cell? id = some cell ∧ cell.tag.kind = .system
  count : m.entityCount ≤ n.entityCount
  kept : n.entityCount ≤ wordBound → ∀ id, P id → n.cell? id = m.cell? id

lemma Threaded.secures (h : Threaded m)
    (hP : ∀ id, P id → ∃ cell, m.cell? id = some cell ∧ cell.tag.kind = .system) : Secures P m m where
  toThreaded := h
  system := hP
  count := Nat.le_refl _
  kept := fun _ _ _ => rfl

/-- Fewer entities are secured as well. -/
lemma Secures.weaken {Q : Nat → Prop} (h : Secures P b m) (hQ : ∀ id, Q id → P id) :
    Secures Q b m where
  toThreaded := h.toThreaded
  system := fun id hid => h.system id (hQ id hid)
  count := h.count
  kept := fun hm id hid => h.kept hm id (hQ id hid)

/-- A secured entity is a system entity still. -/
lemma Secures.cell (h : Secures P b m) (hm : m.entityCount ≤ wordBound) {id : Nat} (hid : P id) :
    ∃ cell, m.cell? id = some cell ∧ cell.tag.kind = .system := by
  rw [h.kept hm id hid]
  exact h.system id hid

/-- A secured entity is on no free list. -/
lemma Secures.not_listed (h : Secures P b m) (hm : m.entityCount ≤ wordBound) {ids : List Nat}
    (hids : Threads m ids) {id : Nat} (hid : P id) : id ∉ ids := by
  intro hmem
  obtain ⟨cell, hcell, hsystem⟩ := h.cell hm hid
  have hfree := hids.isFree hmem hcell
  rw [Cell.isFree, hsystem] at hfree
  contradiction

/-! ## Changes that touch no secured entity -/

/-- One step: the chain goes on, and the secured entities keep their cells. -/
lemma Secures.step (h : Secures P b m) (hs : Sound n) (hcount : m.entityCount ≤ n.entityCount)
    (hn : n.entityCount ≤ wordBound → ∀ ids, Threads m ids →
      (∃ ids', Threads n ids') ∧ ∀ id, P id → n.cell? id = m.cell? id) : Secures P b n where
  sound := hs
  system := h.system
  count := Nat.le_trans h.count hcount
  chained := by
    intro hbound
    obtain ⟨ids, hids⟩ := h.chained (Nat.le_trans hcount hbound)
    exact (hn hbound ids hids).1
  kept := by
    intro hbound id hid
    have hm := Nat.le_trans hcount hbound
    obtain ⟨ids, hids⟩ := h.chained hm
    exact ((hn hbound ids hids).2 id hid).trans (h.kept hm id hid)

lemma Secures.congr (h : Secures P b m) (hs : Sound n) (hcount : n.entityCount = m.entityCount)
    (hhead : n.head? = m.head?) (hcell : ∀ id, n.cell? id = m.cell? id) : Secures P b n :=
  h.step hs (Nat.le_of_eq hcount.symm) fun _ ids hids =>
    ⟨⟨ids, hids.congr hhead fun id _ => hcell id⟩, fun id _ => hcell id⟩

lemma Secures.of_outline (h : Secures P b m) (hs : Sound n) (harena : n.arena = m.arena)
    (hout : ∀ id, n.outline id = m.outline id) : Secures P b n :=
  h.congr hs (entityCount_of_outline hout) (head?_congr hout) (cell?_congr harena hout)

lemma Secures.idle (h : Secures P b m) (hn : Idle m n) : Secures P b n :=
  h.of_outline (((Change.idle hn).carries h.sound).sound h.sound) hn.arena fun id =>
    outline_eq_of_map Row.plain_unpinned (hn.rows id)

lemma Secures.marks (h : Secures P b m) (hn : Marks m n) : Secures P b n :=
  h.of_outline ((hn.carries h.sound).sound h.sound) hn.arena fun id =>
    outline_eq_of_map Row.plain_unmarked (hn.rows id)

/-- Beyond the words nothing has to be secured. -/
lemma Secures.of_moves {A : Nat → Prop} (h : Secures P b m) (hm : ¬ m.entityCount ≤ wordBound)
    (hmoves : Moves A m n) : Secures P b n := by
  have hcount := (hmoves.anchors h.sound).count_le
  exact h.step (hmoves.sound h.sound) hcount fun hn => absurd (Nat.le_trans hcount hn) hm

lemma Secures.of_performs {α : Type} {x : MemoryM α} {A : Nat → Prop} {Q R : α → Memory → Prop}
    (h : Secures P b m) (hm : ¬ m.entityCount ≤ wordBound) (hx : Performs A x m Q)
    (hR : ∀ a n, ¬ n.entityCount ≤ wordBound → R a n) : Keeps (Secures P b) x m R := by
  refine Ends.mono hx (fun a n hn => ⟨h.of_moves hm hn.1, hR a n fun hbound => ?_⟩) fun _ n hn =>
    h.of_moves hm hn
  exact hm (Nat.le_trans (hn.1.anchors h.sound).count_le hbound)

/-! ## Writing and freeing -/

/-- The entity may be written to: it is neither secured nor free. -/
structure Writable (P : Nat → Prop) (m : Memory) (id : Nat) : Prop where
  ne_zero : id ≠ 0
  live : m.isSpare id = false
  unsecured : m.entityCount ≤ wordBound → ¬ P id

lemma Secures.replaces (h : Secures P b m) {id : Nat} {cell cell' : Cell}
    (hn : Replaces m n id cell') (hcell : m.cell? id = some cell) (hlive : cell.isFree = false)
    (hid : m.entityCount ≤ wordBound → ¬ P id) : Secures P b n := by
  refine h.step hn.sound (Nat.le_of_eq hn.count.symm) fun hbound ids hids => ?_
  have hm : m.entityCount ≤ wordBound := hn.count ▸ hbound
  refine ⟨⟨ids, hids.congr hn.head fun j hj => ?_⟩, fun j hj => ?_⟩
  · rw [hn.cell, if_neg]
    rintro rfl
    rw [hids.isFree hj hcell] at hlive
    contradiction
  · rw [hn.cell, if_neg]
    rintro rfl
    exact hid hm hj

lemma secures_put (h : Secures P b m) {id : Nat} (hid : Writable P m id) (offset : Nat)
    (bytes : List UInt8) :
    Keeps (Secures P b) (put id offset bytes) m fun _ n => ∀ j, Writable P m j → Writable P n j := by
  rcases Nat.lt_or_ge id m.entityCount with hlt | hge
  · obtain ⟨cell, hcell⟩ := exists_cell hid.ne_zero hlt
    have hlive := isSpare_eq_false.mp hid.live cell hcell
    by_cases hfit : offset + bytes.length ≤ cell.bytes.length
    · obtain ⟨n, hrun, hn⟩ := put_replaces h.sound hcell hfit
      have hshape : ∀ j, n.shape? j = m.shape? j :=
        hn.shape hcell (by rw [Cell.shape, Cell.shape, length_patched hfit])
      refine .of_ok hrun (h.replaces hn hcell hlive hid.unsecured) fun j hj => ?_
      exact ⟨hj.ne_zero, isSpare_of_shape (hshape j) ▸ hj.live, fun hbound =>
        hj.unsecured (hn.count ▸ hbound)⟩
    · exact .of_error (put_outside hcell hfit) h
  · have hcheck : m.checkedAddress id offset bytes.length = .error (.invalidEntity id) := by
      rw [checkedAddress, row_error hge]
    exact .of_error (bind_error (query_error (s := m) hcheck)) h

lemma secures_free (h : Secures P b m) {id : Nat} (hid : m.entityCount ≤ wordBound → ¬ P id) :
    Keeps (Secures P b) (free id) m fun _ n =>
      n.entityCount = m.entityCount ∧ ∀ j, j ≠ id → n.cell? j = m.cell? j := by
  rcases free_cases id h.sound with
    ⟨fault, hrun⟩ | ⟨row, head, h0, hrow, hsize, hlive, hhead, hrun⟩
  · exact .of_error hrun h
  · have hretired := (carries_retired h.sound hrow hsize head.address).sound h.sound
    have hcount : ((m.retired id row head.address).linked id).entityCount = m.entityCount := by
      rw [linked, entityCount_amended, retired, entityCount_amended, entityCount_releaseResourceOf]
    have hcells : ∀ j, j ≠ id →
        ((m.retired id row head.address).linked id).cell? j = m.cell? j := fun j hj => by
      rw [cell?_linked, cell?_retired h.sound h0 hrow hsize, if_neg hj]
    refine .of_ok hrun (h.step (((Change.relinked id).carries hretired).sound hretired)
      (Nat.le_of_eq hcount.symm) fun hbound ids hids => ?_) ⟨hcount, hcells⟩
    have hm := hcount ▸ hbound
    refine ⟨⟨_, hids.freed h.sound hm h0 hrow hsize hlive hhead⟩, fun j hj => hcells j ?_⟩
    rintro rfl
    exact hid hm hj

/-! ## Allocation -/

/-- The entity is not secured. -/
def Unsecured (P : Nat → Prop) (id : Nat) (n : Memory) : Prop :=
  n.entityCount ≤ wordBound → ¬ P id

/-- An entity was handed out, and it is none of the secured ones. -/
structure Supplies (P : Nat → Prop) (m : Memory) (size : Nat) (tag : Tag) (id : Nat) (n : Memory) :
    Prop where
  owned : Owned n id size tag
  unsecured : Unsecured P id n
  count : m.entityCount ≤ n.entityCount

lemma secures_tableAlloc (h : Secures P b m) (size : Nat) (tag : Tag) :
    Keeps (Secures P b) (tableAlloc size tag) m (Unsecured P) := by
  rcases tableAlloc_cases size tag h.sound.arena with hrun | ⟨row, arena, hext, rfl, -, hrun⟩
  · exact .of_error hrun h
  · have hcells := cell?_pushed h.sound hext
    have hcount : (m.pushed row arena).entityCount = m.entityCount + 1 := Array.size_push _
    have hnew : m.entityCount ≤ wordBound → ¬ P m.entityCount := by
      intro hm hid
      obtain ⟨cell, hcell, -⟩ := h.cell hm hid
      exact Nat.lt_irrefl _ (cell_lt hcell)
    refine .of_ok hrun (h.step ((carries_pushed h.sound hext).sound h.sound) (by omega)
      fun hbound ids hids => ⟨⟨ids, hids.pushed h.sound hext⟩, fun id hid => ?_⟩)
      fun hbound => hnew (by omega)
    rw [hcells, if_neg]
    rintro rfl
    exact hnew (by omega) hid

lemma secures_firstFit (h : Secures P b m) (size : Nat) (tag : Tag) :
    Keeps (Secures P b) (firstFit size tag) m fun fit n => ∀ id, fit = .reused id → Unsecured P id n := by
  by_cases hm : m.entityCount ≤ wordBound
  · obtain ⟨ids, hids⟩ := h.chained hm
    rcases firstFit_cases h.sound hids size tag with
      ⟨-, hrun⟩ | ⟨fit, count, hfit, hrun⟩ | ⟨id, n, hrun, hn, -⟩
    · exact .of_error hrun h
    · refine .of_ok hrun (h.idle ⟨rfl, rfl, rfl, h.sound.policy, fun _ => rfl⟩) ?_
      rintro id rfl
      simp at hfit
    · refine .of_ok hrun (h.step hn.sound (Nat.le_of_eq hn.count.symm) fun _ ids' hids' =>
        ⟨⟨_, hn.threads⟩, fun j hj => hn.kept j (h.not_listed hm hids hj)⟩) ?_
      intro j hj _ hid
      injection hj with hj
      subst hj
      exact h.not_listed hm hids hid hn.mem
  · have hmoves := performs_firstFit (A := fun _ => True) size tag h.sound fun _ _ _ _ _ => trivial
    exact h.of_performs hm hmoves fun fit n hn id _ hbound => absurd hbound hn

lemma secures_findStorage (h : Secures P b m) (size : Nat) (tag : Tag) :
    Keeps (Secures P b) (findStorage size tag) m
      fun fit n => ∀ id, fit = .reused id → Unsecured P id n := by
  have hhonest := h.sound.policy
  cases hpolicy : m.policy with
  | firstFit =>
      rw [Keeps, Ends, findStorage_firstFit hpolicy]
      exact secures_firstFit h size tag
  | fixed answer =>
      rw [hpolicy] at hhonest
      cases answer with
      | error fault => exact .of_error (e := fault) (by rw [findStorage, hpolicy]) h
      | ok fit =>
          refine .of_ok (a := fit) (by rw [findStorage, hpolicy]) h ?_
          rintro id rfl
          exact hhonest.elim

lemma secures_allocateWithoutGc (h : Secures P b m) (size : Nat) (tag : Tag) :
    Keeps (Secures P b) (allocateWithoutGc size tag) m
      (Supplies P m size tag) := by
  have hkeeps : Keeps (Secures P b) (allocateWithoutGc size tag) m (Unsecured P) := by
    refine .bind (secures_findStorage h size tag) fun fit n hn hfit => ?_
    cases fit with
    | reused id => exact .pure hn (hfit id rfl)
    | needsCollection => exact secures_tableAlloc hn size tag
    | miss => exact secures_tableAlloc hn size tag
  have howned := performs_allocateWithoutGc (A := fun _ => True) size tag h.sound
    fun _ _ _ => trivial
  exact Ends.mono (hkeeps.and howned)
    (fun _ _ hn => ⟨hn.1.1, hn.2.2, hn.1.2, (hn.2.1.anchors h.sound).count_le⟩) fun _ _ hn => hn.1

/-- A new entity that was not handed out as free may be written to. -/
lemma Supplies.writable {id size : Nat} {tag : Tag} (h : Supplies P m size tag id n)
    (htag : tag.kind ≠ .free) : Writable P n id := by
  obtain ⟨row, h0, -⟩ := h.owned
  exact ⟨h0, h.owned.not_spare htag, h.unsecured⟩

/-! ## Moving contents -/

/-- The entity has room for `size` bytes, and its contents begin with what fits of the given cell. -/
def Inherits (n : Memory) (id size : Nat) (cell : Cell) : Prop :=
  ∃ bytes, n.cell? id = some ⟨cell.tag, bytes⟩ ∧ size ≤ bytes.length ∧
    cell.bytes.take size <+: bytes

/-- Patching begins with what was written. -/
lemma prefix_patched {old bytes : List UInt8} (h : bytes.length ≤ old.length) :
    bytes <+: patched old 0 bytes := by
  rw [List.prefix_iff_eq_take]
  simpa using (take_drop_patched (show 0 + bytes.length ≤ old.length by omega)).symm

/-- The first bytes of an entity. -/
lemma read_take {id count : Nat} {cell : Cell} {row : Row} (hcell : m.cell? id = some cell)
    (hrow : m.rows[id]? = some row) (hcount : count ≤ cell.bytes.length) :
    m.arena.image.read row.address count = cell.bytes.take count := by
  obtain ⟨row', -, hrow', -, hsize, hread⟩ := row_of_cell hcell
  obtain rfl := Option.some.inj (hrow.symm.trans hrow')
  have hpart := @Image.take_drop_read m.arena.image row.address row.size 0 count (by omega)
  rw [List.drop_zero, Nat.add_zero, hread] at hpart
  exact hpart.symm

/-- Moving contents frees the old entity at the very end.  If it fails, nothing was freed. -/
lemma secures_moveContents (h : Secures P b m) (id oldSize : Nat) {target newSize : Nat} {tag : Tag}
    (hnew : Supplies P n newSize tag target m) (htag : tag.kind ≠ .free) :
    Ends (moveContents id oldSize target newSize) m
      (fun answer k => Secures (fun j => P j ∧ j ≠ id) b k ∧ answer = target ∧
        k.entityCount = m.entityCount ∧ (id ≠ target → ∀ cell, m.cell? id = some cell →
          cell.bytes.length = oldSize → cell.tag = tag → Inherits k target newSize cell))
      (fun _ k => Secures P b k) := by
  have hopen := hnew.writable htag
  obtain ⟨row, h0, hrow, hsize, rfl, hmark⟩ := hnew.owned
  have hcell := cell?_of_row h0 hrow
  have hlive := isSpare_eq_false.mp hopen.live _ hcell
  have hlength : (m.arena.image.read row.address row.size).length = row.size := Image.length_read ..
  -- what is left to do once the new entity has its contents
  have hfree : ∀ k bytes, Secures P b k → k.entityCount = m.entityCount →
      k.cell? target = some ⟨row.tag, bytes⟩ → newSize ≤ bytes.length →
      (∀ cell, m.cell? id = some cell → cell.bytes.length = oldSize →
        cell.bytes.take newSize <+: bytes) →
      Ends (do free id; return target) k
        (fun answer t => Secures (fun j => P j ∧ j ≠ id) b t ∧ answer = target ∧
          t.entityCount = m.entityCount ∧ (id ≠ target → ∀ cell, m.cell? id = some cell →
            cell.bytes.length = oldSize → cell.tag = row.tag → Inherits t target newSize cell))
        (fun _ t => Secures P b t) := by
    intro k bytes hk hcount hheld hroom hbegins
    rcases free_cases id hk.sound with ⟨fault, hrun⟩ | ⟨_, _, -, -, -, -, -, hrun⟩
    · exact .of_error (bind_error hrun) hk
    · have hweaker := hk.weaken (Q := fun j => P j ∧ j ≠ id) fun _ hj => hj.1
      have hfreed := secures_free hweaker fun _ hj => hj.2 (rfl : id = id)
      rw [Keeps, Ends, hrun] at hfreed
      obtain ⟨hsecures, hcount', hcells⟩ := hfreed
      refine .of_ok ((bind_ok hrun).trans rfl)
        ⟨hsecures, rfl, hcount'.trans hcount, fun hne cell hid hold htag => ?_⟩
      exact ⟨bytes, htag ▸ (hcells target hne.symm).trans hheld, hroom, hbegins cell hid hold⟩
  rw [moveContents]
  dsimp only
  generalize hkeep : (if oldSize < newSize then oldSize else newSize) = keep
  have hle : keep ≤ newSize ∧ keep ≤ oldSize ∧ (newSize ≤ keep ∨ oldSize ≤ keep) := by
    split at hkeep <;> omega
  have htake : ∀ cell : Cell, cell.bytes.length = oldSize →
      cell.bytes.take newSize = cell.bytes.take keep := by
    intro cell hold
    rw [List.take_eq_take_iff]
    omega
  split
  · refine .bind (.query (fun source hsource => ?_) fun _ _ => h)
    refine .bind (.query (fun destination hdestination => ?_) fun _ _ => h)
    obtain rfl : row = destination := Except.ok.inj ((row_ok hrow).symm.trans hdestination)
    rcases copyWithin_cases source.address h.sound h0 hrow hmark
        (show keep ≤ row.size by omega) with ⟨fault, hrun⟩ | ⟨k, hrun, hk⟩
    · exact .bind (.of_error hrun h)
    · have hread : (m.arena.image.read source.address keep).length = keep := Image.length_read ..
      refine .bind (.of_ok hrun (hfree k _ (h.replaces hk hcell hlive hnew.unsecured) hk.count
        ((hk.cell target).trans (if_pos rfl)) ?_ fun cell hid hold => ?_))
      · rw [length_patched (by omega)]
        omega
      · rw [htake cell hold, ← read_take hid (row_eq_ok_iff.mp hsource) (by omega)]
        exact prefix_patched (by omega)
  · next hnone =>
    refine hfree m _ h rfl hcell (by omega) fun cell _ hold => ?_
    rw [htake cell hold, Nat.eq_zero_of_not_pos hnone, List.take_zero]
    exact List.nil_prefix

lemma row_of_movable {id : Nat} {row : Row} (h : m.movable id = .ok row) :
    m.rows[id]? = some row := by
  rw [movable] at h
  split at h
  · contradiction
  · next hrow =>
    split at h
    · contradiction
    · injection h with h
      subst h
      exact row_eq_ok_iff.mp hrow

/-- Moving a secured entity keeps its contents.  If it fails, the entity is still there. -/
lemma secures_reallocWithoutGc (h : Secures P b m) (id size : Nat) :
    Ends (reallocWithoutGc id size) m
      (fun target n => Secures (fun j => P j ∧ j ≠ id) b n ∧ Unsecured P target n ∧
        (n.entityCount ≤ wordBound → P id → ∀ cell, b.cell? id = some cell →
          Inherits n target size cell))
      (fun _ n => Secures P b n) := by
  refine .bind (.query (fun old hold => ?_) fun _ _ => h)
  refine .bind (Ends.mono (secures_allocateWithoutGc h size old.tag) (fun target k hk => ?_)
    fun _ _ hk => hk)
  obtain ⟨hk, hnew⟩ := hk
  refine Ends.mono (secures_moveContents hk id old.size hnew (kind_of_movable hold))
    (fun answer n hn => ?_) fun _ _ hn => hn
  obtain ⟨hsecures, rfl, hcount, hheld⟩ := hn
  refine ⟨hsecures, fun hbound => hnew.unsecured (hcount ▸ hbound),
    fun hbound hid cell hcell => ?_⟩
  have hk' : k.entityCount ≤ wordBound := hcount ▸ hbound
  have hcell' := (hk.kept hk' id hid).trans hcell
  have hm := (h.kept (Nat.le_trans hnew.count hk') id hid).trans hcell
  obtain ⟨row, -, hrow, htag, hsize, -⟩ := row_of_cell hm
  obtain rfl := Option.some.inj ((row_of_movable hold).symm.trans hrow)
  refine hheld ?_ cell hcell' hsize.symm htag.symm
  rintro rfl
  exact hnew.unsecured hk' hid

/-! ## Everybody else -/

/-- Only what is neither secured nor free is written, and what is secured is not freed.  Beyond the
words there is nothing to secure. -/
def securingTerms (P : Nat → Prop) : Terms where
  tag := fun _ => True
  write := fun m id => m.entityCount ≤ wordBound → Writable P m id
  free := fun id => ¬ P id
  collect := fun _ _ _ _ => True
  files := True

lemma securingTerms_hands {id size : Nat} {tag : Tag} (howned : Owned m id size tag)
    (hid : Unsecured P id m) : (securingTerms P).Hands size tag id m := by
  refine ⟨howned, fun htag _ => ?_⟩
  have hlive := howned.not_spare htag
  obtain ⟨row, h0, -⟩ := howned
  exact ⟨h0, hlive, hid⟩

/-- What a collection sweeps is no system entity. -/
lemma secures_freeGarbage (h : Secures P b m) {id : Nat} {row : Row} (hrow : m.rows[id]? = some row)
    (hgarbage : isGarbage row = true) : Keeps (Secures P b) (free id) m fun _ _ => True := by
  refine (secures_free h fun hm hid => ?_).mono fun _ _ _ => trivial
  obtain ⟨cell, hcell, hsystem⟩ := h.cell hm hid
  obtain ⟨row', -, hrow', htag, -⟩ := row_of_cell hcell
  obtain rfl := Option.some.inj (hrow.symm.trans hrow')
  have hcollectable := (isGarbage_iff.mp hgarbage).2.1
  rw [htag, hsystem] at hcollectable
  contradiction

/-- **The single steps leave the secured entities alone.** -/
lemma sustains_secures : Sustains (Secures P b) (securingTerms P) where
  honest := fun h => h.sound.policy
  put := by
    intro m id h hid offset bytes
    by_cases hm : m.entityCount ≤ wordBound
    · refine Ends.mono (secures_put h (hid hm) offset bytes) (fun _ n hn => ⟨hn.1, ?_⟩) fun _ _ hn => hn
      exact fun j hj _ => hn.2 j (hj hm)
    · exact h.of_performs hm (performs_put (A := fun _ => True) id offset bytes h.sound)
        fun _ n hn _ _ hbound => absurd hbound hn
  free := fun h hid => (secures_free h fun _ => hid).mono fun _ _ _ => trivial
  setRefcount := fun h hrow count =>
    .of_ok (setMark_run hrow _) (h.idle (idle_setMark h.sound hrow count)) trivial
  tableAlloc := by
    intro m tag h _ size
    have howned := performs_tableAlloc (A := fun _ => True) size tag h.sound fun _ _ _ => trivial
    exact Ends.mono ((secures_tableAlloc h size tag).and howned)
      (fun _ _ hn => ⟨hn.1.1, securingTerms_hands hn.2.2 hn.1.2⟩) fun _ _ hn => hn.1
  firstFit := by
    intro m tag h _ size
    have howned := performs_firstFit (A := fun _ => True) size tag h.sound fun _ _ _ _ _ => trivial
    refine Ends.mono ((secures_firstFit h size tag).and howned)
      (fun fit _ hn => ⟨hn.1.1, fun id he => ?_, fun _ _ _ => trivial⟩) fun _ _ hn => hn.1
    exact securingTerms_hands (hn.2.2 id he) (hn.1.2 id he)
  collect := fun h _ => keeps_collect (fun h hn => h.marks hn)
    (fun h hrow hgarbage => secures_freeGarbage h hrow hgarbage) h _ _ _
  copy := by
    intro m id row h hwrite hid hrow hmark source count hfit
    by_cases hm : m.entityCount ≤ wordBound
    · rcases copyWithin_cases source h.sound hid hrow hmark hfit with ⟨fault, hrun⟩ | ⟨n, hrun, hn⟩
      · exact .of_error hrun h
      · have hcell := cell?_of_row hid hrow
        have hlive := isSpare_eq_false.mp (hwrite hm).live _ hcell
        exact .of_ok hrun (h.replaces hn hcell hlive (hwrite hm).unsecured) trivial
    · exact h.of_performs hm (performs_copy (A := fun _ => True) h.sound hrow hmark hfit)
        fun _ _ _ => trivial
  registered := fun h honest _ => h.idle ⟨rfl, rfl, rfl, honest, fun _ => rfl⟩
  opened := fun h _ handle =>
    have hs := ((Change.opened handle).carries h.sound).sound h.sound
    ⟨h.of_outline hs rfl fun _ => rfl, fun _ hid hbound =>
      ⟨(hid hbound).ne_zero, (hid hbound).live, (hid hbound).unsecured⟩⟩
  word := by
    intro m id _ hid hlt hbound
    rw [UInt32.toNat_ofNat_of_lt' (Nat.lt_of_lt_of_le hlt hbound)]
    exact hid hbound
  tag := fun _ _ => trivial
  fileTag := fun _ => trivial

/-- The entity exists and is a system entity. -/
def isSystem (m : Memory) (id : Nat) : Bool := (m.cell? id).any fun cell => cell.tag.kind == .system

/-- Whether an entity may be written to without harm to the free list and to system entities. -/
def isWritable (m : Memory) (id : Nat) : Bool := id != 0 && !m.isSpare id && !m.isSystem id

/-- Whether the entity that an object names may be written to. -/
def isWritableBy (m : Memory) (obj : Object) : Bool :=
  match obj.entity? with
  | some id => m.isWritable id
  | none => true

end Memory

/-! ## Runs -/

/-- Whether an operation, run from a memory, leaves save levels, tags, system entities and the links
of free entities to others. -/
def MemoryOp.spares (m : Memory) : MemoryOp → Bool
  | free id | realloc id .. | reallocWithoutGc id .. => !m.isSystem id
  | put id .. | writeObject id .. => m.isWritable id
  | arrayPut array .. => m.isWritableBy array
  | dictPut dict .. => m.isWritableBy dict
  | setTag .. | save | restore .. => false
  | _ => true

namespace Memory

variable {P : Nat → Prop} {b m n : Memory}

/-- The same for a run, operation by operation. -/
def sparesAll : Memory → List MemoryOp → Bool
  | _, [] => true
  | m, op :: rest => op.spares m && (m.after op).sparesAll rest

lemma Secures.not_system (h : Secures P b m) (hm : m.entityCount ≤ wordBound) {id : Nat}
    (hid : m.isSystem id = false) : ¬ P id := by
  intro hsecured
  obtain ⟨cell, hcell, hsystem⟩ := h.cell hm hsecured
  simp [isSystem, hcell, hsystem] at hid

lemma Secures.writable (h : Secures P b m) {id : Nat} (hid : m.isWritable id = true) :
    Writable P m id := by
  simp only [isWritable, Bool.and_eq_true, bne_iff_ne, Bool.not_eq_true'] at hid
  exact ⟨hid.1.1, hid.1.2, fun hm => h.not_system hm hid.2⟩

/-- A sparing operation keeps to the terms. -/
lemma Secures.meets (h : Secures P b m) (hm : m.entityCount ≤ wordBound) {op : MemoryOp}
    (hop : op.spares m = true) : op.Meets (securingTerms P) m := by
  have hfree : ∀ id, (!m.isSystem id) = true → ¬ P id := fun id hid =>
    h.not_system hm (Bool.not_eq_true' _ ▸ hid)
  have hobject : ∀ obj ty, m.isWritableBy obj = true → (securingTerms P).WritesTo m obj ty := by
    intro obj ty hobj id hid _
    rw [expectType] at hid
    split at hid
    · next hentity =>
      split at hid
      · injection hid with hid
        subst hid
        rw [isWritableBy, hentity] at hobj
        exact h.writable hobj
      · contradiction
    · contradiction
  refine ⟨?_, fun _ _ _ _ => trivial⟩
  cases op with
  | free id => exact hfree id hop
  | realloc id size roots => exact hfree id hop
  | reallocWithoutGc id size => exact hfree id hop
  | put id offset bytes => exact fun _ => h.writable hop
  | writeObject id offset obj => exact fun _ => h.writable hop
  | arrayPut array index value => exact hobject array .array hop
  | dictPut dict key value => exact hobject dict .dict hop
  | setTag => contradiction
  | save => contradiction
  | restore => contradiction
  | _ => trivial

/-- **A sparing operation leaves the secured entities alone**, whether it succeeds or fails. -/
lemma Secures.after (h : Secures P b m) {op : MemoryOp} (hop : op.spares m = true) :
    Secures P b (m.after op) := by
  by_cases hm : m.entityCount ≤ wordBound
  · exact sustains_secures.after h (h.meets hm hop)
  · have hplain : op.isPlain = true := by
      cases op <;> first | rfl | contradiction
    exact h.of_moves hm (moves_after h.sound hplain)

/-- **So does a sparing run.** -/
lemma Secures.afterAll (h : Secures P b m) {ops : List MemoryOp} (hops : m.sparesAll ops = true) :
    Secures P b (m.afterAll ops) := by
  induction ops generalizing m with
  | nil => exact h
  | cons op rest ih =>
      rw [sparesAll, Bool.and_eq_true] at hops
      exact ih (h.after hops.1) hops.2

/-- The chain of free entities is in order after it. -/
lemma Threaded.after (h : Threaded m) {op : MemoryOp} (hop : op.spares m = true) : Threaded (m.after op) := by
  have hsecures : Secures (fun _ => False) m m := h.secures fun _ hid => hid.elim
  exact (hsecures.after hop).toThreaded

/-- A fresh memory has no free entity. -/
lemma threaded_of_withBacking {bank : Bank} {backing : Backing} {settings : Settings} {m : Memory}
    (h : withBacking bank backing settings = .ok m) : Threaded m := by
  have horderly := (layered_of_withBacking h).orderly
  refine ⟨horderly.sound, fun hm => ?_⟩
  obtain ⟨ids, hids⟩ := horderly.listed hm
  exact ⟨ids, hids.threads⟩

end Memory

end PostScriptCore
