import PostScriptCore.Proofs.Memory.Capacity
import PostScriptCore.Proofs.Memory.Handles
import PostScriptCore.Proofs.Memory.Recycling

/-!
# Who holds which file

A file entity names the slot of its open file in its first word, while entities and slots are recycled
apart from each other.  As long as nobody writes into a file, hands out files by hand or goes back to
an earlier level, the live file entities and the open files still correspond one to one.

* `Memory.Measured` — in working order and within the limit of the table.
* `Memory.Custody` — every live file entity has a slot of its own, with the file it was opened with.
* `Memory.Custody.same`, `Memory.Custody.closes`, `Memory.Custody.opens` — nothing happens to files,
  one is closed, one is opened.
* `Memory.Custody.put`, `Memory.Custody.free` — writing and freeing.
-/

namespace PostScriptCore

namespace Memory

variable {m n : Memory}

/-! ## Row 0 -/

/-- The tag of row 0, which is never handed out. -/
def headTag? (m : Memory) : Option Tag := m.rows[0]?.map Row.tag

lemma isFile_zero (m : Memory) : m.isFile 0 = m.headTag?.any Tag.ownsResource := by
  rw [isFile, headTag?]
  cases m.rows[0]? <;> rfl

lemma headTag?_amended (hs : Sound m) {id : Nat} {row : Row} (hrow : m.rows[id]? = some row)
    {f : Row → Row} (htag : id = 0 → ∀ r, (f r).tag = r.tag) (image : Image) :
    (m.amended id f image).headTag? = m.headTag? := by
  by_cases hid : id = 0
  · subst hid
    obtain ⟨snapshot, -, -, hrow'⟩ := rows_amended hs hrow f image
    rw [headTag?, headTag?, hrow, hrow', Option.map_some, Option.map_some, htag rfl]
  · rw [headTag?, headTag?, rows_amended_of_ne m id f image (Ne.symm hid)]

lemma headTag?_of_rows {f : Row → Row} (hf : ∀ row, (f row).tag = row.tag)
    (h : n.rows[0]?.map f = m.rows[0]?.map f) : n.headTag? = m.headTag? := by
  have hcomp : Row.tag = Row.tag ∘ f := funext fun row => (hf row).symm
  rw [headTag?, headTag?, hcomp, ← Option.map_map, ← Option.map_map, h]

lemma Change.headTag? (hs : Sound m) (h : Change m n) : n.headTag? = m.headTag? := by
  cases h with
  | idle h => exact headTag?_of_rows (f := Row.unpinned) (fun _ => rfl) (h.rows 0)
  | opened handle => rfl
  | @remembered id hid =>
      obtain ⟨row, hrow⟩ := exists_row hid
      have hsame : m.touched id = m.amended id (fun r => r) m.arena.image := by
        rw [amended, edited_id, ← arena_touched m id]
      rw [hsame]
      exact headTag?_amended hs hrow (fun _ _ => rfl) _
  | wrote offset bytes hrow hfit => exact headTag?_amended hs hrow (fun _ _ => rfl) _
  | relinked head =>
      obtain ⟨row, hrow, -⟩ := hs.head
      exact headTag?_amended hs hrow (f := fun r => { r with address := head }) (fun _ _ => rfl) _
  | freed head hid hrow hsize hlive =>
      rw [Memory.headTag?, rows_retired_of_ne m _ head (Ne.symm hid), Memory.headTag?]

lemma Alloc.headTag? {id : Nat} (hs : Sound m) (h : Alloc m id n) : n.headTag? = m.headTag? := by
  cases h with
  | reused tag hid hrow => exact headTag?_amended hs hrow (fun h0 => absurd h0 hid) _
  | @added row arena h =>
      have hpos := hs.entityCount_pos
      rw [entityCount] at hpos
      rw [Memory.headTag?, pushed, Array.getElem?_push, if_neg (by omega), Memory.headTag?]

lemma Sweeps.headTag? (hs : Sound m) (h : Sweeps m n) : n.headTag? = m.headTag? := by
  induction h with
  | refl => rfl
  | tail hsweeps hstep ih =>
      have hs' := (Sweeps.carries hs hsweeps).sound hs
      rcases hstep with hstep | hstep
      · exact (hstep.headTag? hs').trans ih
      · exact (headTag?_of_rows (f := Row.unmarked) (fun _ => rfl) (hstep.rows 0)).trans ih

/-- **No move changes what row 0 is.** -/
lemma Moves.headTag? {A : Nat → Prop} (hs : Sound m) (h : Moves A m n) : n.headTag? = m.headTag? := by
  induction h with
  | refl => rfl
  | tail hmoves hstep ih =>
      have hs' := Moves.sound hs hmoves
      cases hstep with
      | change hstep => exact (hstep.headTag? hs').trans ih
      | alloc _ hstep => exact (hstep.headTag? hs').trans ih
      | collected roots sweeping markAll =>
          exact (Sweeps.headTag? hs' (Ends.finalState
            (onlySweeps_collect roots sweeping markAll hs'))).trans ih

lemma Moves.isFile_zero {A : Nat → Prop} (hs : Sound m) (h : Moves A m n) :
    n.isFile 0 = m.isFile 0 := by
  rw [Memory.isFile_zero, Memory.isFile_zero, Moves.headTag? hs h]

/-! ## Files as cells -/

lemma isFile_of_cell {id : Nat} (hid : id ≠ 0) :
    m.isFile id = (m.cell? id).any fun cell => cell.tag.ownsResource := by
  rw [isFile, cell?, if_neg hid]
  cases m.rows[id]? <;> rfl

lemma isFile_of_shape {id : Nat} (hid : id ≠ 0) (h : n.shape? id = m.shape? id) :
    n.isFile id = m.isFile id := by
  rw [isFile_of_cell hid, isFile_of_cell hid]
  cases hm : m.cell? id <;> cases hn : n.cell? id <;> simp_all [shape?, Cell.shape]

/-- Which slot a file names is a matter of its cell. -/
lemma resourceSlot_cell (hs : Sound m) {id : Nat} {cell : Cell} (h : m.cell? id = some cell) :
    m.resourceSlot id = if linkSize ≤ cell.bytes.length then .ok cell.link else .error .rangeCheck := by
  rw [resourceSlot, readWord, bytesAt_cell hs h, Nat.zero_add, List.drop_zero]
  split_ifs <;> rfl

lemma resourceSlot_congr (hm : Sound m) (hn : Sound n) {id : Nat} {cell : Cell}
    (hcell : m.cell? id = some cell) (h : n.cell? id = m.cell? id) :
    n.resourceSlot id = m.resourceSlot id := by
  rw [resourceSlot_cell hm hcell, resourceSlot_cell hn (h.trans hcell)]

/-- A file is not free. -/
lemma isSpare_of_isFile {id : Nat} (h : m.isFile id = true) : m.isSpare id = false := by
  rw [isSpare_eq_false]
  intro cell hcell
  rw [isFile_of_cell (ne_zero_of_cell hcell), hcell, Option.any_some, Tag.ownsResource,
    beq_iff_eq] at h
  rw [Cell.isFree, h]
  rfl

/-! ## Limits -/

/-- In working order, with entity numbers that are words and stay so, and a row 0 that is no file. -/
structure Measured (m : Memory) : Prop where
  sound : Sound m
  limit : m.maxEntities ≤ wordBound
  bound : m.entityCount ≤ wordBound
  head : m.isFile 0 = false

lemma Measured.moves {A : Nat → Prop} (h : Measured m) (hmoves : Moves A m n) (hcap : Capped m n) :
    Measured n ∧ m.entityCount ≤ n.entityCount where
  left :=
    { sound := hmoves.sound h.sound
      limit := hcap.limit ▸ h.limit
      bound := hcap.count _ h.limit h.bound
      head := (hmoves.isFile_zero h.sound).trans h.head }
  right := (hmoves.anchors h.sound).count_le

lemma Measured.ends {A : Nat → Prop} {α : Type} {x : MemoryM α} {P : α → Memory → Prop}
    (h : Measured m) (hx : Performs A x m P) (hcap : Follows Capped x) :
    Ends x m (fun _ n => Measured n ∧ m.entityCount ≤ n.entityCount)
      fun _ n => Measured n ∧ m.entityCount ≤ n.entityCount :=
  Ends.mono (Ends.and hx (hcap m)) (fun _ _ hn => h.moves hn.1.1 hn.2) fun _ _ hn => h.moves hn.1 hn.2

lemma Measured.of_ok {A : Nat → Prop} {α : Type} {x : MemoryM α} {P : α → Memory → Prop} {a : α}
    (h : Measured m) (hx : Performs A x m P) (hcap : Follows Capped x) (hrun : x m = .ok a n) :
    Measured n ∧ m.entityCount ≤ n.entityCount := by
  have hends := h.ends hx hcap
  rw [Ends, hrun] at hends
  exact hends

/-- Whether an entity names a slot is a matter of its cell. -/
lemma Measured.namesSlot (hm : Measured m) (hn : Measured n) {id : Nat}
    (h : n.cell? id = m.cell? id) (slot : Nat) : n.NamesSlot id slot ↔ m.NamesSlot id slot := by
  by_cases h0 : id = 0
  · simp [h0, NamesSlot, hn.head, hm.head]
  · rw [NamesSlot, NamesSlot, isFile_of_cell h0, h, isFile_of_cell h0]
    refine and_congr_right fun hfile => ?_
    cases hcell : m.cell? id with
    | none =>
        rw [hcell] at hfile
        contradiction
    | some cell => rw [resourceSlot_congr hm.sound hn.sound hcell h]

/-! ## Custody -/

/-- Every live file entity has an open file of its own, the one it was opened with, and every open
file has such an entity. -/
structure Custody (opened : List (Nat × Handle)) (m : Memory) : Prop extends Measured m where
  threads : ∃ ids, Threads m ids
  tight : m.resources.Tight
  /-- There are never more slots than entities, so that slot numbers are words. -/
  room : m.resources.slots.size < m.entityCount
  paired : Paired m
  opened : ∀ id handle, m.isFile id = true → m.handleOf id = .ok handle →
    opened.lookup id = some handle

/-- Entities may be written that are neither files nor free, and nothing is handed out as a file. -/
def custodyTerms : Terms where
  tag := fun tag => tag.ownsResource = false
  write := fun m id => m.isFile id = false ∧ m.isSpare id = false
  free := fun _ => True
  collect := fun _ _ _ _ => True
  files := False

namespace Custody

variable {opened : List (Nat × Handle)} {ids : List Nat}

lemma ne_zero (h : Custody opened m) {id : Nat} (hid : m.isFile id = true) : id ≠ 0 := by
  rintro rfl
  rw [h.head] at hid
  contradiction

/-- **Nothing happens to files** while their cells and the slots stay the same. -/
lemma same (h : Custody opened m) (hn : Measured n ∧ m.entityCount ≤ n.entityCount)
    (hthreads : ∃ ids, Threads n ids) (hresources : n.resources = m.resources)
    (hfile : ∀ id, id ≠ 0 → n.isFile id = m.isFile id)
    (hcell : ∀ id, m.isFile id = true → n.cell? id = m.cell? id) : Custody opened n := by
  have hfile : ∀ id, n.isFile id = m.isFile id := by
    intro id
    by_cases hid : id = 0
    · rw [hid, hn.1.head, h.head]
    · exact hfile id hid
  have hnames : ∀ id slot, n.NamesSlot id slot ↔ m.NamesSlot id slot := by
    intro id slot
    by_cases hid : m.isFile id = true
    · exact h.toMeasured.namesSlot hn.1 (hcell id hid) slot
    · rw [NamesSlot, NamesSlot, hfile]
      exact and_congr_right fun hid' => absurd hid' hid
  refine
    { toMeasured := hn.1
      threads := hthreads
      tight := hresources ▸ h.tight
      room := hresources ▸ Nat.lt_of_lt_of_le h.room hn.2
      paired := ⟨fun id hid => ?_, fun i j slot hi hj => ?_, fun slot handle hoccupant => ?_⟩
      opened := fun id handle hid hhandle => ?_ }
  · obtain ⟨slot, handle, hslot, hoccupant⟩ := h.paired.resolves id ((hfile id).symm.trans hid)
    rw [hresources]
    exact ⟨slot, handle, ((hnames id slot).mpr ⟨(hfile id).symm.trans hid, hslot⟩).2, hoccupant⟩
  · exact h.paired.distinct i j slot ((hnames i slot).mp hi) ((hnames j slot).mp hj)
  · rw [hresources] at hoccupant
    obtain ⟨id, hid⟩ := h.paired.owned slot handle hoccupant
    exact ⟨id, (hnames id slot).mpr hid⟩
  · have hid := (hfile id).symm.trans hid
    obtain ⟨slot, -, hslot, -⟩ := h.paired.resolves id hid
    have hthen := (handleOf_eq_ok ((hnames id slot).mpr ⟨hid, hslot⟩).2).mp hhandle
    rw [hresources] at hthen
    exact h.opened id handle hid ((handleOf_eq_ok hslot).mpr hthen)

/-- Pins, collector bits and levels are no matter of files. -/
lemma of_outline (h : Custody opened m) (hn : Measured n ∧ m.entityCount ≤ n.entityCount)
    (harena : n.arena = m.arena) (hresources : n.resources = m.resources)
    (hout : ∀ id, n.outline id = m.outline id) : Custody opened n := by
  have hcell := cell?_congr harena hout
  obtain ⟨ids, hids⟩ := h.threads
  exact h.same hn ⟨ids, hids.congr (head?_congr hout) fun id _ => hcell id⟩ hresources
    (fun id hid => by rw [isFile_of_cell hid, hcell, isFile_of_cell hid]) fun id _ => hcell id

lemma marks (h : Custody opened m) (hn : Marks m n) : Custody opened n := by
  have hout : ∀ id, n.outline id = m.outline id := fun id =>
    outline_eq_of_map Row.plain_unmarked (hn.rows id)
  have hcount := entityCount_of_outline hout
  refine h.of_outline ⟨⟨(hn.carries h.sound).sound h.sound, ?_, hcount ▸ h.bound, ?_⟩, hcount.ge⟩
    (by rw [hn.frame]) (by rw [hn.frame]) hout
  · rw [hn.frame]
    exact h.limit
  · rw [isFile_zero, headTag?_of_rows (f := Row.unmarked) (fun _ => rfl) (hn.rows 0), ← isFile_zero]
    exact h.head

/-- Writing into an entity that is no file and not on the free list. -/
lemma replaced (h : Custody opened m) (hn : Measured n ∧ m.entityCount ≤ n.entityCount) {id : Nat}
    {old cell : Cell} (hids : Threads m ids) (hreplaces : Replaces m n id cell)
    (hold : m.cell? id = some old) (hshape : cell.shape = old.shape) (hnot : id ∉ ids)
    (hid : m.isFile id = false) : Custody opened n := by
  have hother : ∀ j, j ≠ id → n.cell? j = m.cell? j := fun j hj => by rw [hreplaces.cell, if_neg hj]
  refine h.same hn ⟨ids, hids.congr hreplaces.head fun j hj => hother j ?_⟩ hreplaces.resources
    (fun j hj => isFile_of_shape hj (hreplaces.shape hold hshape j)) fun j hj => hother j ?_
  · rintro rfl
    exact hnot hj
  · rintro rfl
    rw [hid] at hj
    contradiction

lemma put (h : Custody opened m) {id : Nat} (hid : custodyTerms.write m id) (offset : Nat)
    (bytes : List UInt8) :
    Keeps (Custody opened) (Memory.put id offset bytes) m fun _ n => custodyTerms.Writes m n := by
  have hmeasured := h.toMeasured.ends (A := fun _ => True) (performs_put id offset bytes h.sound)
    (follows_put id offset bytes)
  obtain ⟨ids, hids⟩ := h.threads
  have hwrites : ∀ {n : Memory}, Measured n → (∀ j, n.shape? j = m.shape? j) →
      custodyTerms.Writes m n := by
    intro n hn hshape j hj
    refine ⟨?_, (isSpare_of_shape (hshape j)).trans hj.2⟩
    by_cases h0 : j = 0
    · rw [h0, hn.head]
    · exact (isFile_of_shape h0 (hshape j)).trans hj.1
  have hunmoved : ∀ {n : Memory}, (Measured n ∧ m.entityCount ≤ n.entityCount) → Unmoved m n →
      Custody opened n := fun hn hunmoved =>
    h.same hn ⟨ids, hids.congr hunmoved.head fun j _ => hunmoved.cell j⟩ hunmoved.resources
      (fun j hj => by rw [isFile_of_cell hj, hunmoved.cell, isFile_of_cell hj])
      fun j _ => hunmoved.cell j
  refine Ends.mono (Ends.and hmeasured (ends_put h.sound id offset bytes)) (fun _ n hn => ?_)
    fun _ n hn => hunmoved hn.1 hn.2
  obtain ⟨hn, hsame | ⟨cell, hcell, hfit, hreplaces⟩⟩ := hn
  · exact ⟨hunmoved hn hsame, hwrites hn.1 fun j => by rw [shape?, hsame.cell, shape?]⟩
  · have hshape : (Cell.mk cell.tag (patched cell.bytes offset bytes)).shape = cell.shape := by
      rw [Cell.shape, Cell.shape, length_patched hfit]
    refine ⟨h.replaced hn hids hreplaces hcell hshape (fun hmem => ?_) hid.1,
      hwrites hn.1 (hreplaces.shape hcell hshape)⟩
    have hfree := hids.isFree hmem hcell
    rw [isSpare_eq_false.mp hid.2 cell hcell] at hfree
    contradiction

/-- **A file is closed**: its entity is no file any more and its slot is empty. -/
lemma closes (h : Custody opened m) (hn : Measured n ∧ m.entityCount ≤ n.entityCount)
    (hthreads : ∃ ids, Threads n ids) {id slot : Nat} (hid : m.NamesSlot id slot)
    (hresources : n.resources = (m.resources.release slot).2) (hgone : n.isFile id = false)
    (hother : ∀ j, j ≠ id → n.cell? j = m.cell? j) : Custody opened n := by
  have hoccupants : ∀ k, n.resources.occupant? k =
      if k = slot then none else m.resources.occupant? k := fun k => by
    rw [hresources, ResourceTable.occupant?_release]
  have hnames : ∀ j k, n.NamesSlot j k ↔ j ≠ id ∧ m.NamesSlot j k := by
    intro j k
    by_cases hj : j = id
    · subst hj
      simp [NamesSlot, hgone]
    · rw [and_iff_right hj]
      exact h.toMeasured.namesSlot hn.1 (hother j hj) k
  have hkept : ∀ j k, j ≠ id → m.NamesSlot j k → k ≠ slot := by
    rintro j k hj hnamed rfl
    exact hj (h.paired.distinct j id k hnamed hid)
  -- a file that is left was there before, in a slot of its own
  have hold : ∀ j, n.isFile j = true → ∃ k handle, j ≠ id ∧ m.NamesSlot j k ∧
      m.resources.occupant? k = some handle := by
    intro j hj
    have hne : j ≠ id := by
      rintro rfl
      rw [hgone] at hj
      contradiction
    have hj0 : j ≠ 0 := by
      rintro rfl
      rw [hn.1.head] at hj
      contradiction
    rw [isFile_of_cell hj0, hother j hne, ← isFile_of_cell hj0] at hj
    obtain ⟨k, handle, hk, hoccupant⟩ := h.paired.resolves j hj
    exact ⟨k, handle, hne, ⟨hj, hk⟩, hoccupant⟩
  refine
    { toMeasured := hn.1
      threads := hthreads
      tight := hresources ▸ h.tight.release slot
      room := by
        rw [hresources, ResourceTable.slots_size_release]
        exact Nat.lt_of_lt_of_le h.room hn.2
      paired := ⟨fun j hj => ?_, fun i j k hi hj => ?_, fun k handle hoccupant => ?_⟩
      opened := fun j handle hj hhandle => ?_ }
  · obtain ⟨k, handle, hne, hk, hoccupant⟩ := hold j hj
    refine ⟨k, handle, ((hnames j k).mpr ⟨hne, hk⟩).2, ?_⟩
    rw [hoccupants, if_neg (hkept j k hne hk)]
    exact hoccupant
  · exact h.paired.distinct i j k ((hnames i k).mp hi).2 ((hnames j k).mp hj).2
  · rw [hoccupants] at hoccupant
    split at hoccupant
    · contradiction
    · next hk =>
      obtain ⟨j, hj⟩ := h.paired.owned k handle hoccupant
      refine ⟨j, (hnames j k).mpr ⟨?_, hj⟩⟩
      rintro rfl
      exact hk (Except.ok.inj (hj.2.symm.trans hid.2))
  · obtain ⟨k, -, hne, hk, -⟩ := hold j hj
    have hthen := (handleOf_eq_ok ((hnames j k).mpr ⟨hne, hk⟩).2).mp hhandle
    rw [hoccupants, if_neg (hkept j k hne hk)] at hthen
    exact h.opened j handle hk.1 ((handleOf_eq_ok hk.2).mpr hthen)

/-- **Freeing a file closes it**, and freeing anything else is no matter of files. -/
lemma free (h : Custody opened m) (id : Nat) :
    Keeps (Custody opened) (Memory.free id) m fun _ _ => True := by
  rcases free_cases id h.sound with ⟨fault, hrun⟩ | ⟨row, head, h0, hrow, hsize, hlive, hhead, hrun⟩
  · exact .of_error hrun h
  refine .of_ok hrun ?_ trivial
  have hn := h.toMeasured.of_ok (A := fun _ => True) (performs_free id h.sound) (IgnoresRecycling.free id) hrun
  obtain ⟨ids, hids⟩ := h.threads
  have hthreads := hids.freed h.sound h.bound h0 hrow hsize hlive hhead
  have hcells : ∀ j, ((m.retired id row head.address).linked id).cell? j = _ := fun j =>
    (cell?_linked _ _ j).trans (cell?_retired h.sound h0 hrow hsize head.address j)
  have hresources : ((m.retired id row head.address).linked id).resources =
      (m.releaseResourceOf id).resources := by
    rw [linked, amended, edited, resources_touched, retired, amended, edited, resources_touched]
  generalize (m.retired id row head.address).linked id = n at *
  have hother : ∀ j, j ≠ id → n.cell? j = m.cell? j := fun j hj => (hcells j).trans (if_neg hj)
  have hgone : n.isFile id = false := by
    rw [isFile_of_cell h0, hcells, if_pos rfl]
    rfl
  have hfile : m.isFile id = row.tag.ownsResource := by rw [isFile, hrow]
  by_cases howns : row.tag.ownsResource = true
  · obtain ⟨slot, -, hslot, -⟩ := h.paired.resolves id (hfile.trans howns)
    refine h.closes hn ⟨_, hthreads⟩ ⟨hfile.trans howns, hslot⟩ (hresources.trans ?_) hgone hother
    simp only [releaseResourceOf, row_ok hrow, howns, if_pos, hslot]
  · have hrelease : (m.releaseResourceOf id).resources = m.resources := by
      simp only [releaseResourceOf, row_ok hrow, if_neg howns]
    refine h.same hn ⟨_, hthreads⟩ (hresources.trans hrelease) (fun j hj => ?_) fun j hj => ?_
    · by_cases he : j = id
      · rw [he, hgone, hfile]
        exact (Bool.not_eq_true _ ▸ howns).symm
      · rw [isFile_of_cell hj, hother j he, isFile_of_cell hj]
    · refine hother j ?_
      rintro rfl
      exact howns (hfile.symm.trans hj)

/-- **A file is opened**: its entity is a new one, and it names the slot that the file was put in. -/
lemma opens (h : Custody opened m) (hn : Measured n ∧ m.entityCount ≤ n.entityCount)
    (hthreads : ∃ ids, Threads n ids) {id : Nat} {handle : Handle}
    (hresources : n.resources = (m.resources.insert handle).2) (hold : m.isFile id = false)
    (hid : n.NamesSlot id (m.resources.insert handle).1)
    (hfile : ∀ j, j ≠ 0 → j ≠ id → n.isFile j = m.isFile j)
    (hcell : ∀ j, m.isFile j = true → n.cell? j = m.cell? j) :
    Custody ((id, handle) :: opened) n := by
  have hcoherent := h.tight.coherent
  have hoccupants := hcoherent.occupant?_insert handle
  have hvacant := hcoherent.occupant?_insert_fst handle
  rw [← hresources] at hoccupants
  have hne : ∀ j, m.isFile j = true → j ≠ id := by
    rintro j hj rfl
    rw [hold] at hj
    contradiction
  have hfile : ∀ j, j ≠ id → n.isFile j = m.isFile j := by
    intro j hj
    by_cases hj0 : j = 0
    · rw [hj0, hn.1.head, h.head]
    · exact hfile j hj0 hj
  have hnames : ∀ j k, j ≠ id → (n.NamesSlot j k ↔ m.NamesSlot j k) := by
    intro j k hj
    by_cases hj' : m.isFile j = true
    · exact h.toMeasured.namesSlot hn.1 (hcell j hj') k
    · rw [NamesSlot, NamesSlot, hfile j hj]
      exact and_congr_right fun hj'' => absurd hj'' hj'
  -- the slots of the other files are occupied, so that none of them is the new one
  have hkept : ∀ j k, m.NamesSlot j k → ∃ known, m.resources.occupant? k = some known ∧
      n.resources.occupant? k = some known := by
    intro j k hj
    obtain ⟨k', known, hk', hknown⟩ := h.paired.resolves j hj.1
    obtain rfl : k = k' := Except.ok.inj (hj.2.symm.trans hk')
    refine ⟨known, hknown, ?_⟩
    rw [hoccupants, if_neg]
    · exact hknown
    · rintro rfl
      rw [hvacant] at hknown
      contradiction
  refine
    { toMeasured := hn.1
      threads := hthreads
      tight := hresources ▸ h.tight.insert handle
      room := ?_
      paired := ⟨fun j hj => ?_, fun i j k hi hj => ?_, fun k known hknown => ?_⟩
      opened := fun j known hj hknown => ?_ }
  · rw [hresources]
    rcases h.tight.insert_cases handle with ⟨-, hsize⟩ | ⟨-, hsize, hfull⟩
    · rw [hsize]
      exact Nat.lt_of_lt_of_le h.room hn.2
    · -- every slot belongs to a file, and neither row 0 nor the new file is among these
      have hfiles : insert 0 (insert id m.files) ⊆ Finset.range n.entityCount := by
        intro j hj
        rw [Finset.mem_range]
        rcases Finset.mem_insert.mp hj with rfl | hj
        · exact hn.1.sound.entityCount_pos
        · rcases Finset.mem_insert.mp hj with rfl | hj
          · exact isFile_lt hid.1
          · exact Nat.lt_of_lt_of_le (isFile_lt (mem_files.mp hj)) hn.2
      have hnotId : id ∉ m.files := fun hmem => hne id (mem_files.mp hmem) rfl
      have hnotHead : 0 ∉ insert id m.files := by
        intro hmem
        rcases Finset.mem_insert.mp hmem with he | hmem
        · have hid' := hid.1
          rw [← he, hn.1.head] at hid'
          contradiction
        · exact h.ne_zero (mem_files.mp hmem) rfl
      have hcard := Finset.card_le_card hfiles
      rw [Finset.card_insert_of_notMem hnotHead, Finset.card_insert_of_notMem hnotId,
        Finset.card_range] at hcard
      have hlive : m.resources.live = m.files.card := h.paired.live_eq fun _ => rfl
      rw [← ResourceTable.card_occupied] at hlive
      omega
  · by_cases he : j = id
    · subst he
      exact ⟨_, handle, hid.2, (hoccupants _).trans (if_pos rfl)⟩
    · have hj := (hfile j he).symm.trans hj
      obtain ⟨k, -, hk, -⟩ := h.paired.resolves j hj
      obtain ⟨known, -, hknown⟩ := hkept j k ⟨hj, hk⟩
      exact ⟨k, known, ((hnames j k he).mpr ⟨hj, hk⟩).2, hknown⟩
  · -- a file other than the new one has an occupied slot, and the new one had an empty slot
    have hfresh : ∀ i, i ≠ id → ¬ n.NamesSlot i (m.resources.insert handle).1 := by
      intro i hi hnamed
      obtain ⟨known, hknown, -⟩ := hkept i _ ((hnames i _ hi).mp hnamed)
      rw [hvacant] at hknown
      contradiction
    have hslot : n.NamesSlot id k → k = (m.resources.insert handle).1 := fun hnamed =>
      Except.ok.inj (hnamed.2.symm.trans hid.2)
    by_cases hi' : i = id <;> by_cases hj' : j = id
    · rw [hi', hj']
    · subst hi'
      exact absurd (hslot hi ▸ hj) (hfresh j hj')
    · subst hj'
      exact absurd (hslot hj ▸ hi) (hfresh i hi')
    · exact h.paired.distinct i j k ((hnames i k hi').mp hi) ((hnames j k hj').mp hj)
  · rw [hoccupants] at hknown
    split at hknown
    · next hk => exact ⟨id, hk ▸ hid⟩
    · obtain ⟨j, hj⟩ := h.paired.owned k known hknown
      exact ⟨j, (hnames j k (hne j hj.1)).mpr hj⟩
  · by_cases he : j = id
    · subst he
      have hthen := (handleOf_eq_ok hid.2).mp hknown
      rw [hoccupants, if_pos rfl] at hthen
      rw [← Option.some.inj hthen, List.lookup_cons, BEq.rfl]
    · have hj := (hfile j he).symm.trans hj
      obtain ⟨k, -, hk, -⟩ := h.paired.resolves j hj
      obtain ⟨old, hold, hthen⟩ := hkept j k ⟨hj, hk⟩
      have hknown := (handleOf_eq_ok ((hnames j k he).mpr ⟨hj, hk⟩).2).mp hknown
      obtain rfl : old = known := Option.some.inj (hthen.symm.trans hknown)
      rw [List.lookup_cons, beq_false_of_ne he]
      exact h.opened j old hj ((handleOf_eq_ok hk).mpr hold)

end Custody

end Memory

end PostScriptCore
