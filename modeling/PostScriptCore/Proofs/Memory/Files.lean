import PostScriptCore.Proofs.Memory.Rollback
import Mathlib.Data.Finset.Card
import Mathlib.Data.Finset.Image

/-!
# Restoring a level, and the files

The slots that hold open files are not part of what a level remembers.  Closing a level empties the
slots that are named by file entities it takes from the table, and no others.

* `Memory.NamesSlot` — a file entity and its slot.
* `Memory.Paired` — file entities and open files correspond one to one.
* `Memory.occupant?_closed` — the slots after a level was closed.
* `Memory.FilesRestored` — what closing a level ought to do about files.
* `Memory.restore_keeps_files_iff` — when it does that.
-/

namespace PostScriptCore

/-! ## Slots -/

namespace ResourceTable

/-- Emptying a slot empties that slot only. -/
lemma occupant?_release (table : ResourceTable) (k slot : Nat) :
    (table.release k).2.occupant? slot = if slot = k then none else table.occupant? slot := by
  rw [release]
  split
  · next handle hk =>
    simp only [occupant?, Array.getElem?_setIfInBounds]
    by_cases hslot : slot = k
    · subst hslot
      rw [if_pos rfl, if_pos rfl]
      by_cases hlt : slot < table.slots.size
      · rw [if_pos hlt]
      · rw [if_neg hlt]
    · rw [if_neg (Ne.symm hslot), if_neg hslot]
  · next hk =>
    split
    · next hslot => rw [hslot, hk]
    · rfl

/-- The occupied slots. -/
def occupied (table : ResourceTable) : Finset Nat :=
  (Finset.range table.slots.size).filter fun slot => (table.occupant? slot).isSome

lemma occupant?_lt {table : ResourceTable} {slot : Nat} {handle : Handle}
    (h : table.occupant? slot = some handle) : slot < table.slots.size := by
  rw [occupant?] at h
  split at h
  · next hslot => exact (Array.getElem?_eq_some_iff.mp hslot).1
  · contradiction

lemma mem_occupied {table : ResourceTable} {slot : Nat} :
    slot ∈ table.occupied ↔ ∃ handle, table.occupant? slot = some handle := by
  rw [occupied, Finset.mem_filter, Finset.mem_range, Option.isSome_iff_exists]
  refine ⟨fun h => h.2, fun h => ⟨?_, h⟩⟩
  obtain ⟨handle, hhandle⟩ := h
  exact occupant?_lt hhandle

/-- Counting the entries of a list that hold something. -/
lemma length_filter_isSome (entries : List (Option Handle)) :
    (entries.filter Option.isSome).length =
      ((Finset.range entries.length).filter fun i => entries[i]?.join.isSome).card := by
  induction entries using List.reverseRecOn with
  | nil => rfl
  | append_singleton entries entry ih =>
      have hbelow : (Finset.range entries.length).filter
            (fun i => (entries ++ [entry])[i]?.join.isSome) =
          (Finset.range entries.length).filter fun i => entries[i]?.join.isSome := by
        refine Finset.filter_congr fun i hi => ?_
        rw [List.getElem?_append_left (Finset.mem_range.mp hi)]
      have hlast : (entries ++ [entry])[entries.length]? = some entry := by
        rw [List.getElem?_append_right (Nat.le_refl _), Nat.sub_self]
        rfl
      rw [List.filter_append, List.length_append, List.length_append, List.length_singleton,
        Finset.range_add_one, Finset.filter_insert, hlast, hbelow, ih]
      cases entry with
      | none => rfl
      | some handle =>
          rw [Option.join_some, if_pos Option.isSome_some, Finset.card_insert_of_notMem (by simp)]
          rfl

lemma card_occupied (table : ResourceTable) : table.occupied.card = table.live := by
  rw [live, Array.size, Array.toList_filter, length_filter_isSome, occupied]
  congr 1
  refine Finset.filter_congr fun slot _ => ?_
  rw [occupant?, Array.getElem?_toList]
  cases table.slots[slot]? <;> rfl

end ResourceTable

namespace Memory

/-! ## File entities -/

/-- Whether the entity is a live file. -/
def isFile (m : Memory) (id : Nat) : Bool :=
  match m.rows[id]? with
  | some row => row.tag.ownsResource
  | none => false

/-- The live file entity names the slot. -/
def NamesSlot (m : Memory) (id slot : Nat) : Prop :=
  m.isFile id = true ∧ m.resourceSlot id = .ok slot

/-- The open file behind a file entity. -/
def handleOf (m : Memory) (id : Nat) : Except Fault Handle :=
  match m.resourceSlot id with
  | .ok slot => m.resources.get slot
  | .error fault => .error fault

/-- A file object resolves to what its entity resolves to. -/
lemma fileHandle_eq {m : Memory} {file : Object} {id : Nat} (h : expectType file .file = .ok id) :
    m.fileHandle file = m.handleOf id := by
  rw [fileHandle, h]
  rfl

lemma handleOf_eq_ok {m : Memory} {id slot : Nat} {handle : Handle}
    (hslot : m.resourceSlot id = .ok slot) :
    m.handleOf id = .ok handle ↔ m.resources.occupant? slot = some handle := by
  rw [handleOf, hslot]
  dsimp only
  rw [ResourceTable.get]
  cases m.resources.occupant? slot with
  | none => exact ⟨(nomatch ·), (nomatch ·)⟩
  | some found => exact ⟨fun h => by rw [Except.ok.inj h], fun h => by rw [Option.some.inj h]⟩

/-- The live file entities. -/
def files (m : Memory) : Finset Nat := (Finset.range m.entityCount).filter fun id => m.isFile id

lemma isFile_lt {m : Memory} {id : Nat} (h : m.isFile id = true) : id < m.entityCount := by
  rw [isFile] at h
  split at h
  · next hrow => exact row_lt hrow
  · contradiction

lemma mem_files {m : Memory} {id : Nat} : id ∈ m.files ↔ m.isFile id = true := by
  rw [files, Finset.mem_filter, Finset.mem_range]
  exact ⟨fun h => h.2, fun h => ⟨isFile_lt h, h⟩⟩

lemma namesSlot_iff {m : Memory} {id slot : Nat} :
    m.NamesSlot id slot ↔ m.isFile id = true ∧ (m.resourceSlot id).toOption = some slot := by
  rw [NamesSlot]
  cases m.resourceSlot id with
  | ok found =>
      exact and_congr_right fun _ =>
        ⟨fun h => congrArg _ (Except.ok.inj h), fun h => congrArg _ (Option.some.inj h)⟩
  | error fault => exact and_congr_right fun _ => ⟨(nomatch ·), (nomatch ·)⟩

instance (m : Memory) (id slot : Nat) : Decidable (m.NamesSlot id slot) :=
  decidable_of_iff _ namesSlot_iff.symm

/-- The live file entities and the open files correspond one to one. -/
structure Paired (m : Memory) : Prop where
  resolves : ∀ id, m.isFile id = true → ∃ slot handle, m.resourceSlot id = .ok slot ∧
    m.resources.occupant? slot = some handle
  distinct : ∀ i j slot, m.NamesSlot i slot → m.NamesSlot j slot → i = j
  owned : ∀ slot handle, m.resources.occupant? slot = some handle → ∃ id, m.NamesSlot id slot

lemma paired_iff {m : Memory} :
    Paired m ↔ (∀ id ∈ m.files, ∃ slot ∈ m.resources.occupied, m.NamesSlot id slot) ∧
      (∀ i ∈ m.files, ∀ j ∈ m.files, ∀ slot ∈ m.resources.occupied,
        m.NamesSlot i slot → m.NamesSlot j slot → i = j) ∧
      ∀ slot ∈ m.resources.occupied, ∃ id ∈ m.files, m.NamesSlot id slot := by
  constructor
  · intro h
    refine ⟨fun id hid => ?_, fun i _ j _ slot _ => h.distinct i j slot, fun slot hslot => ?_⟩
    · obtain ⟨slot, handle, hread, hoccupant⟩ := h.resolves id (mem_files.mp hid)
      exact ⟨slot, ResourceTable.mem_occupied.mpr ⟨handle, hoccupant⟩, mem_files.mp hid, hread⟩
    · obtain ⟨handle, hoccupant⟩ := ResourceTable.mem_occupied.mp hslot
      obtain ⟨id, hnames⟩ := h.owned slot handle hoccupant
      exact ⟨id, mem_files.mpr hnames.1, hnames⟩
  · rintro ⟨hresolves, hdistinct, howned⟩
    refine ⟨fun id hid => ?_, fun i j slot hi hj => ?_, fun slot handle hoccupant => ?_⟩
    · obtain ⟨slot, hslot, -, hread⟩ := hresolves id (mem_files.mpr hid)
      obtain ⟨handle, hoccupant⟩ := ResourceTable.mem_occupied.mp hslot
      exact ⟨slot, handle, hread, hoccupant⟩
    · have hmem := mem_files.mpr hi.1
      obtain ⟨slot', hslot', -, hread⟩ := hresolves i hmem
      obtain rfl : slot = slot' := Except.ok.inj (hi.2.symm.trans hread)
      exact hdistinct i hmem j (mem_files.mpr hj.1) slot hslot' hi hj
    · obtain ⟨id, -, hnames⟩ := howned slot (ResourceTable.mem_occupied.mpr ⟨handle, hoccupant⟩)
      exact ⟨id, hnames⟩

instance (m : Memory) : Decidable (Paired m) := decidable_of_iff _ paired_iff.symm

/-- The slot of a file entity, if it can be read. -/
def slotOf (m : Memory) (id : Nat) : Nat :=
  match m.resourceSlot id with
  | .ok slot => slot
  | .error _ => 0

lemma slotOf_eq {m : Memory} {id slot : Nat} (h : m.resourceSlot id = .ok slot) :
    m.slotOf id = slot := by
  rw [slotOf, h]

lemma Paired.mem_image {m : Memory} (h : Paired m) {slot : Nat} :
    slot ∈ m.files.image m.slotOf ↔ ∃ handle, m.resources.occupant? slot = some handle := by
  rw [Finset.mem_image]
  constructor
  · rintro ⟨id, hid, rfl⟩
    obtain ⟨slot, handle, hslot, hhandle⟩ := h.resolves id (mem_files.mp hid)
    rw [slotOf_eq hslot]
    exact ⟨handle, hhandle⟩
  · rintro ⟨handle, hhandle⟩
    obtain ⟨id, hfile, hslot⟩ := h.owned slot handle hhandle
    exact ⟨id, mem_files.mpr hfile, slotOf_eq hslot⟩

lemma Paired.card_image {m : Memory} (h : Paired m) :
    (m.files.image m.slotOf).card = m.files.card := by
  refine Finset.card_image_of_injOn fun i hi j hj hsame => ?_
  have hi := mem_files.mp hi
  have hj := mem_files.mp hj
  obtain ⟨slot, -, hslot, -⟩ := h.resolves i hi
  obtain ⟨slot', -, hslot', -⟩ := h.resolves j hj
  rw [slotOf_eq hslot, slotOf_eq hslot'] at hsame
  subst hsame
  exact h.distinct i j slot ⟨hi, hslot⟩ ⟨hj, hslot'⟩

/-- **A table serves the same files as before** if each file finds its handle where it was and there
are as many open files as file entities. -/
lemma Paired.occupant?_eq {m : Memory} (h : Paired m) {table : ResourceTable}
    (hresolves : ∀ id slot, m.NamesSlot id slot →
      table.occupant? slot = m.resources.occupant? slot)
    (hcount : table.live = m.files.card) (slot : Nat) :
    table.occupant? slot = m.resources.occupant? slot := by
  -- the slots of the files are occupied, and the count leaves no room for any other
  have hsubset : m.files.image m.slotOf ⊆ table.occupied := by
    intro slot hmem
    obtain ⟨handle, hhandle⟩ := h.mem_image.mp hmem
    obtain ⟨id, hnames⟩ := h.owned slot handle hhandle
    exact ResourceTable.mem_occupied.mpr ⟨handle, (hresolves id slot hnames).trans hhandle⟩
  have heq : m.files.image m.slotOf = table.occupied := by
    refine Finset.eq_of_subset_of_card_le hsubset ?_
    rw [ResourceTable.card_occupied, hcount, h.card_image]
  cases hoccupant : m.resources.occupant? slot with
  | some handle =>
      obtain ⟨id, hnames⟩ := h.owned slot handle hoccupant
      exact (hresolves id slot hnames).trans hoccupant
  | none =>
      cases hfound : table.occupant? slot with
      | none => rfl
      | some handle =>
          have hmem := ResourceTable.mem_occupied.mpr ⟨handle, hfound⟩
          rw [← heq] at hmem
          obtain ⟨handle', hhandle'⟩ := h.mem_image.mp hmem
          rw [hoccupant] at hhandle'
          contradiction

/-- Conversely, a table with the same occupants has as many of them as there are files. -/
lemma Paired.live_eq {m : Memory} (h : Paired m) {table : ResourceTable}
    (hsame : ∀ slot, table.occupant? slot = m.resources.occupant? slot) :
    table.live = m.files.card := by
  have heq : table.occupied = m.files.image m.slotOf := by
    ext slot
    rw [ResourceTable.mem_occupied, h.mem_image, hsame]
  rw [← ResourceTable.card_occupied, heq, h.card_image]

/-! ## Closing a level -/

/-- Which slot an entity names depends on its row and its storage, not on what the slots hold. -/
lemma namesSlot_releaseResourceOf (m : Memory) (k id slot : Nat) :
    (m.releaseResourceOf k).NamesSlot id slot ↔ m.NamesSlot id slot := by
  rw [releaseResourceOf_eq]
  rfl

lemma occupant?_releaseResourceOf (m : Memory) (id slot : Nat) :
    ((m.releaseResourceOf id).resources.occupant? slot = none ∧ m.NamesSlot id slot) ∨
      ((m.releaseResourceOf id).resources.occupant? slot = m.resources.occupant? slot ∧
        ¬ m.NamesSlot id slot) := by
  rw [releaseResourceOf]
  split
  · next hrow =>
    refine .inr ⟨rfl, fun h => ?_⟩
    obtain ⟨row, hrow'⟩ := exists_row (isFile_lt h.1)
    rw [row_ok hrow'] at hrow
    contradiction
  · next row hrow =>
    have hfile : m.isFile id = row.tag.ownsResource := by
      rw [isFile, row_eq_ok_iff.mp hrow]
    split
    · next howns =>
      split
      · next k hk =>
        rw [ResourceTable.occupant?_release]
        by_cases hslot : slot = k
        · subst hslot
          exact .inl ⟨if_pos rfl, hfile.trans howns, hk⟩
        · refine .inr ⟨if_neg hslot, fun h => hslot ?_⟩
          rw [h.2] at hk
          exact Except.ok.inj hk
      · next hk =>
        refine .inr ⟨rfl, fun h => ?_⟩
        rw [h.2] at hk
        contradiction
    · next howns =>
      exact .inr ⟨rfl, fun h => howns (hfile.symm.trans h.1)⟩

/-- Emptying the slots of some entities empties exactly the slots that one of them names. -/
lemma occupant?_foldl_release (ids : List Nat) (m : Memory) (slot : Nat) :
    ((∃ id ∈ ids, m.NamesSlot id slot) →
      (ids.foldl releaseResourceOf m).resources.occupant? slot = none) ∧
    ((¬ ∃ id ∈ ids, m.NamesSlot id slot) →
      (ids.foldl releaseResourceOf m).resources.occupant? slot =
        m.resources.occupant? slot) := by
  induction ids generalizing m with
  | nil =>
      refine ⟨?_, fun _ => rfl⟩
      rintro ⟨_, hmem, -⟩
      exact absurd hmem List.not_mem_nil
  | cons id rest ih =>
      rw [List.foldl_cons]
      obtain ⟨hnamed, hother⟩ := ih (m.releaseResourceOf id)
      simp only [namesSlot_releaseResourceOf] at hnamed hother
      by_cases hrest : ∃ j ∈ rest, m.NamesSlot j slot
      · refine ⟨fun _ => hnamed hrest, fun hnot => absurd ?_ hnot⟩
        obtain ⟨j, hmem, hj⟩ := hrest
        exact ⟨j, List.mem_cons_of_mem _ hmem, hj⟩
      · rw [hother hrest]
        rcases occupant?_releaseResourceOf m id slot with ⟨hnone, hid⟩ | ⟨hsame, hid⟩
        · exact ⟨fun _ => hnone, fun hnot => absurd ⟨id, List.mem_cons_self .., hid⟩ hnot⟩
        · refine ⟨?_, fun _ => hsame⟩
          rintro ⟨j, hmem, hj⟩
          rcases List.mem_cons.mp hmem with rfl | hmem
          · exact absurd hj hid
          · exact absurd ⟨j, hmem, hj⟩ hrest

/-- What a level remembers lies below the cursor of its opening. -/
lemma Covers.spans_lt {m : Memory} (hs : Sound m) {record : SaveRecord} (hc : Covers m record)
    {s : Snapshot} (hmem : s ∈ record.snapshots) {a : Nat} (ha : s.Spans a) : a < record.used := by
  have hm := hc.known s hmem
  obtain ⟨row, hrow, hsize, haddress⟩ := hm.place
  rw [Snapshot.Spans] at ha
  have h0 : s.id ≠ 0 := by
    intro h0
    obtain ⟨head, hhead, hz⟩ := hs.layout.head
    rw [h0, hhead] at hrow
    obtain rfl := Option.some.inj hrow
    omega
  have hold := hc.old s.id row (Nat.pos_of_ne_zero h0) hm.old hrow
  rw [haddress h0] at hold
  omega

/-- Putting snapshots back leaves the rows and bytes of newer entities alone. -/
lemma putBackAll_newer (snapshots : List Snapshot) {m : Memory} {count used : Nat}
    (hold : ∀ s ∈ snapshots, s.id < count ∧ s.bytes.length = s.row.size ∧
      ∀ a, s.Spans a → a < used) :
    (∀ id, count ≤ id → (m.putBackAll snapshots).rows[id]? = m.rows[id]?) ∧
      ∀ a, used ≤ a → (m.putBackAll snapshots).arena.image.byte a = m.arena.image.byte a := by
  induction snapshots generalizing m with
  | nil => exact ⟨fun _ _ => rfl, fun _ _ => rfl⟩
  | cons s rest ih =>
      obtain ⟨hid, hlength, hspans⟩ := hold s (List.mem_cons_self ..)
      obtain ⟨hrows, hbytes⟩ := ih (m := m.putBack s) fun t ht => hold t (List.mem_cons_of_mem _ ht)
      rw [putBackAll_cons]
      refine ⟨fun id hle => (hrows id hle).trans ?_, fun a hle => (hbytes a hle).trans ?_⟩
      · rw [putBack, Array.getElem?_modify, if_neg (by omega)]
      · refine (byte_putBack m s hlength a).1 fun ha => ?_
        have := hspans a ha
        omega

lemma namesSlot_congr {m n : Memory} {id : Nat} (hrow : n.rows[id]? = m.rows[id]?)
    (harena : n.arena = { m.arena with image := n.arena.image })
    (hbyte : ∀ row, m.rows[id]? = some row → ∀ a, row.address ≤ a →
      n.arena.image.byte a = m.arena.image.byte a) (slot : Nat) :
    n.NamesSlot id slot ↔ m.NamesSlot id slot := by
  have hfile : n.isFile id = m.isFile id := by rw [isFile, isFile, hrow]
  have hcheck : n.checkedAddress id 0 4 = m.checkedAddress id 0 4 := by
    rw [checkedAddress, checkedAddress, row, row, hrow]
  have hbytes : n.bytesAt id 0 4 = m.bytesAt id 0 4 := by
    rw [bytesAt, bytesAt, hcheck]
    cases haddress : m.checkedAddress id 0 4 with
    | error fault => rfl
    | ok address =>
        obtain ⟨r, hr, -, rfl⟩ := checkedAddress_eq_ok haddress
        have hread : n.arena.image.read (r.address + 0) 4 = m.arena.image.read (r.address + 0) 4 :=
          Image.read_congr fun a ha _ => hbyte r hr a ha
        have hobstacle :
            n.arena.obstacle? (r.address + 0) 4 = m.arena.obstacle? (r.address + 0) 4 := by
          rw [harena]
          rfl
        dsimp only
        rw [Arena.read, Arena.read, hread, hobstacle]
  have hslot : n.resourceSlot id = m.resourceSlot id := by
    rw [resourceSlot, resourceSlot, readWord, readWord, hbytes]
  rw [NamesSlot, NamesSlot, hfile, hslot]

/-- A newer entity names the same slot after the snapshots were put back. -/
lemma namesSlot_putBackAll {m : Memory} (hs : Sound m) {record : SaveRecord}
    {outer : List SaveRecord} (hsaves : m.saves = record :: outer) {id slot : Nat}
    (hid : record.entityCount ≤ id) :
    (putBackAll { m with saves := outer } record.snapshots).NamesSlot id slot ↔
      m.NamesSlot id slot := by
  have hc := hs.restorable.covers hsaves
  obtain ⟨hrows, hbytes⟩ := putBackAll_newer record.snapshots (m := { m with saves := outer })
    fun s hmem => ⟨(hc.known s hmem).old, (hc.known s hmem).length, fun a => hc.spans_lt hs hmem⟩
  obtain ⟨rows, image, hback⟩ := putBackAll_eq record.snapshots { m with saves := outer }
  refine namesSlot_congr (hrows id hid) (by rw [hback]) (fun row hrow a ha => hbytes a ?_) slot
  have hnew := (hc.new id _ hid (outline_of_row hrow)).1
  rw [Row.plain_address] at hnew
  exact Nat.le_trans hnew ha

/-- The slot is named by a live file that is not among the first `count` entities. -/
def NamedFrom (m : Memory) (count slot : Nat) : Prop := ∃ id, count ≤ id ∧ m.NamesSlot id slot

lemma namedFrom_iff {m : Memory} {count slot : Nat} :
    m.NamedFrom count slot ↔ ∃ id ∈ m.files, count ≤ id ∧ m.NamesSlot id slot := by
  refine exists_congr fun id => ⟨fun h => ⟨mem_files.mpr h.2.1, h⟩, fun h => h.2⟩

instance (m : Memory) (count slot : Nat) : Decidable (m.NamedFrom count slot) :=
  decidable_of_iff _ namedFrom_iff.symm

/-- **The slots after a level was closed**: those that a newer file entity names are empty, the
others are as they were. -/
lemma occupant?_closed {m : Memory} (hs : Sound m) {record : SaveRecord} {outer : List SaveRecord}
    (hsaves : m.saves = record :: outer) (slot : Nat) :
    (m.NamedFrom record.entityCount slot → m.closed.resources.occupant? slot = none) ∧
      (¬ m.NamedFrom record.entityCount slot →
        m.closed.resources.occupant? slot = m.resources.occupant? slot) := by
  have hids : (∃ id ∈ List.range' record.entityCount (m.entityCount - record.entityCount),
      (putBackAll { m with saves := outer } record.snapshots).NamesSlot id slot) ↔
        m.NamedFrom record.entityCount slot := by
    refine exists_congr fun id => ?_
    rw [List.mem_range'_1]
    constructor
    · rintro ⟨hid, hnames⟩
      exact ⟨hid.1, (namesSlot_putBackAll hs hsaves hid.1).mp hnames⟩
    · rintro ⟨hid, hnames⟩
      have hlt := isFile_lt hnames.1
      exact ⟨⟨hid, by omega⟩, (namesSlot_putBackAll hs hsaves hid).mpr hnames⟩
  have hresources : (putBackAll { m with saves := outer } record.snapshots).resources =
      m.resources := by
    obtain ⟨rows, image, hback⟩ := putBackAll_eq record.snapshots { m with saves := outer }
    rw [hback]
  have hfold := occupant?_foldl_release
    (List.range' record.entityCount (m.entityCount - record.entityCount))
    (putBackAll { m with saves := outer } record.snapshots) slot
  rw [hids, hresources] at hfold
  rw [closed_of_saves hsaves]
  exact hfold

/-! ## Files and levels -/

/-- What restoring a level ought to do about files, where `base` is the memory when the level was
opened and `during` what has happened since: files opened since are closed, files from before
resolve as they did, and file entities and open files correspond. -/
structure FilesRestored (base : Memory) (during : List MemoryOp) (n : Memory) : Prop where
  closes : ∀ handle writable roots, MemoryOp.newFile handle writable roots ∈ during →
    (∀ slot, base.resources.occupant? slot ≠ some handle) →
    ∀ slot, n.resources.occupant? slot ≠ some handle
  resolves : ∀ id, base.isFile id = true → n.isFile id = true ∧
    ∃ handle, base.handleOf id = .ok handle ∧ n.handleOf id = .ok handle ∧
      ∀ file, expectType file .file = .ok id → n.fileHandle file = .ok handle
  count : n.openResources = n.files.card
  distinct : ∀ i j slot, n.NamesSlot i slot → n.NamesSlot j slot → i = j

/-- Right before a level is closed, where `base` is the memory when it was opened: every file that
was open then still is, in a slot that no newer entity names, and every other open file belongs to an
entity that was added to the table since. -/
structure FilesFollow (base m : Memory) : Prop where
  kept : ∀ slot handle, base.resources.occupant? slot = some handle →
    m.resources.occupant? slot = some handle ∧ ¬ m.NamedFrom base.entityCount slot
  newer : ∀ slot handle, m.resources.occupant? slot = some handle →
    base.resources.occupant? slot = some handle ∨ m.NamedFrom base.entityCount slot

lemma filesFollow_iff_occupied {base m : Memory} :
    FilesFollow base m ↔
      (∀ slot ∈ base.resources.occupied,
        m.resources.occupant? slot = base.resources.occupant? slot ∧
          ¬ m.NamedFrom base.entityCount slot) ∧
      ∀ slot ∈ m.resources.occupied,
        base.resources.occupant? slot = m.resources.occupant? slot ∨
          m.NamedFrom base.entityCount slot := by
  constructor
  · intro h
    refine ⟨fun slot hslot => ?_, fun slot hslot => ?_⟩
    · obtain ⟨handle, hoccupant⟩ := ResourceTable.mem_occupied.mp hslot
      rw [hoccupant]
      exact h.kept slot handle hoccupant
    · obtain ⟨handle, hoccupant⟩ := ResourceTable.mem_occupied.mp hslot
      rw [hoccupant]
      exact h.newer slot handle hoccupant
  · rintro ⟨hkept, hnewer⟩
    refine ⟨fun slot handle hoccupant => ?_, fun slot handle hoccupant => ?_⟩
    · rw [← hoccupant]
      exact hkept slot (ResourceTable.mem_occupied.mpr ⟨handle, hoccupant⟩)
    · rw [← hoccupant]
      exact hnewer slot (ResourceTable.mem_occupied.mpr ⟨handle, hoccupant⟩)

instance (base m : Memory) : Decidable (FilesFollow base m) :=
  decidable_of_iff _ filesFollow_iff_occupied.symm

lemma Alike.isFile {m n : Memory} (h : Alike m n) (id : Nat) : n.isFile id = m.isFile id := by
  have houtline := h.outline id
  rw [Memory.outline, Memory.outline] at houtline
  rw [Memory.isFile, Memory.isFile]
  cases hm : m.rows[id]? with
  | none =>
      rw [hm] at houtline
      rw [Option.map_eq_none_iff.mp houtline.symm]
  | some row =>
      rw [hm] at houtline
      obtain ⟨row', hrow', hplain⟩ := Option.map_eq_some_iff.mp houtline.symm
      rw [hrow']
      have htag : row'.tag = row.tag := by rw [← Row.plain_tag row', hplain, Row.plain_tag]
      simp only [htag]

section Closing

variable {base m : Memory} {record : SaveRecord} {outer : List SaveRecord}

/-- The files follow the level exactly if closing it brings the occupants of all slots back. -/
lemma filesFollow_iff (hs : Sound m) (hsaves : m.saves = record :: outer)
    (hcount : record.entityCount = base.entityCount) :
    FilesFollow base m ↔
      ∀ slot, m.closed.resources.occupant? slot = base.resources.occupant? slot := by
  have hclosed := occupant?_closed hs hsaves
  rw [hcount] at hclosed
  constructor
  · intro h slot
    by_cases hnamed : m.NamedFrom base.entityCount slot
    · rw [(hclosed slot).1 hnamed]
      cases hbase : base.resources.occupant? slot with
      | none => rfl
      | some handle => exact absurd hnamed (h.kept slot handle hbase).2
    · rw [(hclosed slot).2 hnamed]
      cases hbase : base.resources.occupant? slot with
      | some handle => exact (h.kept slot handle hbase).1
      | none =>
          cases hm : m.resources.occupant? slot with
          | none => rfl
          | some handle =>
              rcases h.newer slot handle hm with hkept | hnamed'
              · rw [hbase] at hkept
                contradiction
              · exact absurd hnamed' hnamed
  · intro h
    refine ⟨fun slot handle hbase => ?_, fun slot handle hm => ?_⟩
    · rw [← h slot] at hbase
      by_cases hnamed : m.NamedFrom base.entityCount slot
      · rw [(hclosed slot).1 hnamed] at hbase
        contradiction
      · rw [(hclosed slot).2 hnamed] at hbase
        exact ⟨hbase, hnamed⟩
    · by_cases hnamed : m.NamedFrom base.entityCount slot
      · exact .inr hnamed
      · rw [← (hclosed slot).2 hnamed, h slot] at hm
        exact .inl hm

/-- If closing a level leads back to `base`, it restores the files exactly if it brings the occupants
of all slots back. -/
lemma filesRestored_iff {n : Memory} (hb : Sound base) (hn : Sound n) (hpaired : Paired base)
    (hback : Alike base n) (during : List MemoryOp) :
    FilesRestored base during n ↔
      ∀ slot, n.resources.occupant? slot = base.resources.occupant? slot := by
  have hslot : ∀ id, n.resourceSlot id = base.resourceSlot id := fun id =>
    hback.readWord hb hn id 0
  have hnames : ∀ id slot, n.NamesSlot id slot ↔ base.NamesSlot id slot := by
    intro id slot
    rw [NamesSlot, NamesSlot, hback.isFile, hslot]
  have hfiles : n.files = base.files := by
    ext id
    rw [mem_files, mem_files, hback.isFile]
  constructor
  · intro h
    refine hpaired.occupant?_eq (fun id slot hid => ?_) (by rw [← hfiles]; exact h.count)
    obtain ⟨-, handle, hbase, hthen, -⟩ := h.resolves id hid.1
    rw [(handleOf_eq_ok hid.2).mp hbase, ← handleOf_eq_ok ((hslot id).trans hid.2)]
    exact hthen
  · intro h
    refine ⟨fun handle writable roots _ hfresh slot => ?_, fun id hid => ⟨?_, ?_⟩, ?_,
      fun i j slot hi hj => ?_⟩
    · rw [h slot]
      exact hfresh slot
    · rw [hback.isFile]
      exact hid
    · obtain ⟨slot, handle, hread, hoccupant⟩ := hpaired.resolves id hid
      have hthen : n.handleOf id = .ok handle := by
        rw [handleOf_eq_ok ((hslot id).trans hread), h slot]
        exact hoccupant
      refine ⟨handle, (handleOf_eq_ok hread).mpr hoccupant, hthen, fun file hfile => ?_⟩
      rw [fileHandle_eq hfile]
      exact hthen
    · rw [openResources, hfiles]
      exact hpaired.live_eq h
    · exact hpaired.distinct i j slot ((hnames i slot).mp hi) ((hnames j slot).mp hj)

end Closing

/-- The memory once every level inside `level` has been closed. -/
def downTo (m : Memory) (level : Nat) : Memory := closed^[m.level - level] m

/-- **When restoring a level restores the files.**  Let the files of a memory correspond to its file
entities, and let a level be opened, anything be done that leaves it open, and the level be restored.
Then the files are restored exactly if they follow the level: those from before are still open, and
the others belong to entities that the table did not have. -/
theorem restore_keeps_files_iff {bank : Bank} {backing : Backing} {settings : Settings}
    {start : Memory} (hstart : withBacking bank backing settings = .ok start)
    (before : List MemoryOp) (hdepth : (start.afterAll before).level < Mark.maxLevel)
    (hpaired : (start.afterAll before).Paired) (during : List MemoryOp)
    (hduring : ∀ op ∈ during, op.staysAbove ((start.afterAll before).level + 1)) :
    ∃ m n, save (start.afterAll before) = .ok ((start.afterAll before).level + 1) m ∧
      restore ((start.afterAll before).level + 1) (m.afterAll during) = .ok () n ∧
      (FilesRestored (start.afterAll before) during n ↔
        FilesFollow (start.afterAll before)
          ((m.afterAll during).downTo ((start.afterAll before).level + 1))) := by
  have hb := sound_afterAll (sound_of_withBacking hstart) before
  generalize start.afterAll before = base at *
  have hleads := (leads_opened hb hdepth).afterAll hduring
  refine ⟨base.opened, _, save_run hdepth, restore_run hleads.sound (Nat.succ_ne_zero _)
    hleads.above, ?_⟩
  generalize base.opened.afterAll during = m at *
  have habove := hleads.above
  -- the last level to be closed is the one that was opened at `base`
  have hinner : Sound (m.downTo (base.level + 1)) := sound_iterate_closed _ hleads.sound
  have hlevel : (m.downTo (base.level + 1)).level = base.level + 1 := by
    rw [downTo, level_iterate_closed]
    omega
  obtain ⟨record, outer, hsaves⟩ := List.exists_cons_of_length_pos
    (l := (m.downTo (base.level + 1)).saves) (Nat.lt_of_lt_of_eq (Nat.succ_pos _) hlevel.symm)
  have hclosed : closed^[m.level - (base.level + 1) + 1] m = (m.downTo (base.level + 1)).closed :=
    Function.iterate_succ_apply' _ _ _
  have hback : Alike base (m.downTo (base.level + 1)).closed := by
    have hsub : m.level - base.level = m.level - (base.level + 1) + 1 := by omega
    have h := hleads.alike
    rw [hsub, hclosed] at h
    exact h
  have hcount : record.entityCount = base.entityCount := by
    rw [← entityCount_closed (hinner.closable hsaves) hsaves, hback.count]
  rw [hclosed, filesFollow_iff hinner hsaves hcount]
  exact filesRestored_iff hb (sound_closed hinner) hpaired hback during

/-- One file is open. -/
def fileRun : List MemoryOp := [.newFile 3 true []]

/-- Another file is opened inside the level, in a new entity. -/
theorem restore_keeps_files_iff_newer_file :
    (freshLocal.afterAll fileRun).Paired ∧
      ∃ m n, save (freshLocal.afterAll fileRun) = .ok 1 m ∧
        restore 1 (m.afterAll [.newFile 7 true []]) = .ok () n ∧
        FilesRestored (freshLocal.afterAll fileRun) [.newFile 7 true []] n := by
  have hpaired : (freshLocal.afterAll fileRun).Paired := by decide +kernel
  have hlevel : (freshLocal.afterAll fileRun).level = 0 := by decide +kernel
  have hdepth : (freshLocal.afterAll fileRun).level < Mark.maxLevel := by
    rw [hlevel]
    decide
  obtain ⟨m, n, hsave, hrestore, hiff⟩ := restore_keeps_files_iff withBacking_freshLocal
    fileRun hdepth hpaired [.newFile 7 true []] (by decide)
  rw [hlevel] at hsave hrestore hiff
  refine ⟨hpaired, m, n, hsave, hrestore, hiff.mpr ?_⟩
  have hopened := save_run hdepth
  rw [hsave] at hopened
  injection hopened with _ hm
  rw [hm]
  decide +kernel

/-- An entity is free that a file fits into. -/
def freedRun : List MemoryOp := [.newString (List.replicate 8 0) [], .free 1]

/-- Inside a level, a file is opened in the free entity. -/
def recyclingFile : Memory := (freshLocal.afterAll freedRun).opened.afterAll [.newFile 7 true []]

/-- The table takes the entity back, but the file stays open. -/
theorem restore_leaves_recycled_file_open :
    (freshLocal.afterAll freedRun).Paired ∧
      ∃ m n, save (freshLocal.afterAll freedRun) = .ok 1 m ∧
        restore 1 (m.afterAll [.newFile 7 true []]) = .ok () n ∧
        n.openResources = 1 ∧ n.files = ∅ ∧
        ¬ FilesRestored (freshLocal.afterAll freedRun) [.newFile 7 true []] n := by
  have hlevel : (freshLocal.afterAll freedRun).level = 0 := by decide +kernel
  have hdepth : (freshLocal.afterAll freedRun).level < Mark.maxLevel := by
    rw [hlevel]
    decide
  have hsave := save_run hdepth
  rw [hlevel] at hsave
  have hs : recyclingFile.Sound := sound_afterAll (sound_opened (sound_freshLocal freedRun) hdepth) _
  have hinside : recyclingFile.level = 1 := by decide +kernel
  have hrestore := restore_run hs Nat.one_ne_zero hinside.ge
  rw [hinside] at hrestore
  have hcount : recyclingFile.closed.openResources = 1 := by decide +kernel
  have hfiles : recyclingFile.closed.files = ∅ := by decide +kernel
  refine ⟨by decide +kernel, _, _, hsave, hrestore, hcount, hfiles, fun h => ?_⟩
  have hequal : recyclingFile.closed.openResources = recyclingFile.closed.files.card := h.count
  rw [hcount, hfiles] at hequal
  contradiction

end Memory

end PostScriptCore
