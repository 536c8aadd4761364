import PostScriptCore.Proofs.Memory.Sweeping

/-!
# Memories as tables of cells

Addresses are nobody's business but the table's.  What can be observed of an entity is its tag and
the bytes of its storage, and in a sound memory every reading operation is a function of these and
every writing operation changes them for one entity at a time.

* `Cell`, `Memory.cell?` — the tag and the bytes of an entity.
* `Memory.bytesAt_cell`, `Memory.readWord_cell`, `Memory.readObject_cell` — reading through cells.
* `patched` — a list of bytes after part of it was overwritten.
* `Memory.cell?_amended` — the one law of writing: an amended entity gets new bytes, and every other
  cell is what it was.  The cells after `put`, `free`, `reuse` and an allocation follow from it.
-/

namespace PostScriptCore

/-- What can be observed of an entity. -/
structure Cell where
  tag : Tag
  bytes : List UInt8
  deriving DecidableEq

/-- Whether the cell belongs to no live entity. -/
def Cell.isFree (cell : Cell) : Bool := cell.tag.kind == .free

/-- The bytes `old` after `bytes` were written at `offset`. -/
def patched (old : List UInt8) (offset : Nat) (bytes : List UInt8) : List UInt8 :=
  old.take offset ++ bytes ++ old.drop (offset + bytes.length)

lemma getElem?_patched {old bytes : List UInt8} {offset : Nat}
    (h : offset + bytes.length ≤ old.length) (i : Nat) :
    (patched old offset bytes)[i]? =
      if offset ≤ i ∧ i < offset + bytes.length then bytes[i - offset]? else old[i]? := by
  have hmin : min offset old.length = offset := by omega
  simp only [patched, List.getElem?_append, List.length_append, List.length_take,
    List.getElem?_take, List.getElem?_drop, hmin]
  rcases Nat.lt_or_ge i offset with hi | hi
  · rw [if_pos (by omega), if_pos hi, if_pos hi, if_neg (by omega)]
  · by_cases hin : i < offset + bytes.length
    · rw [if_pos hin, if_neg (by omega), if_pos ⟨hi, hin⟩]
    · rw [if_neg hin, if_neg (by omega)]
      congr 1
      omega

@[simp] lemma length_patched {old bytes : List UInt8} {offset : Nat}
    (h : offset + bytes.length ≤ old.length) : (patched old offset bytes).length = old.length := by
  simp only [patched, List.length_append, List.length_take, List.length_drop]
  omega

/-- What was written reads back. -/
lemma take_drop_patched {old bytes : List UInt8} {offset : Nat}
    (h : offset + bytes.length ≤ old.length) :
    ((patched old offset bytes).drop offset).take bytes.length = bytes := by
  have hlen : (old.take offset).length = offset := by simp; omega
  rw [patched, List.append_assoc, List.drop_append_of_le_length (Nat.le_of_eq hlen.symm),
    List.drop_of_length_le (Nat.le_of_eq hlen), List.nil_append, List.take_left]

/-- A range that the written bytes do not touch reads as before. -/
lemma take_drop_patched_of_outside {old bytes : List UInt8} {offset start count : Nat}
    (h : offset + bytes.length ≤ old.length)
    (hout : start + count ≤ offset ∨ offset + bytes.length ≤ start) :
    ((patched old offset bytes).drop start).take count = (old.drop start).take count := by
  refine List.ext_getElem? fun i => ?_
  simp only [List.getElem?_take, List.getElem?_drop]
  split
  · rw [getElem?_patched h, if_neg (by omega)]
  · rfl

namespace Image

lemma getElem?_read (image : Image) (offset count i : Nat) :
    (image.read offset count)[i]? = if i < count then some (image.byte (offset + i)) else none := by
  rw [read, List.getElem?_map]
  split
  · next hi => rw [List.getElem?_range' hi, Nat.one_mul]; rfl
  · next hi => rw [List.getElem?_eq_none (by simp; omega)]; rfl

/-- Part of a range is a range. -/
lemma take_drop_read (image : Image) {address size offset count : Nat}
    (h : offset + count ≤ size) :
    ((image.read address size).drop offset).take count = image.read (address + offset) count := by
  refine List.ext_getElem? fun i => ?_
  simp only [List.getElem?_take, List.getElem?_drop, getElem?_read]
  split
  · rw [if_pos (by omega), Nat.add_assoc]
  · rfl

lemma read_write_patched (image : Image) {address size offset : Nat} {bytes : List UInt8}
    (h : offset + bytes.length ≤ size) :
    (image.write (address + offset) bytes).read address size =
      patched (image.read address size) offset bytes := by
  refine List.ext_getElem? fun i => ?_
  rw [getElem?_patched (by simpa using h), getElem?_read, getElem?_read, byte_write]
  by_cases hin : offset ≤ i ∧ i < offset + bytes.length
  · rw [if_pos (by omega), if_pos (by omega), if_pos hin, List.getD_eq_getElem?_getD,
      show address + i - (address + offset) = i - offset by omega,
      List.getElem?_eq_getElem (by omega)]
    rfl
  · rw [if_neg hin]
    split
    · rw [if_neg (by omega)]
    · rfl

lemma read_zero (image : Image) (address size : Nat) :
    (image.zero address (address + size)).read address size = List.replicate size 0 := by
  refine List.ext_getElem? fun i => ?_
  rw [getElem?_read, List.getElem?_replicate, byte_zero]
  split
  · rw [if_pos (by omega)]
  · rfl

end Image

namespace Memory

/-! ## Cells -/

/-- The cell of an entity.  The reserved row is none. -/
def cell? (m : Memory) (id : Nat) : Option Cell :=
  if id = 0 then none
  else m.rows[id]?.map fun row => ⟨row.tag, m.arena.image.read row.address row.size⟩

/-- The first entity of the free list, or zero. -/
def head? (m : Memory) : Option Nat := m.rows[0]?.map Row.address

variable {m n : Memory}

lemma cell?_of_row {id : Nat} {row : Row} (hid : id ≠ 0) (hrow : m.rows[id]? = some row) :
    m.cell? id = some ⟨row.tag, m.arena.image.read row.address row.size⟩ := by
  rw [cell?, if_neg hid, hrow]
  rfl

lemma row_of_cell {id : Nat} {cell : Cell} (h : m.cell? id = some cell) :
    ∃ row, id ≠ 0 ∧ m.rows[id]? = some row ∧ row.tag = cell.tag ∧ row.size = cell.bytes.length ∧
      m.arena.image.read row.address row.size = cell.bytes := by
  rw [cell?] at h
  split at h
  · contradiction
  · next hid =>
    obtain ⟨row, hrow, rfl⟩ := Option.map_eq_some_iff.mp h
    exact ⟨row, hid, hrow, rfl, by simp, rfl⟩

lemma cell_lt {id : Nat} {cell : Cell} (h : m.cell? id = some cell) : id < m.entityCount := by
  obtain ⟨row, -, hrow, -⟩ := row_of_cell h
  exact row_lt hrow

lemma ne_zero_of_cell {id : Nat} {cell : Cell} (h : m.cell? id = some cell) : id ≠ 0 := by
  obtain ⟨row, hid, -⟩ := row_of_cell h
  exact hid

lemma exists_cell {id : Nat} (hid : id ≠ 0) (hlt : id < m.entityCount) :
    ∃ cell, m.cell? id = some cell := by
  obtain ⟨row, hrow⟩ := exists_row hlt
  exact ⟨_, cell?_of_row hid hrow⟩

lemma freeHead_of_head {head : Nat} (h : m.head? = some head) : m.freeHead = .ok head := by
  obtain ⟨row, hrow, rfl⟩ := Option.map_eq_some_iff.mp h
  rw [freeHead, row_ok hrow]

/-! ## Reading -/

lemma bytesAt_cell (hs : Sound m) {id : Nat} {cell : Cell} (h : m.cell? id = some cell)
    (offset count : Nat) :
    m.bytesAt id offset count =
      if offset + count ≤ cell.bytes.length then .ok ((cell.bytes.drop offset).take count)
      else .error .rangeCheck := by
  obtain ⟨row, hid, hrow, -, hsize, hread⟩ := row_of_cell h
  rw [bytesAt, ← hsize]
  split_ifs with hfit
  · have hend := (hs.fits hid hrow).2.2
    rw [checkedAddress_ok hs hid hrow hfit]
    dsimp only
    rw [Arena.read, hs.arena.obstacle?_eq_none (by omega), ← hread, Image.take_drop_read _ hfit]
  · have hcheck : m.checkedAddress id offset count = .error .rangeCheck := by
      rw [checkedAddress, row_ok hrow]
      exact if_pos (Nat.lt_of_not_le hfit)
    rw [hcheck]

lemma bytes_cell (hs : Sound m) {id : Nat} {cell : Cell} (h : m.cell? id = some cell) :
    m.bytes id = .ok cell.bytes := by
  obtain ⟨row, hid, hrow, -, -, hread⟩ := row_of_cell h
  rw [bytes_ok hs hid hrow, hread]

lemma readWord_cell (hs : Sound m) {id : Nat} {cell : Cell} (h : m.cell? id = some cell)
    (hsize : linkSize ≤ cell.bytes.length) :
    m.readWord id 0 = .ok (wordOfBytes (cell.bytes.take 4)) := by
  rw [readWord, bytesAt_cell hs h, if_pos (by simpa using hsize), List.drop_zero]

lemma readObject_cell (hs : Sound m) {id : Nat} {cell : Cell} (h : m.cell? id = some cell)
    (offset : Nat) :
    m.readObject id offset =
      if offset + objectSize ≤ cell.bytes.length then
        Object.decode ((cell.bytes.drop offset).take objectSize)
      else .error .rangeCheck := by
  rw [readObject, bytesAt_cell hs h]
  split_ifs with hfit
  · rfl
  · rfl

/-! ## Changes that no cell notices -/

/-- Pins, collector bits, levels and files are not part of a cell. -/
lemma cell?_congr (harena : n.arena = m.arena) (hout : ∀ id, n.outline id = m.outline id)
    (id : Nat) : n.cell? id = m.cell? id := by
  have hmap : ∀ k : Memory, k.cell? id = if id = 0 then none else (k.outline id).map fun row =>
      ⟨row.tag, k.arena.image.read row.address row.size⟩ := by
    intro k
    rw [cell?, outline, Option.map_map]
    rfl
  rw [hmap, hmap, hout, harena]

lemma head?_congr (hout : ∀ id, n.outline id = m.outline id) : n.head? = m.head? := by
  have hmap : ∀ k : Memory, k.head? = (k.outline 0).map Row.address := by
    intro k
    rw [head?, outline, Option.map_map]
    rfl
  rw [hmap, hmap, hout]

/-- Memories that are alike have the same cells. -/
lemma Alike.cell? (h : Alike m n) (hs : Sound m) (id : Nat) : n.cell? id = m.cell? id := by
  by_cases hid : id = 0
  · rw [Memory.cell?, Memory.cell?, if_pos hid, if_pos hid]
  · rcases h.row_cases id with ⟨row, row', hrow, hrow', hplain⟩ | ⟨hrow, hrow'⟩
    · obtain ⟨haddress, hsize⟩ := Row.place_of_plain hplain
      have htag : row.tag = row'.tag := by rw [← row.plain_tag, hplain, row'.plain_tag]
      have hend := (hs.fits hid (row_eq_ok_iff.mp hrow)).2.2
      rw [cell?_of_row hid (row_eq_ok_iff.mp hrow), cell?_of_row hid (row_eq_ok_iff.mp hrow'),
        ← haddress, ← hsize, htag, h.read hend]
    · have hnone : ∀ k : Memory, k.row id = .error (.invalidEntity id) → k.cell? id = none := by
        intro k hk
        rw [Memory.row] at hk
        split at hk
        · contradiction
        · next hnone => rw [Memory.cell?, if_neg hid, hnone]; rfl
      rw [hnone m hrow, hnone n hrow']

lemma Alike.head? (h : Alike m n) : n.head? = m.head? :=
  head?_congr fun id => (h.outline id).symm

/-! ## Writing -/

/-- **Writing changes one cell.**  An amended entity has the bytes of the new image; the cells of all
others lie elsewhere. -/
lemma cell?_amended (hs : Sound m) {id : Nat} {row : Row} {f : Row → Row} {image : Image}
    (h : Alters m id row f image) (hid : id ≠ 0) {tag : Tag}
    (htag : ∀ r : Row, r.tag = row.tag → (f r).tag = tag) (j : Nat) :
    (m.amended id f image).cell? j =
      if j = id then some ⟨tag, image.read row.address row.size⟩ else m.cell? j := by
  by_cases hj : j = id
  · subst hj
    obtain ⟨snapshot, -, -, hrow⟩ := rows_amended hs h.before f image
    rw [if_pos rfl, cell?_of_row hid hrow, h.size, h.address hid, arena_amended]
    congr 2
    exact htag _ rfl
  · rw [if_neg hj]
    by_cases h0 : j = 0
    · rw [cell?, cell?, if_pos h0, if_pos h0]
    · simp only [cell?, if_neg h0, rows_amended_of_ne m id f image hj, arena_amended]
      cases hrow : m.rows[j]? with
      | none => rfl
      | some other =>
          have hread : image.read other.address other.size =
              m.arena.image.read other.address other.size := by
            refine Image.read_congr fun a hlo hhi => h.byte a ?_
            by_cases hsize : row.size = 0
            · omega
            · have := hs.disjoint hid h0 (Ne.symm hj) h.before hrow (by omega) (by omega)
              omega
          simp only [Option.map_some, hread]

lemma head?_amended {id : Nat} (f : Row → Row) (image : Image) (hid : id ≠ 0) :
    (m.amended id f image).head? = m.head? := by
  rw [head?, head?, rows_amended_of_ne m id f image (Ne.symm hid)]

lemma cell?_touched (hs : Sound m) (id j : Nat) : (m.touched id).cell? j = m.cell? j := by
  rcases Nat.lt_or_ge id m.entityCount with hid | hid
  · obtain ⟨row, hrow⟩ := exists_row hid
    obtain ⟨snapshot, hrow', -⟩ := rows_touched hs hrow
    by_cases hj : j = id
    · subst hj
      simp only [cell?, hrow, hrow', arena_touched, Option.map_some]
    · simp only [cell?, rows_touched_of_ne m id hj, arena_touched]
  · have hsame : m.touched id = m := by
      rw [touched, pendingSnapshot, row_error hid]
      by_cases h0 : m.level = 0
      · rw [if_pos h0]
      · rw [if_neg h0]
    rw [hsame]

lemma head?_touched (hs : Sound m) (id : Nat) : (m.touched id).head? = m.head? := by
  by_cases hid : id = 0
  · subst hid
    obtain ⟨row, hrow, -⟩ := hs.head
    obtain ⟨snapshot, hrow', -⟩ := rows_touched hs hrow
    rw [head?, head?, hrow, hrow']
    rfl
  · rw [head?, head?, rows_touched_of_ne m id (Ne.symm hid)]

/-- `n` is `m` with other contents in one cell. -/
structure Replaces (m n : Memory) (id : Nat) (cell : Cell) : Prop where
  sound : Sound n
  count : n.entityCount = m.entityCount
  resources : n.resources = m.resources
  policy : n.policy = m.policy
  head : n.head? = m.head?
  cell : ∀ j, n.cell? j = if j = id then some cell else m.cell? j

lemma replaces_overwritten (hs : Sound m) {id offset : Nat} {row : Row} {bytes : List UInt8}
    (hid : id ≠ 0) (hrow : m.rows[id]? = some row) (hfit : offset + bytes.length ≤ row.size) :
    Replaces m (m.overwritten id (row.address + offset) bytes) id
      ⟨row.tag, patched (m.arena.image.read row.address row.size) offset bytes⟩ := by
  have halters := alters_overwritten hrow hfit
  refine
    { sound := (carries_amended hs halters).sound hs
      count := entityCount_amended _ _ _ _
      resources := by rw [overwritten, amended, edited, resources_touched]
      policy := by rw [overwritten, amended, edited, policy_touched]
      head := head?_amended _ _ hid
      cell := fun j => ?_ }
  rw [overwritten, cell?_amended hs halters hid (fun _ hr => hr) j,
    Image.read_write_patched _ hfit]

/-- `put` patches one cell. -/
lemma put_replaces (hs : Sound m) {id offset : Nat} {cell : Cell} {bytes : List UInt8}
    (h : m.cell? id = some cell) (hfit : offset + bytes.length ≤ cell.bytes.length) :
    ∃ n, put id offset bytes m = .ok () n ∧
      Replaces m n id ⟨cell.tag, patched cell.bytes offset bytes⟩ := by
  obtain ⟨row, hid, hrow, htag, hsize, hread⟩ := row_of_cell h
  have hfit' : offset + bytes.length ≤ row.size := by rw [hsize]; exact hfit
  have hreplaces := replaces_overwritten hs hid hrow hfit'
  rw [htag, hread] at hreplaces
  exact ⟨_, put_run hs hid hrow hfit', hreplaces⟩

/-- A range that does not fit is refused. -/
lemma put_outside {id offset : Nat} {cell : Cell} {bytes : List UInt8}
    (h : m.cell? id = some cell) (hfit : ¬ offset + bytes.length ≤ cell.bytes.length) :
    put id offset bytes m = .error .rangeCheck m := by
  obtain ⟨row, -, hrow, -, hsize, -⟩ := row_of_cell h
  refine bind_error (query_error (s := m) ?_)
  rw [checkedAddress, row_ok hrow]
  exact if_pos (by omega)

/-- `n` is `m`, as far as cells can tell. -/
structure Unmoved (m n : Memory) : Prop where
  sound : Sound n
  count : n.entityCount = m.entityCount
  resources : n.resources = m.resources
  head : n.head? = m.head?
  cell : ∀ id, n.cell? id = m.cell? id

lemma Unmoved.refl (hs : Sound m) : Unmoved m m := ⟨hs, rfl, rfl, rfl, fun _ => rfl⟩

lemma unmoved_touched (hs : Sound m) {id : Nat} (hid : id < m.entityCount) :
    Unmoved m (m.touched id) where
  sound := (carries_touched hs hid).1.sound hs
  count := entityCount_touched m id
  resources := resources_touched m id
  head := head?_touched hs id
  cell := cell?_touched hs id

/-- Row 0 has no storage, so that writing there only remembers it. -/
lemma ends_put_zero (hs : Sound m) (offset : Nat) (bytes : List UInt8) :
    Ends (put 0 offset bytes) m (fun _ n => Unmoved m n) fun _ n => Unmoved m n := by
  obtain ⟨row, hrow, hzero⟩ := hs.head
  cases hcheck : m.checkedAddress 0 offset bytes.length with
  | error fault => exact .of_error (bind_error (query_error (s := m) hcheck)) (.refl hs)
  | ok address =>
      obtain ⟨row', hrow', hfit, rfl⟩ := checkedAddress_eq_ok hcheck
      obtain rfl : row = row' := Option.some.inj (hrow.symm.trans hrow')
      have hempty : bytes = [] := List.eq_nil_of_length_eq_zero (by omega)
      subst hempty
      have hrun : put 0 offset [] m =
          onArena (Arena.write (row.address + offset) []) (m.touched 0) :=
        (bind_ok (query_ok (s := m) hcheck)).trans (bind_ok (touch_run hs hs.entityCount_pos))
      have htouched := unmoved_touched hs hs.entityCount_pos
      cases hobstacle : m.arena.obstacle? (row.address + offset) 0 with
      | some fault =>
          have hwrite : Arena.write (row.address + offset) [] (m.touched 0).arena =
              .error fault (m.touched 0).arena := by
            rw [Arena.write, arena_touched, List.length_nil, hobstacle]
          exact .of_error (hrun.trans (onArena_error hwrite)) htouched
      | none =>
          have hwrite : Arena.write (row.address + offset) [] (m.touched 0).arena =
              .ok () { m.arena with image := m.arena.image.write (row.address + offset) [] } := by
            rw [arena_touched, Arena.write, List.length_nil, hobstacle]
          have hsame : ∀ address size,
              (m.arena.image.write (row.address + offset) []).read address size =
                m.arena.image.read address size :=
            fun _ _ => Image.read_congr fun a _ _ =>
              Image.byte_write_of_outside (by rw [List.length_nil]; omega)
          have hsound : Sound { m.touched 0 with arena := { m.arena with
              image := m.arena.image.write (row.address + offset) [] } } := by
            have hchange := Change.wrote offset [] hrow hfit
            rw [overwritten, amended, edited_id, arena_touched] at hchange
            exact (hchange.carries hs).sound hs
          refine .of_ok (hrun.trans (onArena_ok hwrite))
            ⟨hsound, htouched.count, htouched.resources, htouched.head, fun j => ?_⟩
          rw [← htouched.cell]
          simp only [cell?, hsame, arena_touched]

/-- Writing patches one cell, or no cell notices it. -/
lemma ends_put (hs : Sound m) (id offset : Nat) (bytes : List UInt8) :
    Ends (put id offset bytes) m
      (fun _ n => Unmoved m n ∨ ∃ cell, m.cell? id = some cell ∧
        offset + bytes.length ≤ cell.bytes.length ∧
        Replaces m n id ⟨cell.tag, patched cell.bytes offset bytes⟩)
      fun _ n => Unmoved m n := by
  rcases Nat.eq_zero_or_pos id with rfl | hpos
  · exact Ends.mono (ends_put_zero hs offset bytes) (fun _ _ hn => .inl hn) fun _ _ hn => hn
  · rcases Nat.lt_or_ge id m.entityCount with hid | hid
    · obtain ⟨cell, hcell⟩ := exists_cell (Nat.pos_iff_ne_zero.mp hpos) hid
      by_cases hfit : offset + bytes.length ≤ cell.bytes.length
      · obtain ⟨n, hrun, hn⟩ := put_replaces hs hcell hfit
        exact .of_ok hrun (.inr ⟨cell, hcell, hfit, hn⟩)
      · exact .of_error (put_outside hcell hfit) (.refl hs)
    · have hcheck : m.checkedAddress id offset bytes.length = .error (.invalidEntity id) := by
        rw [checkedAddress, row_error hid]
      exact .of_error (bind_error (query_error (s := m) hcheck)) (.refl hs)

/-! ## Freeing, reusing and adding -/

lemma cell?_linked (m : Memory) (head j : Nat) : (m.linked head).cell? j = m.cell? j := by
  by_cases h0 : j = 0
  · rw [cell?, cell?, if_pos h0, if_pos h0]
  · simp only [cell?, if_neg h0, linked, rows_amended_of_ne m 0 _ _ h0, arena_amended]

lemma head?_linked (hs : Sound m) (head : Nat) : (m.linked head).head? = some head := by
  obtain ⟨row, hrow, -⟩ := hs.head
  obtain ⟨snapshot, -, -, hrow'⟩ :=
    rows_amended hs hrow (fun r => { r with address := head }) m.arena.image
  rw [head?, linked, hrow']
  rfl

lemma cell?_releaseResourceOf (m : Memory) (id j : Nat) :
    (m.releaseResourceOf id).cell? j = m.cell? j :=
  cell?_congr (arena_releaseResourceOf m id)
    (fun k => by rw [outline, rows_releaseResourceOf, outline]) j

/-- A freed entity begins with the link to the entity that was freed before it. -/
lemma cell?_retired (hs : Sound m) {id : Nat} {row : Row} (hid : id ≠ 0)
    (hrow : m.rows[id]? = some row) (hsize : linkSize ≤ row.size) (head j : Nat) :
    (m.retired id row head).cell? j =
      if j = id then
        some ⟨Tag.free, patched (m.arena.image.read row.address row.size) 0 (wordBytes head)⟩
      else m.cell? j := by
  have hs' := (carries_releaseResourceOf hs id).sound hs
  have halters := alters_retired hs' (by rw [rows_releaseResourceOf]; exact hrow) hsize head
  rw [arena_releaseResourceOf] at halters
  have htag : ∀ r : Row, r.tag = row.tag →
      ({ r with tag := Tag.free, mark := clearedMark row.mark } : Row).tag = Tag.free :=
    fun _ _ => rfl
  rw [retired, cell?_amended hs' halters hid htag j, cell?_releaseResourceOf,
    ← Image.read_write_patched _ (by simpa using hsize), Nat.add_zero]

lemma cell?_recycled (hs : Sound m) {id : Nat} {row : Row} (hid : id ≠ 0)
    (hrow : m.rows[id]? = some row) (tag : Tag) (j : Nat) :
    (m.recycled id row tag).cell? j =
      if j = id then some ⟨tag, List.replicate row.size 0⟩ else m.cell? j := by
  rw [recycled, cell?_amended hs (alters_recycled hs hrow tag) hid (fun _ _ => rfl) j,
    Image.read_zero]

lemma cell?_pushed (hs : Sound m) {row : Row} {arena : Arena} (h : Extends m row arena) (j : Nat) :
    (m.pushed row arena).cell? j =
      if j = m.entityCount then some ⟨row.tag, m.arena.image.read row.address row.size⟩
      else m.cell? j := by
  have hpos := hs.entityCount_pos
  have hread : ∀ address size, arena.image.read address size = m.arena.image.read address size :=
    fun _ _ => Image.read_congr fun a _ _ => h.byte a
  simp only [cell?, pushed, Array.getElem?_push, hread]
  rw [entityCount] at hpos ⊢
  by_cases hj : j = m.rows.size
  · rw [if_pos hj, if_pos hj, if_neg (by omega)]
    rfl
  · rw [if_neg hj, if_neg hj]

lemma head?_pushed (hs : Sound m) (row : Row) (arena : Arena) :
    (m.pushed row arena).head? = m.head? := by
  have hpos := hs.entityCount_pos
  rw [entityCount] at hpos
  rw [head?, head?, pushed, Array.getElem?_push, if_neg (by omega)]

end Memory

end PostScriptCore
