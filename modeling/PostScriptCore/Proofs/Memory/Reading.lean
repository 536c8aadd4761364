import PostScriptCore.Proofs.Memory.Effect

/-!
# Reading from memories that are alike

What a memory answers does not depend on pins, collector bits, capacity or files.

* `Memory.Alike.row_map`, `Memory.Alike.bytes`, `Memory.Alike.freeEntities` — rows, contents and the
  free list read the same.
* `Memory.storage_ok` — in a sound memory all storage can be read.
-/

namespace PostScriptCore

lemma Row.place_of_plain {row row' : Row} (h : row.plain = row'.plain) :
    row.address = row'.address ∧ row.size = row'.size := by
  rw [← row.plain_address, ← row.plain_size, h]
  exact ⟨rfl, rfl⟩

namespace Memory

variable {m n : Memory}

/-- A row is found in both memories, or in neither. -/
lemma Alike.row_cases (h : Alike m n) (id : Nat) :
    (∃ row row', m.row id = .ok row ∧ n.row id = .ok row' ∧ row.plain = row'.plain) ∨
      (m.row id = .error (.invalidEntity id) ∧ n.row id = .error (.invalidEntity id)) := by
  have hout := h.outline id
  rcases Nat.lt_or_ge id m.entityCount with hid | hid
  · obtain ⟨row, hrow⟩ := exists_row hid
    obtain ⟨row', hrow'⟩ := exists_row (m := n) (h.count ▸ hid)
    rw [outline_of_row hrow, outline_of_row hrow'] at hout
    injection hout with hout
    exact .inl ⟨row, row', row_ok hrow, row_ok hrow', hout⟩
  · exact .inr ⟨row_error hid, row_error (h.count ▸ hid)⟩

/-- What pins and collector bits leave alone reads the same. -/
lemma Alike.row_map (h : Alike m n) {α : Type} {f : Row → α} (hf : ∀ row, f row.plain = f row)
    (id : Nat) : (n.row id).map f = (m.row id).map f := by
  rcases h.row_cases id with ⟨row, row', hrow, hrow', hplain⟩ | ⟨hrow, hrow'⟩
  · rw [hrow, hrow']
    show Except.ok (f row') = Except.ok (f row)
    rw [← hf row', ← hplain, hf row]
  · rw [hrow, hrow']

lemma Alike.checkedAddress (h : Alike m n) (id offset count : Nat) :
    n.checkedAddress id offset count = m.checkedAddress id offset count := by
  rw [Memory.checkedAddress, Memory.checkedAddress]
  rcases h.row_cases id with ⟨row, row', hrow, hrow', hplain⟩ | ⟨hrow, hrow'⟩
  · obtain ⟨haddress, hsize⟩ := Row.place_of_plain hplain
    rw [hrow, hrow']
    simp only [haddress, hsize]
  · rw [hrow, hrow']

lemma Alike.obstacle? (h : Alike m n) (hm : Sound m) (hn : Sound n) (offset count : Nat) :
    n.arena.obstacle? offset count = m.arena.obstacle? offset count := by
  simp only [Arena.obstacle?, Arena.inBounds, hm.arena.mapped, hn.arena.mapped, h.used]

lemma Alike.read (h : Alike m n) {offset count : Nat} (hle : offset + count ≤ m.arena.used) :
    n.arena.image.read offset count = m.arena.image.read offset count :=
  Image.read_congr fun a _ ha => (h.byte a (by omega)).symm

lemma Alike.arena_read (h : Alike m n) (hm : Sound m) (hn : Sound n) (offset count : Nat) :
    n.arena.read offset count = m.arena.read offset count := by
  rw [Arena.read, Arena.read, h.obstacle? hm hn]
  split
  · rfl
  · next hnone => rw [h.read (Arena.le_used_of_obstacle hnone)]

lemma Alike.readWord (h : Alike m n) (hm : Sound m) (hn : Sound n) (id offset : Nat) :
    n.readWord id offset = m.readWord id offset := by
  simp only [Memory.readWord, bytesAt, h.checkedAddress, h.arena_read hm hn]

lemma Alike.bytes (h : Alike m n) (hm : Sound m) (hn : Sound n) (id : Nat) :
    n.bytes id = m.bytes id := by
  rw [Memory.bytes, Memory.bytes, storage, storage]
  rcases h.row_cases id with ⟨row, row', hrow, hrow', hplain⟩ | ⟨hrow, hrow'⟩
  · obtain ⟨haddress, hsize⟩ := Row.place_of_plain hplain
    rw [hrow, hrow']
    dsimp only
    rw [h.checkedAddress, hsize]
    cases hcheck : m.checkedAddress id 0 row'.size with
    | error fault => rfl
    | ok address =>
        obtain ⟨r, hr, -, rfl⟩ := checkedAddress_eq_ok hcheck
        have he : row = r := Except.ok.inj (hrow.symm.trans (row_ok hr))
        subst he
        dsimp only
        rw [h.obstacle? hm hn]
        cases hobstacle : m.arena.obstacle? (row.address + 0) row'.size with
        | some fault => rfl
        | none =>
            have hle := Arena.le_used_of_obstacle hobstacle
            dsimp only
            rw [← haddress, ← hsize, h.read (by omega)]
  · rw [hrow, hrow']

lemma Alike.followLinks (h : Alike m n) (hm : Sound m) (hn : Sound n) (steps cursor : Nat) :
    n.followLinks steps cursor = m.followLinks steps cursor := by
  induction steps generalizing cursor with
  | zero => rfl
  | succ steps ih => simp only [Memory.followLinks, readLink, h.readWord hm hn, ih]

lemma Alike.freeEntities (h : Alike m n) (hm : Sound m) (hn : Sound n) :
    n.freeEntities = m.freeEntities := by
  have hhead : n.freeHead = m.freeHead := by
    simp only [freeHead]
    rcases h.row_cases 0 with ⟨row, row', hrow, hrow', hplain⟩ | ⟨hrow, hrow'⟩
    · rw [hrow, hrow']
      exact congrArg Except.ok (Row.place_of_plain hplain).1.symm
    · rw [hrow, hrow']
  simp only [Memory.freeEntities, hhead, h.followLinks hm hn, ← h.count]

/-! ## Reading from sound memories -/

lemma storage_ok {m : Memory} (hs : Sound m) {id : Nat} {row : Row} (hid : id ≠ 0)
    (hrow : m.rows[id]? = some row) : m.storage id = .ok row := by
  have hend := (hs.fits hid hrow).2.2
  rw [storage, row_ok hrow]
  dsimp only
  rw [checkedAddress_ok hs hid hrow (Nat.le_of_eq (Nat.zero_add _)), Nat.add_zero]
  dsimp only
  rw [hs.arena.obstacle?_eq_none hend]

lemma bytes_ok {m : Memory} (hs : Sound m) {id : Nat} {row : Row} (hid : id ≠ 0)
    (hrow : m.rows[id]? = some row) :
    m.bytes id = .ok (m.arena.image.read row.address row.size) := by
  rw [Memory.bytes, storage_ok hs hid hrow]

end Memory

end PostScriptCore
