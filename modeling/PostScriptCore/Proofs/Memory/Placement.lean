import PostScriptCore.Proofs.Memory.Cells
import PostScriptCore.Proofs.Memory.Collection

/-!
# Where entities lie

An entity gets its place when its row is appended, and keeps it for as long as the row exists: storage
is recycled as a whole, and a `restore` puts rows back where they were.

* `Memory.KeepsPlaces` — whatever survives an operation has not moved.
* `Memory.Anchors` — the stronger property of all operations but `restore`: no row is lost either.
* `Memory.Arranged` — aligned places below the cursor, none overlapping, within the limit.
* `Memory.Framed` — accesses succeed exactly within bounds, and writing changes the written range only.
* `Memory.arranged_afterAll` — all of this holds after every run.
-/

namespace PostScriptCore

/-- What `old`, read from `start` on, reads as after `bytes` were written at `offset`. -/
def overlaid (offset : Nat) (bytes : List UInt8) (start : Nat) (old : List UInt8) : List UInt8 :=
  old.mapIdx fun i b =>
    if offset ≤ start + i ∧ start + i < offset + bytes.length then bytes.getD (start + i - offset) 0
    else b

/-- A range of patched bytes is the old range overlaid with the new bytes. -/
lemma take_drop_patched_eq_overlaid {old bytes : List UInt8} {offset : Nat}
    (h : offset + bytes.length ≤ old.length) (start count : Nat) :
    ((patched old offset bytes).drop start).take count =
      overlaid offset bytes start ((old.drop start).take count) := by
  refine List.ext_getElem? fun i => ?_
  simp only [overlaid, List.getElem?_mapIdx, List.getElem?_take, List.getElem?_drop]
  split
  · rw [getElem?_patched h]
    split
    · next hin =>
      rw [List.getElem?_eq_getElem (show start + i - offset < bytes.length by omega),
        List.getElem?_eq_getElem (show start + i < old.length by omega), Option.map_some,
        List.getD_eq_getElem?_getD,
        List.getElem?_eq_getElem (show start + i - offset < bytes.length by omega)]
      rfl
    · cases old[start + i]? <;> rfl
  · rfl

namespace Memory

variable {m n : Memory}

/-! ## Operations that lose no row -/

/-- Every row is still there and, row 0 aside, at the same place; the arena respects its limit. -/
structure Anchors (m n : Memory) : Prop where
  place : ∀ (id : Nat) (row : Row), m.rows[id]? = some row →
    ∃ row', n.rows[id]? = some row' ∧ row'.size = row.size ∧ (id ≠ 0 → row'.address = row.address)
  limit : m.arena.KeepsLimit n.arena

lemma Anchors.refl (m : Memory) : Anchors m m where
  place := fun _ row hrow => ⟨row, hrow, rfl, fun _ => rfl⟩
  limit := ⟨rfl, id⟩

lemma Anchors.trans {k : Memory} (h : Anchors m n) (h' : Anchors n k) : Anchors m k where
  place := by
    intro id row hrow
    obtain ⟨row₁, hrow₁, hsize₁, haddress₁⟩ := h.place id row hrow
    obtain ⟨row₂, hrow₂, hsize₂, haddress₂⟩ := h'.place id row₁ hrow₁
    exact ⟨row₂, hrow₂, hsize₂.trans hsize₁, fun h0 => (haddress₂ h0).trans (haddress₁ h0)⟩
  limit := ⟨h'.limit.1.trans h.limit.1, fun hmax => h'.limit.2 (h.limit.2 hmax)⟩

/-- No row is lost, so that the table does not shrink. -/
lemma Anchors.count_le (h : Anchors m n) : m.entityCount ≤ n.entityCount := by
  rcases Nat.eq_zero_or_pos m.entityCount with h0 | hpos
  · omega
  · obtain ⟨row, hrow⟩ := exists_row (show m.entityCount - 1 < m.entityCount by omega)
    obtain ⟨row', hrow', -⟩ := h.place _ row hrow
    have := row_lt hrow'
    omega

/-- Rows that agree but for part of their marks lie at the same place. -/
lemma Anchors.of_rows {f : Row → Row} (hf : ∀ row, (f row).address = row.address ∧
    (f row).size = row.size) (harena : n.arena = m.arena)
    (h : ∀ id : Nat, n.rows[id]?.map f = m.rows[id]?.map f) : Anchors m n where
  place := by
    intro id row hrow
    have hsame := h id
    rw [hrow] at hsame
    obtain ⟨row', hrow', he⟩ := Option.map_eq_some_iff.mp hsame
    obtain ⟨haddress, hsize⟩ := hf row
    obtain ⟨haddress', hsize'⟩ := hf row'
    refine ⟨row', hrow', ?_, fun _ => ?_⟩
    · rw [← hsize', he, hsize]
    · rw [← haddress', he, haddress]
  limit := by rw [harena]; exact ⟨rfl, id⟩

lemma Alters.anchors (hs : Sound m) {id : Nat} {row : Row} {f : Row → Row} {image : Image}
    (h : Alters m id row f image) : Anchors m (m.amended id f image) where
  place := by
    intro j r hr
    by_cases hj : j = id
    · subst hj
      obtain ⟨snapshot, -, -, hr'⟩ := rows_amended hs hr f image
      exact ⟨_, hr', h.size _, fun h0 => h.address h0 _⟩
    · exact ⟨r, by rw [rows_amended_of_ne m id f image hj]; exact hr, rfl, fun _ => rfl⟩
  limit := by rw [arena_amended]; exact ⟨rfl, fun hmax => hmax⟩

lemma anchors_retired (hs : Sound m) {id : Nat} {row : Row} (hrow : m.rows[id]? = some row)
    (hsize : linkSize ≤ row.size) (head : Nat) : Anchors m (m.retired id row head) := by
  have hs' := (carries_releaseResourceOf hs id).sound hs
  have hrelease : Anchors m (m.releaseResourceOf id) :=
    .of_rows (f := fun r => r) (fun _ => ⟨rfl, rfl⟩) (arena_releaseResourceOf m id)
      fun j => by rw [rows_releaseResourceOf]
  have halters := alters_retired hs' (by rw [rows_releaseResourceOf]; exact hrow) hsize head
  rw [arena_releaseResourceOf] at halters
  exact hrelease.trans (halters.anchors hs')

lemma Change.anchors (hs : Sound m) (h : Change m n) : Anchors m n := by
  cases h with
  | idle h => exact .of_rows (f := Row.unpinned) (fun _ => ⟨rfl, rfl⟩) h.arena h.rows
  | opened handle => exact ⟨(Anchors.refl m).place, ⟨rfl, id⟩⟩
  | @remembered id hid =>
      obtain ⟨row, hrow⟩ := exists_row hid
      have hsame : m.touched id = m.amended id (fun r => r) m.arena.image := by
        rw [amended, edited_id, ← arena_touched m id]
      rw [hsame]
      exact Alters.anchors hs ⟨hrow, fun _ => rfl, fun _ _ => rfl,
        fun _ hc hn _ => ⟨Nat.le_refl _, hc, hn⟩, fun _ _ => rfl⟩
  | wrote offset bytes hrow hfit => exact (alters_overwritten hrow hfit).anchors hs
  | relinked head =>
      obtain ⟨row, hrow, -⟩ := hs.head
      exact (alters_linked hrow head).anchors hs
  | freed head hid hrow hsize hlive => exact anchors_retired hs hrow hsize head

lemma Alloc.anchors {id : Nat} (hs : Sound m) (h : Alloc m id n) : Anchors m n := by
  cases h with
  | reused tag hid hrow => exact (alters_recycled hs hrow tag).anchors hs
  | added h =>
      refine ⟨fun j row hrow => ⟨row, ?_, rfl, fun _ => rfl⟩, h.limit⟩
      have hlt := row_lt hrow
      rw [entityCount] at hlt
      rw [pushed, Array.getElem?_push, if_neg (by omega)]
      exact hrow

lemma Sweeps.anchors (hs : Sound m) (h : Sweeps m n) : Anchors m n := by
  induction h with
  | refl => exact .refl m
  | tail hsweeps hstep ih =>
      refine ih.trans ?_
      rcases hstep with hstep | hstep
      · exact hstep.anchors ((Sweeps.carries hs hsweeps).sound hs)
      · exact .of_rows (f := Row.unmarked) (fun _ => ⟨rfl, rfl⟩) hstep.arena hstep.rows

/-- **Moves anchor every entity.** -/
lemma Moves.anchors {A : Nat → Prop} (hs : Sound m) (h : Moves A m n) : Anchors m n := by
  induction h with
  | refl => exact .refl m
  | tail hmoves hstep ih =>
      have hs' := Moves.sound hs hmoves
      refine ih.trans ?_
      cases hstep with
      | change h => exact h.anchors hs'
      | alloc _ h => exact h.anchors hs'
      | collected roots sweeping markAll =>
          exact Sweeps.anchors hs'
            (Ends.finalState (onlySweeps_collect roots sweeping markAll hs'))

lemma anchors_after (hs : Sound m) {op : MemoryOp} (hrestore : ∀ level, op ≠ .restore level) :
    Anchors m (m.after op) := by
  cases op with
  | restore level => exact absurd rfl (hrestore level)
  | save =>
      rw [after_save]
      split
      · exact ⟨(Anchors.refl m).place, ⟨rfl, id⟩⟩
      · exact .refl m
  | setTag id tag =>
      rw [after, MemoryOp.perform, setTag]
      rcases Nat.lt_or_ge id m.entityCount with hid | hid
      · obtain ⟨row, hrow⟩ := exists_row hid
        rw [finalState_of_ok (changeRow_run hs hrow _)]
        exact Alters.anchors hs ⟨hrow, fun _ => rfl, fun _ _ => rfl,
          fun _ hc hn _ => ⟨Nat.le_refl _, hc, hn⟩, fun _ _ => rfl⟩
      · rw [finalState_of_error (changeRow_of_missing hid _)]
        exact .refl m
  | _ => exact (moves_after hs rfl).anchors hs

/-! ## Closing levels -/

/-- A row after a level was closed was there before, at the same place. -/
lemma place_closed (hs : Sound m) {id : Nat} {row : Row} (h : m.closed.rows[id]? = some row) :
    ∃ row', m.rows[id]? = some row' ∧ row'.size = row.size ∧
      (id ≠ 0 → row'.address = row.address) := by
  cases hsaves : m.saves with
  | nil =>
      rw [closed, hsaves] at h
      exact ⟨row, h, rfl, fun _ => rfl⟩
  | cons record outer =>
      rw [closed_eq, undone_of_saves hsaves] at h
      have hfull : (putBackAll { m with saves := outer } record.snapshots).rows[id]? = some row := by
        simp only [cutBack, Array.getElem?_extract] at h
        split at h
        · simpa using h
        · contradiction
      rcases rows_putBackAll record.snapshots hfull with h | ⟨s, hmem, rfl, rfl⟩
      · exact ⟨row, h, rfl, fun _ => rfl⟩
      · obtain ⟨r, hr, hsize, haddress⟩ := ((hs.restorable.covers hsaves).known s hmem).place
        obtain ⟨full, hfull, rfl⟩ := row_of_outline hr
        exact ⟨full, hfull, hsize, haddress⟩

lemma keepsLimit_closed (m : Memory) : m.arena.KeepsLimit m.closed.arena := by
  cases hsaves : m.saves with
  | nil =>
      rw [closed, hsaves]
      exact ⟨rfl, id⟩
  | cons record outer =>
      obtain ⟨rows, image, hundone⟩ := undone_eq hsaves
      rw [closed_eq, hundone]
      exact ⟨rfl, id⟩

lemma place_iterate_closed (count : Nat) (hs : Sound m) {id : Nat} {row : Row}
    (h : (closed^[count] m).rows[id]? = some row) :
    ∃ row', m.rows[id]? = some row' ∧ row'.size = row.size ∧
      (id ≠ 0 → row'.address = row.address) := by
  induction count generalizing m with
  | zero => exact ⟨row, h, rfl, fun _ => rfl⟩
  | succ count ih =>
      obtain ⟨row₁, hrow₁, hsize₁, haddress₁⟩ := ih (sound_closed hs) h
      obtain ⟨row₂, hrow₂, hsize₂, haddress₂⟩ := place_closed hs hrow₁
      exact ⟨row₂, hrow₂, hsize₂.trans hsize₁, fun h0 => (haddress₂ h0).trans (haddress₁ h0)⟩

lemma keepsLimit_iterate_closed (count : Nat) (m : Memory) :
    m.arena.KeepsLimit (closed^[count] m).arena := by
  induction count generalizing m with
  | zero => exact ⟨rfl, id⟩
  | succ count ih =>
      obtain ⟨hlimit, hmax⟩ := ih m.closed
      obtain ⟨hlimit', hmax'⟩ := keepsLimit_closed m
      exact ⟨hlimit.trans hlimit', fun h => hmax (hmax' h)⟩

/-! ## Every operation -/

/-- An entity that exists before and after has not moved. -/
def KeepsPlaces (m n : Memory) : Prop :=
  ∀ (id : Nat) (row row' : Row), id ≠ 0 → m.row id = .ok row → n.row id = .ok row' →
    row'.address = row.address ∧ row'.size = row.size

lemma Anchors.keepsPlaces (h : Anchors m n) : KeepsPlaces m n := by
  intro id row row' hid hrow hrow'
  obtain ⟨r, hr, hsize, haddress⟩ := h.place id row (row_eq_ok_iff.mp hrow)
  obtain rfl : r = row' := Option.some.inj (hr.symm.trans (row_eq_ok_iff.mp hrow'))
  exact ⟨haddress hid, hsize⟩

lemma keepsPlaces_after (hs : Sound m) (op : MemoryOp) : KeepsPlaces m (m.after op) := by
  by_cases hrestore : ∃ level, op = .restore level
  · obtain ⟨level, rfl⟩ := hrestore
    rw [after_restore hs]
    split
    · intro id row row' hid hrow hrow'
      obtain ⟨r, hr, hsize, haddress⟩ := place_iterate_closed _ hs (row_eq_ok_iff.mp hrow')
      obtain rfl : r = row := Option.some.inj (hr.symm.trans (row_eq_ok_iff.mp hrow))
      exact ⟨(haddress hid).symm, hsize.symm⟩
    · exact (Anchors.refl m).keepsPlaces
  · exact (anchors_after hs fun level he => hrestore ⟨level, he⟩).keepsPlaces

lemma keepsLimit_after (hs : Sound m) (op : MemoryOp) :
    m.arena.KeepsLimit (m.after op).arena := by
  by_cases hrestore : ∃ level, op = .restore level
  · obtain ⟨level, rfl⟩ := hrestore
    rw [after_restore hs]
    split
    · exact keepsLimit_iterate_closed _ m
    · exact ⟨rfl, id⟩
  · exact (anchors_after hs fun level he => hrestore ⟨level, he⟩).limit

lemma keepsLimit_afterAll (hs : Sound m) (ops : List MemoryOp) :
    m.arena.KeepsLimit (m.afterAll ops).arena := by
  induction ops generalizing m with
  | nil => exact ⟨rfl, id⟩
  | cons op rest ih =>
      obtain ⟨hlimit, hmax⟩ := keepsLimit_after hs op
      obtain ⟨hlimit', hmax'⟩ := ih (sound_after hs op)
      exact ⟨hlimit'.trans hlimit, fun h => hmax' (hmax h)⟩

lemma arena_of_withBacking {bank : Bank} {backing : Backing} {settings : Settings} {m : Memory}
    (h : withBacking bank backing settings = .ok m) :
    m.arena.limit = settings.maxArenaSize ∧ m.arena.max ≤ m.arena.limit := by
  rw [withBacking] at h
  split at h
  · next arena harena =>
    injection h with h
    subst h
    obtain ⟨-, -, hlimit, hmax⟩ := Arena.sound_of_init harena
    exact ⟨hlimit, by rw [hlimit]; exact hmax⟩
  · contradiction

/-! ## What can be accessed -/

/-- The table describes the arena, which is within the given limit. -/
structure Arranged (limit : Nat) (m : Memory) : Prop where
  used_le : m.arena.used ≤ m.arena.max
  max_le : m.arena.max ≤ limit
  fits : ∀ (id : Nat) (row : Row), id ≠ 0 → m.row id = .ok row →
    row.address % arenaAlign = 0 ∧ row.size % arenaAlign = 0 ∧
      row.address + row.size ≤ m.arena.used
  disjoint : ∀ (i j : Nat) (row row' : Row), i ≠ 0 → j ≠ 0 → i ≠ j → m.row i = .ok row →
    m.row j = .ok row' → 0 < row.size → 0 < row'.size →
      row.address + row.size ≤ row'.address ∨ row'.address + row'.size ≤ row.address

/-- Accesses succeed exactly within the bounds of an entity, and what is read after a write is the
written range of the written entity and nothing else. -/
structure Framed (m : Memory) : Prop where
  get_iff : ∀ (id : Nat) (row : Row), id ≠ 0 → m.row id = .ok row → ∀ offset count : Nat,
    (∃ bytes, m.bytesAt id offset count = .ok bytes) ↔ offset + count ≤ row.size
  put_iff : ∀ (id : Nat) (row : Row), id ≠ 0 → m.row id = .ok row →
    ∀ (offset : Nat) (bytes : List UInt8),
      (∃ n, put id offset bytes m = .ok () n) ↔ offset + bytes.length ≤ row.size
  get_put : ∀ (id offset : Nat) (bytes : List UInt8) (n : Memory), id ≠ 0 →
    put id offset bytes m = .ok () n → ∀ other start count : Nat,
      n.bytesAt other start count =
        (m.bytesAt other start count).map fun old =>
          if other = id then overlaid offset bytes start old else old

lemma Sound.arranged (hs : Sound m) (hlimit : m.arena.max ≤ m.arena.limit) :
    Arranged m.arena.limit m where
  used_le := hs.arena.used_le_max
  max_le := hlimit
  fits := fun _ _ hid hrow => hs.fits hid (row_eq_ok_iff.mp hrow)
  disjoint := fun _ _ _ _ hi hj hij hrow hrow' =>
    hs.disjoint hi hj hij (row_eq_ok_iff.mp hrow) (row_eq_ok_iff.mp hrow')

/-- Writing into one entity leaves every read of another one alone, also one that fails. -/
lemma bytesAt_overwritten_of_ne (hs : Sound m) {id other offset : Nat} {row : Row}
    {bytes : List UInt8} (hid : id ≠ 0) (hrow : m.rows[id]? = some row)
    (hfit : offset + bytes.length ≤ row.size) (hne : other ≠ id) (start count : Nat) :
    (m.overwritten id (row.address + offset) bytes).bytesAt other start count =
      m.bytesAt other start count := by
  have hcheck : (m.overwritten id (row.address + offset) bytes).checkedAddress other start count =
      m.checkedAddress other start count := by
    simp only [checkedAddress, Memory.row, overwritten, rows_amended_of_ne m id _ _ hne]
  rw [bytesAt, bytesAt, hcheck]
  cases haddress : m.checkedAddress other start count with
  | error fault => rfl
  | ok address =>
      obtain ⟨row', hrow', hfit', rfl⟩ := checkedAddress_eq_ok haddress
      have hobstacle : ({ m.arena with image := m.arena.image.write (row.address + offset) bytes } :
          Arena).obstacle? (row'.address + start) count =
            m.arena.obstacle? (row'.address + start) count := rfl
      simp only [overwritten, arena_amended, Arena.read, hobstacle]
      have hread : (m.arena.image.write (row.address + offset) bytes).read (row'.address + start)
          count = m.arena.image.read (row'.address + start) count := by
        refine Image.read_congr fun a hlo hhi => Image.byte_write_of_outside ?_
        by_cases h0 : other = 0
        · -- row 0 has no bytes to read
          subst h0
          obtain ⟨head, hhead, hzero⟩ := hs.head
          obtain rfl : head = row' := Option.some.inj (hhead.symm.trans hrow')
          omega
        · by_cases hempty : bytes.length = 0
          · omega
          · have := hs.disjoint hid h0 (Ne.symm hne) hrow hrow' (by omega) (by omega)
            omega
      rw [hread]

lemma Sound.framed (hs : Sound m) : Framed m where
  get_iff := by
    intro id row hid hrow offset count
    have hcell := cell?_of_row hid (row_eq_ok_iff.mp hrow)
    have hget := bytesAt_cell hs hcell offset count
    rw [Image.length_read] at hget
    rw [hget]
    split
    · next hfit => exact ⟨fun _ => hfit, fun _ => ⟨_, rfl⟩⟩
    · next hfit => exact ⟨fun ⟨_, h⟩ => (nomatch h), fun h => absurd h hfit⟩
  put_iff := by
    intro id row hid hrow offset bytes
    have hrow' := row_eq_ok_iff.mp hrow
    refine ⟨fun ⟨n, hput⟩ => ?_, fun hfit => ⟨_, put_run hs hid hrow' hfit⟩⟩
    by_contra hfit
    rw [put_outside (cell?_of_row hid hrow') (by rwa [Image.length_read])] at hput
    contradiction
  get_put := by
    intro id offset bytes n hid hput other start count
    have hcheck : ∃ address, m.checkedAddress id offset bytes.length = .ok address := by
      cases haddress : m.checkedAddress id offset bytes.length with
      | ok address => exact ⟨address, rfl⟩
      | error fault =>
          rw [put, bind_error (query_error (s := m) haddress)] at hput
          contradiction
    obtain ⟨address, haddress⟩ := hcheck
    obtain ⟨row, hrow, hfit, -⟩ := checkedAddress_eq_ok haddress
    rw [put_run hs hid hrow hfit] at hput
    injection hput with _ hn
    subst hn
    by_cases hother : other = id
    · subst hother
      have hcell := cell?_of_row hid hrow
      have hlength : offset + bytes.length ≤ (m.arena.image.read row.address row.size).length := by
        rw [Image.length_read]; exact hfit
      obtain ⟨k, hrun, hk⟩ := put_replaces hs hcell hlength
      rw [put_run hs hid hrow hfit] at hrun
      injection hrun with _ he
      subst he
      have hnew := hk.cell other
      rw [if_pos rfl] at hnew
      rw [bytesAt_cell hk.sound hnew, bytesAt_cell hs hcell, length_patched hlength]
      simp only [if_true]
      split
      · rw [take_drop_patched_eq_overlaid hlength]
        rfl
      · rfl
    · rw [bytesAt_overwritten_of_ne hs hid hrow hfit hother]
      cases m.bytesAt other start count with
      | error fault => rfl
      | ok old =>
          show Except.ok old = Except.ok (if other = id then _ else old)
          rw [if_neg hother]

/-- **Entities keep their places.**  Whatever a run does, the table describes the arena, which stays
within its limit; no further operation moves an entity that survives it; and accesses succeed
exactly within bounds and touch nothing else. -/
theorem arranged_afterAll {bank : Bank} {backing : Backing} {settings : Settings} {start : Memory}
    (hstart : withBacking bank backing settings = .ok start) (ops : List MemoryOp) :
    Arranged settings.maxArenaSize (start.afterAll ops) ∧
      (∀ op, KeepsPlaces (start.afterAll ops) ((start.afterAll ops).after op)) ∧
      Framed (start.afterAll ops) := by
  have hs₀ := sound_of_withBacking hstart
  have hs := sound_afterAll hs₀ ops
  obtain ⟨hlimit₀, hmax₀⟩ := arena_of_withBacking hstart
  obtain ⟨hlimit, hmax⟩ := keepsLimit_afterAll hs₀ ops
  have harranged := hs.arranged (hmax hmax₀)
  rw [hlimit, hlimit₀] at harranged
  exact ⟨harranged, keepsPlaces_after hs, hs.framed⟩

/-- A string of 24 bytes is recycled for a short one next to an array, inside a level that is closed
again. -/
def recyclingRun : List MemoryOp :=
  [.newString (List.replicate 20 1) [], .newArray 1 [], .save, .free 1, .newString [7, 8, 9] [],
    .newFile 5 true [], .restore 1]

theorem arranged_afterAll_recycling :
    withBacking .localVM .anonymous Settings.standard = .ok freshLocal ∧
      Arranged Settings.standard.maxArenaSize (freshLocal.afterAll recyclingRun) ∧
      (∀ op, KeepsPlaces (freshLocal.afterAll recyclingRun)
        ((freshLocal.afterAll recyclingRun).after op)) ∧
      Framed (freshLocal.afterAll recyclingRun) :=
  ⟨withBacking_freshLocal, arranged_afterAll withBacking_freshLocal recyclingRun⟩

end Memory

end PostScriptCore
