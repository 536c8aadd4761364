import PostScriptCore.Proofs.Memory.Marking

/-!
# Sweeping

Sweeping frees the unmarked entities one by one.  Freeing an entity writes a link into its own storage
and changes row 0, so that no other entity notices.

* `Memory.Sweeping` — what sweeping a list of entities does to the table and to the bytes.
* `Memory.sweepList_run` — sweeping ends well, does that, and answers the sizes of what it freed.
* `Memory.TidySnapshots` — no snapshot remembers a collector bit; sweeping keeps that too.
-/

namespace PostScriptCore.Memory

/-! ## Snapshots without collector bits -/

/-- A row between two collections: row 0 holds no objects, and no other row is marked. -/
def TidyRow (id : Nat) (row : Row) : Prop :=
  (id = 0 → row.tag.kind.holdsObjects = false) ∧ (id ≠ 0 → row.mark.marked = false)

def TidySnapshots (m : Memory) : Prop :=
  ∀ record ∈ m.saves, ∀ s ∈ record.snapshots, TidyRow s.id s.row

/-- Remembering a tidy row keeps the snapshots tidy. -/
lemma TidySnapshots.touched {m : Memory} (hs : Sound m) (h : TidySnapshots m) {id : Nat} {row : Row}
    (hrow : m.rows[id]? = some row) (htidy : TidyRow id row) : TidySnapshots (m.touched id) := by
  by_cases hknown : m.level = 0 ∨ m.level ≤ row.mark.created.val ∨ m.level ≤ row.mark.snapshot.val
  · rw [touched_of_known hs hrow hknown]
    exact h
  · rw [touched_of_pending hs hrow hknown]
    intro record hrecord s hmem
    cases hsaves : m.saves with
    | nil =>
        simp only [hsaves, addSnapshot] at hrecord
        exact absurd hrecord List.not_mem_nil
    | cons inner outer =>
        simp only [hsaves, addSnapshot, List.mem_cons] at hrecord
        rcases hrecord with rfl | hrecord
        · rcases List.mem_cons.mp hmem with rfl | hmem
          · exact htidy
          · exact h inner (by rw [hsaves]; exact List.mem_cons_self ..) s hmem
        · exact h record (by rw [hsaves]; exact List.mem_cons_of_mem _ hrecord) s hmem

lemma TidySnapshots.amended {m : Memory} (hs : Sound m) (h : TidySnapshots m) {id : Nat} {row : Row}
    (hrow : m.rows[id]? = some row) (htidy : TidyRow id row) (f : Row → Row) (image : Image) :
    TidySnapshots (m.amended id f image) :=
  h.touched hs hrow htidy

/-! ## Freeing one entity -/

/-- The row of an entity that has been freed. -/
def freedRow (row : Row) : Row := { row with tag := Tag.free, mark := clearedMark row.mark }

/-- What sweeping a list of entities does. -/
structure Sweeping (m : Memory) (ids : List Nat) (n : Memory) : Prop where
  sound : Sound n
  bank : n.bank = m.bank
  count : n.entityCount = m.entityCount
  head : ∀ row, m.rows[0]? = some row → ∃ row', n.rows[0]? = some row' ∧ row'.tag = row.tag
  gone : ∀ id row, id ∈ ids → id ≠ 0 → m.rows[id]? = some row → isGarbage row = true →
    n.rows[id]? = some (freedRow row)
  kept : ∀ id row, id ≠ 0 → m.rows[id]? = some row → ¬ (id ∈ ids ∧ isGarbage row = true) →
    n.rows[id]? = some row ∧
      n.arena.image.read row.address row.size = m.arena.image.read row.address row.size
  tidy : PlainHead m → TidySnapshots m → TidySnapshots n

lemma Sweeping.nil {m : Memory} (hs : Sound m) : Sweeping m [] m where
  sound := hs
  bank := rfl
  count := rfl
  head := fun row hrow => ⟨row, hrow, rfl⟩
  gone := fun _ _ hmem => nomatch hmem
  kept := fun _ _ _ hrow _ => ⟨hrow, rfl⟩
  tidy := fun _ h => h

/-- An entity that the collector may reclaim can be freed. -/
lemma isGarbage_iff {row : Row} : isGarbage row = true ↔
    0 < row.size ∧ row.tag.kind.isCollectable = true ∧ row.mark.marked = false := by
  simp only [isGarbage, Bool.and_eq_true, decide_eq_true_eq, Bool.not_eq_true', and_assoc]

lemma isFree_of_collectable {row : Row} (h : row.tag.kind.isCollectable = true) :
    row.isFree = false := by
  rw [Row.isFree]
  revert h
  cases row.tag.kind <;> simp [Kind.isCollectable]

/-- Two entities with storage do not overlap. -/
lemma Sound.disjoint {m : Memory} (hs : Sound m) {i j : Nat} {row row' : Row} (hi : i ≠ 0)
    (hj : j ≠ 0) (hij : i ≠ j) (hrow : m.rows[i]? = some row) (hrow' : m.rows[j]? = some row')
    (hpos : 0 < row.size) (hpos' : 0 < row'.size) :
    row.address + row.size ≤ row'.address ∨ row'.address + row'.size ≤ row.address := by
  rcases Nat.lt_or_gt_of_ne hij with hlt | hlt
  · exact hs.layout.disjoint i j row.plain row'.plain (Nat.pos_of_ne_zero hi) hlt
      (outline_of_row hrow) (outline_of_row hrow') hpos hpos'
  · exact (hs.layout.disjoint j i row'.plain row.plain (Nat.pos_of_ne_zero hj) hlt
      (outline_of_row hrow') (outline_of_row hrow) hpos' hpos).symm

/-- Writing into one entity leaves the bytes of every other one alone. -/
lemma read_write_of_ne {m : Memory} (hs : Sound m) {i j : Nat} {row row' : Row} {bytes : List UInt8}
    (hi : i ≠ 0) (hj : j ≠ 0) (hij : i ≠ j) (hrow : m.rows[i]? = some row)
    (hrow' : m.rows[j]? = some row') (hfit : bytes.length ≤ row.size) :
    (m.arena.image.write row.address bytes).read row'.address row'.size =
      m.arena.image.read row'.address row'.size := by
  refine Image.read_congr fun a hlo hhi => Image.byte_write_of_outside ?_
  by_cases h0 : row.size = 0
  · omega
  · have hdisjoint := hs.disjoint hi hj hij hrow hrow' (by omega) (by omega)
    omega

lemma rows_retired {m : Memory} (hs : Sound m) {id : Nat} {row : Row}
    (hrow : m.rows[id]? = some row) (head : Nat) :
    (m.retired id row head).rows[id]? = some (freedRow row) := by
  have hrow' : (m.releaseResourceOf id).rows[id]? = some row := by
    rw [rows_releaseResourceOf]
    exact hrow
  obtain ⟨snapshot, -, -, h⟩ := rows_amended ((carries_releaseResourceOf hs id).sound hs) hrow'
    (fun r => { r with tag := Tag.free, mark := clearedMark row.mark })
    (m.arena.image.write row.address (wordBytes head))
  exact h

lemma rows_retired_of_ne (m : Memory) {id j : Nat} (row : Row) (head : Nat) (h : j ≠ id) :
    (m.retired id row head).rows[j]? = m.rows[j]? := by
  rw [retired, rows_amended_of_ne _ _ _ _ h, rows_releaseResourceOf]

/-- Another head leaves the tag of row 0. -/
lemma tag_linked {m : Memory} (hs : Sound m) {row : Row} (hrow : m.rows[0]? = some row)
    (head : Nat) : ∃ row', (m.linked head).rows[0]? = some row' ∧ row'.tag = row.tag := by
  obtain ⟨snapshot, -, -, h⟩ :=
    rows_amended hs hrow (fun r => { r with address := head }) m.arena.image
  exact ⟨_, h, rfl⟩

/-- Freeing an unmarked entity remembers no collector bit. -/
lemma tidySnapshots_freed {m : Memory} (hs : Sound m) {id : Nat} {row : Row} (hid : id ≠ 0)
    (hrow : m.rows[id]? = some row) (hmarked : row.mark.marked = false)
    (hsize : linkSize ≤ row.size) (head : Nat) (hhead : PlainHead m) (h : TidySnapshots m) :
    TidySnapshots ((m.retired id row head).linked id) := by
  have hrelease : TidySnapshots (m.releaseResourceOf id) := by
    intro record hrecord
    rw [saves_releaseResourceOf] at hrecord
    exact h record hrecord
  have hrow' : (m.releaseResourceOf id).rows[id]? = some row := by
    rw [rows_releaseResourceOf]
    exact hrow
  have hfirst : TidySnapshots (m.retired id row head) :=
    hrelease.amended ((carries_releaseResourceOf hs id).sound hs) hrow'
      ⟨fun h0 => absurd h0 hid, fun _ => hmarked⟩ _ _
  have hretired := (carries_retired hs hrow hsize head).sound hs
  obtain ⟨row₀, hrow₀, -⟩ := hretired.head
  refine hfirst.amended hretired hrow₀ ⟨fun _ => ?_, fun h0 => absurd rfl h0⟩ _ _
  rw [rows_retired_of_ne m row _ (Ne.symm hid)] at hrow₀
  exact hhead row₀ hrow₀

lemma sweeping_freed {m : Memory} (hs : Sound m) {id : Nat} {row : Row} (hid : id ≠ 0)
    (hrow : m.rows[id]? = some row) (hgarbage : isGarbage row = true) (hsize : linkSize ≤ row.size)
    (head : Nat) : Sweeping m [id] ((m.retired id row head).linked id) := by
  have hretired := (carries_retired hs hrow hsize head).sound hs
  have himage : ((m.retired id row head).linked id).arena.image =
      m.arena.image.write row.address (wordBytes head) := by
    rw [linked, arena_amended, retired, arena_amended]
  refine
    { sound := ((Change.relinked id).carries hretired).sound hretired
      bank := by rw [linked, bank_amended, retired, bank_amended, bank_releaseResourceOf]
      count := by
        rw [linked, entityCount_amended, retired, entityCount_amended,
          entityCount_releaseResourceOf]
      head := ?_
      gone := ?_
      kept := ?_
      tidy := tidySnapshots_freed hs hid hrow (isGarbage_iff.mp hgarbage).2.2 hsize head }
  · intro r hr
    refine tag_linked hretired ?_ id
    rw [rows_retired_of_ne m row _ (Ne.symm hid)]
    exact hr
  · intro j r hmem hj hr _
    obtain rfl := List.mem_singleton.mp hmem
    obtain rfl : row = r := Option.some.inj (hrow.symm.trans hr)
    rw [linked, rows_amended_of_ne _ _ _ _ hj]
    exact rows_retired hs hrow _
  · intro j r hj hr hnot
    have hne : j ≠ id := by
      rintro rfl
      obtain rfl : row = r := Option.some.inj (hrow.symm.trans hr)
      exact hnot ⟨List.mem_singleton.mpr rfl, hgarbage⟩
    refine ⟨?_, ?_⟩
    · rw [linked, rows_amended_of_ne _ _ _ _ hj, rows_retired_of_ne m row _ hne]
      exact hr
    · rw [himage]
      exact read_write_of_ne hs hid hj (Ne.symm hne) hrow hr (by
        rw [length_wordBytes]; simpa using hsize)

lemma sweeping_free {m : Memory} (hs : Sound m) {id : Nat} {row : Row} (hid : id ≠ 0)
    (hrow : m.rows[id]? = some row) (hgarbage : isGarbage row = true) :
    ∃ n, free id m = .ok () n ∧ Sweeping m [id] n := by
  obtain ⟨hpos, hcollectable, -⟩ := isGarbage_iff.mp hgarbage
  obtain ⟨head, hhead, -⟩ := hs.head
  have halign := (hs.fits hid hrow).2.1
  have hsize : linkSize ≤ row.size := by
    simp only [arenaAlign, linkSize] at halign ⊢
    omega
  exact ⟨_, free_run hs hid hrow hsize (isFree_of_collectable hcollectable) hhead,
    sweeping_freed hs hid hrow hgarbage hsize _⟩

/-! ## Freeing a list of entities -/

/-- How many bytes sweeping an entity gives to the free list. -/
def garbageSize (m : Memory) (id : Nat) : Nat :=
  match m.rows[id]? with
  | some row => if isGarbage row then row.size else 0
  | none => 0

lemma Sweeping.plainHead {m n : Memory} {ids : List Nat} (h : Sweeping m ids n) (hs : Sound m)
    (hhead : PlainHead m) : PlainHead n := by
  intro row hrow
  obtain ⟨row₀, hrow₀, -⟩ := hs.head
  obtain ⟨row', hrow', htag⟩ := h.head row₀ hrow₀
  obtain rfl : row' = row := Option.some.inj (hrow'.symm.trans hrow)
  rw [htag]
  exact hhead row₀ hrow₀

lemma Sweeping.cons {m n k : Memory} {id : Nat} {rest : List Nat} (hs : Sound m)
    (h : Sweeping m [id] n)
    (h' : Sweeping n rest k) (hnot : id ∉ rest) : Sweeping m (id :: rest) k where
  sound := h'.sound
  bank := h'.bank.trans h.bank
  count := h'.count.trans h.count
  head := by
    intro row hrow
    obtain ⟨row', hrow', htag⟩ := h.head row hrow
    obtain ⟨row'', hrow'', htag'⟩ := h'.head row' hrow'
    exact ⟨row'', hrow'', htag'.trans htag⟩
  gone := by
    intro j row hmem hj hrow hgarbage
    rcases List.mem_cons.mp hmem with rfl | hrest
    · have hfreed := h.gone j row (List.mem_singleton.mpr rfl) hj hrow hgarbage
      exact (h'.kept j _ hj hfreed fun hin => hnot hin.1).1
    · have hne : j ∉ [id] := by
        rw [List.mem_singleton]
        rintro rfl
        exact hnot hrest
      exact h'.gone j row hrest hj (h.kept j row hj hrow fun hin => hne hin.1).1 hgarbage
  kept := by
    intro j row hj hrow hin
    obtain ⟨hrow', hread⟩ := h.kept j row hj hrow fun hj' =>
      hin ⟨List.mem_cons.mpr (.inl (List.mem_singleton.mp hj'.1)), hj'.2⟩
    obtain ⟨hrow'', hread'⟩ := h'.kept j row hj hrow' fun hj' =>
      hin ⟨List.mem_cons_of_mem _ hj'.1, hj'.2⟩
    exact ⟨hrow'', hread'.trans hread⟩
  tidy := fun hhead htidy => h'.tidy (h.plainHead hs hhead) (h.tidy hhead htidy)

/-- An entity that is no garbage is passed over. -/
lemma Sweeping.skip {m n : Memory} {id : Nat} {row : Row} {rest : List Nat}
    (hrow : m.rows[id]? = some row) (hgarbage : ¬ isGarbage row = true) (h : Sweeping m rest n) :
    Sweeping m (id :: rest) n where
  sound := h.sound
  bank := h.bank
  count := h.count
  head := h.head
  gone := by
    intro j r hmem hj hr hg
    rcases List.mem_cons.mp hmem with rfl | hmem
    · rw [hrow] at hr
      injection hr with hr
      exact absurd (hr ▸ hg) hgarbage
    · exact h.gone j r hmem hj hr hg
  kept := fun j r hj hr hin => h.kept j r hj hr fun hin' => hin ⟨List.mem_cons_of_mem _ hin'.1, hin'.2⟩
  tidy := h.tidy

lemma sweepList_run (ids : List Nat) {m : Memory} (hs : Sound m) (hnodup : ids.Nodup)
    (hids : ∀ id ∈ ids, id ≠ 0 ∧ id < m.entityCount) :
    ∃ n, sweepList ids m = .ok (ids.map m.garbageSize).sum n ∧ Sweeping m ids n := by
  induction ids generalizing m with
  | nil => exact ⟨m, rfl, .nil hs⟩
  | cons id rest ih =>
      obtain ⟨hnot, hnodup⟩ := List.nodup_cons.mp hnodup
      obtain ⟨hid, hlt⟩ := hids id (List.mem_cons_self ..)
      have hrest : ∀ j ∈ rest, j ≠ 0 ∧ j < m.entityCount :=
        fun j hj => hids j (List.mem_cons_of_mem _ hj)
      obtain ⟨row, hrow⟩ := exists_row hlt
      have hquery : (PostScriptCore.query fun m => m.row id : MemoryM Row) m = .ok row m :=
        query_ok (s := m) (row_ok hrow)
      rw [List.map_cons, List.sum_cons, garbageSize, hrow]
      dsimp only
      by_cases hgarbage : isGarbage row = true
      · obtain ⟨n, hrun, hsweep⟩ := sweeping_free hs hid hrow hgarbage
        obtain ⟨k, hrun', hsweep'⟩ :=
          ih hsweep.sound hnodup fun j hj => by rw [hsweep.count]; exact hrest j hj
        -- the entities still to be swept weigh what they weighed before
        have hsame : rest.map n.garbageSize = rest.map m.garbageSize := by
          refine List.map_congr_left fun j hj => ?_
          obtain ⟨r, hr⟩ := exists_row (hrest j hj).2
          have hne : j ∉ [id] := by
            rw [List.mem_singleton]
            rintro rfl
            exact hnot hj
          have hkept := (hsweep.kept j r (hrest j hj).1 hr fun hin => hne hin.1).1
          rw [garbageSize, garbageSize, hkept, hr]
        rw [hsame] at hrun'
        refine ⟨k, ?_, hsweep.cons hs hsweep' hnot⟩
        rw [sweepList, if_pos hgarbage]
        refine (bind_ok hquery).trans ?_
        rw [if_pos hgarbage]
        exact (bind_ok hrun).trans (bind_ok hrun')
      · obtain ⟨n, hrun, hsweep⟩ := ih hs hnodup hrest
        refine ⟨n, ?_, hsweep.skip hrow hgarbage⟩
        rw [sweepList, if_neg hgarbage, Nat.zero_add]
        refine (bind_ok hquery).trans ?_
        rw [if_neg hgarbage]
        exact hrun

end PostScriptCore.Memory
