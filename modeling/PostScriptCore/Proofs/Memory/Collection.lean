import PostScriptCore.Proofs.Memory.Run
import PostScriptCore.Proofs.Memory.Sweeping

/-!
# Collections

A collection by mark and sweep frees exactly the garbage.  It relies on an invariant that every run
keeps: between two collections nothing is marked, neither in the table nor in what the save levels
remember.

* `Memory.Tidy` — the invariant.
* `Memory.Collected` — what a collection does, for a given set of garbage.
* `Memory.collect_run` — a collection never fails.
* `Memory.Tidy.afterAll` — every memory that a run reaches is tidy.
* `Memory.collect_frees_garbage` — the theorem.
-/

namespace PostScriptCore

namespace Memory

/-- Between two collections nothing is marked. -/
structure Tidy (m : Memory) : Prop where
  rows : ∀ (id : Nat) (row : Row), m.rows[id]? = some row → TidyRow id row
  snapshots : TidySnapshots m

lemma Tidy.plainHead {m : Memory} (h : Tidy m) : PlainHead m :=
  fun row hrow => (h.rows 0 row hrow).1 rfl

lemma Tidy.unmarked {m : Memory} (h : Tidy m) : Unmarked m := by
  rintro id hid ⟨row, hrow, hmarked⟩
  rw [(h.rows id row hrow).2 hid] at hmarked
  contradiction

/-! ## The phases of a collection -/

/-- What a collection does, if `garbage` is what it may free. -/
structure Collected (m : Memory) (garbage : Nat → Prop) (n : Memory) : Prop where
  sound : Sound n
  tidy : Tidy n
  count : n.entityCount = m.entityCount
  head : ∀ row, m.rows[0]? = some row → ∃ row', n.rows[0]? = some row' ∧ row'.tag = row.tag
  gone : ∀ id row, id ≠ 0 → m.rows[id]? = some row → garbage id → n.rows[id]? = some (freedRow row)
  kept : ∀ id row, id ≠ 0 → m.rows[id]? = some row → ¬ garbage id →
    n.rows[id]? = some row ∧ n.bytes id = m.bytes id

/-- The memory with all collector bits cleared but that of row 0. -/
def cleared (m : Memory) : Memory := m.mapRows Row.unmarked

lemma clearMarks_run (m : Memory) : clearMarks m = .ok () m.cleared := rfl

lemma marks_cleared (m : Memory) : Marks m m.cleared := marks_mapRows m fun _ => rfl

lemma rows_cleared {m : Memory} {id : Nat} {row : Row} (hid : id ≠ 0)
    (hrow : m.rows[id]? = some row) : m.cleared.rows[id]? = some row.unmarked := by
  rw [cleared, mapRows, Array.getElem?_mapIdx, hrow, Option.map_some, if_neg hid]

lemma Row.unmarked_eq_self {row : Row} (h : row.mark.marked = false) : row.unmarked = row := by
  obtain ⟨address, size, ⟨marked, refcount, created, snapshot⟩, tag⟩ := row
  simp only [Row.unmarked, Mark.withMarked] at h ⊢
  rw [h]

lemma freedRow_of_unmarked {row row' : Row} (h : row'.unmarked = row.unmarked) :
    (freedRow row').unmarked = freedRow row := by
  have hmark : row'.mark.withMarked false = row.mark.withMarked false := congrArg Row.mark h
  obtain ⟨haddress, hsize, -, -⟩ := Row.eq_of_unmarked h
  simp only [freedRow, clearedMark, hmark, haddress, hsize]
  rfl

/-- Clearing the collector bits ends a collection. -/
lemma tidy_cleared {m : Memory} (hhead : PlainHead m) (h : TidySnapshots m) : Tidy m.cleared where
  rows := by
    intro id row hrow
    refine ⟨?_, fun hid => ?_⟩
    · rintro rfl
      exact (marks_cleared m).plainHead hhead row hrow
    · obtain ⟨row', hrow', -⟩ := (marks_cleared m).symm.row hrow
      rw [rows_cleared hid hrow'] at hrow
      injection hrow with hrow
      rw [← hrow]
      rfl
  snapshots := h

/-- Sweeping after marking, and clearing the marks again. -/
lemma collected_of_sweeping {m n k : Memory} (hs : Sound m) (ht : Tidy m) (hmarks : Marks m n)
    (hsweep : Sweeping n n.entityIds k) :
    Collected m (fun id => ∃ row, n.rows[id]? = some row ∧ isGarbage row = true) k.cleared := by
  have hn := (hmarks.carries hs).sound hs
  have hhead := hmarks.plainHead ht.plainHead
  have hsnapshots : TidySnapshots n := by
    intro record hrecord
    rw [hmarks.saves] at hrecord
    exact ht.snapshots record hrecord
  have hk := ((marks_cleared k).carries hsweep.sound).sound hsweep.sound
  refine
    { sound := hk
      tidy := tidy_cleared (hsweep.plainHead hn hhead) (hsweep.tidy hhead hsnapshots)
      count := by
        rw [← (marks_cleared k).alike.count, hsweep.count, ← hmarks.alike.count]
      head := ?_
      gone := ?_
      kept := ?_ }
  · intro row hrow
    obtain ⟨row₁, hrow₁, hsame₁⟩ := hmarks.row hrow
    obtain ⟨row₂, hrow₂, htag⟩ := hsweep.head row₁ hrow₁
    obtain ⟨row₃, hrow₃, hsame₃⟩ := (marks_cleared k).row hrow₂
    exact ⟨row₃, hrow₃, (Row.eq_of_unmarked hsame₃).2.2.1.trans
      (htag.trans (Row.eq_of_unmarked hsame₁).2.2.1)⟩
  · rintro id row hid hrow ⟨row', hrow', hgarbage⟩
    have hmem : id ∈ n.entityIds := by
      have := row_lt hrow'
      rw [entityIds, List.mem_range'_1]
      omega
    obtain ⟨row'', hrow'', hsame⟩ := hmarks.row hrow
    obtain rfl : row'' = row' := Option.some.inj (hrow''.symm.trans hrow')
    rw [rows_cleared hid (hsweep.gone id row'' hmem hid hrow' hgarbage), freedRow_of_unmarked hsame]
  · intro id row hid hrow hnot
    obtain ⟨row', hrow', hsame⟩ := hmarks.row hrow
    obtain ⟨haddress, hsize, -, -⟩ := Row.eq_of_unmarked hsame
    obtain ⟨hkept, hread⟩ := hsweep.kept id row' hid hrow' fun hin => hnot ⟨row', hrow', hin.2⟩
    have hfinal : k.cleared.rows[id]? = some row := by
      rw [rows_cleared hid hkept, hsame, Row.unmarked_eq_self ((ht.rows id row hrow).2 hid)]
    refine ⟨hfinal, ?_⟩
    rw [bytes_ok hk hid hfinal, bytes_ok hs hid hrow, ← haddress, ← hsize,
      (marks_cleared k).arena, hread, hmarks.arena]

/-- Without sweeping nothing is freed. -/
lemma collected_of_marks {m n : Memory} (hs : Sound m) (ht : Tidy m) (hmarks : Marks m n) :
    Collected m (fun _ => False) n.cleared := by
  have hn := (hmarks.carries hs).sound hs
  have hall := hmarks.trans (marks_cleared n)
  have hk := (hall.carries hs).sound hs
  refine
    { sound := hk
      tidy := tidy_cleared (hmarks.plainHead ht.plainHead) ?_
      count := hall.alike.count.symm
      head := fun row hrow =>
        (hall.row hrow).imp fun _ h => ⟨h.1, (Row.eq_of_unmarked h.2).2.2.1⟩
      gone := fun _ _ _ _ h => h.elim
      kept := ?_ }
  · intro record hrecord
    rw [hmarks.saves] at hrecord
    exact ht.snapshots record hrecord
  · intro id row hid hrow _
    obtain ⟨row', hrow', hsame⟩ := hmarks.row hrow
    refine ⟨?_, hall.alike.bytes hs hk id⟩
    rw [rows_cleared hid hrow', hsame, Row.unmarked_eq_self ((ht.rows id row hrow).2 hid)]

lemma sweep_run {m : Memory} (hs : Sound m) :
    ∃ n, sweep m = .ok (m.entityIds.map m.garbageSize).sum n ∧ Sweeping m m.entityIds n := by
  obtain ⟨n, hrun, hsweep⟩ := sweepList_run m.entityIds hs List.nodup_range' fun id hid => by
    rw [entityIds, List.mem_range'_1] at hid
    omega
  exact ⟨n, (bind_ok (t := m) rfl).trans hrun, hsweep⟩

/-! ## Garbage -/

/-- What a collection from the given roots has to free. -/
def Garbage (m : Memory) (roots : List Object) (id : Nat) : Prop :=
  ∃ row, m.rows[id]? = some row ∧ 0 < row.size ∧ row.tag.kind.isCollectable = true ∧
    ¬ Reaches m roots id

/-- The entity was live before and is free after. -/
def Freed (m n : Memory) (id : Nat) : Prop :=
  Live m id ∧ ∃ row, n.rows[id]? = some row ∧ row.isFree = true

/-- The size of an entity that was live before and is free after. -/
def freedSize (m n : Memory) (id : Nat) : Nat :=
  match m.rows[id]?, n.rows[id]? with
  | some row, some row' => if !row.isFree && row'.isFree then row.size else 0
  | _, _ => 0

/-- The sizes of all entities that were live before and are free after. -/
def reclaimed (m n : Memory) : Nat := (m.entityIds.map (freedSize m n)).sum

lemma isFree_freedRow (row : Row) : (freedRow row).isFree = true := rfl

/-- After marking, the unmarked rows that may be reclaimed are the garbage. -/
lemma garbage_iff {m n : Memory} {roots : List Object} (ht : Tidy m)
    (h : Marking m (m.origins roots).reverse n) {id : Nat} {row row' : Row} (hid : id ≠ 0)
    (hrow : m.rows[id]? = some row) (hrow' : n.rows[id]? = some row') :
    isGarbage row' = true ↔ Garbage m roots id := by
  obtain ⟨row'', hrow'', hsame⟩ := h.marks.row hrow
  obtain rfl : row'' = row' := Option.some.inj (hrow''.symm.trans hrow')
  obtain ⟨-, hsize, htag, -⟩ := Row.eq_of_unmarked hsame
  have hmarked : Live m id → (row''.mark.marked = false ↔ ¬ Reaches m roots id) := by
    intro hlive
    have hiff : IsMarked n id ↔ IsMarked m id ∨ (Live m id ∧ Reaches m roots id) := by
      rw [← reachesFrom_origins_iff ht.plainHead hid hlive]
      exact h.isMarked_iff ht.plainHead ht.unmarked
    simp only [ht.unmarked id hid, hlive, false_or, true_and] at hiff
    rw [← hiff, ← Bool.not_eq_true, not_iff_not]
    exact ⟨fun hbit => ⟨row'', hrow', hbit⟩, fun ⟨r, hr, hbit⟩ =>
      Option.some.inj (hrow'.symm.trans hr) ▸ hbit⟩
  rw [isGarbage_iff, hsize, htag]
  constructor
  · rintro ⟨hpos, hkind, hbit⟩
    exact ⟨row, hrow, hpos, hkind, (hmarked ⟨row, hrow, isFree_of_collectable hkind⟩).mp hbit⟩
  · rintro ⟨r, hr, hpos, hkind, hreach⟩
    obtain rfl : row = r := Option.some.inj (hrow.symm.trans hr)
    exact ⟨hpos, hkind, (hmarked ⟨row, hrow, isFree_of_collectable hkind⟩).mpr hreach⟩

lemma Collected.congr {m n : Memory} {garbage garbage' : Nat → Prop} (h : Collected m garbage n)
    (hiff : ∀ id row, id ≠ 0 → m.rows[id]? = some row → (garbage id ↔ garbage' id)) :
    Collected m garbage' n where
  sound := h.sound
  tidy := h.tidy
  count := h.count
  head := h.head
  gone := fun id row hid hrow hg => h.gone id row hid hrow ((hiff id row hid hrow).mpr hg)
  kept := fun id row hid hrow hg =>
    h.kept id row hid hrow fun hg' => hg ((hiff id row hid hrow).mp hg')

/-- What a collection answers is what it gave to the free list. -/
lemma Collected.sum_garbageSize {m n k : Memory} (hmarks : Marks m n)
    (h : Collected m (fun id => ∃ row, n.rows[id]? = some row ∧ isGarbage row = true) k) :
    (n.entityIds.map n.garbageSize).sum = reclaimed m k := by
  have hids : n.entityIds = m.entityIds := by rw [entityIds, entityIds, ← hmarks.alike.count]
  rw [reclaimed, hids]
  refine congrArg List.sum (List.map_congr_left fun id hmem => ?_)
  rw [entityIds, List.mem_range'_1] at hmem
  have hid : id ≠ 0 := by omega
  have hlt : id < m.entityCount := by omega
  obtain ⟨row, hrow⟩ := exists_row hlt
  obtain ⟨row', hrow', hsame⟩ := hmarks.row hrow
  obtain ⟨-, hsize, htag, -⟩ := Row.eq_of_unmarked hsame
  rw [garbageSize, freedSize, hrow, hrow']
  dsimp only
  by_cases hgarbage : isGarbage row' = true
  · have hkind := (isGarbage_iff.mp hgarbage).2.1
    have hlive : row.isFree = false := isFree_of_collectable (htag ▸ hkind)
    rw [h.gone id row hid hrow ⟨row', hrow', hgarbage⟩, if_pos hgarbage]
    dsimp only
    rw [hlive, isFree_freedRow, hsize]
    rfl
  · have hnot : ¬ ∃ r, n.rows[id]? = some r ∧ isGarbage r = true := by
      rintro ⟨r, hr, hg⟩
      exact hgarbage (Option.some.inj (hrow'.symm.trans hr) ▸ hg)
    rw [(h.kept id row hid hrow hnot).1, if_neg hgarbage]
    dsimp only
    rw [Bool.not_and_self]
    rfl

/-! ## Whole collections -/

/-- **A collection never fails**, and it frees the garbage. -/
lemma collect_run {m : Memory} (hs : Sound m) (ht : Tidy m) (hc : m.collector = some .markSweep)
    (roots : List Object) :
    ∃ n, collect roots true false m = .ok (reclaimed m n) n ∧ Collected m (Garbage m roots) n := by
  obtain ⟨n, hmark, hmarking⟩ := mark_run hs ht.plainHead roots
  have hn := (hmarking.marks.carries hs).sound hs
  obtain ⟨k, hsweep, hsweeping⟩ := sweep_run hn
  have hcollected := collected_of_sweeping hs ht hmarking.marks hsweeping
  refine ⟨k.cleared, ?_, hcollected.congr fun id row hid hrow => ?_⟩
  · rw [collect, hc, ← hcollected.sum_garbageSize hmarking.marks]
    show markSweep roots true false m = _
    rw [markSweep_eq]
    exact (bind_ok hmark).trans ((bind_ok hsweep).trans (bind_ok (clearMarks_run k)))
  · obtain ⟨row', hrow', -⟩ := hmarking.marks.row hrow
    constructor
    · rintro ⟨r, hr, hg⟩
      exact (garbage_iff ht hmarking hid hrow hr).mp hg
    · intro hg
      exact ⟨row', hrow', (garbage_iff ht hmarking hid hrow hrow').mpr hg⟩

/-- A live row gets its collector bit. -/
def withLiveBit (row : Row) : Row :=
  if row.isFree then row else { row with mark := row.mark.withMarked true }

/-- Marking every live entity leaves no garbage. -/
lemma isGarbage_withLiveBit (row : Row) : isGarbage (withLiveBit row) = false := by
  rw [withLiveBit]
  split
  · next hfree =>
    rw [← Bool.not_eq_true, isGarbage_iff]
    rintro ⟨-, hkind, -⟩
    rw [isFree_of_collectable hkind] at hfree
    contradiction
  · simp [isGarbage, Mark.withMarked]

lemma marks_withLiveBit (m : Memory) : Marks m (m.mapRows withLiveBit) := by
  refine marks_mapRows m fun row => ?_
  rw [withLiveBit]
  split <;> rfl

lemma sweeps_nothing {m : Memory} {id : Nat} (hid : id ≠ 0) {row : Row}
    (hrow : (m.mapRows withLiveBit).rows[id]? = some row) : isGarbage row = false := by
  rw [mapRows, Array.getElem?_mapIdx] at hrow
  obtain ⟨row', -, he⟩ := Option.map_eq_some_iff.mp hrow
  rw [if_neg hid] at he
  rw [← he]
  exact isGarbage_withLiveBit row'

/-- Without sweeping, or with everything marked, a collection frees nothing. -/
lemma collect_run_idle {m : Memory} (hs : Sound m) (ht : Tidy m)
    (hc : m.collector = some .markSweep) (roots : List Object) {sweeping markAll : Bool}
    (h : sweeping = false ∨ markAll = true) :
    ∃ n, collect roots sweeping markAll m = .ok 0 n ∧ Collected m (fun _ => False) n := by
  have hrun : collect roots sweeping markAll m = markSweep roots sweeping markAll m := by
    rw [collect, hc]
  rw [hrun, markSweep_eq]
  cases markAll with
  | false =>
      obtain rfl : sweeping = false := by simpa using h
      obtain ⟨n, hmark, hmarking⟩ := mark_run hs ht.plainHead roots
      exact ⟨n.cleared, (bind_ok hmark).trans rfl, collected_of_marks hs ht hmarking.marks⟩
  | true =>
      have hmarks := marks_withLiveBit m
      have hmark : markEverything m = .ok () (m.mapRows withLiveBit) := rfl
      cases sweeping with
      | false => exact ⟨_, (bind_ok hmark).trans rfl, collected_of_marks hs ht hmarks⟩
      | true =>
          obtain ⟨k, hsweep, hsweeping⟩ := sweep_run ((hmarks.carries hs).sound hs)
          have hzero : ((m.mapRows withLiveBit).entityIds.map
              (m.mapRows withLiveBit).garbageSize).sum = 0 := by
            refine List.sum_eq_zero fun size hsize => ?_
            obtain ⟨id, hid, rfl⟩ := List.mem_map.mp hsize
            rw [entityIds, List.mem_range'_1] at hid
            rw [garbageSize]
            split
            · next row hrow => rw [sweeps_nothing (by omega) hrow]; rfl
            · rfl
          rw [hzero] at hsweep
          refine ⟨k.cleared, (bind_ok hmark).trans ((bind_ok hsweep).trans rfl), ?_⟩
          refine (collected_of_sweeping hs ht hmarks hsweeping).congr fun id row hid _ => ?_
          refine ⟨?_, False.elim⟩
          rintro ⟨row', hrow', hgarbage⟩
          rw [sweeps_nothing hid hrow'] at hgarbage
          contradiction

/-! ## Every reached memory is tidy -/

/-- Changing a remembered entity keeps a memory tidy if it keeps the row tidy. -/
lemma Tidy.amended {m : Memory} (ht : Tidy m) (hs : Sound m) {id : Nat} {row : Row}
    (hrow : m.rows[id]? = some row) {f : Row → Row} (hf : ∀ r, TidyRow id r → TidyRow id (f r))
    (image : Image) : Tidy (m.amended id f image) where
  rows := by
    intro j r hr
    by_cases hj : j = id
    · subst hj
      obtain ⟨snapshot, -, -, hrow'⟩ := rows_amended hs hrow f image
      obtain rfl := Option.some.inj (hrow'.symm.trans hr)
      exact hf _ (ht.rows j row hrow)
    · rw [rows_amended_of_ne m id f image hj] at hr
      exact ht.rows j r hr
  snapshots := ht.snapshots.amended hs hrow (ht.rows id row hrow) f image

lemma Tidy.change {m n : Memory} (ht : Tidy m) (hs : Sound m) (h : Change m n) : Tidy n := by
  cases h with
  | idle h =>
      refine ⟨fun id row hrow => ?_, fun record hrecord => ?_⟩
      · have hmap := h.rows id
        rw [hrow] at hmap
        obtain ⟨row', hrow', hsame⟩ := Option.map_eq_some_iff.mp hmap.symm
        have htidy := ht.rows id row' hrow'
        simp only [Row.unpinned, Mark.withRefcount, Row.mk.injEq, Mark.mk.injEq] at hsame
        rw [TidyRow, ← hsame.2.2.1.1, ← hsame.2.2.2]
        exact htidy
      · rw [h.saves] at hrecord
        exact ht.snapshots record hrecord
  | opened handle => exact ⟨ht.rows, ht.snapshots⟩
  | @remembered id hid =>
      obtain ⟨row, hrow⟩ := exists_row hid
      refine ⟨fun j r hr => ?_, ht.snapshots.touched hs hrow (ht.rows id row hrow)⟩
      by_cases hj : j = id
      · subst hj
        obtain ⟨snapshot, hrow', -⟩ := rows_touched hs hrow
        obtain rfl := Option.some.inj (hrow'.symm.trans hr)
        exact ht.rows j row hrow
      · rw [rows_touched_of_ne m id hj] at hr
        exact ht.rows j r hr
  | wrote offset bytes hrow hfit => exact ht.amended hs hrow (fun _ h => h) _
  | relinked head =>
      obtain ⟨row, hrow, -⟩ := hs.head
      refine ht.amended hs hrow (fun r h => ?_) _
      exact h
  | @freed id row head hid hrow hsize hlive =>
      have hrelease : Tidy (m.releaseResourceOf id) := by
        refine ⟨fun j r hr => ?_, fun record hrecord => ?_⟩
        · rw [rows_releaseResourceOf] at hr
          exact ht.rows j r hr
        · rw [saves_releaseResourceOf] at hrecord
          exact ht.snapshots record hrecord
      exact hrelease.amended ((carries_releaseResourceOf hs _).sound hs)
        (by rw [rows_releaseResourceOf]; exact hrow)
        (fun _ _ => ⟨fun h0 => absurd h0 hid, fun _ => rfl⟩) _

lemma Tidy.alloc {m n : Memory} {id : Nat} (ht : Tidy m) (hs : Sound m) (h : Alloc m id n) :
    Tidy n := by
  cases h with
  | reused tag hid hrow =>
      exact ht.amended hs hrow (fun _ _ => ⟨fun h0 => absurd h0 hid, fun _ => rfl⟩) _
  | @added row arena h =>
      refine ⟨fun j r hr => ?_, ht.snapshots⟩
      rw [pushed, Array.getElem?_push] at hr
      split at hr
      · next hj =>
        obtain rfl := Option.some.inj hr
        have hpos := hs.entityCount_pos
        refine ⟨fun h0 => ?_, fun _ => by rw [h.mark]; rfl⟩
        rw [entityCount] at hpos
        omega
      · exact ht.rows j r hr

/-- A collection leaves a tidy memory behind, under every collector. -/
lemma Tidy.collect {m : Memory} (ht : Tidy m) (hs : Sound m) (roots : List Object)
    (sweeping markAll : Bool) : Tidy (finalState (collect roots sweeping markAll) m) := by
  cases hc : m.collector with
  | none =>
      have hrun : Memory.collect roots sweeping markAll m = .ok 0 m := by rw [Memory.collect, hc]
      rw [finalState_of_ok hrun]
      exact ht
  | some collector =>
      cases collector with
      | failing fault =>
          have hrun : Memory.collect roots sweeping markAll m = .error fault m := by
            rw [Memory.collect, hc]
          rw [finalState_of_error hrun]
          exact ht
      | markSweep =>
          by_cases h : sweeping = false ∨ markAll = true
          · obtain ⟨n, hrun, hcollected⟩ := collect_run_idle hs ht hc roots h
            rw [finalState_of_ok hrun]
            exact hcollected.tidy
          · simp only [not_or, Bool.not_eq_false, Bool.not_eq_true] at h
            obtain ⟨rfl, rfl⟩ := h
            obtain ⟨n, hrun, hcollected⟩ := collect_run hs ht hc roots
            rw [finalState_of_ok hrun]
            exact hcollected.tidy

lemma Tidy.moves {A : Nat → Prop} {m n : Memory} (ht : Tidy m) (hs : Sound m) (h : Moves A m n) :
    Tidy n := by
  induction h with
  | refl => exact ht
  | tail hmoves hstep ih =>
      have hs' := Moves.sound hs hmoves
      cases hstep with
      | change h => exact ih.change hs' h
      | alloc _ h => exact ih.alloc hs' h
      | collected roots sweeping markAll => exact ih.collect hs' roots sweeping markAll

/-- A row that is put back comes from a snapshot. -/
lemma rows_putBackAll (snapshots : List Snapshot) {m : Memory} {id : Nat} {row : Row}
    (h : (m.putBackAll snapshots).rows[id]? = some row) :
    m.rows[id]? = some row ∨ ∃ s ∈ snapshots, s.id = id ∧ s.row = row := by
  induction snapshots generalizing m with
  | nil => exact .inl h
  | cons s rest ih =>
      rw [putBackAll_cons] at h
      rcases ih h with h | ⟨t, ht, hid, hrow⟩
      · rw [putBack, Array.getElem?_modify] at h
        split at h
        · next he =>
          obtain ⟨-, -, hrow⟩ := Option.map_eq_some_iff.mp h
          exact .inr ⟨s, List.mem_cons_self .., he, hrow⟩
        · exact .inl h
      · exact .inr ⟨t, List.mem_cons_of_mem _ ht, hid, hrow⟩

lemma Tidy.closed {m : Memory} (ht : Tidy m) : Tidy m.closed := by
  cases hsaves : m.saves with
  | nil =>
      rw [Memory.closed, hsaves]
      exact ht
  | cons record outer =>
      rw [closed_eq, undone_of_saves hsaves]
      refine ⟨fun id row hrow => ?_, fun r hr => ?_⟩
      · have hfull : (putBackAll { m with saves := outer } record.snapshots).rows[id]? =
            some row := by
          simp only [cutBack, Array.getElem?_extract] at hrow
          split at hrow
          · simpa using hrow
          · contradiction
        rcases rows_putBackAll record.snapshots hfull with h | ⟨s, hmem, rfl, rfl⟩
        · exact ht.rows id row h
        · exact ht.snapshots record (by rw [hsaves]; exact List.mem_cons_self ..) s hmem
      · have hmem : r ∈ outer := by
          have hframe : (putBackAll { m with saves := outer } record.snapshots).saves = outer :=
            (putBackAll_frame { m with saves := outer } record.snapshots).2.1
          rw [← hframe]
          exact hr
        exact ht.snapshots r (by rw [hsaves]; exact List.mem_cons_of_mem _ hmem)

lemma Tidy.iterate_closed {m : Memory} (ht : Tidy m) (count : Nat) :
    Tidy (Memory.closed^[count] m) := by
  induction count generalizing m with
  | zero => exact ht
  | succ count ih => exact ih ht.closed

lemma Tidy.opened {m : Memory} (ht : Tidy m) : Tidy m.opened := by
  refine ⟨ht.rows, fun record hrecord s hmem => ?_⟩
  rcases List.mem_cons.mp hrecord with rfl | hrecord
  · exact nomatch hmem
  · exact ht.snapshots record hrecord s hmem

lemma Tidy.after {m : Memory} (ht : Tidy m) (hs : Sound m) {op : MemoryOp}
    (hop : op.keepsTags = true) : Tidy (m.after op) := by
  cases op with
  | setTag id tag => contradiction
  | save =>
      rw [after_save]
      split
      · exact ht.opened
      · exact ht
  | restore level =>
      rw [after_restore hs]
      split
      · exact ht.iterate_closed _
      · exact ht
  | _ => exact ht.moves hs (moves_after hs rfl)

lemma Tidy.afterAll {m : Memory} (ht : Tidy m) (hs : Sound m) {ops : List MemoryOp}
    (hops : ∀ op ∈ ops, op.keepsTags = true) : Tidy (m.afterAll ops) := by
  induction ops generalizing m with
  | nil => exact ht
  | cons op rest ih =>
      exact ih (ht.after hs (hops op (List.mem_cons_self ..))) (sound_after hs op)
        fun op' hmem => hops op' (List.mem_cons_of_mem _ hmem)

lemma tidy_of_withBacking {bank : Bank} {backing : Backing} {settings : Settings} {m : Memory}
    (h : withBacking bank backing settings = .ok m) : Tidy m := by
  rw [withBacking] at h
  split at h
  · injection h with h
    subst h
    refine ⟨fun id row hrow => ?_, fun _ hrecord => absurd hrecord List.not_mem_nil⟩
    rcases Nat.eq_zero_or_pos id with rfl | hid
    · obtain rfl : Row.head = row := Option.some.inj hrow
      exact ⟨fun _ => rfl, fun _ => rfl⟩
    · rw [Array.getElem?_eq_none (Nat.succ_le_of_lt hid)] at hrow
      contradiction
  · contradiction

/-! ## Exactly the garbage -/

/-- What a collection from the given roots should leave behind, and what it should answer. -/
structure CollectsGarbage (m : Memory) (roots : List Object) (total : Nat) (n : Memory) : Prop where
  freed_iff : ∀ id row, m.rows[id]? = some row → row.tag.kind.isCollectable = true →
    0 < row.size → (Freed m n id ↔ ¬ Reaches m roots id)
  kept : ∀ id row, 0 < id → m.rows[id]? = some row → ¬ Freed m n id →
    ∃ row', n.rows[id]? = some row' ∧ row'.address = row.address ∧ row'.size = row.size ∧
      row'.tag = row.tag ∧ row'.mark.refcount = row.mark.refcount ∧ n.bytes id = m.bytes id
  unmarked : ∀ id row, 0 < id → n.rows[id]? = some row → row.mark.marked = false
  total_eq : total = reclaimed m n

/-- A collection frees what is garbage, and nothing that is not. -/
lemma Collected.freed_iff {m n : Memory} {garbage : Nat → Prop} (h : Collected m garbage n)
    {id : Nat} {row : Row} (hid : id ≠ 0) (hrow : m.rows[id]? = some row)
    (hlive : row.isFree = false) : Freed m n id ↔ garbage id := by
  constructor
  · rintro ⟨-, row', hrow', hfree⟩
    by_contra hg
    obtain rfl := Option.some.inj ((h.kept id row hid hrow hg).1.symm.trans hrow')
    rw [hlive] at hfree
    contradiction
  · intro hg
    exact ⟨⟨row, hrow, hlive⟩, freedRow row, h.gone id row hid hrow hg, isFree_freedRow row⟩

lemma Collected.collectsGarbage {m n : Memory} {roots : List Object} (hs : Sound m)
    (h : Collected m (Garbage m roots) n) : CollectsGarbage m roots (reclaimed m n) n where
  freed_iff := by
    intro id row hrow hkind hpos
    have hid : id ≠ 0 := by
      rintro rfl
      obtain ⟨head, hhead, hsize⟩ := hs.head
      obtain rfl := Option.some.inj (hhead.symm.trans hrow)
      omega
    rw [h.freed_iff hid hrow (isFree_of_collectable hkind)]
    constructor
    · rintro ⟨-, -, -, -, hreach⟩
      exact hreach
    · intro hreach
      exact ⟨row, hrow, hpos, hkind, hreach⟩
  kept := by
    intro id row hid hrow hfreed
    have hid' := Nat.pos_iff_ne_zero.mp hid
    have hnot : ¬ Garbage m roots id := by
      rintro ⟨r, hr, hpos, hkind, hreach⟩
      obtain rfl := Option.some.inj (hr.symm.trans hrow)
      exact hfreed ((h.freed_iff hid' hrow (isFree_of_collectable hkind)).mpr
        ⟨r, hr, hpos, hkind, hreach⟩)
    obtain ⟨hrow', hbytes⟩ := h.kept id row hid' hrow hnot
    exact ⟨row, hrow', rfl, rfl, rfl, rfl, hbytes⟩
  unmarked := fun id row hid hrow => (h.tidy.rows id row hrow).2 (Nat.pos_iff_ne_zero.mp hid)
  total_eq := rfl

/-- Roots that have the same members give the same collection. -/
lemma collect_congr {m : Memory} (hs : Sound m) (ht : Tidy m) {roots roots' : List Object}
    (hc : m.collector = some .markSweep) (h : ∀ obj, obj ∈ roots' ↔ obj ∈ roots) :
    collect roots' true false m = collect roots true false m := by
  obtain ⟨n, hmark, hmarking⟩ := mark_run hs ht.plainHead roots
  obtain ⟨n', hmark', hmarking'⟩ := mark_run hs ht.plainHead roots'
  have hmem : ∀ id, id ∈ (m.origins roots).reverse ↔ id ∈ (m.origins roots').reverse := by
    intro id
    simp only [List.mem_reverse, mem_origins, h]
  obtain rfl : n = n' := hmarking.unique ht.plainHead ht.unmarked hmem hmarking'
  have hrun : ∀ roots, collect roots true false m = markSweep roots true false m := by
    intro roots
    rw [collect, hc]
  rw [hrun, hrun, markSweep_eq, markSweep_eq]
  exact (bind_ok hmark').trans (bind_ok (f := fun _ => _) hmark).symm

/-- **A collection frees exactly the garbage**, whatever the object graph, and in whatever order the
roots are visited.  If it does not sweep or keeps everything, it frees nothing. -/
theorem collect_frees_garbage {bank : Bank} {backing : Backing} {settings : Settings}
    {start : Memory} (hstart : withBacking bank backing settings = .ok start) (run : List MemoryOp)
    (hrun : ∀ op ∈ run, op.keepsTags = true)
    (hcollector : (start.afterAll run).collector = some .markSweep) (roots : List Object) :
    (∃ total n, collect roots true false (start.afterAll run) = .ok total n ∧
      CollectsGarbage (start.afterAll run) roots total n ∧
      ∀ roots', (∀ obj, obj ∈ roots' ↔ obj ∈ roots) →
        collect roots' true false (start.afterAll run) = .ok total n) ∧
    ∀ sweeping markAll, sweeping = false ∨ markAll = true →
      ∃ n, collect roots sweeping markAll (start.afterAll run) = .ok 0 n ∧
        ∀ id, ¬ Freed (start.afterAll run) n id := by
  have hs := sound_afterAll (sound_of_withBacking hstart) run
  have ht := (tidy_of_withBacking hstart).afterAll (sound_of_withBacking hstart) hrun
  refine ⟨?_, fun sweeping markAll h => ?_⟩
  · obtain ⟨n, hcollect, hcollected⟩ := collect_run hs ht hcollector roots
    refine ⟨_, n, hcollect, hcollected.collectsGarbage hs, fun roots' h => ?_⟩
    rw [collect_congr hs ht hcollector h]
    exact hcollect
  · obtain ⟨n, hcollect, hcollected⟩ := collect_run_idle hs ht hcollector roots h
    refine ⟨n, hcollect, ?_⟩
    rintro id ⟨⟨row, hrow, hlive⟩, row', hrow', hfree⟩
    by_cases hid : id = 0
    · subst hid
      obtain ⟨row'', hrow'', htag⟩ := hcollected.head row hrow
      obtain rfl := Option.some.inj (hrow''.symm.trans hrow')
      rw [Row.isFree, htag] at hfree
      rw [Row.isFree, hfree] at hlive
      contradiction
    · exact (hcollected.freed_iff hid hrow hlive).mp ⟨⟨row, hrow, hlive⟩, row', hrow', hfree⟩

/-- Two arrays that hold each other, a string in one of them and one outside, and a root that refers
to nothing. -/
def cyclicRun : List MemoryOp :=
  [.useCollector .markSweep, .newArray 2 [], .newArray 1 [], .newString [7] [], .newString [8] [],
    .arrayPut (.composite .array .localVM 1 0 2) 0 (.composite .array .localVM 2 0 1),
    .arrayPut (.composite .array .localVM 2 0 1) 0 (.composite .array .localVM 1 0 2),
    .arrayPut (.composite .array .localVM 1 0 2) 1 (.composite .string .localVM 3 0 1)]

theorem collect_frees_garbage_cyclic :
    ∃ start, withBacking .localVM .anonymous Settings.standard = .ok start ∧
      (∀ op ∈ cyclicRun, op.keepsTags = true) ∧
      (start.afterAll cyclicRun).collector = some .markSweep ∧
      ∃ total n,
        collect [.composite .array .localVM 2 0 1, .composite .dict .localVM 99 0 1] true false
          (start.afterAll cyclicRun) = .ok total n ∧
        CollectsGarbage (start.afterAll cyclicRun)
          [.composite .array .localVM 2 0 1, .composite .dict .localVM 99 0 1] total n := by
  have hstart : withBacking .localVM .anonymous Settings.standard = .ok _ := rfl
  have hrun : ∀ op ∈ cyclicRun, op.keepsTags = true := by decide
  obtain ⟨⟨total, n, hcollect, hgarbage, -⟩, -⟩ := collect_frees_garbage hstart cyclicRun hrun rfl
    [.composite .array .localVM 2 0 1, .composite .dict .localVM 99 0 1]
  exact ⟨_, rfl, hrun, rfl, total, n, hcollect, hgarbage⟩

/-- A released memory still hands out entities without storage, but an array among them cannot be
looked into, and the collection fails. -/
theorem collect_fails_after_exit :
    ∃ start m n, create .localVM Settings.standard = .ok start ∧
      tableAlloc 0 (Tag.ofKind .array) start.exit = .ok 1 m ∧ m.collector = some .markSweep ∧
      collect [.composite .array .localVM 1 0 0] true false m = .error .uninitialized n :=
  ⟨_, _, _, rfl, rfl, rfl, rfl⟩

end Memory

end PostScriptCore
