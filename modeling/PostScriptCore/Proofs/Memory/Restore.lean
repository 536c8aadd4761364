import PostScriptCore.Proofs.Memory.Operation
import PostScriptCore.Memory.Save

/-!
# Opening and closing levels

`save` and `restore` as plain functions on sound memories.

* `Memory.save_run`, `Memory.alike_undone_opened` — a level that has just been opened leads back to the
  memory before it.
* `Memory.closed` — the memory after `restore` has closed one level; it is `Memory.undone` with the
  files of the vanished entities closed.
* `Memory.Closable`, `Memory.Closes` — what closing a level needs, and an invariant that has it at every level.
* `Memory.Closes.closeLevels`, `Memory.restore_run` — closing levels never fails.
* `Memory.createdAfter_iff` — which entities vanish from the table with a level.
-/

namespace PostScriptCore

/-- A snapshot has all bytes of the entity, and they have their place below the cursor. -/
def Snapshot.Fits (s : Snapshot) (used : Nat) : Prop :=
  s.bytes.length = s.row.size ∧ (0 < s.row.size → s.row.address + s.row.size ≤ used)

namespace Memory

/-! ## Opening a level -/

/-- The memory with a new level. -/
def opened (m : Memory) : Memory :=
  { m with saves := ⟨m.entityCount, m.arena.used, []⟩ :: m.saves }

lemma save_run {m : Memory} (h : m.level < Mark.maxLevel) :
    save m = .ok (m.level + 1) m.opened := by
  rw [save, if_neg (Nat.not_le.mpr h)]
  rfl

lemma save_error {m : Memory} (h : ¬ m.level < Mark.maxLevel) :
    save m = .error .limitCheck m := by
  rw [save, if_pos (Nat.le_of_not_lt h)]

@[simp] lemma level_opened (m : Memory) : m.opened.level = m.level + 1 := rfl

lemma alike_undone_opened (m : Memory) : Alike m.opened.undone m := by
  have hrows : m.rows.take m.entityCount = m.rows := Array.extract_size
  refine ⟨rfl, rfl, ?_, fun id => ?_, fun a _ => ?_⟩
  · show (m.rows.take m.entityCount).size = m.rows.size
    rw [hrows]
  · show (m.rows.take m.entityCount)[id]?.map Row.plain = m.rows[id]?.map Row.plain
    rw [hrows]
  · show (m.arena.image.zero m.arena.used m.arena.used).byte a = _
    rw [Image.byte_zero, if_neg (by omega)]

/-- Nothing has changed since a level was opened, so that it covers everything. -/
lemma covers_opened {m : Memory} (hs : Sound m) (h : m.level < Mark.maxLevel) :
    Covers m.opened ⟨m.entityCount, m.arena.used, []⟩ where
  level_le := h
  pos := hs.entityCount_pos
  count_le := Nat.le_refl _
  used_le := Nat.le_refl _
  aligned := hs.layout.aligned
  old := fun id row hid _ hrow => (hs.layout.fits id row hid hrow).2.2
  new := by
    intro id row hid hrow
    exact absurd (lt_entityCount_of_outline (m := m) hrow) (Nat.not_lt.mpr hid)
  remembered := by
    intro id row _ hrow hmark
    have hwithin := hs.layout.within id row hrow
    rw [level_opened] at hmark
    omega
  known := fun _ hmem => nomatch hmem

lemma layout_opened {m : Memory} (hs : Sound m) : Layout m.opened where
  head := hs.layout.head
  aligned := hs.layout.aligned
  fits := hs.layout.fits
  disjoint := hs.layout.disjoint
  within := by
    intro id row hrow
    obtain ⟨hcreated, hsnapshot⟩ := hs.layout.within id row hrow
    rw [level_opened]
    exact ⟨Nat.le_succ_of_le hcreated, Nat.le_succ_of_le hsnapshot⟩

lemma sound_opened {m : Memory} (hs : Sound m) (h : m.level < Mark.maxLevel) : Sound m.opened where
  arena := hs.arena
  policy := hs.policy
  restorable := .level _ _ rfl (layout_opened hs) (covers_opened hs h)
    (hs.restorable.congr (alike_undone_opened m).symm)

/-! ## Closing a level -/

lemma releaseResources_eq (first count : Nat) (m : Memory) :
    m.releaseResources first count =
      { m with resources := (m.releaseResources first count).resources } := by
  have hfold : ∀ (ids : List Nat) (m : Memory),
      ids.foldl releaseResourceOf m =
        { m with resources := (ids.foldl releaseResourceOf m).resources } := by
    intro ids
    induction ids with
    | nil => exact fun _ => rfl
    | cons id rest ih =>
        intro m
        rw [List.foldl_cons, ih, releaseResourceOf_eq]
  exact hfold _ m

/-- The memory after `restore` has closed its innermost level. -/
def closed (m : Memory) : Memory :=
  match m.saves with
  | [] => m
  | record :: outer =>
    let back := putBackAll { m with saves := outer } record.snapshots
    cutBack (back.releaseResources record.entityCount (back.entityCount - record.entityCount)) record

lemma closed_of_saves {m : Memory} {record : SaveRecord} {outer : List SaveRecord}
    (h : m.saves = record :: outer) :
    m.closed = cutBack ((putBackAll { m with saves := outer } record.snapshots).releaseResources
      record.entityCount (m.entityCount - record.entityCount)) record := by
  rw [closed, h]
  dsimp only
  rw [(putBackAll_frame { m with saves := outer } record.snapshots).1]
  rfl

/-- Closing a level undoes it and closes files. -/
lemma closed_eq (m : Memory) : m.closed = { m.undone with resources := m.closed.resources } := by
  cases hsaves : m.saves with
  | nil => rw [closed, undone, hsaves]
  | cons record outer =>
      rw [closed_of_saves hsaves, undone_of_saves hsaves, releaseResources_eq]
      rfl

lemma alike_undone_closed (m : Memory) : Alike m.undone m.closed := by
  rw [closed_eq]
  exact ⟨rfl, rfl, rfl, fun _ => rfl, fun _ _ => rfl⟩

/-- Snapshots whose bytes still lie below the cursor can be put back. -/
lemma replay_run (snapshots : List Snapshot) {m : Memory} (hs : m.arena.Sound)
    (h : ∀ s ∈ snapshots, s.Fits m.arena.used) :
    replay snapshots m = .ok () (m.putBackAll snapshots) := by
  induction snapshots generalizing m with
  | nil => rfl
  | cons s rest ih =>
      obtain ⟨hlen, hfit⟩ := h s (List.mem_cons_self ..)
      have hrest := ih (m := m.putBack s) ⟨hs.mapped, hs.used_le_max, hs.max_lt⟩
        fun t ht => h t (List.mem_cons_of_mem _ ht)
      rw [replay, putBackAll_cons, ← hrest, putBack]
      split
      · next hpos =>
        have hwrite : Arena.write s.row.address s.bytes m.arena =
            .ok () { m.arena with image := m.arena.image.write s.row.address s.bytes } := by
          rw [Arena.write, hlen, hs.obstacle?_eq_none (hfit hpos)]
        exact (bind_ok (onArena_ok hwrite)).trans rfl
      · rfl

/-- What a level remembers lies where it did, below the cursor. -/
lemma Covers.replayable {m : Memory} (hs : Sound m) {record : SaveRecord} (hc : Covers m record) :
    ∀ s ∈ record.snapshots, s.Fits m.arena.used := by
  intro s hmem
  have hm := hc.known s hmem
  refine ⟨hm.length, fun hpos => ?_⟩
  obtain ⟨row, hrow, hsize, haddress⟩ := hm.place
  have h0 : s.id ≠ 0 := by
    intro h0
    obtain ⟨head, hhead, hz⟩ := hs.layout.head
    rw [h0, hhead] at hrow
    injection hrow with hrow
    rw [← hrow] at hsize
    omega
  have hfits := (hs.layout.fits s.id row (Nat.pos_of_ne_zero h0) hrow).2.2
  rw [haddress h0, hsize] at hfits
  exact hfits

/-- Putting snapshots back changes the bytes of the arena only, and rows of the table. -/
lemma putBackAll_eq (snapshots : List Snapshot) (m : Memory) :
    ∃ rows image, m.putBackAll snapshots = { m with rows, arena := { m.arena with image } } := by
  induction snapshots generalizing m with
  | nil => exact ⟨m.rows, m.arena.image, rfl⟩
  | cons s rest ih =>
      obtain ⟨rows, image, h⟩ := ih (m.putBack s)
      exact ⟨rows, image, by rw [putBackAll_cons, h]; rfl⟩

/-- Undoing a level keeps the arena mapped, and moves the cursor back. -/
lemma undone_eq {m : Memory} {record : SaveRecord} {outer : List SaveRecord}
    (hsaves : m.saves = record :: outer) :
    ∃ rows image, m.undone =
      { m with saves := outer, rows, arena := { m.arena with image, used := record.used } } := by
  obtain ⟨rows, image, h⟩ := putBackAll_eq record.snapshots { m with saves := outer }
  exact ⟨rows.take record.entityCount, image.zero record.used m.arena.used, by
    rw [undone_of_saves hsaves, h]; rfl⟩

/-- A level can be closed: the table and the cursor have come no further back than they were when it was opened,
and what it remembers lies below the cursor. -/
structure Closable (m : Memory) (record : SaveRecord) : Prop where
  arena : m.arena.Sound
  count : record.entityCount ≤ m.entityCount
  used : record.used ≤ m.arena.used
  replayable : ∀ s ∈ record.snapshots, s.Fits m.arena.used

lemma Sound.closable {m : Memory} (hs : Sound m) {record : SaveRecord} {outer : List SaveRecord}
    (hsaves : m.saves = record :: outer) : Closable m record :=
  have hc := hs.restorable.covers hsaves
  ⟨hs.arena, hc.count_le, hc.used_le, hc.replayable hs⟩

lemma rollBack_run {m : Memory} {record : SaveRecord} {outer : List SaveRecord} (h : Closable m record)
    (hsaves : m.saves = record :: outer) :
    rollBack record { m with saves := outer } = .ok () m.closed := by
  have hreplay := replay_run record.snapshots (m := { m with saves := outer }) h.arena h.replayable
  obtain ⟨rows, image, hback⟩ := putBackAll_eq record.snapshots { m with saves := outer }
  refine (bind_ok hreplay).trans ((bind_ok rfl).trans ?_)
  rw [closed, hsaves]
  dsimp only
  rw [hback, releaseResources_eq]
  refine onArena_ok ?_
  have hused : ¬ m.arena.used < record.used := Nat.not_lt.mpr h.used
  rw [Arena.truncate, if_neg hused, if_pos h.arena.mapped]

lemma sound_closed {m : Memory} (hs : Sound m) : Sound m.closed := by
  have hrestorable := hs.restorable.undone.congr (alike_undone_closed m)
  cases hsaves : m.saves with
  | nil =>
      rw [closed, hsaves]
      exact hs
  | cons record outer =>
      obtain ⟨rows, image, hundone⟩ := undone_eq hsaves
      have hused := (hs.restorable.covers hsaves).used_le
      refine ⟨?_, ?_, hrestorable⟩
      · rw [closed_eq, hundone]
        exact ⟨hs.arena.mapped, Nat.le_trans hused hs.arena.used_le_max, hs.arena.max_lt⟩
      · rw [closed_eq, hundone]
        exact hs.policy

lemma level_closed (m : Memory) : m.closed.level = m.level - 1 := by
  cases hsaves : m.saves with
  | nil => rw [closed, hsaves, Memory.level, hsaves]; rfl
  | cons record outer =>
      obtain ⟨rows, image, hundone⟩ := undone_eq hsaves
      rw [closed_eq, hundone, Memory.level, Memory.level, hsaves]
      rfl

/-- An invariant under which every open level can be closed. -/
structure Closes (P : Memory → Prop) : Prop where
  closable : ∀ {m : Memory} {record : SaveRecord} {outer : List SaveRecord}, P m →
    m.saves = record :: outer → Closable m record
  closed : ∀ {m : Memory}, P m → P m.closed

namespace Closes

variable {P : Memory → Prop} {m : Memory}

/-- **Closing levels never fails.** -/
lemma closeLevels (h : Closes P) (count : Nat) (hm : P m) :
    Memory.closeLevels count m = .ok () (Memory.closed^[count] m) := by
  induction count generalizing m with
  | zero => rfl
  | succ count ih =>
      rw [Function.iterate_succ_apply, ← ih (h.closed hm), Memory.closeLevels]
      refine (bind_ok (t := m) rfl).trans ?_
      cases hsaves : m.saves with
      | nil =>
          have hclosed : m.closed = m := by rw [Memory.closed, hsaves]
          have hstill : ∀ n, Memory.closeLevels n m = .ok () m := by
            intro n
            cases n with
            | zero => rfl
            | succ n =>
                rw [Memory.closeLevels]
                refine (bind_ok (t := m) rfl).trans ?_
                rw [hsaves]
                rfl
          rw [hclosed, hstill]
          rfl
      | cons record outer =>
          exact (bind_ok rfl).trans (bind_ok (rollBack_run (h.closable hm hsaves) hsaves))

lemma iterate (h : Closes P) (count : Nat) (hm : P m) : P (Memory.closed^[count] m) := by
  induction count generalizing m with
  | zero => exact hm
  | succ count ih => exact ih (h.closed hm)

lemma restore (h : Closes P) (hm : P m) {level : Nat} (h0 : level ≠ 0) (hle : level ≤ m.level) :
    Memory.restore level m = .ok () (Memory.closed^[m.level - level + 1] m) := by
  have hguard : ¬ (level = 0 ∨ m.level < level) := by omega
  rw [Memory.restore]
  refine (bind_ok (t := m) rfl).trans ?_
  rw [if_neg hguard]
  exact h.closeLevels _ hm

end Closes

lemma closes_sound : Closes Sound := ⟨fun hs hsaves => hs.closable hsaves, sound_closed⟩

lemma sound_iterate_closed (count : Nat) {m : Memory} (hs : Sound m) :
    Sound (closed^[count] m) :=
  closes_sound.iterate count hs

lemma level_iterate_closed (count : Nat) (m : Memory) :
    (closed^[count] m).level = m.level - count := by
  induction count generalizing m with
  | zero => rfl
  | succ count ih =>
      rw [Function.iterate_succ_apply, ih, level_closed]
      omega

lemma alike_iterate_closed (count : Nat) {m : Memory} (hs : Sound m) :
    Alike (undone^[count] m) (closed^[count] m) := by
  induction count generalizing m with
  | zero => exact .refl m
  | succ count ih =>
      rw [Function.iterate_succ_apply, Function.iterate_succ_apply]
      exact ((alike_undone_closed m).iterate_undone hs.restorable.undone count).trans
        (ih (sound_closed hs))

lemma restore_run {m : Memory} (hs : Sound m) {level : Nat} (h0 : level ≠ 0)
    (hle : level ≤ m.level) :
    restore level m = .ok () (closed^[m.level - level + 1] m) :=
  closes_sound.restore hs h0 hle

lemma restore_error {m : Memory} {level : Nat} (h : level = 0 ∨ m.level < level) :
    restore level m = .error .invalidRestore m := by
  rw [restore]
  refine (bind_ok (t := m) rfl).trans ?_
  rw [if_pos h]
  rfl

/-! ## What vanishes -/

lemma saves_closed {m : Memory} {record : SaveRecord} {outer : List SaveRecord}
    (hsaves : m.saves = record :: outer) : m.closed.saves = outer := by
  obtain ⟨rows, image, hundone⟩ := undone_eq hsaves
  rw [closed_eq, hundone]

lemma entityCount_closed {m : Memory} {record : SaveRecord} {outer : List SaveRecord}
    (h : Closable m record) (hsaves : m.saves = record :: outer) :
    m.closed.entityCount = record.entityCount := by
  rw [← (alike_undone_closed m).count, undone_of_saves hsaves]
  refine entityCount_cutBack ?_
  rw [(putBackAll_frame { m with saves := outer } record.snapshots).1]
  exact h.count

lemma entityCount_iterate_closed (count : Nat) {m : Memory} (hs : Sound m)
    (hcount : count < m.level) :
    ∃ record, m.saves[count]? = some record ∧
      (closed^[count + 1] m).entityCount = record.entityCount := by
  induction count generalizing m with
  | zero =>
      obtain ⟨record, outer, hsaves⟩ := List.exists_cons_of_length_pos hcount
      exact ⟨record, by rw [hsaves]; rfl, entityCount_closed (hs.closable hsaves) hsaves⟩
  | succ count ih =>
      obtain ⟨record, outer, hsaves⟩ :=
        List.exists_cons_of_length_pos (Nat.lt_of_le_of_lt (Nat.zero_le _) hcount)
      obtain ⟨found, hfound, hentities⟩ := ih (sound_closed hs) (by rw [level_closed]; omega)
      rw [saves_closed hsaves] at hfound
      refine ⟨found, ?_, hentities⟩
      rw [hsaves, List.getElem?_cons_succ]
      exact hfound

/-- **An entity was added after a level was opened if the level takes it from the table.** -/
lemma createdAfter_iff {m : Memory} (hs : Sound m) {id level : Nat} (h0 : level ≠ 0)
    (hle : level ≤ m.level) :
    m.createdAfter id level = true ↔ (closed^[m.level - level + 1] m).entityCount ≤ id := by
  have hlevel : m.saves.length = m.level := rfl
  obtain ⟨record, hrecord, hcount⟩ := entityCount_iterate_closed (m.level - level) hs (by omega)
  have hreverse : m.saves.reverse[level - 1]? = some record := by
    rw [List.getElem?_reverse (by omega), ← hrecord]
    congr 1
    omega
  rw [createdAfter, if_neg h0, hreverse, hcount]
  exact decide_eq_true_iff

end Memory

end PostScriptCore
