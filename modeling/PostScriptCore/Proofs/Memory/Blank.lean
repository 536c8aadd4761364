import PostScriptCore.Proofs.Memory.Run
import PostScriptCore.Proofs.Memory.Cells

/-!
# Bytes that nobody has written

An arena never looks beyond its cursor, and what it leaves behind when the cursor goes back is zeroed.  So
the bytes from the cursor on are zero for as long as the memory exists.

* `Arena.Blank` — the bytes from the cursor on are zero.
* `Backing.IsBlank` — an arena over this backing starts with zeros only.
* `Memory.blank_amended`, `Memory.Change.blank`, `Memory.Moves.blank` — no step of an operation writes there.
* `Memory.blank_closed` — closing a level zeroes what it gives back.
* `Memory.blank_afterAll` — every memory that a run reaches is blank beyond its cursor.
-/

namespace PostScriptCore

/-! ## Arenas -/

/-- Every byte from the cursor on is zero. -/
def Arena.Blank (a : Arena) : Prop := ∀ i, a.used ≤ i → a.image.byte i = 0

/-- The bytes that an arena is mapped over are zero. -/
def Backing.IsBlank : Backing → Prop
  | .anonymous => True
  | .file content _ => ∀ b ∈ content, b = 0

lemma Image.byte_ofBytes {bytes : List UInt8} (h : ∀ b ∈ bytes, b = 0) (length i : Nat) :
    (Image.ofBytes bytes length).byte i = 0 := by
  have hget : (Image.ofBytes bytes length).byte i = (bytes.take length)[i]?.getD 0 := by
    simp [Image.byte, Image.ofBytes, Array.getD_eq_getD_getElem?]
  rw [hget]
  cases hi : (bytes.take length)[i]? with
  | none => rfl
  | some b => exact h b (List.mem_of_mem_take (List.mem_of_getElem? hi))

namespace Arena

variable {a b : Arena}

/-- Moving the cursor on over the same bytes keeps an arena blank. -/
lemma Blank.advance (h : a.Blank) (hused : a.used ≤ b.used) (hbyte : ∀ i, b.image.byte i = a.image.byte i) :
    b.Blank := by
  intro i hi
  rw [hbyte]
  exact h i (Nat.le_trans hused hi)

lemma blank_of_init {backing : Backing} {initial pageSize limit : Nat} (hblank : backing.IsBlank)
    (h : init backing initial pageSize limit = .ok a) : a.Blank := by
  intro i _
  rw [init] at h
  split at h
  · contradiction
  · split at h
    · contradiction
    · split at h
      · injection h with h
        subst h
        rfl
      · injection h with h
        subst h
        exact Image.byte_ofBytes hblank _ i
      · contradiction

end Arena

/-! ## Single steps -/

namespace Memory

variable {m n : Memory}

/-- What is written into an entity lies below the cursor. -/
lemma blank_amended (hs : Sound m) {id : Nat} {row : Row} {f : Row → Row} {image : Image}
    (h : Alters m id row f image) (hm : m.arena.Blank) : (m.amended id f image).arena.Blank := by
  rw [arena_amended]
  intro i hi
  have hout : i < row.address ∨ row.address + row.size ≤ i := by
    by_cases hid : id = 0
    · obtain ⟨head, hhead, hsize⟩ := hs.head
      have hrow := h.before
      rw [hid, hhead] at hrow
      obtain rfl := Option.some.inj hrow
      omega
    · have hend := (hs.fits hid h.before).2.2
      simp only at hi
      omega
  rw [h.byte i hout]
  exact hm i hi

lemma Change.blank (hs : Sound m) (h : Change m n) (hm : m.arena.Blank) : n.arena.Blank := by
  cases h with
  | idle h => rw [h.arena]; exact hm
  | opened handle => exact hm
  | remembered hid => rw [arena_touched]; exact hm
  | wrote offset bytes hrow hfit => exact blank_amended hs (alters_overwritten hrow hfit) hm
  | relinked head =>
      obtain ⟨row, hrow, -⟩ := hs.head
      exact blank_amended hs (alters_linked hrow head) hm
  | @freed id row head hid hrow hsize hlive =>
      have hs' := (carries_releaseResourceOf hs id).sound hs
      have halters := alters_retired hs' (by rw [rows_releaseResourceOf]; exact hrow) hsize head
      rw [arena_releaseResourceOf] at halters
      exact blank_amended hs' halters (by rw [arena_releaseResourceOf]; exact hm)

lemma Alloc.blank {id : Nat} (hs : Sound m) (h : Alloc m id n) (hm : m.arena.Blank) : n.arena.Blank := by
  cases h with
  | reused tag hid hrow => exact blank_amended hs (alters_recycled hs hrow tag) hm
  | added h => exact hm.advance (h.used ▸ Nat.le_add_right _ _) h.byte

lemma Sweeps.blank (hs : Sound m) (h : Sweeps m n) (hm : m.arena.Blank) : n.arena.Blank := by
  induction h with
  | refl => exact hm
  | tail hsweeps hstep ih =>
      have hs' := (Sweeps.carries hs hsweeps).sound hs
      rcases hstep with hchange | hmarks
      · exact hchange.blank hs' ih
      · rw [hmarks.frame]
        exact ih

lemma Moves.blank {A : Nat → Prop} (hs : Sound m) (h : Moves A m n) (hm : m.arena.Blank) :
    n.arena.Blank := by
  induction h with
  | refl => exact hm
  | tail hmoves hstep ih =>
      have hs' := Moves.sound hs hmoves
      cases hstep with
      | change h => exact h.blank hs' ih
      | alloc _ h => exact h.blank hs' ih
      | collected roots sweeping markAll =>
          exact Sweeps.blank hs' (Ends.finalState (onlySweeps_collect roots sweeping markAll hs')) ih

/-! ## Levels -/

/-- Snapshots of entities below the cursor are put back below the cursor. -/
lemma byte_putBackAll (snapshots : List Snapshot) (i : Nat)
    (h : ∀ s ∈ snapshots, s.bytes.length = s.row.size ∧ ¬ s.Spans i) :
    (m.putBackAll snapshots).arena.image.byte i = m.arena.image.byte i := by
  induction snapshots generalizing m with
  | nil => rfl
  | cons s rest ih =>
      rw [List.forall_mem_cons] at h
      rw [putBackAll_cons, ih h.2]
      exact (byte_putBack m s h.1.1 i).1 h.1.2

/-- **Closing a level leaves zeros behind.**  The bytes above the old cursor were never written, and those
between the new one and the old one are zeroed. -/
lemma blank_closed (hs : Sound m) (hm : m.arena.Blank) : m.closed.arena.Blank := by
  cases hsaves : m.saves with
  | nil =>
      rw [closed, hsaves]
      exact hm
  | cons record outer =>
      have hreplay := (hs.restorable.covers hsaves).replayable hs
      have hframe := putBackAll_frame { m with saves := outer } record.snapshots
      rw [closed_eq, undone_of_saves hsaves]
      intro i hi
      simp only [cutBack, hframe.2.2] at hi ⊢
      rw [Image.byte_zero]
      split
      · rfl
      · have hpast : m.arena.used ≤ i := by omega
        rw [byte_putBackAll]
        · exact hm i hpast
        · intro s hmem
          obtain ⟨hlength, hend⟩ := hreplay s hmem
          refine ⟨hlength, fun hspans => ?_⟩
          simp only [Snapshot.Spans] at hspans
          have hend := hend (by omega)
          omega

lemma blank_iterate_closed (count : Nat) (hs : Sound m) (hm : m.arena.Blank) :
    (closed^[count] m).arena.Blank := by
  induction count generalizing m with
  | zero => exact hm
  | succ count ih => exact ih (sound_closed hs) (blank_closed hs hm)

/-! ## Runs -/

lemma blank_after (hs : Sound m) (hm : m.arena.Blank) (op : MemoryOp) : (m.after op).arena.Blank := by
  cases op with
  | save =>
      rw [after_save]
      split
      · exact hm
      · exact hm
  | restore level =>
      rw [after_restore hs]
      split
      · exact blank_iterate_closed _ hs hm
      · exact hm
  | setTag id tag =>
      rw [after, MemoryOp.perform, setTag]
      rcases Nat.lt_or_ge id m.entityCount with hid | hid
      · obtain ⟨row, hrow⟩ := exists_row hid
        rw [finalState_of_ok (changeRow_run hs hrow _), arena_amended]
        exact hm
      · rw [finalState_of_error (changeRow_of_missing hid _)]
        exact hm
  | _ => exact (moves_after hs rfl).blank hs hm

lemma blank_of_withBacking {bank : Bank} {backing : Backing} {settings : Settings}
    (hblank : backing.IsBlank) (h : withBacking bank backing settings = .ok m) : m.arena.Blank := by
  rw [withBacking] at h
  split at h
  · next arena harena =>
    injection h with h
    subst h
    exact Arena.blank_of_init hblank harena
  · contradiction

/-- **Whatever a run does, the bytes from the cursor on are zero.** -/
lemma blank_afterAll (hs : Sound m) (hm : m.arena.Blank) (ops : List MemoryOp) :
    (m.afterAll ops).arena.Blank := by
  induction ops generalizing m with
  | nil => exact hm
  | cons op rest ih => exact ih (sound_after hs op) (blank_after hs hm op)

end Memory

end PostScriptCore
