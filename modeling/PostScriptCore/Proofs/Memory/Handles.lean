import PostScriptCore.Proofs.Memory.Files

/-!
# The slots of open files

A table of slots is coherent if the slots it keeps for reuse are empty and listed once.  Then a new
file never takes the slot of another one.

* `ResourceTable.Coherent` — the invariant of the table.
* `ResourceTable.Coherent.occupant?_insert` — putting a file into a slot changes that slot only, and the slot
  was empty before.
* `ResourceTable.Tight` — moreover, every empty slot is kept for reuse.
* `Memory.coherent_afterAll` — the table is coherent after every run.
-/

namespace PostScriptCore

namespace ResourceTable

/-- The slots to be reused are empty and listed once. -/
structure Coherent (table : ResourceTable) : Prop where
  nodup : table.vacant.Nodup
  vacant : ∀ slot ∈ table.vacant, table.slots[slot]? = some none

lemma coherent_empty : empty.Coherent := ⟨List.nodup_nil, fun _ h => nomatch h⟩

variable {table : ResourceTable}

lemma Coherent.insert (h : table.Coherent) (handle : Handle) : (table.insert handle).2.Coherent := by
  rw [ResourceTable.insert]
  split
  · next slot rest hvacant =>
    have hnodup := h.nodup
    rw [hvacant] at hnodup
    obtain ⟨hnot, hrest⟩ := List.nodup_cons.mp hnodup
    refine ⟨hrest, fun other hother => ?_⟩
    have hne : slot ≠ other := by
      rintro rfl
      exact hnot hother
    simp only [Array.getElem?_setIfInBounds, if_neg hne]
    exact h.vacant other (by rw [hvacant]; exact List.mem_cons_of_mem _ hother)
  · exact ⟨List.nodup_nil, fun _ hmem => nomatch hmem⟩

lemma Coherent.release (h : table.Coherent) (slot : Nat) : (table.release slot).2.Coherent := by
  rw [ResourceTable.release]
  split
  · next handle hoccupied =>
    have hlt := occupant?_lt hoccupied
    have hnot : slot ∉ table.vacant := by
      intro hmem
      rw [occupant?, h.vacant slot hmem] at hoccupied
      contradiction
    refine ⟨List.nodup_cons.mpr ⟨hnot, h.nodup⟩, fun other hother => ?_⟩
    simp only [Array.getElem?_setIfInBounds]
    rcases List.mem_cons.mp hother with rfl | hother
    · rw [if_pos rfl, if_pos hlt]
    · rw [if_neg (by rintro rfl; exact hnot hother)]
      exact h.vacant other hother
  · exact h

/-- The slot of a new file was empty. -/
lemma Coherent.occupant?_insert_fst (h : table.Coherent) (handle : Handle) :
    table.occupant? (table.insert handle).1 = none := by
  rw [ResourceTable.insert]
  split
  · next slot rest hvacant =>
    rw [occupant?, h.vacant slot (by rw [hvacant]; exact List.mem_cons_self ..)]
  · rw [occupant?, Array.getElem?_eq_none (Nat.le_refl _)]

/-- Putting a file into a slot changes that slot only. -/
lemma Coherent.occupant?_insert (h : table.Coherent) (handle : Handle) (slot : Nat) :
    (table.insert handle).2.occupant? slot =
      if slot = (table.insert handle).1 then some handle else table.occupant? slot := by
  rw [ResourceTable.insert]
  split
  · next first rest hvacant =>
    have hslot := h.vacant first (by rw [hvacant]; exact List.mem_cons_self ..)
    have hlt := (Array.getElem?_eq_some_iff.mp hslot).1
    simp only [occupant?, Array.getElem?_setIfInBounds]
    by_cases he : slot = first
    · rw [if_pos he, if_pos he.symm, if_pos hlt]
    · rw [if_neg he, if_neg (Ne.symm he)]
  · simp only [occupant?, Array.getElem?_push]
    by_cases he : slot = table.slots.size
    · rw [if_pos he, if_pos he]
    · rw [if_neg he, if_neg he]

/-! ## Tables without forgotten slots -/

/-- The slots kept for reuse are exactly the empty ones, each listed once. -/
structure Tight (table : ResourceTable) : Prop where
  nodup : table.vacant.Nodup
  vacant : ∀ slot, slot ∈ table.vacant ↔ table.slots[slot]? = some none

lemma Tight.coherent (h : table.Tight) : table.Coherent :=
  ⟨h.nodup, fun slot hslot => (h.vacant slot).mp hslot⟩

lemma Tight.insert (h : table.Tight) (handle : Handle) : (table.insert handle).2.Tight := by
  refine ⟨(h.coherent.insert handle).nodup, fun other => ?_⟩
  refine ⟨(h.coherent.insert handle).vacant other, fun hother => ?_⟩
  rw [ResourceTable.insert] at hother ⊢
  cases hvacant : table.vacant with
  | cons slot rest =>
      simp only [hvacant, Array.getElem?_setIfInBounds] at hother ⊢
      split at hother
      · split at hother <;> simp at hother
      · next hne =>
        have hmem := (h.vacant other).mpr hother
        rw [hvacant] at hmem
        exact (List.mem_cons.mp hmem).resolve_left (Ne.symm hne)
  | nil =>
      simp only [hvacant, Array.getElem?_push] at hother ⊢
      split at hother
      · simp at hother
      · have hmem := (h.vacant other).mpr hother
        rw [hvacant] at hmem
        exact hmem

lemma Tight.release (h : table.Tight) (slot : Nat) : (table.release slot).2.Tight := by
  refine ⟨(h.coherent.release slot).nodup, fun other => ?_⟩
  refine ⟨(h.coherent.release slot).vacant other, fun hother => ?_⟩
  rw [ResourceTable.release] at hother ⊢
  split
  · next handle hoccupied =>
    simp only [hoccupied, Array.getElem?_setIfInBounds] at hother
    split at hother
    · next he => exact List.mem_cons.mpr (.inl he.symm)
    · exact List.mem_cons_of_mem _ ((h.vacant other).mpr hother)
  · next hoccupied =>
    simp only [hoccupied] at hother
    exact (h.vacant other).mpr hother

lemma slots_size_release (table : ResourceTable) (slot : Nat) :
    (table.release slot).2.slots.size = table.slots.size := by
  rw [ResourceTable.release]
  split
  · exact Array.size_setIfInBounds
  · rfl

/-- A new slot is only added when all others are occupied. -/
lemma Tight.insert_cases (h : table.Tight) (handle : Handle) :
    ((table.insert handle).1 < table.slots.size ∧
      (table.insert handle).2.slots.size = table.slots.size) ∨
    ((table.insert handle).1 = table.slots.size ∧
      (table.insert handle).2.slots.size = table.slots.size + 1 ∧
      table.slots.size = table.occupied.card) := by
  rw [ResourceTable.insert]
  cases hvacant : table.vacant with
  | cons slot rest =>
      have hslot := (h.vacant slot).mp (by rw [hvacant]; exact List.mem_cons_self ..)
      exact .inl ⟨(Array.getElem?_eq_some_iff.mp hslot).1, Array.size_setIfInBounds⟩
  | nil =>
      refine .inr ⟨rfl, Array.size_push _, ?_⟩
      rw [occupied, Finset.filter_true_of_mem, Finset.card_range]
      intro slot hslot
      rw [occupant?]
      cases hentry : table.slots[slot]? with
      | none => exact absurd (Finset.mem_range.mp hslot) (Nat.not_lt.mpr
          (Array.getElem?_eq_none_iff.mp hentry))
      | some entry =>
          cases entry with
          | some handle => rfl
          | none =>
              have hmem := (h.vacant slot).mpr hentry
              rw [hvacant] at hmem
              exact absurd hmem List.not_mem_nil

end ResourceTable

namespace Memory

variable {m n : Memory}

lemma coherent_releaseResourceOf (h : m.resources.Coherent) (id : Nat) :
    (m.releaseResourceOf id).resources.Coherent := by
  rw [releaseResourceOf]
  split
  · exact h
  · split
    · split
      · exact h.release _
      · exact h
    · exact h

lemma Change.coherent (hn : Change m n) (h : m.resources.Coherent) : n.resources.Coherent := by
  cases hn with
  | idle hn => rw [hn.resources]; exact h
  | opened handle => exact h.insert handle
  | remembered => rw [resources_touched]; exact h
  | wrote => rw [overwritten, amended, edited, resources_touched]; exact h
  | relinked => rw [linked, amended, edited, resources_touched]; exact h
  | freed =>
      rw [retired, amended, edited, resources_touched]
      exact coherent_releaseResourceOf h _

lemma Alloc.coherent {id : Nat} (hn : Alloc m id n) (h : m.resources.Coherent) :
    n.resources.Coherent := by
  cases hn with
  | reused => rw [recycled, amended, edited, resources_touched]; exact h
  | added => exact h

lemma Sweeps.coherent (hn : Sweeps m n) (h : m.resources.Coherent) : n.resources.Coherent := by
  induction hn with
  | refl => exact h
  | tail _ hstep ih =>
      rcases hstep with hstep | hstep
      · exact hstep.coherent ih
      · rw [hstep.frame]
        exact ih

lemma Moves.coherent {A : Nat → Prop} (hs : Sound m) (hn : Moves A m n)
    (h : m.resources.Coherent) : n.resources.Coherent := by
  induction hn with
  | refl => exact h
  | tail hmoves hstep ih =>
      cases hstep with
      | change hstep => exact hstep.coherent ih
      | alloc _ hstep => exact hstep.coherent ih
      | collected roots sweeping markAll =>
          exact Sweeps.coherent (Ends.finalState
            (onlySweeps_collect roots sweeping markAll (Moves.sound hs hmoves))) ih

lemma coherent_closed (h : m.resources.Coherent) : m.closed.resources.Coherent := by
  have hfold : ∀ (ids : List Nat) (m : Memory), m.resources.Coherent →
      (ids.foldl releaseResourceOf m).resources.Coherent := by
    intro ids
    induction ids with
    | nil => exact fun _ h => h
    | cons id rest ih => exact fun m h => ih _ (coherent_releaseResourceOf h id)
  cases hsaves : m.saves with
  | nil => rw [closed, hsaves]; exact h
  | cons record outer =>
      obtain ⟨rows, image, hback⟩ := putBackAll_eq record.snapshots { m with saves := outer }
      rw [closed_of_saves hsaves, cutBack, releaseResources]
      refine hfold _ _ ?_
      rw [hback]
      exact h

lemma coherent_iterate_closed (h : m.resources.Coherent) (count : Nat) :
    (closed^[count] m).resources.Coherent := by
  induction count generalizing m with
  | zero => exact h
  | succ count ih => exact ih (coherent_closed h)

lemma coherent_after (hs : Sound m) (h : m.resources.Coherent) (op : MemoryOp) :
    (m.after op).resources.Coherent := by
  cases op with
  | save =>
      rw [after_save]
      split <;> exact h
  | restore level =>
      rw [after_restore hs]
      split
      · exact coherent_iterate_closed h _
      · exact h
  | setTag id tag =>
      rw [after, MemoryOp.perform, setTag]
      rcases Nat.lt_or_ge id m.entityCount with hid | hid
      · obtain ⟨row, hrow⟩ := exists_row hid
        rw [finalState_of_ok (changeRow_run hs hrow _), amended, edited, resources_touched]
        exact h
      · rw [finalState_of_error (changeRow_of_missing hid _)]
        exact h
  | _ => exact (moves_after hs rfl).coherent hs h

/-- **The slots stay coherent**, whatever a run does. -/
lemma coherent_afterAll (hs : Sound m) (h : m.resources.Coherent) (ops : List MemoryOp) :
    (m.afterAll ops).resources.Coherent := by
  induction ops generalizing m with
  | nil => exact h
  | cons op rest ih => exact ih (sound_after hs op) (coherent_after hs h op)

lemma coherent_of_withBacking {bank : Bank} {backing : Backing} {settings : Settings} {m : Memory}
    (h : withBacking bank backing settings = .ok m) : m.resources.Coherent := by
  rw [withBacking] at h
  split at h
  · injection h with h
    subst h
    exact ResourceTable.coherent_empty
  · contradiction

end Memory

end PostScriptCore
