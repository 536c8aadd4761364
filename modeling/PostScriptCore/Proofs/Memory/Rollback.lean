import PostScriptCore.Proofs.Memory.Reading
import PostScriptCore.Proofs.Memory.Run

/-!
# Restoring a level

Whatever happens between a `save` and the `restore` of its level, the memory comes back: the same
entities at the same places with the same contents, and the same free list.

* `Memory.SameStorage` — what comes back.
* `Memory.Leads` — the invariant of the run in between: closing the levels that are open now leads
  to the memory before the `save`.
* `Memory.restore_rolls_back` — the theorem.
-/

namespace PostScriptCore

/-- Whether the operation leaves the levels up to `level` open. -/
def MemoryOp.staysAbove (level : Nat) : MemoryOp → Bool
  | restore inner => decide (level < inner)
  | _ => true

namespace Memory

/-- The same entities with the same contents, and the same free list. -/
structure SameStorage (m n : Memory) : Prop where
  entityCount : n.entityCount = m.entityCount
  used : n.arena.used = m.arena.used
  level : n.level = m.level
  freeList : n.freeEntities = m.freeEntities
  address : ∀ id, (n.row id).map Row.address = (m.row id).map Row.address
  size : ∀ id, (n.row id).map Row.size = (m.row id).map Row.size
  tag : ∀ id, (n.row id).map Row.tag = (m.row id).map Row.tag
  bytes : ∀ id, n.bytes id = m.bytes id

lemma Alike.sameStorage {m n : Memory} (h : Alike m n) (hm : Sound m) (hn : Sound n) :
    SameStorage m n where
  entityCount := h.count.symm
  used := h.used.symm
  level := h.level.symm
  freeList := h.freeEntities hm hn
  address := h.row_map Row.plain_address
  size := h.row_map Row.plain_size
  tag := h.row_map Row.plain_tag
  bytes := h.bytes hm hn

/-! ## The run between -/

/-- Closing all levels above those of `base` leads to a memory like `base`. -/
structure Leads (base m : Memory) : Prop where
  sound : Sound m
  above : base.level < m.level
  back : Alike base (undone^[m.level - base.level] m)

lemma leads_opened {m : Memory} (hs : Sound m) (h : m.level < Mark.maxLevel) : Leads m m.opened where
  sound := sound_opened hs h
  above := Nat.lt_succ_self _
  back := by
    rw [level_opened, Nat.add_sub_cancel_left]
    exact (alike_undone_opened m).symm

/-- A change that closing the innermost level undoes leads back to the same memory. -/
lemma Leads.carries {base m n : Memory} (h : Leads base m) (hc : Carries m n) : Leads base n where
  sound := hc.sound h.sound
  above := by rw [hc.level]; exact h.above
  back := by
    have habove := h.above
    obtain ⟨count, hcount⟩ : ∃ count, m.level - base.level = count + 1 :=
      ⟨m.level - base.level - 1, by omega⟩
    have hback := h.back
    rw [hcount, Function.iterate_succ_apply] at hback
    rw [hc.level, hcount, Function.iterate_succ_apply]
    cases hc.continues with
    | base saves _ =>
        have hlevel : m.level = 0 := by rw [Memory.level, saves]; rfl
        omega
    | level _ _ _ _ _ _ _ _ _ undone =>
        exact hback.trans (undone.iterate_undone h.sound.restorable.undone count)

/-- Opening an inner level leads back through it. -/
lemma Leads.opened {base m : Memory} (h : Leads base m) (hlevel : m.level < Mark.maxLevel) :
    Leads base m.opened where
  sound := sound_opened h.sound hlevel
  above := Nat.lt_succ_of_lt h.above
  back := by
    have habove := h.above
    have hs := sound_opened h.sound hlevel
    rw [level_opened, Nat.succ_sub (Nat.le_of_lt habove), Function.iterate_succ_apply]
    exact h.back.trans
      ((alike_undone_opened m).symm.iterate_undone h.sound.restorable _)

/-- Closing inner levels only shortens the way back. -/
lemma Leads.closed {base m : Memory} (h : Leads base m) {count : Nat}
    (hcount : base.level < m.level - count) : Leads base (Memory.closed^[count] m) where
  sound := sound_iterate_closed count h.sound
  above := by rw [level_iterate_closed]; exact hcount
  back := by
    have hs : Restorable (Memory.undone^[count] m) := by
      have := (sound_iterate_closed count h.sound).restorable
      exact this.congr (alike_iterate_closed count h.sound).symm
    have halike := (alike_iterate_closed count h.sound).iterate_undone hs
      (m.level - count - base.level)
    rw [← Function.iterate_add_apply] at halike
    have hsum : m.level - count - base.level + count = m.level - base.level := by omega
    rw [hsum] at halike
    rw [level_iterate_closed]
    exact h.back.trans halike

/-- One operation that leaves the level open keeps the way back. -/
lemma Leads.after {base m : Memory} (h : Leads base m) {op : MemoryOp}
    (hop : op.staysAbove (base.level + 1)) : Leads base (m.after op) := by
  by_cases hsave : op = .save
  · subst hsave
    rw [after_save]
    split
    · next hlevel => exact h.opened hlevel
    · exact h
  · by_cases hrestore : ∃ level, op = .restore level
    · obtain ⟨level, rfl⟩ := hrestore
      rw [after_restore h.sound]
      split
      · next hlevel =>
        simp only [MemoryOp.staysAbove, decide_eq_true_eq] at hop
        exact h.closed (by omega)
      · exact h
    · exact h.carries
        (carries_after h.sound hsave fun level he => hrestore ⟨level, he⟩)

/-- A whole run keeps the way back. -/
lemma Leads.afterAll {base m : Memory} (h : Leads base m) {ops : List MemoryOp}
    (hops : ∀ op ∈ ops, op.staysAbove (base.level + 1)) : Leads base (m.afterAll ops) := by
  induction ops generalizing m with
  | nil => exact h
  | cons op rest ih =>
      exact ih (h.after (hops op (List.mem_cons_self ..)))
        fun op' hmem => hops op' (List.mem_cons_of_mem _ hmem)

/-- Closing the levels that were opened since leads back. -/
lemma Leads.alike {base m : Memory} (h : Leads base m) :
    Alike base (Memory.closed^[m.level - base.level] m) :=
  h.back.trans (alike_iterate_closed _ h.sound)

/-- **Exact rollback.**  A level that can be opened can be restored after any run that leaves it
open, and then the memory is what it was when the level was opened. -/
theorem restore_rolls_back {bank : Bank} {backing : Backing} {settings : Settings} {start : Memory}
    (hstart : withBacking bank backing settings = .ok start) (before : List MemoryOp)
    (hdepth : (start.afterAll before).level < Mark.maxLevel) :
    ∃ m, save (start.afterAll before) = .ok ((start.afterAll before).level + 1) m ∧
      ∀ during : List MemoryOp,
        (∀ op ∈ during, op.staysAbove ((start.afterAll before).level + 1)) →
        ∃ n, restore ((start.afterAll before).level + 1) (m.afterAll during) = .ok () n ∧
          SameStorage (start.afterAll before) n := by
  have hs := sound_afterAll (sound_of_withBacking hstart) before
  refine ⟨_, save_run hdepth, fun during hduring => ?_⟩
  have hleads := (leads_opened hs hdepth).afterAll hduring
  set base := start.afterAll before
  set m := base.opened.afterAll during
  have habove := hleads.above
  have hcount : m.level - (base.level + 1) + 1 = m.level - base.level := by omega
  refine ⟨_, restore_run hleads.sound (Nat.succ_ne_zero _) habove, ?_⟩
  rw [hcount]
  exact hleads.alike.sameStorage hs (sound_iterate_closed _ hleads.sound)

/-- A string from before the level is freed, recycled, overwritten inside an inner level and swept. -/
theorem restore_rolls_back_recycled_string :
    ∃ start, withBacking .localVM .anonymous Settings.standard = .ok start ∧
      (start.afterAll [.newString [1, 2, 3] [], .save]).level = 1 ∧
      ∃ m, save (start.afterAll [.newString [1, 2, 3] [], .save]) = .ok 2 m ∧
        ∃ n, restore 2 (m.afterAll [.free 1, .newString [9] [], .save, .put 1 0 [7, 7],
            .restore 3, .save, .useCollector .markSweep, .collect [] true false]) = .ok () n ∧
          SameStorage (start.afterAll [.newString [1, 2, 3] [], .save]) n := by
  have hstart : withBacking .localVM .anonymous Settings.standard = .ok _ := rfl
  obtain ⟨m, hsave, hrestore⟩ :=
    restore_rolls_back hstart [.newString [1, 2, 3] [], .save] (by decide)
  exact ⟨_, rfl, by decide, m, hsave, hrestore _ (by decide)⟩

end Memory

end PostScriptCore
