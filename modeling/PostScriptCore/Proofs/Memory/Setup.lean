import PostScriptCore.Proofs.Memory.Following
import PostScriptCore.Proofs.Memory.Run

/-!
# What operations leave alone

Most of an operation happens to the storage of a memory: to the rows, the bytes, the save levels and the
files.  Only a search along the free list also counts, and nothing but a registration changes the rest.  So a
relation between memories that has nothing to say of storage holds from one end of an operation to the other.

* `Memory.follows_level` — what operations do that neither change levels nor register anything.
* `Memory.IgnoresStorage` — a relation that has nothing to say of storage; `Memory.follows_steady` is for the
  operations that do not search.
* `Memory.IgnoresPacing` — a relation that does not look at the countdown either; `Memory.follows_perform` is for
  every operation.
* `Memory.SameSetup` — the strongest relation that ignores storage.
-/

namespace PostScriptCore

namespace MemoryOp

/-- Whether the operation registers another collector or another search. -/
def registers : MemoryOp → Bool
  | useCollector .. | useSearch .. => true
  | _ => false

/-- Whether the operation opens or closes levels. -/
def changesLevel : MemoryOp → Bool
  | save | restore .. => true
  | _ => false

/-- Whether the operation neither searches the free list nor registers anything. -/
def isSteady : MemoryOp → Bool
  | tableAlloc .. | free .. | put .. | writeObject .. | arrayPut .. | dictPut .. | collect .. | retain ..
  | release .. | setTag .. | save | restore .. => true
  | _ => false

end MemoryOp

namespace Memory

variable {R : Memory → Memory → Prop}

/-! ## Inside a level -/

/-- **An operation that neither changes levels nor registers anything** is followed by each relation that ignores
what such operations do. -/
lemma follows_level [IgnoresAllocation R] [IgnoresCountdown R] {op : MemoryOp} (hlevel : op.changesLevel = false)
    (h : op.registers = false) : Follows R op.perform := by
  cases op with
  | tableAlloc size tag => exact .map (IgnoresAllocation.tableAlloc size tag) _
  | allocate size tag roots => exact .map (follows_allocate size tag roots) _
  | allocateWithoutGc size tag => exact .map (follows_allocateWithoutGc size tag) _
  | firstFit size tag => exact .map (follows_firstFit size tag) _
  | realloc id size roots => exact .map (follows_realloc id size roots) _
  | reallocWithoutGc id size => exact .map (follows_reallocWithoutGc id size) _
  | free id => exact IgnoresRecycling.free id
  | put id offset bytes => exact follows_put id offset bytes
  | writeObject id offset obj => exact follows_put id offset obj.encode
  | arrayPut array index value => exact follows_arrayPut array index value
  | dictPut dict key value => exact follows_dictPut dict key value
  | newString bytes roots => exact .map (follows_newString bytes roots) _
  | newArray length roots => exact .map (follows_newElements _ _ _ length roots) _
  | newProc elements roots => exact .map (follows_newProc elements roots) _
  | newDict capacity roots => exact .map (follows_newElements _ _ _ capacity roots) _
  | newFile handle writable roots => exact .map (follows_newFile handle writable roots) _
  | collect roots sweeping markAll => exact .map (follows_collect roots sweeping markAll) _
  | retain id => exact follows_retain id
  | release id => exact follows_release id
  | setTag id tag => exact follows_changeRow id fun _ => rfl
  | useCollector collector | useSearch policy honest => contradiction
  | save | restore level => contradiction

/-! ## Storage -/

/-- A relation that holds whatever happens to the rows, the bytes, the save levels and the files. -/
class IgnoresStorage (R : Memory → Memory → Prop) : Prop extends Std.Refl R, IsTrans Memory R where
  storage : ∀ m rows arena saves resources, R m { m with rows, arena, saves, resources }

/-- A relation that holds also if the countdown to the next collection changes. -/
class IgnoresPacing (R : Memory → Memory → Prop) : Prop extends IgnoresStorage R, IgnoresCountdown R

section Storage

variable [IgnoresStorage R]

instance : IgnoresRows R where
  refl := Std.Refl.refl
  trans := IsTrans.trans
  storage m rows image saves resources _ := IgnoresStorage.storage m rows { m.arena with image } saves resources

/-! ## Single steps -/

lemma follows_modify {f : Memory → Memory} (hf : ∀ m, ∃ rows arena saves resources,
    f m = { m with rows, arena, saves, resources }) : Follows R (modify f : MemoryM Unit) := by
  refine .modify fun m => ?_
  obtain ⟨rows, arena, saves, resources, he⟩ := hf m
  rw [he]
  exact IgnoresStorage.storage m rows arena saves resources

lemma follows_onArena {α : Type} (x : EStateM Fault Arena α) : Follows R (onArena x) := fun m =>
  Ends.focus (Ends.always (fun _ arena => IgnoresStorage.storage m m.rows arena m.saves m.resources)
    fun _ arena => IgnoresStorage.storage m m.rows arena m.saves m.resources)

/-! ## New rows and levels -/

lemma follows_tableAlloc (size : Nat) (tag : Tag) : Follows R (tableAlloc size tag) := by
  have hpush (size address : Nat) : Follows R (modifyGet fun m => (m.entityCount,
      { m with rows := m.rows.push ⟨address, size, Mark.createdAt m.level, tag⟩ }) : MemoryM Nat) :=
    fun m => IgnoresStorage.storage m (m.rows.push ⟨address, size, Mark.createdAt m.level, tag⟩) m.arena
      m.saves m.resources
  exact .bind (.query _) fun size => .ite (.bind (.map .get _) (hpush size))
    (.bind (follows_onArena _) (hpush size))

instance : IgnoresAllocation R where
  tableAlloc := follows_tableAlloc

lemma follows_save : Follows R save := by
  intro m
  by_cases h : Mark.maxLevel ≤ m.level
  · exact Ends.of_error (if_pos h) (Std.Refl.refl m)
  · exact Ends.of_ok (if_neg h)
      (IgnoresStorage.storage m m.rows m.arena (⟨m.entityCount, m.arena.used, []⟩ :: m.saves) m.resources)

lemma follows_replay (snapshots : List Snapshot) : Follows R (replay snapshots) := by
  induction snapshots with
  | nil => exact .pure _
  | cons snapshot rest ih =>
      have hrest : Follows R (do
          modifyRow snapshot.id fun _ => snapshot.row
          replay rest) := .bind (follows_modifyRow _ _) fun _ => ih
      exact .ite (.bind (follows_onArena _) fun _ => hrest) hrest

lemma follows_rollBack (record : SaveRecord) : Follows R (rollBack record) := by
  refine .bind (follows_replay _) fun _ => .bind (follows_modify fun m => ?_) fun _ => follows_onArena _
  rw [releaseResources_eq]
  exact ⟨_, _, _, _, rfl⟩

lemma follows_closeLevels (count : Nat) : Follows R (closeLevels count) := by
  induction count with
  | zero => exact .pure _
  | succ count ih =>
      refine .bind .get fun m => ?_
      split
      · exact .pure _
      · exact .bind (follows_modify fun _ => ⟨_, _, _, _, rfl⟩) fun _ =>
          .bind (follows_rollBack _) fun _ => ih

lemma follows_restore (level : Nat) : Follows R (restore level) :=
  .bind .get fun _ => .ite (.throw_bind _) (follows_closeLevels _)

/-- Every operation that does not search stays in a relation that ignores storage. -/
lemma follows_steady {op : MemoryOp} (h : op.isSteady = true) : Follows R op.perform := by
  cases op with
  | tableAlloc size tag => exact .map (follows_tableAlloc size tag) _
  | free id => exact IgnoresRecycling.free id
  | put id offset bytes => exact follows_put id offset bytes
  | writeObject id offset obj => exact follows_put id offset obj.encode
  | arrayPut array index value => exact follows_arrayPut array index value
  | dictPut dict key value => exact follows_dictPut dict key value
  | collect roots sweeping markAll => exact .map (follows_collect roots sweeping markAll) _
  | retain id => exact follows_retain id
  | release id => exact follows_release id
  | setTag id tag => exact follows_changeRow id fun _ => rfl
  | save => exact .map follows_save _
  | restore level => exact follows_restore level
  | _ => contradiction

end Storage

section Pacing

variable [IgnoresPacing R]

/-- **Every operation stays in a relation that ignores storage and pacing**, unless it registers something. -/
lemma follows_perform {op : MemoryOp} (h : op.registers = false) : Follows R op.perform := by
  cases op with
  | save => exact .map follows_save _
  | restore level => exact follows_restore level
  | _ => exact follows_level rfl h

end Pacing

/-- Everything but the storage is the same. -/
structure SameSetup (m n : Memory) : Prop where
  bank : n.bank = m.bank
  limit : n.maxEntities = m.maxEntities
  policy : n.policy = m.policy
  collector : n.collector = m.collector
  period : n.gcPeriod = m.gcPeriod
  countdown : n.gcCountdown = m.gcCountdown

instance : IgnoresStorage SameSetup where
  refl _ := ⟨rfl, rfl, rfl, rfl, rfl, rfl⟩
  trans _ _ _ h h' := ⟨h'.bank.trans h.bank, h'.limit.trans h.limit, h'.policy.trans h.policy,
    h'.collector.trans h.collector, h'.period.trans h.period, h'.countdown.trans h.countdown⟩
  storage _ _ _ _ _ := ⟨rfl, rfl, rfl, rfl, rfl, rfl⟩

end Memory

end PostScriptCore
