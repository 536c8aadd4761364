import PostScriptCore.Proofs.Memory.Restore

/-!
# Runs

A run is a list of operations, each of which may succeed or fail; either way the next one goes on
from the memory it left behind.

* `MemoryOp` — the operations a run is made of.  Setting addresses, sizes or marks directly and
  releasing the whole memory are not among them.
* `Memory.after`, `Memory.afterAll` — the memory after one operation and after a run.
* `MemoryOp.allocation?` — the entity an operation hands out.
* `MemoryOp.collection?` — the collection it runs, for an allocation as well.
* `Memory.moves_after` — every operation but `save`, `restore` and retagging is a sequence of moves.
* `Memory.sound_afterAll` — every memory that a run reaches is in working order.
-/

namespace PostScriptCore

/-- An operation of a run. -/
inductive MemoryOp
  | tableAlloc (size : Nat) (tag : Tag)
  | allocate (size : Nat) (tag : Tag) (roots : List Object)
  | allocateWithoutGc (size : Nat) (tag : Tag)
  | firstFit (size : Nat) (tag : Tag)
  | realloc (id size : Nat) (roots : List Object)
  | reallocWithoutGc (id size : Nat)
  | free (id : Nat)
  | put (id offset : Nat) (bytes : List UInt8)
  | writeObject (id offset : Nat) (obj : Object)
  | arrayPut (array : Object) (index : Nat) (value : Object)
  | dictPut (dict key value : Object)
  | newString (bytes : List UInt8) (roots : List Object)
  | newArray (length : Nat) (roots : List Object)
  | newProc (elements roots : List Object)
  | newDict (capacity : Nat) (roots : List Object)
  | newFile (handle : Handle) (writable : Bool) (roots : List Object)
  | collect (roots : List Object) (sweeping markAll : Bool)
  | retain (id : Nat)
  | release (id : Nat)
  | setTag (id : Nat) (tag : Tag)
  /-- Another collector is registered. -/
  | useCollector (collector : Collector)
  /-- Another search for recycled storage is registered. -/
  | useSearch (policy : FitPolicy) (honest : policy.Honest)
  | save
  | restore (level : Nat)

namespace MemoryOp

/-- Runs an operation and drops its answer. -/
def perform : MemoryOp → MemoryM Unit
  | tableAlloc size tag => discard (Memory.tableAlloc size tag)
  | allocate size tag roots => discard (Memory.allocate size tag roots)
  | allocateWithoutGc size tag => discard (Memory.allocateWithoutGc size tag)
  | firstFit size tag => discard (Memory.firstFit size tag)
  | realloc id size roots => discard (Memory.realloc id size roots)
  | reallocWithoutGc id size => discard (Memory.reallocWithoutGc id size)
  | free id => Memory.free id
  | put id offset bytes => Memory.put id offset bytes
  | writeObject id offset obj => Memory.writeObject id offset obj
  | arrayPut array index value => Memory.arrayPut array index value
  | dictPut dict key value => Memory.dictPut dict key value
  | newString bytes roots => discard (Memory.newString bytes roots)
  | newArray length roots => discard (Memory.newArray length roots)
  | newProc elements roots => discard (Memory.newProc elements roots)
  | newDict capacity roots => discard (Memory.newDict capacity roots)
  | newFile handle writable roots => discard (Memory.newFile handle writable roots)
  | collect roots sweeping markAll => discard (Memory.collect roots sweeping markAll)
  | retain id => Memory.retain id
  | release id => Memory.release id
  | setTag id tag => Memory.setTag id tag
  | useCollector collector => modify fun m => { m with collector := some collector }
  | useSearch policy _ => modify fun m => { m with policy }
  | save => discard Memory.save
  | restore level => Memory.restore level

/-- Whether the operation neither opens nor closes levels and retags nothing by hand. -/
def isPlain : MemoryOp → Bool
  | setTag .. | save | restore .. => false
  | _ => true

/-- Whether the operation leaves tags to the allocator. -/
def keepsTags : MemoryOp → Bool
  | setTag .. => false
  | _ => true

/-- The entity that the operation's allocation hands out, also when the operation fails later. -/
def allocation? (m : Memory) : MemoryOp → Option Nat
  | tableAlloc size tag => answer? (Memory.tableAlloc size tag) m
  | allocate size tag roots => answer? (Memory.allocate size tag roots) m
  | allocateWithoutGc size tag => answer? (Memory.allocateWithoutGc size tag) m
  | firstFit size tag =>
    match answer? (Memory.firstFit size tag) m with
    | some (.reused id) => some id
    | _ => none
  | realloc id size roots =>
    match m.movable id with
    | .ok row => answer? (Memory.allocate size row.tag roots) m
    | .error _ => none
  | reallocWithoutGc id size =>
    match m.movable id with
    | .ok row => answer? (Memory.allocateWithoutGc size row.tag) m
    | .error _ => none
  | newString bytes roots => sized bytes.length .string roots
  | newArray length roots => sized (length * objectSize) .array roots
  | newProc elements roots => sized (elements.length * objectSize) .array roots
  | newDict capacity roots => sized (capacity * Memory.dictEntrySize) .dict roots
  | newFile _ _ roots => answer? (Memory.allocate 8 (Tag.ofKind .file) roots) m
  | _ => none
where
  /-- Sizes beyond a word are refused before anything is allocated. -/
  sized (size : Nat) (kind : Kind) (roots : List Object) : Option Nat :=
    if size < wordBound then answer? (Memory.allocate size (Tag.ofKind kind) roots) m else none

/-- The allocation that the operation comes to run and that may have to collect first: its size, its tag and
its roots. -/
def request? (m : Memory) : MemoryOp → Option (Nat × Tag × List Object)
  | allocate size tag roots => some (size, tag, roots)
  | realloc id size roots =>
    match m.movable id with
    | .ok row => some (size, row.tag, roots)
    | .error _ => none
  | newString bytes roots => sized bytes.length .string roots
  | newArray length roots => sized (length * objectSize) .array roots
  | newProc elements roots => sized (elements.length * objectSize) .array roots
  | newDict capacity roots => sized (capacity * Memory.dictEntrySize) .dict roots
  | newFile _ _ roots => some (8, Tag.ofKind .file, roots)
  | _ => none
where
  /-- Sizes beyond a word are refused before anything is allocated. -/
  sized (size : Nat) (kind : Kind) (roots : List Object) : Option (Nat × Tag × List Object) :=
    if size < wordBound then some (size, Tag.ofKind kind, roots) else none

/-- The collection that the operation runs: its roots, whether it sweeps, and whether it marks everything.  An
allocation runs one if its first search for recycled storage asks for it. -/
def collection? (m : Memory) : MemoryOp → Option (List Object × Bool × Bool)
  | collect roots sweeping markAll => some (roots, sweeping, markAll)
  | op =>
    match op.request? m with
    | none => none
    | some (size, tag, roots) =>
      match answer? (Memory.findStorage size tag) m with
      | some .needsCollection => some (roots, true, false)
      | _ => none

/-- What an operation collects, its allocation collects. -/
lemma collection?_of_request {m : Memory} {op : MemoryOp} {size : Nat} {tag : Tag} {roots : List Object}
    (h : op.request? m = some (size, tag, roots)) :
    op.collection? m = (allocate size tag roots).collection? m := by
  cases op with
  | collect => contradiction
  | _ =>
      rw [collection?, h]
      · rfl
      · nofun

/-- An operation that collects without allocating is a collection. -/
lemma eq_collect_of_collection? {m : Memory} {op : MemoryOp} (h : op.request? m = none) {roots : List Object}
    {sweeping markAll : Bool} (hcollects : op.collection? m = some (roots, sweeping, markAll)) :
    op = collect roots sweeping markAll := by
  cases op with
  | collect =>
      cases hcollects
      rfl
  | _ => simp [collection?, h] at hcollects

end MemoryOp

namespace Memory

/-- The memory after an operation, whatever its outcome. -/
def after (m : Memory) (op : MemoryOp) : Memory := finalState op.perform m

/-- The memory after a run. -/
def afterAll (m : Memory) (ops : List MemoryOp) : Memory := ops.foldl after m

lemma after_of_ok {α : Type} {x : MemoryM α} {op : MemoryOp} {m n : Memory} {a : α}
    (hop : op.perform = discard x) (hrun : x m = .ok a n) : m.after op = n := by
  rw [after, hop, finalState_discard, finalState_of_ok hrun]

variable {A : Nat → Prop}

lemma Performs.discard {α : Type} {x : MemoryM α} {m : Memory} {P : α → Memory → Prop}
    (h : Performs A x m P) : Performs A (discard x) m fun _ _ => True := by
  rw [Performs, Ends] at h
  split at h
  · next hx => exact .of_ok (discard_ok hx) h.1 trivial
  · next hx => exact .of_error (discard_error hx) h

lemma Performs.moves {α : Type} {x : MemoryM α} {m : Memory} {P : α → Memory → Prop}
    (h : Performs A x m P) : Moves A m (finalState x m) :=
  Ends.finalState (Ends.mono h (fun _ _ hn => hn.1) fun _ _ hn => hn)

lemma answers_answer? (x : MemoryM Nat) (m : Memory) :
    Answers (fun id => answer? x m = some id) x m := by
  intro id n h
  rw [answer?, h]

/-- The answers of a sized allocation. -/
lemma answers_sized (m : Memory) (size : Nat) (kind : Kind) (roots : List Object)
    (h : size < wordBound) :
    Answers (fun id => MemoryOp.allocation?.sized m size kind roots = some id)
      (allocate size (Tag.ofKind kind) roots) m := by
  intro id n hrun
  rw [MemoryOp.allocation?.sized, if_pos h]
  exact answers_answer? _ m id n hrun

/-- **What an operation does is a sequence of moves** that hand out what its allocation answers and
nothing else. -/
lemma moves_after {m : Memory} (hs : Sound m) {op : MemoryOp} (h : op.isPlain = true) :
    Moves (fun id => op.allocation? m = some id) m (m.after op) := by
  cases op with
  | tableAlloc size tag =>
      exact (performs_tableAlloc size tag hs (answers_answer? _ m)).discard.moves
  | allocate size tag roots =>
      exact (performs_allocate size tag roots hs (answers_answer? _ m)).discard.moves
  | allocateWithoutGc size tag =>
      exact (performs_allocateWithoutGc size tag hs (answers_answer? _ m)).discard.moves
  | firstFit size tag =>
      refine (performs_firstFit size tag hs ?_).discard.moves
      rintro fit n hrun id rfl
      rw [MemoryOp.allocation?, answer?, hrun]
  | realloc id size roots =>
      refine (performs_realloc id size roots hs fun row hrow => ?_).discard.moves
      simp only [MemoryOp.allocation?, hrow]
      exact answers_answer? _ m
  | reallocWithoutGc id size =>
      refine (performs_reallocWithoutGc id size hs fun row hrow => ?_).discard.moves
      simp only [MemoryOp.allocation?, hrow]
      exact answers_answer? _ m
  | free id => exact (performs_free id hs).moves
  | put id offset bytes => exact (performs_put id offset bytes hs).moves
  | writeObject id offset obj => exact (performs_put id offset obj.encode hs).moves
  | arrayPut array index value => exact (performs_arrayPut array index value hs).moves
  | dictPut dict key value => exact (performs_dictPut dict key value hs).moves
  | newString bytes roots =>
      exact (performs_newString bytes roots hs (answers_sized m _ _ _)).discard.moves
  | newArray length roots =>
      exact (performs_newElements _ _ _ length roots hs (answers_sized m _ _ _)).discard.moves
  | newProc elements roots =>
      exact (performs_newProc elements roots hs (answers_sized m _ _ _)).discard.moves
  | newDict capacity roots =>
      exact (performs_newElements _ _ _ capacity roots hs (answers_sized m _ _ _)).discard.moves
  | newFile handle writable roots =>
      exact (performs_newFile handle writable roots hs (answers_answer? _ m)).discard.moves
  | collect roots sweeping markAll =>
      exact (performs_collect roots sweeping markAll m).discard.moves
  | retain id => exact (performs_retain id hs).moves
  | release id => exact (performs_release id hs).moves
  | useCollector collector =>
      exact .of_change (.idle ⟨rfl, rfl, rfl, hs.policy, fun _ => rfl⟩)
  | useSearch policy honest =>
      exact .of_change (.idle ⟨rfl, rfl, rfl, honest, fun _ => rfl⟩)
  | setTag id tag => contradiction
  | save => contradiction
  | restore level => contradiction

/-! ## Every reached memory is sound -/

lemma after_save {m : Memory} :
    m.after .save = if m.level < Mark.maxLevel then m.opened else m := by
  rw [after, MemoryOp.perform, finalState_discard]
  split
  · next h => exact finalState_of_ok (save_run h)
  · next h => exact finalState_of_error (save_error h)

lemma Closes.after_restore {P : Memory → Prop} (h : Closes P) {m : Memory} (hm : P m) (level : Nat) :
    m.after (.restore level) =
      if level ≠ 0 ∧ level ≤ m.level then Memory.closed^[m.level - level + 1] m else m := by
  rw [after, MemoryOp.perform]
  split
  · next hopen => exact finalState_of_ok (h.restore hm hopen.1 hopen.2)
  · next hopen => exact finalState_of_error (restore_error (by omega))

lemma after_restore {m : Memory} (hs : Sound m) (level : Nat) :
    m.after (.restore level) =
      if level ≠ 0 ∧ level ≤ m.level then closed^[m.level - level + 1] m else m :=
  closes_sound.after_restore hs level

lemma carries_after_setTag {m : Memory} (hs : Sound m) (id : Nat) (tag : Tag) :
    Carries m (m.after (.setTag id tag)) := by
  rw [after, MemoryOp.perform, setTag]
  rcases Nat.lt_or_ge id m.entityCount with hid | hid
  · obtain ⟨row, hrow⟩ := exists_row hid
    rw [finalState_of_ok (changeRow_run hs hrow _)]
    exact carries_retagged hs hrow tag
  · rw [finalState_of_error (changeRow_of_missing hid _)]
    exact .refl hs

/-- Every operation that keeps the levels open is undone by closing the innermost one. -/
lemma carries_after {m : Memory} (hs : Sound m) {op : MemoryOp} (hsave : op ≠ .save)
    (hrestore : ∀ level, op ≠ .restore level) : Carries m (m.after op) := by
  cases op with
  | setTag id tag => exact carries_after_setTag hs id tag
  | save => contradiction
  | restore level => exact absurd rfl (hrestore level)
  | _ => exact (moves_after hs rfl).carries hs

lemma sound_after {m : Memory} (hs : Sound m) (op : MemoryOp) : Sound (m.after op) := by
  by_cases hsave : op = .save
  · subst hsave
    rw [after_save]
    split
    · next h => exact sound_opened hs h
    · exact hs
  · by_cases hrestore : ∃ level, op = .restore level
    · obtain ⟨level, rfl⟩ := hrestore
      rw [after_restore hs]
      split
      · exact sound_iterate_closed _ hs
      · exact hs
    · exact (carries_after hs hsave fun level he => hrestore ⟨level, he⟩).sound hs

lemma sound_afterAll {m : Memory} (hs : Sound m) (ops : List MemoryOp) :
    Sound (m.afterAll ops) := by
  induction ops generalizing m with
  | nil => exact hs
  | cons op rest ih => exact ih (sound_after hs op)

lemma level_of_withBacking {bank : Bank} {backing : Backing} {settings : Settings} {m : Memory}
    (h : withBacking bank backing settings = .ok m) : m.level = 0 := by
  rw [withBacking] at h
  split at h
  · injection h with h
    subst h
    rfl
  · contradiction

lemma level_of_create {bank : Bank} {settings : Settings} {m : Memory} (h : create bank settings = .ok m) :
    m.level = 0 := by
  rw [create] at h
  cases hback : withBacking bank .anonymous settings with
  | error fault =>
      rw [hback] at h
      contradiction
  | ok fresh =>
      rw [hback] at h
      obtain rfl := Except.ok.inj h
      have hlevel : fresh.level = 0 := level_of_withBacking hback
      exact hlevel

lemma sound_of_withBacking {bank : Bank} {backing : Backing} {settings : Settings} {m : Memory}
    (h : withBacking bank backing settings = .ok m) : Sound m := by
  rw [withBacking] at h
  split at h
  · next arena harena =>
    injection h with h
    subst h
    obtain ⟨hsound, hused, -⟩ := Arena.sound_of_init harena
    have hout : ∀ id row, 0 < id → (#[Row.head] : Array Row)[id]?.map Row.plain ≠ some row := by
      intro id row hid
      rw [Array.getElem?_eq_none (Nat.succ_le_of_lt hid)]
      exact nofun
    refine ⟨hsound, trivial, .base rfl ⟨⟨Row.head.plain, rfl, rfl⟩, ?_, ?_, ?_, ?_⟩⟩
    · show arena.used % arenaAlign = 0
      rw [hused, Nat.zero_mod]
    · intro id row hid hrow
      exact absurd hrow (hout id row hid)
    · intro i j row row' hi _ hrow
      exact absurd hrow (hout i row hi)
    · intro id row hrow
      rcases Nat.eq_zero_or_pos id with rfl | hid
      · have he : some Row.head.plain = some row := hrow
        injection he with he
        subst he
        exact ⟨Nat.le_refl _, Nat.le_refl _⟩
      · exact absurd hrow (hout id row hid)
  · contradiction

/-- A fresh local memory with the standard settings. -/
def freshLocal : Memory :=
  match withBacking .localVM .anonymous Settings.standard with
  | .ok m => m
  | .error _ => vacant

lemma withBacking_freshLocal :
    withBacking .localVM .anonymous Settings.standard = .ok freshLocal := rfl

lemma sound_freshLocal (run : List MemoryOp) : (freshLocal.afterAll run).Sound :=
  sound_afterAll (sound_of_withBacking withBacking_freshLocal) run

end Memory

end PostScriptCore
