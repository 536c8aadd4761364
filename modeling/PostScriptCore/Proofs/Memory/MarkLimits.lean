import PostScriptCore.Proofs.MarkWord
import PostScriptCore.Proofs.Memory.Dating
import PostScriptCore.Proofs.Transfer.Receiving

/-!
# The limits of mark words

The setters of a mark word take any number and drop the bits that do not fit.  A memory never gives them such a
number: it refuses a save level and a pin that no mark could record, and a pin that is not there is not taken back.
As no mark is dated later than the current level, the dates fit as well.

* `MemoryEvent` — everything that can happen to a memory, except that marks are set by hand.
* `Memory.Dated.afterEvent`, `Memory.Dated.afterEvents` — no event dates a mark later than the current level.
* `Memory.MarksFit` — the numbers that a memory gives to the setters fit.
* `Memory.marks_never_wrap` — the setters are independent, and they never drop a bit.
-/

namespace PostScriptCore

/-- What can happen to a memory that has not exited, except that a mark is set by hand. -/
inductive MemoryEvent
  | operation (op : MemoryOp)
  /-- An entity is remembered, as operations do before they change it. -/
  | touch (id : Nat)
  /-- An entity is handed to a new owner, as allocations do. -/
  | reuse (id : Nat) (tag : Tag)
  | setAddress (id address : Nat)
  | setSize (id size : Nat)
  /-- A search for recycled storage is registered, whatever it answers. -/
  | useSearch (policy : FitPolicy)
  /-- Open files are used, whatever happens to them. -/
  | useFiles (resources : ResourceTable)
  /-- Copies of objects of another memory are received. -/
  | receive (source : Memory) (transfer : Transfer) (objects : List Object)

namespace Memory

variable {m : Memory} {id : Nat}

/-! ## Runs of events -/

/-- The memory after an event, whatever its outcome. -/
def afterEvent (m : Memory) : MemoryEvent → Memory
  | .operation op => m.after op
  | .touch id => finalState (Memory.touch id) m
  | .reuse id tag => finalState (Memory.reuse id tag) m
  | .setAddress id address => finalState (Memory.setAddress id address) m
  | .setSize id size => finalState (Memory.setSize id size) m
  | .useSearch policy => { m with policy }
  | .useFiles resources => { m with resources }
  | .receive source transfer objects => (finalState (Transfer.copyAll source objects) (transfer, m)).2

/-- The memory after a run of events. -/
def afterEvents (m : Memory) (events : List MemoryEvent) : Memory := events.foldl afterEvent m

lemma Dated.follow {α : Type} {x : MemoryM α} (h : Dated m) (hx : Follows KeepsDates x) :
    Dated (finalState x m) :=
  ((hx m).finalState h).dated

lemma Dated.after (h : Dated m) (op : MemoryOp) : Dated (m.after op) := by
  cases op with
  | save =>
      rw [after_save]
      split
      · next hlevel => exact h.opened hlevel
      · exact h
  | restore level =>
      rw [closes_dated.after_restore h]
      split
      · exact closes_dated.iterate _ h
      · exact h
  | useCollector collector => exact ⟨h.arena, h.level_le, h.nested, h.marks⟩
  | useSearch policy honest => exact ⟨h.arena, h.level_le, h.nested, h.marks⟩
  | _ => exact h.follow (follows_level rfl rfl)

/-- **No event dates a mark later** than the level at which it happens. -/
lemma Dated.afterEvent (h : Dated m) (event : MemoryEvent) : Dated (m.afterEvent event) := by
  cases event with
  | operation op => exact h.after op
  | touch id => exact h.follow (IgnoresContents.touch id)
  | reuse id tag => exact h.follow (IgnoresRecycling.reuse id tag)
  | setAddress id address => exact h.follow (follows_changeRow id fun _ => rfl)
  | setSize id size => exact h.follow (follows_changeRow id fun _ => rfl)
  | useSearch policy => exact ⟨h.arena, h.level_le, h.nested, h.marks⟩
  | useFiles resources => exact ⟨h.arena, h.level_le, h.nested, h.marks⟩
  | receive source transfer objects =>
      have hcopied : Follows (Transfer.OnTarget KeepsDates) (Transfer.copyAll source objects) :=
        Transfer.follows_copyAll source objects
      exact ((hcopied (transfer, m)).finalState h).dated

lemma Dated.afterEvents (h : Dated m) (events : List MemoryEvent) : Dated (m.afterEvents events) := by
  induction events generalizing m with
  | nil => exact h
  | cons event rest ih => exact ih (h.afterEvent event)

/-- A fresh memory has one row, which is dated at the outermost level. -/
lemma dated_of_withBacking {bank : Bank} {backing : Backing} {settings : Settings}
    (h : withBacking bank backing settings = .ok m) : Dated m := by
  rw [withBacking] at h
  split at h
  · next arena harena =>
    obtain rfl := Except.ok.inj h
    refine ⟨(Arena.sound_of_init harena).1, Nat.zero_le _, List.pairwise_singleton _ _,
      fun count id row hrow _ => ?_⟩
    have hhead : row = Row.head := Array.mem_singleton.mp (Array.mem_of_getElem? hrow)
    rw [remembered?_of_closed rfl, hhead]
    exact (Mark.upTo_createdAt 0).mono (Nat.zero_le _)
  · contradiction

/-! ## Mark words -/

/-- The mark word of an entity. -/
def markWord (m : Memory) (id : Nat) : Except Fault MarkWord := (m.row id).map fun row => row.mark.packed

/-- The memory with another mark word for an entity. -/
def withMarkWord (m : Memory) (id : Nat) (word : MarkWord) : Memory :=
  { m with rows := m.rows.modify id fun row => { row with mark := word.mark } }

variable {word : MarkWord}

lemma markWord_eq_ok_iff : m.markWord id = .ok word ↔ m.rows[id]?.map Row.mark = some word.mark := by
  rw [markWord, Memory.row]
  cases m.rows[id]? with
  | none => constructor <;> intro h <;> cases h
  | some row => exact ⟨fun h => congrArg some (row.mark.packed_eq_iff.mp (Except.ok.inj h)),
      fun h => congrArg Except.ok (row.mark.packed_eq_iff.mpr (Option.some.inj h))⟩

lemma exists_row_of_markWord (h : m.markWord id = .ok word) :
    ∃ row, m.rows[id]? = some row ∧ row.mark = word.mark :=
  Option.map_eq_some_iff.mp (markWord_eq_ok_iff.mp h)

/-- Pins are counted in the mark word. -/
lemma setMark_withRefcount (h : m.markWord id = .ok word) (count : BitVec 32) :
    setMark id (word.mark.withRefcount count.toNat) m = .ok () (m.withMarkWord id (word.withRefcount count)) := by
  obtain ⟨row, hrow, -⟩ := exists_row_of_markWord h
  rw [withMarkWord, MarkWord.mark_withRefcount]
  exact setMark_run hrow _

/-- One more pin, unless the count is full. -/
lemma retain_markWord (h : m.markWord id = .ok word) :
    retain id m = if word.refcount.toNat = Mark.maxRefcount then .error .limitCheck m
      else .ok () (m.withMarkWord id (word.withRefcount (word.refcount + 1))) := by
  obtain ⟨row, hrow, hmark⟩ := exists_row_of_markWord h
  have hcount : word.mark.refcount.val = word.refcount.toNat := word.reads_mark.refcount.symm
  refine (bind_ok (query_ok (s := m) (row_ok hrow))).trans ?_
  rw [hmark, hcount]
  split
  · rfl
  · rw [← word.toNat_refcount_add_one]
    exact setMark_withRefcount h _

/-- One pin less, unless there is none. -/
lemma release_markWord (h : m.markWord id = .ok word) :
    release id m = if word.refcount.toNat = 0 then .error .rangeCheck m
      else .ok () (m.withMarkWord id (word.withRefcount (word.refcount - 1))) := by
  obtain ⟨row, hrow, hmark⟩ := exists_row_of_markWord h
  have hcount : word.mark.refcount.val = word.refcount.toNat := word.reads_mark.refcount.symm
  refine (bind_ok (query_ok (s := m) (row_ok hrow))).trans ?_
  rw [hmark, hcount]
  split
  · rfl
  · next hpinned =>
    rw [← word.toNat_refcount_sub_one hpinned]
    exact setMark_withRefcount h _

/-! ## Numbers that fit -/

/-- **The numbers that a memory gives to the setters of mark words fit**, so that they are read back as they were
given. -/
structure MarksFit (m : Memory) : Prop where
  level_le : m.level ≤ Mark.maxLevel
  /-- A level that no mark could record is not opened. -/
  save : Memory.save m =
    if m.level = Mark.maxLevel then .error .limitCheck m else .ok (m.level + 1) m.opened
  /-- No mark is dated later than the current level. -/
  dates : ∀ id word, m.markWord id = .ok word → word.created.toNat ≤ m.level ∧ word.snapshot.toNat ≤ m.level
  /-- A pin that no mark could count is refused. -/
  retain : ∀ id word, m.markWord id = .ok word →
    Memory.retain id m = (if word.refcount.toNat = Mark.maxRefcount then .error .limitCheck m
      else .ok () (m.withMarkWord id (word.withRefcount (word.refcount + 1)))) ∧
    (word.refcount.toNat ≠ Mark.maxRefcount → (word.withRefcount (word.refcount + 1)).Reads
      word.isMarked (word.refcount.toNat + 1) word.created.toNat word.snapshot.toNat)
  /-- A pin that is not there is not taken back. -/
  release : ∀ id word, m.markWord id = .ok word →
    Memory.release id m = (if word.refcount.toNat = 0 then .error .rangeCheck m
      else .ok () (m.withMarkWord id (word.withRefcount (word.refcount - 1)))) ∧
    (word.refcount.toNat ≠ 0 → (word.withRefcount (word.refcount - 1)).Reads
      word.isMarked (word.refcount.toNat - 1) word.created.toNat word.snapshot.toNat)
  /-- An entity that is remembered gets the current level as its snapshot level, wherever in an operation this is. -/
  touch : ∀ n id, n.level = m.level → Ends (Memory.touch id) n
    (fun _ k => k = n ∨ ∃ word, n.markWord id = .ok word ∧
      k.markWord id = .ok (word.withSnapshot (.ofNat 32 m.level)) ∧
      (word.withSnapshot (.ofNat 32 m.level)).Reads
        word.isMarked word.refcount.toNat word.created.toNat m.level)
    fun _ k => k = n
  /-- A new entity gets the current level as its creation level. -/
  tableAlloc : ∀ size tag, Ends (Memory.tableAlloc size tag) m
    (fun id n => n.markWord id = .ok (.createdAt (.ofNat 32 m.level))) fun _ _ => True
  /-- So does an entity that is handed to a new owner. -/
  reuse : ∀ id tag, Ends (Memory.reuse id tag) m
    (fun _ n => n.markWord id = .ok (.createdAt (.ofNat 32 m.level))) fun _ _ => True
  createdAt : (MarkWord.createdAt (.ofNat 32 m.level)).Reads false 0 m.level m.level

lemma markWord_of_createdAt {level : Nat} (h : m.rows[id]?.map Row.mark = some (Mark.createdAt level)) :
    m.markWord id = .ok (.createdAt (.ofNat 32 level)) := by
  rw [markWord_eq_ok_iff, h, ← Mark.packed_createdAt, MarkWord.mark_packed]

/-- Remembering an entity leaves its mark word alone or records the current level in it. -/
lemma ends_touch (hlevel : m.level ≤ Mark.maxLevel) (id : Nat) : Ends (touch id) m
    (fun _ n => n = m ∨ ∃ word, m.markWord id = .ok word ∧
      n.markWord id = .ok (word.withSnapshot (.ofNat 32 m.level)) ∧
      (word.withSnapshot (.ofNat 32 m.level)).Reads
        word.isMarked word.refcount.toNat word.created.toNat m.level)
    fun _ n => n = m := by
  cases hpending : m.pendingSnapshot id with
  | error fault => exact .of_error (bind_error (query_error (s := m) hpending)) rfl
  | ok pending =>
      refine .of_ok (touch_of_pendingSnapshot hpending) ?_
      cases pending with
      | none =>
          left
          rw [touched, hpending]
      | some s =>
          obtain ⟨-, rfl, hrow, -⟩ := pendingSnapshot_some hpending
          refine .inr ⟨s.row.mark.packed, ?_, ?_, MarkWord.reads_withSnapshot _ hlevel⟩
          · rw [markWord_eq_ok_iff, hrow, MarkWord.mark_packed]
            rfl
          · rw [touched_of_pendingSnapshot hpending, markWord_eq_ok_iff, ← Mark.packed_withSnapshot,
              MarkWord.mark_packed, withSnapshot, Array.getElem?_modify, if_pos rfl, hrow]
            rfl

lemma Dated.marksFit (h : Dated m) : MarksFit m where
  level_le := h.level_le
  save := by
    split
    · next hfull => exact save_error (Nat.not_lt_of_le (Nat.le_of_eq hfull.symm))
    · next hroom => exact save_run (Nat.lt_of_le_of_ne h.level_le hroom)
  dates id word hword := by
    obtain ⟨row, hrow, hmark⟩ := exists_row_of_markWord hword
    have hupto := h.within hrow
    rw [hmark] at hupto
    rw [word.reads_mark.created, word.reads_mark.snapshot]
    exact ⟨hupto.created, hupto.snapshot⟩
  retain _ word hword := ⟨retain_markWord hword, word.reads_add_one⟩
  release _ word hword := ⟨release_markWord hword, word.reads_sub_one⟩
  touch n id hn := by
    have hlevel := hn ▸ h.level_le
    exact hn ▸ ends_touch hlevel id
  tableAlloc size tag :=
    Ends.mono (h.tableAlloc size tag) (fun _ _ hn => markWord_of_createdAt hn.2) fun _ _ _ => trivial
  reuse id tag := Ends.mono (h.reuse id tag) (fun _ _ hn => markWord_of_createdAt hn.2) fun _ _ _ => trivial
  createdAt := MarkWord.reads_createdAt h.level_le

/-- **The fields of a mark word are independent, and what is written to them never wraps.**  Each setter puts its
argument into its own field, modulo the width of the field, and leaves the other three.  In a memory that started
fresh, whatever has happened since, the levels and the counts that the setters are given fit. -/
theorem marks_never_wrap :
    (∀ word : MarkWord,
      (∀ marked, (word.withMarked marked).Reads
        marked word.refcount.toNat word.created.toNat word.snapshot.toNat) ∧
      (∀ count, (word.withRefcount count).Reads
        word.isMarked (count.toNat % 128) word.created.toNat word.snapshot.toNat) ∧
      (∀ level, (word.withCreated level).Reads
        word.isMarked word.refcount.toNat (level.toNat % 4096) word.snapshot.toNat) ∧
      ∀ level, (word.withSnapshot level).Reads
        word.isMarked word.refcount.toNat word.created.toNat (level.toNat % 4096)) ∧
    ∀ {bank : Bank} {backing : Backing} {settings : Settings} {start : Memory},
      withBacking bank backing settings = .ok start →
      ∀ events : List MemoryEvent, MarksFit (start.afterEvents events) :=
  ⟨MarkWord.reads_setters, fun hstart events => ((dated_of_withBacking hstart).afterEvents events).marksFit⟩

/-- A string is pinned, written in two levels one inside the other, and the inner level is closed again. -/
def nestedRun : List MemoryEvent :=
  [.operation (.newString [1, 2, 3] []), .operation (.retain 1), .operation .save, .operation (.put 1 0 [7]),
    .operation .save, .operation (.put 1 1 [8]), .setSize 1 4, .operation (.restore 2)]

/-- A string is pinned as often as its mark can count. -/
def pinningRun : List MemoryEvent := .operation (.newString [1] []) :: List.replicate 127 (.operation (.retain 1))

/-- The inner level dates the mark anew, and closing it brings the older date back.  A full pin count is left as it
is. -/
theorem marks_never_wrap_nested_and_pinned :
    withBacking .localVM .anonymous Settings.standard = .ok freshLocal ∧
    ((freshLocal.afterEvents (nestedRun.take 7)).markWord 1 = .ok ⟨0x01000002⟩ ∧
      MarksFit (freshLocal.afterEvents (nestedRun.take 7))) ∧
    ((freshLocal.afterEvents nestedRun).markWord 1 = .ok ⟨0x01000001⟩ ∧
      MarksFit (freshLocal.afterEvents nestedRun)) ∧
    retain 1 (freshLocal.afterEvents pinningRun) = .error .limitCheck (freshLocal.afterEvents pinningRun) := by
  have hfit := marks_never_wrap.2 withBacking_freshLocal
  have hword : (freshLocal.afterEvents pinningRun).markWord 1 = .ok ⟨0x7F000000⟩ := by decide +kernel
  refine ⟨withBacking_freshLocal, ⟨by decide +kernel, hfit _⟩, ⟨by decide +kernel, hfit _⟩, ?_⟩
  exact ((hfit pinningRun).retain 1 _ hword).1.trans (if_pos (by decide))

end Memory

end PostScriptCore
