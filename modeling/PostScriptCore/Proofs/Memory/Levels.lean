import PostScriptCore.Memory.Save
import PostScriptCore.Proofs.Arena
import Mathlib.Logic.Function.Iterate

/-!
# What a save level remembers

`restore` undoes a level by putting snapshots back.  This file says when that works: the innermost
level has to remember every older entity that was changed since it was opened, and the memory it
leads back to has to be restorable again, for the level outside it.

* `Memory.undone` — the memory after closing its innermost level, as a plain function.
* `Memory.Alike` — two memories that differ at most in capacity, files, pins and collector bits.
* `Memory.Layout` — the table describes the arena: aligned rows below the cursor, none overlapping.
* `Memory.Covers` — what the innermost level remembers covers what has changed since.
* `Memory.Restorable` — `Covers` at every open level, by induction on the levels.
* `Memory.alike_undone_of_agree` — two memories with the same innermost level are undone alike if
  they differ only where that level remembers something.
-/

namespace PostScriptCore

/-- The row without its pins and its collector bit, which no save level remembers. -/
def Row.plain (row : Row) : Row :=
  { row with mark := (row.mark.withRefcount 0).withMarked false }

@[simp] lemma Row.plain_address (row : Row) : row.plain.address = row.address := rfl
@[simp] lemma Row.plain_size (row : Row) : row.plain.size = row.size := rfl
@[simp] lemma Row.plain_tag (row : Row) : row.plain.tag = row.tag := rfl
@[simp] lemma Row.plain_created (row : Row) : row.plain.mark.created = row.mark.created := rfl
@[simp] lemma Row.plain_snapshot (row : Row) : row.plain.mark.snapshot = row.mark.snapshot := rfl

/-- Whether an address lies in the storage that a snapshot remembers. -/
def Snapshot.Spans (s : Snapshot) (a : Nat) : Prop :=
  s.row.address ≤ a ∧ a < s.row.address + s.row.size

namespace Memory

/-- What the table says of an entity, pins and collector bit aside. -/
def outline (m : Memory) (id : Nat) : Option Row := m.rows[id]?.map Row.plain

lemma outline_of_row {m : Memory} {id : Nat} {row : Row} (h : m.rows[id]? = some row) :
    m.outline id = some row.plain := by
  rw [outline, h]; rfl

lemma row_of_outline {m : Memory} {id : Nat} {row : Row} (h : m.outline id = some row) :
    ∃ full, m.rows[id]? = some full ∧ full.plain = row :=
  Option.map_eq_some_iff.mp h

lemma outline_eq_none_iff {m : Memory} {id : Nat} : m.outline id = none ↔ m.entityCount ≤ id := by
  rw [outline, Option.map_eq_none_iff, Array.getElem?_eq_none_iff]
  rfl

lemma lt_entityCount_of_outline {m : Memory} {id : Nat} {row : Row} (h : m.outline id = some row) :
    id < m.entityCount := by
  by_contra hn
  rw [outline_eq_none_iff.mpr (Nat.le_of_not_lt hn)] at h
  contradiction

/-! ## Undoing a level -/

/-- Puts one snapshot back. -/
def putBack (m : Memory) (s : Snapshot) : Memory :=
  { m with
    rows := m.rows.modify s.id fun _ => s.row
    arena := { m.arena with
      image :=
        if 0 < s.row.size then m.arena.image.write s.row.address s.bytes else m.arena.image } }

/-- Puts snapshots back in the given order. -/
def putBackAll (m : Memory) (snapshots : List Snapshot) : Memory := snapshots.foldl putBack m

/-- Drops what came after a record was opened. -/
def cutBack (m : Memory) (record : SaveRecord) : Memory :=
  { m with
    rows := m.rows.take record.entityCount
    arena := { m.arena with
      image := m.arena.image.zero record.used m.arena.used, used := record.used } }

/-- The memory after closing its innermost level. -/
def undone (m : Memory) : Memory :=
  match m.saves with
  | [] => m
  | record :: outer => cutBack (putBackAll { m with saves := outer } record.snapshots) record

lemma undone_of_saves {m : Memory} {record : SaveRecord} {outer : List SaveRecord}
    (h : m.saves = record :: outer) :
    m.undone = cutBack (putBackAll { m with saves := outer } record.snapshots) record := by
  rw [undone, h]

@[simp] lemma entityCount_putBack (m : Memory) (s : Snapshot) :
    (m.putBack s).entityCount = m.entityCount := Array.size_modify

lemma putBackAll_cons (m : Memory) (s : Snapshot) (rest : List Snapshot) :
    m.putBackAll (s :: rest) = (m.putBack s).putBackAll rest := rfl

/-- Putting snapshots back changes rows and bytes only. -/
lemma putBackAll_frame (m : Memory) (snapshots : List Snapshot) :
    (m.putBackAll snapshots).entityCount = m.entityCount ∧
      (m.putBackAll snapshots).saves = m.saves ∧
      (m.putBackAll snapshots).arena.used = m.arena.used := by
  induction snapshots generalizing m with
  | nil => exact ⟨rfl, rfl, rfl⟩
  | cons s rest ih =>
      obtain ⟨h1, h2, h3⟩ := ih (m.putBack s)
      rw [putBackAll_cons]
      exact ⟨h1.trans (entityCount_putBack m s), h2, h3⟩

lemma outline_putBack (m : Memory) (s : Snapshot) (id : Nat) (h : s.id < m.entityCount) :
    (m.putBack s).outline id = if id = s.id then some s.row.plain else m.outline id := by
  rw [outline, putBack, Array.getElem?_modify]
  split
  · next he =>
    subst he
    rw [if_pos rfl, Array.getElem?_eq_getElem h]
    rfl
  · next he =>
    rw [if_neg (Ne.symm he)]
    rfl

lemma byte_putBack (m : Memory) (s : Snapshot) (hlen : s.bytes.length = s.row.size) (a : Nat) :
    (¬ s.Spans a → (m.putBack s).arena.image.byte a = m.arena.image.byte a) ∧
      (s.Spans a → (m.putBack s).arena.image.byte a = s.bytes.getD (a - s.row.address) 0) := by
  simp only [putBack, Snapshot.Spans]
  split
  · rw [Image.byte_write, hlen]
    exact ⟨fun h => if_neg h, fun h => if_pos h⟩
  · exact ⟨fun _ => rfl, fun h => by omega⟩

/-! ## Memories that differ in a part only -/

/-- Two memories say the same of the entities in `P` and of the bytes in `B`. -/
structure Agree (P B : Nat → Prop) (m n : Memory) : Prop where
  outline : ∀ id, P id → m.outline id = n.outline id
  byte : ∀ a, B a → m.arena.image.byte a = n.arena.image.byte a

/-- Putting a snapshot back makes two memories agree on its entity and its bytes. -/
lemma Agree.putBack {P B : Nat → Prop} {m n : Memory} (h : Agree P B m n) {s : Snapshot}
    (hlen : s.bytes.length = s.row.size) (hm : s.id < m.entityCount) (hn : s.id < n.entityCount) :
    Agree (fun id => P id ∨ id = s.id) (fun a => B a ∨ s.Spans a) (m.putBack s) (n.putBack s) where
  outline := by
    intro id hid
    rw [outline_putBack m s id hm, outline_putBack n s id hn]
    split
    · rfl
    · next hne => exact h.outline id (hid.resolve_right hne)
  byte := by
    intro a ha
    by_cases hs : s.Spans a
    · rw [(byte_putBack m s hlen a).2 hs, (byte_putBack n s hlen a).2 hs]
    · rw [(byte_putBack m s hlen a).1 hs, (byte_putBack n s hlen a).1 hs]
      exact h.byte a (ha.resolve_right hs)

/-- A snapshot that can be put back into a table of `count` rows. -/
def PutsBack (count : Nat) (s : Snapshot) : Prop :=
  s.bytes.length = s.row.size ∧ s.id < count

/-- The same for a list of snapshots. -/
lemma Agree.putBackAll (snapshots : List Snapshot) :
    ∀ {P B : Nat → Prop} {m n : Memory}, Agree P B m n →
      (∀ s ∈ snapshots, PutsBack m.entityCount s) → (∀ s ∈ snapshots, PutsBack n.entityCount s) →
      Agree (fun id => P id ∨ ∃ s ∈ snapshots, id = s.id)
        (fun a => B a ∨ ∃ s ∈ snapshots, s.Spans a)
        (m.putBackAll snapshots) (n.putBackAll snapshots) := by
  induction snapshots with
  | nil =>
      intro P B m n h _ _
      exact ⟨fun id hid => h.outline id (by simpa using hid), fun a ha => h.byte a (by simpa using ha)⟩
  | cons s rest ih =>
      intro P B m n h hm hn
      rw [putBackAll_cons, putBackAll_cons]
      have hs := hm s (List.mem_cons_self ..)
      have hs' := hn s (List.mem_cons_self ..)
      have step := ih (h.putBack hs.1 hs.2 hs'.2)
        (fun t ht => by
          rw [entityCount_putBack]
          exact hm t (List.mem_cons_of_mem _ ht))
        (fun t ht => by
          rw [entityCount_putBack]
          exact hn t (List.mem_cons_of_mem _ ht))
      refine ⟨fun id hid => step.outline id ?_, fun a ha => step.byte a ?_⟩
      · rcases hid with hid | ⟨t, ht, hid⟩
        · exact .inl (.inl hid)
        · rcases List.mem_cons.mp ht with rfl | ht
          · exact .inl (.inr hid)
          · exact .inr ⟨t, ht, hid⟩
      · rcases ha with ha | ⟨t, ht, ha⟩
        · exact .inl (.inl ha)
        · rcases List.mem_cons.mp ht with rfl | ht
          · exact .inl (.inr ha)
          · exact .inr ⟨t, ht, ha⟩

/-- Two memories that no restore and no access can tell apart: they differ at most in capacity,
files, pins, collector bits and the next collection. -/
structure Alike (m n : Memory) : Prop where
  saves : m.saves = n.saves
  used : m.arena.used = n.arena.used
  count : m.entityCount = n.entityCount
  outline : ∀ id, m.outline id = n.outline id
  byte : ∀ a < m.arena.used, m.arena.image.byte a = n.arena.image.byte a

lemma Alike.refl (m : Memory) : Alike m m :=
  ⟨rfl, rfl, rfl, fun _ => rfl, fun _ _ => rfl⟩

lemma Alike.symm {m n : Memory} (h : Alike m n) : Alike n m :=
  ⟨h.saves.symm, h.used.symm, h.count.symm, fun id => (h.outline id).symm,
    fun a ha => (h.byte a (by rw [h.used]; exact ha)).symm⟩

lemma Alike.trans {m n k : Memory} (h : Alike m n) (h' : Alike n k) : Alike m k :=
  ⟨h.saves.trans h'.saves, h.used.trans h'.used, h.count.trans h'.count,
    fun id => (h.outline id).trans (h'.outline id),
    fun a ha => (h.byte a ha).trans (h'.byte a (by rw [← h.used]; exact ha))⟩

lemma Alike.level {m n : Memory} (h : Alike m n) : m.level = n.level := by
  rw [Memory.level, Memory.level, h.saves]

/-! ## Cutting back -/

lemma outline_cutBack (m : Memory) (record : SaveRecord) (id : Nat) :
    (m.cutBack record).outline id = if id < record.entityCount then m.outline id else none := by
  simp only [outline, cutBack, Array.getElem?_extract, Nat.sub_zero, Nat.zero_add]
  by_cases h : id < record.entityCount
  · rw [if_pos h]
    by_cases hs : id < m.rows.size
    · rw [if_pos (by omega)]
    · rw [if_neg (by omega), Array.getElem?_eq_none (by omega)]
  · rw [if_neg h, if_neg (by omega)]
    rfl

lemma entityCount_cutBack {m : Memory} {record : SaveRecord}
    (h : record.entityCount ≤ m.entityCount) :
    (m.cutBack record).entityCount = record.entityCount := by
  simp only [entityCount, cutBack, Array.size_extract] at h ⊢
  omega

lemma byte_cutBack {m : Memory} {record : SaveRecord} {a : Nat} (h : a < record.used) :
    (m.cutBack record).arena.image.byte a = m.arena.image.byte a := by
  simp only [cutBack]
  rw [Image.byte_zero, if_neg (by omega)]

/-- Memories that agree below the counts of two equal records are cut back alike. -/
lemma alike_cutBack {m n : Memory} {r r' : SaveRecord} (hcount : r'.entityCount = r.entityCount)
    (hused : r'.used = r.used) (hsaves : m.saves = n.saves)
    (hm : r.entityCount ≤ m.entityCount) (hn : r.entityCount ≤ n.entityCount)
    (h : Agree (· < r.entityCount) (· < r.used) m n) : Alike (m.cutBack r) (n.cutBack r') where
  saves := hsaves
  used := hused.symm
  count := by
    rw [entityCount_cutBack hm, entityCount_cutBack (hcount ▸ hn), hcount]
  outline := by
    intro id
    rw [outline_cutBack, outline_cutBack, hcount]
    split
    · next hid => exact h.outline id hid
    · rfl
  byte := by
    intro a ha
    rw [byte_cutBack ha, byte_cutBack (hused ▸ ha)]
    exact h.byte a ha

/-! ## Restorable memories -/

/-- The table describes the arena.  Row 0 has no storage; every other row is aligned and lies below
the cursor, and no two of them overlap.  No mark names a level that is not open. -/
structure Layout (m : Memory) : Prop where
  head : ∃ row, m.outline 0 = some row ∧ row.size = 0
  aligned : m.arena.used % arenaAlign = 0
  fits : ∀ id row, 0 < id → m.outline id = some row →
    row.address % arenaAlign = 0 ∧ row.size % arenaAlign = 0 ∧
      row.address + row.size ≤ m.arena.used
  disjoint : ∀ i j row row', 0 < i → i < j → m.outline i = some row → m.outline j = some row' →
    0 < row.size → 0 < row'.size →
      row.address + row.size ≤ row'.address ∨ row'.address + row'.size ≤ row.address
  within : ∀ id row, m.outline id = some row →
    row.mark.created.val ≤ m.level ∧ row.mark.snapshot.val ≤ m.level

/-- A snapshot of the innermost level: an older entity with its present address and size, recorded
before the level had anything of it. -/
structure Matches (m : Memory) (record : SaveRecord) (s : Snapshot) : Prop where
  old : s.id < record.entityCount
  length : s.bytes.length = s.row.size
  earlier : s.row.mark.created.val < m.level ∧ s.row.mark.snapshot.val < m.level
  place : ∃ row, m.outline s.id = some row ∧ row.size = s.row.size ∧
    (s.id ≠ 0 → row.address = s.row.address)

/-- What the innermost level remembers covers what has changed since it was opened: older entities
lie below its cursor and newer ones above, newer ones say so in their marks, and an older one whose
mark claims to be remembered is. -/
structure Covers (m : Memory) (record : SaveRecord) : Prop where
  level_le : m.level ≤ Mark.maxLevel
  pos : 0 < record.entityCount
  count_le : record.entityCount ≤ m.entityCount
  used_le : record.used ≤ m.arena.used
  aligned : record.used % arenaAlign = 0
  old : ∀ id row, 0 < id → id < record.entityCount → m.outline id = some row →
    row.address + row.size ≤ record.used
  new : ∀ id row, record.entityCount ≤ id → m.outline id = some row →
    record.used ≤ row.address ∧ m.level ≤ row.mark.created.val
  remembered : ∀ id row, id < record.entityCount → m.outline id = some row →
    m.level ≤ row.mark.created.val ∨ m.level ≤ row.mark.snapshot.val →
      ∃ s ∈ record.snapshots, s.id = id
  known : ∀ s ∈ record.snapshots, Matches m record s

/-- Every open level can be closed: the innermost one covers what has changed, and the memory it
leads back to can be restored further. -/
inductive Restorable : Memory → Prop
  | base {m : Memory} (saves : m.saves = []) (layout : Layout m) : Restorable m
  | level {m : Memory} (record : SaveRecord) (outer : List SaveRecord)
      (saves : m.saves = record :: outer) (layout : Layout m) (covers : Covers m record)
      (undone : Restorable m.undone) : Restorable m

lemma Restorable.layout {m : Memory} (h : Restorable m) : Layout m := by
  cases h with
  | base _ layout => exact layout
  | level _ _ _ layout _ _ => exact layout

lemma Restorable.covers {m : Memory} (h : Restorable m) {record : SaveRecord}
    {outer : List SaveRecord} (hs : m.saves = record :: outer) : Covers m record := by
  cases h with
  | base saves _ => rw [saves] at hs; contradiction
  | level record' outer' saves _ covers _ =>
      rw [saves] at hs
      injection hs with hr _
      subst hr
      exact covers

lemma Restorable.undone {m : Memory} (h : Restorable m) : Restorable m.undone := by
  cases h with
  | base saves layout =>
      rw [Memory.undone, saves]
      exact .base saves layout
  | level _ _ _ _ _ undone => exact undone

lemma Covers.putsBack {m : Memory} {record : SaveRecord} (h : Covers m record) {count : Nat}
    (hc : record.entityCount ≤ count) : ∀ s ∈ record.snapshots, PutsBack count s :=
  fun s hs => ⟨(h.known s hs).length, Nat.lt_of_lt_of_le (h.known s hs).old hc⟩

/-- **Where two memories may differ.**  Two memories with the same innermost level are undone alike
if they agree on all older entities and all older bytes except those the level remembers. -/
lemma alike_undone_of_agree {P B : Nat → Prop} {m n : Memory} {record : SaveRecord}
    {outer : List SaveRecord} (hm : m.saves = record :: outer) (hn : n.saves = record :: outer)
    (hc : Covers m record) (hcount : record.entityCount ≤ n.entityCount) (h : Agree P B m n)
    (hP : ∀ id < record.entityCount, P id ∨ ∃ s ∈ record.snapshots, id = s.id)
    (hB : ∀ a < record.used, B a ∨ ∃ s ∈ record.snapshots, s.Spans a) :
    Alike m.undone n.undone := by
  rw [undone_of_saves hm, undone_of_saves hn]
  have hframe := putBackAll_frame { m with saves := outer } record.snapshots
  have hframe' := putBackAll_frame { n with saves := outer } record.snapshots
  have hagree : Agree P B { m with saves := outer } { n with saves := outer } :=
    ⟨h.outline, h.byte⟩
  have hall := hagree.putBackAll record.snapshots (hc.putsBack hc.count_le) (hc.putsBack hcount)
  refine alike_cutBack rfl rfl (hframe.2.1.trans hframe'.2.1.symm) ?_ ?_ ?_
  · rw [hframe.1]; exact hc.count_le
  · rw [hframe'.1]; exact hcount
  · exact ⟨fun id hid => hall.outline id (hP id hid), fun a ha => hall.byte a (hB a ha)⟩

/-- Adding a snapshot changes nothing that is undone, if putting it back gives what was there. -/
lemma alike_undone_of_push {m n : Memory} {record : SaveRecord} {outer : List SaveRecord}
    {s : Snapshot} (hm : m.saves = record :: outer)
    (hn : n.saves = { record with snapshots := s :: record.snapshots } :: outer)
    (hc : Covers m record) (hcount : n.entityCount = m.entityCount)
    (h : Agree (fun _ => True) (fun _ => True) m (n.putBack s)) : Alike m.undone n.undone := by
  rw [undone_of_saves hm, undone_of_saves hn]
  have hcount' : (putBack { n with saves := outer } s).entityCount = m.entityCount :=
    (entityCount_putBack _ _).trans hcount
  have hframe := putBackAll_frame { m with saves := outer } record.snapshots
  have hframe' := putBackAll_frame (putBack { n with saves := outer } s) record.snapshots
  have hagree : Agree (fun _ => True) (fun _ => True) { m with saves := outer }
      (putBack { n with saves := outer } s) := ⟨h.outline, h.byte⟩
  have hall := hagree.putBackAll record.snapshots (hc.putsBack hc.count_le)
    (hc.putsBack (by rw [hcount']; exact hc.count_le))
  refine alike_cutBack rfl rfl (hframe.2.1.trans hframe'.2.1.symm) ?_ ?_ ?_
  · rw [hframe.1]; exact hc.count_le
  · dsimp only
    rw [putBackAll_cons, hframe'.1, hcount']
    exact hc.count_le
  · exact ⟨fun j _ => hall.outline j (.inl trivial), fun a _ => hall.byte a (.inl trivial)⟩

/-- Memories that are alike are undone alike. -/
lemma Alike.undone {m n : Memory} (h : Alike m n) (hr : Restorable m) :
    Alike m.undone n.undone := by
  cases hr with
  | base saves _ =>
      rw [Memory.undone, saves, Memory.undone, ← h.saves, saves]
      exact h
  | level record outer saves _ covers _ =>
      refine alike_undone_of_agree saves (h.saves ▸ saves) covers (h.count ▸ covers.count_le)
        (P := fun _ => True) (B := fun a => a < m.arena.used)
        ⟨fun id _ => h.outline id, h.byte⟩ (fun _ _ => .inl trivial) fun a ha => .inl ?_
      exact Nat.lt_of_lt_of_le ha covers.used_le

lemma Layout.congr {m n : Memory} (h : Alike m n) (hl : Layout m) : Layout n where
  head := by rw [← h.outline]; exact hl.head
  aligned := by rw [← h.used]; exact hl.aligned
  fits := by
    intro id row hid hrow
    rw [← h.outline] at hrow
    rw [← h.used]
    exact hl.fits id row hid hrow
  disjoint := by
    intro i j row row' hi hij hrow hrow'
    rw [← h.outline] at hrow hrow'
    exact hl.disjoint i j row row' hi hij hrow hrow'
  within := by
    intro id row hrow
    rw [← h.outline] at hrow
    rw [← h.level]
    exact hl.within id row hrow

lemma Matches.congr {m n : Memory} {record : SaveRecord} {s : Snapshot} (h : Alike m n)
    (hm : Matches m record s) : Matches n record s where
  old := hm.old
  length := hm.length
  earlier := by rw [← h.level]; exact hm.earlier
  place := by rw [← h.outline]; exact hm.place

lemma Covers.congr {m n : Memory} {record : SaveRecord} (h : Alike m n) (hc : Covers m record) :
    Covers n record where
  level_le := by rw [← h.level]; exact hc.level_le
  pos := hc.pos
  count_le := by rw [← h.count]; exact hc.count_le
  used_le := by rw [← h.used]; exact hc.used_le
  aligned := hc.aligned
  old := by
    intro id row hid hlt hrow
    rw [← h.outline] at hrow
    exact hc.old id row hid hlt hrow
  new := by
    intro id row hle hrow
    rw [← h.outline] at hrow
    rw [← h.level]
    exact hc.new id row hle hrow
  remembered := by
    intro id row hlt hrow
    rw [← h.outline] at hrow
    rw [← h.level]
    exact hc.remembered id row hlt hrow
  known := fun s hs => (hc.known s hs).congr h

/-- Whether a memory can be restored does not depend on what `Alike` leaves out. -/
lemma Restorable.congr {m : Memory} (hr : Restorable m) :
    ∀ {n : Memory}, Alike m n → Restorable n := by
  induction hr with
  | base saves layout =>
      intro n h
      exact .base (h.saves ▸ saves) (layout.congr h)
  | @level m record outer saves layout covers hundone ih =>
      intro n h
      exact .level record outer (h.saves ▸ saves) (layout.congr h) (covers.congr h)
        (ih (h.undone (.level record outer saves layout covers hundone)))

/-- Memories that are alike stay alike while any number of levels is undone. -/
lemma Alike.iterate_undone {m n : Memory} (h : Alike m n) (hr : Restorable m) (count : Nat) :
    Alike (Memory.undone^[count] m) (Memory.undone^[count] n) := by
  induction count generalizing m n with
  | zero => exact h
  | succ count ih => exact ih (h.undone hr) hr.undone

end Memory

end PostScriptCore
