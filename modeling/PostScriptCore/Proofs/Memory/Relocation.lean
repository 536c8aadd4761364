import PostScriptCore.Proofs.Memory.Custody
import PostScriptCore.Proofs.Memory.Exhaustion
import PostScriptCore.Proofs.Memory.FreshStorage
import PostScriptCore.Proofs.Memory.SystemStorage

/-!
# Moving contents into a new entity

A reallocation acquires a new entity, copies what fits and gives the old entity to the free list.  Nothing in
between disturbs the contents: the old entity is in use, so that neither the allocation nor a collection that
it asks for hands it out, and what is handed out is zero.

* `Memory.Copies`, `Memory.Frees` — the two steps that come after the allocation.
* `Memory.moveContents_run` — an entity with storage is always moved.
* `Memory.Serves` — what an allocation does to the entities in use.
* `Memory.Relocates`, `Memory.relocate_moves` — what a reallocation does.
* `Memory.realloc_moves_contents` — the theorem.
-/

namespace PostScriptCore.Memory

variable {m n k : Memory} {id j fresh newSize : Nat} {tag : Tag} {roots : List Object}

/-! ## The steps after the allocation -/

/-- The entity was given to the free list, and no other one is different. -/
structure Frees (m n : Memory) (id : Nat) : Prop where
  head : n.head? = some id
  spare : n.isSpare id = true
  kept : ∀ j, j ≠ id → n.cell? j = m.cell? j

lemma free_frees (hs : Sound m) {cell : Cell} (hcell : m.cell? id = some cell)
    (hsize : linkSize ≤ cell.bytes.length) (hlive : cell.isFree = false) :
    ∃ n, free id m = .ok () n ∧ Frees m n id := by
  obtain ⟨row, hid, hrow, htag, hlength, -⟩ := row_of_cell hcell
  obtain ⟨head, hhead, -⟩ := hs.head
  rw [← hlength] at hsize
  have hrowLive : row.isFree = false := by
    rw [Row.isFree, htag]
    exact hlive
  have hretired := (carries_retired hs hrow hsize head.address).sound hs
  refine ⟨_, free_run hs hid hrow hsize hrowLive hhead, head?_linked hretired id, ?_, fun j hj => ?_⟩
  · rw [isSpare, cell?_freed hs hid hrow hsize, if_pos rfl]
    rfl
  · rw [cell?_freed hs hid hrow hsize, if_neg hj]

/-- Storage too small for a link is refused. -/
lemma free_short {row : Row} (hrow : m.rows[id]? = some row) (hsize : row.size < linkSize) :
    free id m = .error .invalidAccess m := by
  refine (bind_ok (query_ok (s := m) (row_ok hrow))).trans ?_
  rw [if_pos (.inr (.inl hsize))]
  rfl

/-- The bytes were written to the front of the entity, and no other one is different. -/
structure Copies (m n : Memory) (target : Nat) (bytes : List UInt8) : Prop where
  sound : Sound n
  shape : ∀ j, n.shape? j = m.shape? j
  held : ∀ cell, m.cell? target = some cell → n.cell? target = some ⟨cell.tag, patched cell.bytes 0 bytes⟩
  kept : ∀ j, j ≠ target → n.cell? j = m.cell? j

lemma Copies.refl (hs : Sound m) (target : Nat) : Copies m m target [] where
  sound := hs
  shape := fun _ => rfl
  held := fun cell hcell => by simpa [patched] using hcell
  kept := fun _ _ => rfl

/-- What lies below the cursor can be copied. -/
lemma copyWithin_run (hs : Sound m) {source count : Nat} {row : Row} (hid : fresh ≠ 0)
    (hrow : m.rows[fresh]? = some row) (hmark : row.mark = Mark.createdAt m.level) (hfit : count ≤ row.size)
    (hsource : source + count ≤ m.arena.used) :
    ∃ n, onArena (Arena.copyWithin source row.address count) m = .ok () n ∧
      Copies m n fresh (m.arena.image.read source count) := by
  rcases copyWithin_cases source hs hid hrow hmark hfit with ⟨fault, hrun⟩ | ⟨n, hrun, hn⟩
  · have hin : m.arena.inBounds source count := ⟨Nat.lt_of_le_of_lt hsource hs.arena.used_lt, hsource⟩
    have hend := (hs.fits hid hrow).2.2
    have hcopy : Arena.copyWithin source row.address count m.arena = .ok () { m.arena with
        image := m.arena.image.write row.address (m.arena.image.read source count) } := by
      rw [Arena.copyWithin, if_neg (not_not_intro hin), hs.arena.obstacle?_eq_none (by omega)]
    rw [onArena_ok hcopy] at hrun
    contradiction
  · have hcell := cell?_of_row hid hrow
    refine ⟨n, hrun, hn.sound, hn.shape hcell ?_, fun cell hheld => ?_, fun j hj => (hn.cell j).trans (if_neg hj)⟩
    · rw [Cell.shape, Cell.shape, length_patched]
      simpa using hfit
    · obtain rfl := Option.some.inj (hcell.symm.trans hheld)
      exact (hn.cell fresh).trans (if_pos rfl)

/-- **An entity with storage is always moved**, also to where it is already. -/
lemma moveContents_run (hs : Sound m) {old : Cell} (hold : m.cell? id = some old) (hlive : old.isFree = false)
    (hpos : 0 < old.bytes.length) (hnew : Owned m fresh newSize tag) :
    ∃ k n, moveContents id old.bytes.length fresh newSize m = .ok fresh n ∧
      Copies m k fresh (old.bytes.take newSize) ∧ Frees k n id := by
  obtain ⟨source, hid, hsource, -, hlength, -⟩ := row_of_cell hold
  obtain ⟨row, h0, hrow, hsize, -, hmark⟩ := hnew
  have hfits := hs.fits hid hsource
  have hfree (k : Memory) (hk : Copies m k fresh (old.bytes.take newSize)) :
      ∃ n, free id k = .ok () n ∧ Frees k n id := by
    have hshape := hk.shape id
    rw [shape?, shape?, hold, Option.map_some, Option.map_eq_some_iff] at hshape
    obtain ⟨cell, hcell, hsame⟩ := hshape
    obtain ⟨htag, hlen⟩ := Prod.mk.inj hsame
    refine free_frees hk.sound hcell ?_ ?_
    · -- the granule of the arena is larger than a link
      have hgranule := hfits.2.1
      simp only [arenaAlign, linkSize] at *
      omega
    · rw [Cell.isFree, htag]
      exact hlive
  generalize hkeep : (if old.bytes.length < newSize then old.bytes.length else newSize) = keep
  have hle : keep ≤ newSize ∧ keep ≤ old.bytes.length ∧ old.bytes.take newSize = old.bytes.take keep := by
    rw [List.take_eq_take_iff]
    split at hkeep <;> omega
  rw [hle.2.2] at hfree ⊢
  by_cases hsome : 0 < keep
  · have hused : source.address + keep ≤ m.arena.used := by omega
    obtain ⟨k, hcopy, hk⟩ := copyWithin_run hs h0 hrow hmark (show keep ≤ row.size by omega) hused
    rw [read_take hold hsource hle.2.1] at hk
    obtain ⟨n, hrun, hn⟩ := hfree k hk
    refine ⟨k, n, ?_, hk, hn⟩
    rw [moveContents]
    simp only [hkeep, if_pos hsome]
    exact (bind_ok (query_ok (s := m) (row_ok hsource))).trans ((bind_ok (query_ok (s := m) (row_ok hrow))).trans
      ((bind_ok hcopy).trans (bind_ok hrun)))
  · obtain rfl : keep = 0 := by omega
    obtain ⟨n, hrun, hn⟩ := hfree m (by simpa using Copies.refl hs fresh)
    refine ⟨m, n, ?_, by simpa using Copies.refl hs fresh, hn⟩
    rw [moveContents]
    simp only [hkeep, if_neg hsome]
    exact bind_ok hrun

/-- Without storage there is nothing to copy, and nothing to give back. -/
lemma moveContents_short {row : Row} (hrow : m.rows[id]? = some row) (hsize : row.size = 0) :
    moveContents id 0 fresh newSize m = .error .invalidAccess m := by
  have hkeep : (if 0 < newSize then 0 else newSize) = 0 := by
    split <;> omega
  rw [moveContents]
  simp only [hkeep, Nat.lt_irrefl, if_false]
  exact bind_error (free_short hrow (by rw [hsize]; decide))

/-! ## Reallocations -/

/-- Moves the contents of an entity into what `supply` hands out. -/
def relocate (supply : Tag → MemoryM Nat) (id newSize : Nat) : MemoryM Nat := do
  let old ← query fun m => m.movable id
  let target ← supply old.tag
  moveContents id old.size target newSize

lemma realloc_eq (id newSize : Nat) (roots : List Object) :
    realloc id newSize roots = relocate (fun tag => allocate newSize tag roots) id newSize := rfl

lemma reallocWithoutGc_eq (id newSize : Nat) :
    reallocWithoutGc id newSize = relocate (allocateWithoutGc newSize) id newSize := rfl

/-- Zeroed storage was handed out, and the entities in use are as they were, apart from those that `swept`
leaves out. -/
structure Serves (m : Memory) (size : Nat) (tag : Tag) (swept : Nat → Prop) (fresh : Nat) (n : Memory) :
    Prop where
  sound : Sound n
  owned : Owned n fresh size tag
  zeros : ∃ length, size ≤ length ∧ n.cell? fresh = some ⟨tag, List.replicate length 0⟩
  spared : ∀ j, m.InUse j → ¬ swept j → j ≠ fresh ∧ n.cell? j = m.cell? j

lemma serves_allocateWithoutGc (hs : Sound m) (hblank : m.arena.Blank)
    (h : allocateWithoutGc newSize tag m = .ok fresh n) : Serves m newSize tag (fun _ => False) fresh n := by
  have hhanded := handsOut_allocateWithoutGc hs h
  refine ⟨hhanded.sound, hhanded.owned, hhanded.zeros hblank, fun j hj _ => ?_⟩
  obtain ⟨cell, hcell, -⟩ := hj.live
  rw [hcell]
  exact hhanded.kept j cell hcell fun _ => hj.unlisted

lemma serves_allocate (hs : Sound m) (hblank : m.arena.Blank) (hwords : m.entityCount ≤ wordBound)
    (h : allocate newSize tag roots m = .ok fresh n) :
    Serves m newSize tag (fun j => m.Requests newSize tag ∧ Freed m (m.after (.collect roots true false)) j)
      fresh n := by
  have howned : Owned n fresh newSize tag := by
    rcases handsOut_allocate hs h with ⟨-, hhanded⟩ | ⟨-, hhanded⟩
    · exact hhanded.owned
    · exact hhanded.owned
  obtain ⟨hn, hzeros⟩ := zeros_of_allocate hs hblank h
  exact ⟨hn, howned, hzeros, fun j hj hkept => hj.spared hs hwords (fun hr hf => hkept ⟨hr, hf⟩) h⟩

/-- The contents are in a new entity, followed by zeros, and the old one is the head of the free list.  Every
other entity in use is as it was, apart from those that `swept` leaves out, and so is the reserved row. -/
structure Relocates (m : Memory) (id newSize : Nat) (old : Cell) (swept : Nat → Prop) (fresh : Nat)
    (n : Memory) : Prop where
  ne : fresh ≠ id
  moved : ∃ rest, newSize ≤ old.bytes.length + rest ∧
    n.cell? fresh = some ⟨old.tag, old.bytes.take newSize ++ List.replicate rest 0⟩
  freed : n.isSpare id = true
  front : n.freeHead = .ok id
  kept : ∀ j, m.InUse j → j ≠ id → ¬ swept j → n.cell? j = m.cell? j
  reserved : n.headTag? = m.headTag?

/-- **Contents are moved as a whole**, whatever the allocation takes the new entity from. -/
lemma relocate_moves {supply : Tag → MemoryM Nat} {swept : Nat → Prop} {old : Cell}
    (hold : m.cell? id = some old) (hinuse : m.InUse id) (hpos : 0 < old.bytes.length) (hkept : ¬ swept id)
    (hsupply : ∀ fresh k, supply old.tag m = .ok fresh k → Serves m newSize old.tag swept fresh k)
    (hreserved : n.headTag? = m.headTag?) (h : relocate supply id newSize m = .ok fresh n) :
    Relocates m id newSize old swept fresh n := by
  obtain ⟨row, -, hrow, htag, hsize, -⟩ := row_of_cell hold
  cases hmovable : m.movable id with
  | error refusal =>
      rw [relocate, bind_error (query_error (s := m) hmovable)] at h
      contradiction
  | ok row' =>
      obtain rfl := Option.some.inj (hrow.symm.trans (row_of_movable hmovable))
      rw [relocate, bind_ok (query_ok (s := m) hmovable), htag] at h
      cases hrun : supply old.tag m with
      | error refusal k =>
          rw [bind_error hrun] at h
          contradiction
      | ok target k =>
          have hserves := hsupply target k hrun
          obtain ⟨hne, hsame⟩ := hserves.spared id hinuse hkept
          obtain ⟨length, hroom, hzeros⟩ := hserves.zeros
          have hlive : old.isFree = false := by
            obtain ⟨cell, hcell, hlive⟩ := hinuse.live
            obtain rfl := Option.some.inj (hold.symm.trans hcell)
            exact hlive
          obtain ⟨l, t, hmoved, hcopies, hfrees⟩ :=
            moveContents_run hserves.sound (hsame.trans hold) hlive hpos hserves.owned
          rw [bind_ok hrun, hsize, hmoved] at h
          injection h with hfresh hn
          subst hfresh hn
          refine
            { ne := hne.symm
              moved := ⟨length - (old.bytes.take newSize).length, ?_, ?_⟩
              freed := hfrees.spare
              front := freeHead_of_head hfrees.head
              kept := fun j hj hother hleft => ?_
              reserved := hreserved }
          · rw [List.length_take]
            omega
          · rw [hfrees.kept target hne.symm, hcopies.held _ hzeros]
            simp [patched]
          · obtain ⟨hfresh, hcell⟩ := hserves.spared j hj hleft
            rw [hfrees.kept j hother, hcopies.kept j hfresh, hcell]

/-! ## Every reached memory -/

/-- What is reached, and every system entity, outlives a collection. -/
lemma not_freed_of_needed (hs : Sound m) (ht : Tidy m) {cell : Cell} (hcell : m.cell? id = some cell)
    (hneeded : Reaches m roots id ∨ cell.tag.kind = .system) :
    ¬ Freed m (m.after (.collect roots true false)) id := by
  obtain ⟨row, hid, hrow, htag, -⟩ := row_of_cell hcell
  rintro ⟨⟨row', hrow', hlive⟩, row'', hrow'', hfree⟩
  obtain rfl := Option.some.inj (hrow.symm.trans hrow')
  have hidle (h : m.after (.collect roots true false) = m) : False := by
    rw [h, hrow] at hrow''
    obtain rfl := Option.some.inj hrow''
    rw [hlive] at hfree
    contradiction
  have hafter : m.after (.collect roots true false) = finalState (collect roots true false) m := by
    rw [after, MemoryOp.perform, finalState_discard]
  rcases hcollector : m.collector with _ | _ | fault
  · refine hidle (hafter.trans ?_)
    rw [finalState, collect, hcollector]
  · obtain ⟨n, hrun, hcollected⟩ := collect_run hs ht hcollector roots
    rw [hafter, finalState_of_ok hrun] at hrow''
    obtain ⟨row₁, hrow₁, -, hkind, hnot⟩ :=
      (hcollected.freed_iff hid hrow hlive).mp ⟨⟨row, hrow, hlive⟩, row'', hrow'', hfree⟩
    obtain rfl := Option.some.inj (hrow.symm.trans hrow₁)
    rcases hneeded with hreach | hsystem
    · exact hnot hreach
    · rw [htag, hsystem] at hkind
      contradiction
  · refine hidle (hafter.trans ?_)
    rw [finalState, collect, hcollector]

/-- **A reallocation that succeeds moves the contents.**  The entity has storage and is in use, as every live
entity is while nobody writes to free storage, and a collection would keep it. -/
theorem realloc_moves_contents {bank : Bank} {backing : Backing} {settings : Settings} {start : Memory}
    (hblank : backing.IsBlank) (hstart : withBacking bank backing settings = .ok start) (ops : List MemoryOp)
    (hwords : (start.afterAll ops).entityCount ≤ wordBound) :
    (start.respectsAll ops = true → ∀ id cell, (start.afterAll ops).cell? id = some cell →
      cell.isFree = false → (start.afterAll ops).InUse id) ∧
    ∀ id old, (start.afterAll ops).cell? id = some old → (start.afterAll ops).InUse id → 0 < old.bytes.length →
      (∀ newSize fresh n, reallocWithoutGc id newSize (start.afterAll ops) = .ok fresh n →
        Relocates (start.afterAll ops) id newSize old (fun _ => False) fresh n) ∧
      ((∀ op ∈ ops, op.keepsHead = true) → ∀ newSize roots fresh n,
        Reaches (start.afterAll ops) roots id ∨ old.tag.kind = .system →
        realloc id newSize roots (start.afterAll ops) = .ok fresh n →
        Relocates (start.afterAll ops) id newSize old (fun j => (start.afterAll ops).Requests newSize old.tag ∧
          Freed (start.afterAll ops) ((start.afterAll ops).after (.collect roots true false)) j) fresh n) := by
  have hs := sound_afterAll (sound_of_withBacking hstart) ops
  have hzero := blank_afterAll (sound_of_withBacking hstart) (blank_of_withBacking hblank hstart) ops
  constructor
  · intro hops id cell hcell hlive
    exact inUse_of_respectsAll hstart hops hwords hcell hlive
  · intro id old hold hinuse hpos
    constructor
    · intro newSize fresh n h
      have hmoves := @moves_after _ hs (.reallocWithoutGc id newSize) rfl
      rw [after_of_ok rfl h] at hmoves
      rw [reallocWithoutGc_eq] at h
      exact relocate_moves hold hinuse hpos not_false (fun _ _ => serves_allocateWithoutGc hs hzero)
        (hmoves.headTag? hs) h
    · intro hops newSize roots fresh n hneeded h
      have hmoves := @moves_after _ hs (.realloc id newSize roots) rfl
      rw [after_of_ok rfl h] at hmoves
      rw [realloc_eq] at h
      have ht := (tidy_of_withBacking hstart).afterAll_of_keepsHead (sound_of_withBacking hstart) hops
      refine relocate_moves hold hinuse hpos (fun hswept => ?_) (fun _ _ => serves_allocate hs hzero hwords)
        (hmoves.headTag? hs) h
      exact not_freed_of_needed hs ht hold hneeded hswept.2

/-- A string of sixteen bytes is freed, and a shorter one is there to be moved. -/
def movingRun : List MemoryOp :=
  [.newString (List.replicate 16 255) [], .newString [7, 8, 9] [], .free 1]

/-- The recycled storage is larger than what is asked for, and zero behind the contents. -/
theorem realloc_moves_contents_recycling :
    Backing.anonymous.IsBlank ∧ withBacking .localVM .anonymous Settings.standard = .ok freshLocal ∧
      (freshLocal.afterAll movingRun).entityCount ≤ wordBound ∧ freshLocal.respectsAll movingRun = true ∧
      (∀ op ∈ movingRun, op.keepsHead = true) ∧
      (freshLocal.afterAll movingRun).cell? 2 = some ⟨Tag.ofKind .string, [7, 8, 9, 0, 0, 0, 0, 0]⟩ ∧
      (∃ n, reallocWithoutGc 2 12 (freshLocal.afterAll movingRun) = .ok 1 n ∧
        Relocates (freshLocal.afterAll movingRun) 2 12 ⟨Tag.ofKind .string, [7, 8, 9, 0, 0, 0, 0, 0]⟩
          (fun _ => False) 1 n) ∧
      ∃ n, realloc 2 40 [.composite .string .localVM 2 0 3] (freshLocal.afterAll movingRun) = .ok 3 n ∧
        n.freeHead = .ok 2 := by
  have hwords : (freshLocal.afterAll movingRun).entityCount ≤ wordBound := by decide +kernel
  have hops : freshLocal.respectsAll movingRun = true := by decide +kernel
  have hheads : ∀ op ∈ movingRun, op.keepsHead = true := by decide
  have hold : (freshLocal.afterAll movingRun).cell? 2 =
      some ⟨Tag.ofKind .string, [7, 8, 9, 0, 0, 0, 0, 0]⟩ := by decide +kernel
  have hmoved := run_of_answer? (x := reallocWithoutGc 2 12) (m := freshLocal.afterAll movingRun) (a := 1)
    (by decide +kernel)
  have hgrown := run_of_answer? (x := realloc 2 40 [.composite .string .localVM 2 0 3])
    (m := freshLocal.afterAll movingRun) (a := 3) (by decide +kernel)
  have hblank : Backing.anonymous.IsBlank := trivial
  obtain ⟨hinuse, hmoves⟩ := realloc_moves_contents hblank withBacking_freshLocal movingRun hwords
  obtain ⟨hshort, hlong⟩ := hmoves 2 _ hold (hinuse hops 2 _ hold (by decide)) (by decide)
  have hreach : Reaches (freshLocal.afterAll movingRun) [.composite .string .localVM 2 0 3] 2 :=
    .root (List.mem_singleton_self _) (by decide +kernel) (by decide)
  exact ⟨hblank, withBacking_freshLocal, hwords, hops, hheads, hold, ⟨_, hmoved, hshort 12 1 _ hmoved⟩,
    _, hgrown, (hlong hheads 40 _ 3 _ (.inl hreach) hgrown).front⟩

/-- A freed string is given the number of a live one as its link. -/
def danglingRun : List MemoryOp :=
  [.newString (List.replicate 8 1) [], .newString (List.replicate 24 2) [], .free 1, .put 1 0 (wordBytes 2)]

/-- Every miss asks for a collection. -/
def impatient : Settings := { Settings.standard with gcPeriod := 1 }

/-- An array holds a string and row 0, which looks like an array as well.  There is no storage where the link
in row 0 points to, so that a collection stops there, and the array stays marked. -/
def interruptedRun : List MemoryOp :=
  [.useCollector .markSweep, .newArray 2 [],
    .newString (List.replicate 16 2) [.composite .array .localVM 1 0 2],
    .arrayPut (.composite .array .localVM 1 0 2) 0 (.composite .string .localVM 2 0 16),
    .arrayPut (.composite .array .localVM 1 0 2) 1 (.composite .array .localVM 0 0 0)] ++
    List.replicate 54 (.tableAlloc 0 (Tag.ofKind .string)) ++
    [.tableAlloc 8 (Tag.ofKind .string), .free 57, .setTag 0 (Tag.ofKind .array),
      .collect [.composite .array .localVM 1 0 2] true false]

/-- Two strings, of which the second one is then said to be where the first one is. -/
def overlappingRun : List MemoryOp := [.newString (List.replicate 8 1) [], .newString (List.replicate 8 2) []]

/-- **What is written to free storage decides what is handed out.**  The one entity is live, but the free list
leads to it.  The other one can be reached, but a collection was interrupted before, because row 0 was made an
array by hand.  Both are moved to where they are.  And where addresses are set by hand, the link of the old
entity is written over another one. -/
theorem realloc_returns_its_argument :
    ((freshLocal.afterAll danglingRun).cell? 2 = some ⟨Tag.ofKind .string, List.replicate 24 2⟩ ∧
      answer? (reallocWithoutGc 2 16) (freshLocal.afterAll danglingRun) = some 2) ∧
    ((finalState (setAddress 2 0) (freshLocal.afterAll overlappingRun)).cell? 1 =
        some ⟨Tag.ofKind .string, List.replicate 8 1⟩ ∧
      answer? (reallocWithoutGc 2 16) (finalState (setAddress 2 0) (freshLocal.afterAll overlappingRun)) = some 3 ∧
      (finalState (reallocWithoutGc 2 16)
        (finalState (setAddress 2 0) (freshLocal.afterAll overlappingRun))).cell? 1 =
        some ⟨Tag.ofKind .string, List.replicate 4 0 ++ List.replicate 4 1⟩) ∧
    withBacking .localVM .anonymous impatient = .ok (freshWith impatient) ∧
      ((freshWith impatient).afterAll interruptedRun).cell? 2 =
        some ⟨Tag.ofKind .string, List.replicate 16 2⟩ ∧
      Reaches ((freshWith impatient).afterAll interruptedRun) [.composite .array .localVM 1 0 2] 2 ∧
      answer? (realloc 2 16 [.composite .array .localVM 1 0 2])
        ((freshWith impatient).afterAll interruptedRun) = some 2 := by
  obtain ⟨hbank, hshape, hstored, hcell, hanswer⟩ :
      ((freshWith impatient).afterAll interruptedRun).bank = .localVM ∧
        ((freshWith impatient).afterAll interruptedRun).shape? 1 = some (Tag.ofKind .array, 32) ∧
        ((freshWith impatient).afterAll interruptedRun).slot? 1 0 =
          some (.composite .string .localVM 2 0 16) ∧
        ((freshWith impatient).afterAll interruptedRun).cell? 2 =
          some ⟨Tag.ofKind .string, List.replicate 16 2⟩ ∧
        answer? (realloc 2 16 [.composite .array .localVM 1 0 2])
          ((freshWith impatient).afterAll interruptedRun) = some 2 := by decide +kernel
  refine ⟨⟨by decide +kernel, by decide +kernel⟩, by decide +kernel, rfl, hcell, ?_, hanswer⟩
  have hroot : Reaches ((freshWith impatient).afterAll interruptedRun) [.composite .array .localVM 1 0 2] 1 :=
    .root (List.mem_singleton_self _) hbank.symm (by decide)
  obtain ⟨cell, hheld, hsame⟩ := Option.map_eq_some_iff.mp hshape
  obtain ⟨row, -, hrow, htag, hsize, -⟩ := row_of_cell hheld
  obtain ⟨hkind, hlength⟩ := Prod.mk.inj hsame
  refine .stored hroot ⟨row, 0, .composite .string .localVM 2 0 16, hrow, ?_, ?_, hstored, hbank.symm, by decide⟩
  · rw [htag, hkind]
    rfl
  · rw [hsize, hlength]
    decide

end PostScriptCore.Memory
