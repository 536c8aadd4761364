import PostScriptCore.Proofs.Memory.Cells
import PostScriptCore.Proofs.Memory.Operation
import Mathlib.Data.List.Basic
import Mathlib.Data.List.Nodup
import Mathlib.Data.List.Perm.Subperm

/-!
# The free list as a chain of cells

The links of the free list are the first words of the listed cells.  Everything that happens to the
list is a statement about such chains.

* `Memory.Chain` — the cells that are visited when the links are followed from an entity on.
* `Memory.Threads` — the chain from the head of the list, which visits no entity twice.
* `Memory.Threads.freeEntities` — the list that is answered is the chain.
* `Memory.firstFit_cases` — a search refuses the size, misses, or takes one entity out of the chain.
* `Memory.Threads.freed` — freeing puts an entity in front of the chain.
* `Memory.Grants`, `Memory.allocates_allocateWithoutGc` — what an allocation hands out.
-/

namespace PostScriptCore

lemma wordOfBytes_lt (bytes : List UInt8) : wordOfBytes bytes < wordBound := by
  rw [wordOfBytes.eq_def]
  split
  · next a b c d =>
    have ha := a.toNat_lt
    have hb := b.toNat_lt
    have hc := c.toNat_lt
    have hd := d.toNat_lt
    simp only [wordBound]
    omega
  · decide

/-- The word that a cell begins with. -/
def Cell.link (cell : Cell) : Nat := wordOfBytes (cell.bytes.take Memory.linkSize)

/-- The tag and the size of a cell. -/
def Cell.shape (cell : Cell) : Tag × Nat := (cell.tag, cell.bytes.length)

lemma Cell.link_lt (cell : Cell) : cell.link < wordBound := wordOfBytes_lt _

/-- A word written at the start of a cell is its link. -/
lemma Cell.link_patched {tag : Tag} {bytes : List UInt8} {next : Nat}
    (hsize : Memory.linkSize ≤ bytes.length) (hnext : next < wordBound) :
    (Cell.mk tag (patched bytes 0 (wordBytes next))).link = next := by
  have hfit : 0 + (wordBytes next).length ≤ bytes.length := by simpa using hsize
  have hread := take_drop_patched hfit
  rw [List.drop_zero, length_wordBytes] at hread
  rw [Cell.link, hread, wordOfBytes_wordBytes hnext]

namespace Memory

variable {m n : Memory} {ids : List Nat}

/-- The tag and the size of an entity. -/
def shape? (m : Memory) (id : Nat) : Option (Tag × Nat) := (m.cell? id).map Cell.shape

/-! ## Chains -/

/-- Following the links from an entity on visits the listed entities and then ends.  All of them are
free and have room for a link. -/
inductive Chain (m : Memory) : Nat → List Nat → Prop
  | nil : Chain m 0 []
  | cons {id : Nat} {cell : Cell} {rest : List Nat} (hcell : m.cell? id = some cell)
      (hfree : cell.isFree = true) (hsize : linkSize ≤ cell.bytes.length)
      (hrest : Chain m cell.link rest) : Chain m id (id :: rest)

/-- The free list is a chain without repetitions. -/
structure Threads (m : Memory) (ids : List Nat) : Prop where
  chain : ∃ head, m.head? = some head ∧ Chain m head ids
  nodup : ids.Nodup

lemma Chain.congr {cursor : Nat} (h : Chain m cursor ids)
    (hcells : ∀ id ∈ ids, n.cell? id = m.cell? id) : Chain n cursor ids := by
  induction h with
  | nil => exact .nil
  | @cons id cell rest hcell hfree hsize hrest ih =>
      rw [List.forall_mem_cons] at hcells
      exact .cons (hcells.1.trans hcell) hfree hsize (ih hcells.2)

lemma Chain.cell {cursor : Nat} (h : Chain m cursor ids) {id : Nat} (hid : id ∈ ids) :
    ∃ cell, m.cell? id = some cell ∧ cell.isFree = true ∧ linkSize ≤ cell.bytes.length := by
  induction h with
  | nil => exact absurd hid List.not_mem_nil
  | @cons j cell rest hcell hfree hsize hrest ih =>
      rcases List.mem_cons.mp hid with rfl | hid
      · exact ⟨cell, hcell, hfree, hsize⟩
      · exact ih hid

lemma Threads.cell (h : Threads m ids) {id : Nat} (hid : id ∈ ids) :
    ∃ cell, m.cell? id = some cell ∧ cell.isFree = true ∧ linkSize ≤ cell.bytes.length := by
  obtain ⟨head, -, hchain⟩ := h.chain
  exact hchain.cell hid

lemma Threads.isFree (h : Threads m ids) {id : Nat} {cell : Cell} (hid : id ∈ ids)
    (hcell : m.cell? id = some cell) : cell.isFree = true := by
  obtain ⟨listed, hlisted, hfree, -⟩ := h.cell hid
  obtain rfl := Option.some.inj (hlisted.symm.trans hcell)
  exact hfree

lemma Threads.congr (h : Threads m ids) (hhead : n.head? = m.head?)
    (hcells : ∀ id ∈ ids, n.cell? id = m.cell? id) : Threads n ids := by
  obtain ⟨head, hhead', hchain⟩ := h.chain
  exact ⟨⟨head, hhead.trans hhead', hchain.congr hcells⟩, h.nodup⟩

/-- A chain without repetitions is no longer than the table. -/
lemma Threads.length_le (h : Threads m ids) : ids.length ≤ m.entityCount := by
  have hsub : ids ⊆ List.range m.entityCount := by
    intro id hid
    obtain ⟨cell, hcell, -⟩ := h.cell hid
    exact List.mem_range.mpr (cell_lt hcell)
  simpa using (h.nodup.subperm hsub).length_le

lemma Chain.followLinks (hs : Sound m) {cursor : Nat} (h : Chain m cursor ids) :
    ∀ steps, ids.length ≤ steps → m.followLinks steps cursor = .ok ids := by
  induction h with
  | nil =>
      intro steps _
      cases steps <;> rfl
  | @cons id cell rest hcell hfree hsize hrest ih =>
      intro steps hsteps
      obtain ⟨steps, rfl⟩ : ∃ k, steps = k + 1 := ⟨steps - 1, by simp at hsteps; omega⟩
      have hlink : m.readLink id = .ok cell.link := readWord_cell hs hcell hsize
      rw [Memory.followLinks, if_neg (ne_zero_of_cell hcell), hlink]
      simp only [ih steps (by simpa using hsteps)]

/-- **The list that is answered is the chain.** -/
lemma Threads.freeEntities (h : Threads m ids) (hs : Sound m) : m.freeEntities = .ok ids := by
  obtain ⟨head, hhead, hchain⟩ := h.chain
  rw [Memory.freeEntities, freeHead_of_head hhead]
  exact hchain.followLinks hs _ h.length_le

/-! ## Taking an entity out -/

/-- Linking an entity of the chain to what follows its successor takes the successor out. -/
lemma Chain.splice {before after : List Nat} {cursor id next : Nat} {previous : Nat} {cell : Cell}
    (h : Chain m cursor (before ++ previous :: id :: after))
    (hnodup : (before ++ previous :: id :: after).Nodup) (hnext : Chain m next after)
    (hlt : next < wordBound) (hcell : m.cell? previous = some cell)
    (hn : ∀ j, n.cell? j = if j = previous then
      some ⟨cell.tag, patched cell.bytes 0 (wordBytes next)⟩ else m.cell? j) :
    Chain n cursor (before ++ previous :: after) := by
  induction before generalizing cursor with
  | nil =>
      cases h with
      | @cons _ found _ hfound hfree hsize _ =>
          obtain rfl : found = cell := Option.some.inj (hfound.symm.trans hcell)
          have hnew := hn previous
          rw [if_pos rfl] at hnew
          have hfit : 0 + (wordBytes next).length ≤ found.bytes.length := by simpa using hsize
          refine .cons hnew hfree (by rw [length_patched hfit]; exact hsize) ?_
          rw [Cell.link_patched hsize hlt]
          refine hnext.congr fun j hj => ?_
          rw [hn, if_neg]
          rintro rfl
          simp [List.nodup_cons, hj] at hnodup
  | cons first rest ih =>
      cases h with
      | @cons _ found _ hfound hfree hsize hrest =>
          have hne : first ≠ previous := by
            rintro rfl
            simp [List.nodup_cons] at hnodup
          refine .cons ((hn first).trans ((if_neg hne).trans hfound)) hfree hsize ?_
          exact ih hrest (List.nodup_cons.mp hnodup).2

/-- A search along a chain ends, without a fault, at an entity that is large enough or at the end of
the chain. -/
lemma Chain.findCandidate (hs : Sound m) (wanted : Nat) {cursor : Nat} (h : Chain m cursor ids) :
    ∀ steps previous, ids.length ≤ steps →
      m.findCandidate wanted steps previous cursor = .ok none ∨
      ∃ before id after cell, ids = before ++ id :: after ∧ m.cell? id = some cell ∧
        wanted ≤ cell.bytes.length ∧ Chain m cell.link after ∧
        m.findCandidate wanted steps previous cursor =
          .ok (some ⟨before.getLastD previous, id, cell.link⟩) := by
  induction h with
  | nil =>
      intro steps previous _
      left
      rw [findCandidate.eq_def]
      exact if_pos rfl
  | @cons id cell rest hcell hfree hsize hrest ih =>
      intro steps previous hsteps
      obtain ⟨steps, rfl⟩ : ∃ k, steps = k + 1 := ⟨steps - 1, by simp at hsteps; omega⟩
      obtain ⟨row, hid, hrow, -, hlength, -⟩ := row_of_cell hcell
      have hlink : m.readLink id = .ok cell.link := readWord_cell hs hcell hsize
      have hstep : m.findCandidate wanted (steps + 1) previous id =
          if wanted ≤ cell.bytes.length then .ok (some ⟨previous, id, cell.link⟩)
          else m.findCandidate wanted steps id cell.link := by
        rw [Memory.findCandidate, if_neg hid, row_ok hrow, hlink, ← hlength]
      rw [hstep]
      by_cases hfit : wanted ≤ cell.bytes.length
      · right
        rw [if_pos hfit]
        exact ⟨[], id, rest, cell, rfl, hcell, hfit, hrest, rfl⟩
      · rw [if_neg hfit]
        rcases ih steps id (by simpa using hsteps) with
          hnone | ⟨before, found, after, cell', rfl, hfound⟩
        · exact .inl hnone
        · exact .inr ⟨id :: before, found, after, cell', rfl, by
            rw [List.getLastD_cons]
            exact hfound⟩

/-- An entity was taken out of the chain and handed to a new owner.  Entities off the chain keep
their contents, and those on it their tags and sizes. -/
structure Takes (m : Memory) (ids : List Nat) (id : Nat) (tag : Tag) (n : Memory) : Prop where
  sound : Sound n
  count : n.entityCount = m.entityCount
  resources : n.resources = m.resources
  policy : n.policy = m.policy
  mem : id ∈ ids
  threads : Threads n (ids.erase id)
  cell : ∃ cell, m.cell? id = some cell ∧
    n.cell? id = some ⟨tag, List.replicate cell.bytes.length 0⟩
  kept : ∀ j, j ∉ ids → n.cell? j = m.cell? j
  shape : ∀ j, j ≠ id → n.shape? j = m.shape? j

/-- Relinking the predecessor, or the head, leaves the rest of the chain. -/
lemma writeLink_of_chain (hs : Sound m) {head id next : Nat} {before after : List Nat}
    (hhead : m.head? = some head) (h : Chain m head (before ++ id :: after))
    (hnodup : (before ++ id :: after).Nodup) (hnext : Chain m next after)
    (hlt : next < wordBound) :
    ∃ n, writeLink (before.getLastD 0) next m = .ok () n ∧ Sound n ∧
      n.entityCount = m.entityCount ∧ n.resources = m.resources ∧ n.policy = m.policy ∧
      (∃ head', n.head? = some head' ∧ Chain n head' (before ++ after)) ∧
      (∀ j, j ∉ before → n.cell? j = m.cell? j) ∧ ∀ j, n.shape? j = m.shape? j := by
  rcases List.eq_nil_or_concat before with rfl | ⟨init, previous, rfl⟩
  · obtain ⟨row, hrow, -⟩ := hs.head
    have hsound := ((Change.relinked next).carries hs).sound hs
    refine ⟨m.linked next, ?_, hsound, entityCount_amended _ _ _ _, resources_touched _ _,
      policy_touched _ _, ⟨next, head?_linked hs next, ?_⟩, fun j _ => cell?_linked m next j,
      fun j => by rw [shape?, cell?_linked, shape?]⟩
    · rw [List.getLastD_nil, writeLink, if_pos rfl]
      exact changeRow_run hs hrow _
    · exact hnext.congr fun j _ => cell?_linked m next j
  · simp only [List.concat_eq_append, List.append_assoc, List.singleton_append] at h hnodup
    have hmem : previous ∈ init ++ previous :: id :: after := by simp
    obtain ⟨cell, hcell, -, hsize⟩ := h.cell hmem
    have hfit : 0 + (wordBytes next).length ≤ cell.bytes.length := by simpa using hsize
    obtain ⟨n, hrun, hn⟩ := put_replaces hs hcell hfit
    refine ⟨n, ?_, hn.sound, hn.count, hn.resources, hn.policy, ⟨head, hn.head.trans hhead, ?_⟩, ?_, ?_⟩
    · rw [List.concat_eq_append, List.getLastD_concat, writeLink, if_neg (ne_zero_of_cell hcell)]
      exact hrun
    · rw [List.concat_eq_append, List.append_assoc, List.singleton_append]
      exact h.splice hnodup hnext hlt hcell hn.cell
    · intro j hj
      rw [hn.cell, if_neg]
      rintro rfl
      simp at hj
    · intro j
      rw [shape?, hn.cell]
      split
      · next he =>
        subst he
        rw [shape?, hcell, Option.map_some, Option.map_some, Cell.shape, Cell.shape,
          length_patched hfit]
      · rfl

lemma takes_of_chain (hs : Sound m) {head id : Nat} {cell : Cell} {before after : List Nat}
    (hhead : m.head? = some head) (h : Chain m head (before ++ id :: after))
    (hnodup : (before ++ id :: after).Nodup) (hcell : m.cell? id = some cell)
    (hnext : Chain m cell.link after) (tag : Tag) :
    ∃ n k, writeLink (before.getLastD 0) cell.link m = .ok () n ∧ reuse id tag n = .ok () k ∧
      Takes m (before ++ id :: after) id tag k := by
  obtain ⟨n, hrun, hn, hcount, hresources, hpolicy, ⟨head', hhead', hchain⟩, hkept, hshape⟩ :=
    writeLink_of_chain hs hhead h hnodup hnext cell.link_lt
  have hid := ne_zero_of_cell hcell
  have hbefore : id ∉ before := fun hmem =>
    (List.nodup_append.mp hnodup).2.2 id hmem id (List.mem_cons_self ..) rfl
  obtain ⟨row, -, hrow, -, hsize, -⟩ := row_of_cell ((hkept id hbefore).trans hcell)
  have hcells := cell?_recycled hn hid hrow tag
  have herase : (before ++ id :: after).erase id = before ++ after := by
    rw [List.erase_append_right _ hbefore, List.erase_cons_head]
  have hnot : id ∉ before ++ after := by
    rw [← herase]
    exact hnodup.not_mem_erase
  refine ⟨n, n.recycled id row tag, hrun, reuse_run hn hid hrow tag,
    { sound := (carries_amended hn (alters_recycled hn hrow tag)).sound hn
      count := (entityCount_amended _ _ _ _).trans hcount
      resources := (resources_touched _ _).trans hresources
      policy := (policy_touched _ _).trans hpolicy
      mem := by simp
      threads := ?_
      cell := ⟨cell, hcell, by rw [hcells, if_pos rfl, hsize]⟩
      kept := ?_
      shape := ?_ }⟩
  · rw [herase]
    refine ⟨⟨head', ?_, hchain.congr fun j hj => ?_⟩, ?_⟩
    · rw [recycled, head?_amended _ _ hid]
      exact hhead'
    · rw [hcells, if_neg]
      rintro rfl
      exact hnot hj
    · rw [← herase]
      exact hnodup.erase id
  · intro j hj
    simp only [List.mem_append, List.mem_cons, not_or] at hj
    rw [hcells, if_neg hj.2.1, hkept j hj.1]
  · intro j hj
    rw [shape?, hcells, if_neg hj, ← hshape j]
    rfl

/-- **A search along the free list has no other fault than a size that cannot be rounded.** -/
lemma firstFit_cases (hs : Sound m) (h : Threads m ids) (size : Nat) (tag : Tag) :
    (alignUp size arenaAlign = none ∧ firstFit size tag m = .error .vmFull m) ∨
    (∃ fit count, (fit = .miss ∨ fit = .needsCollection) ∧
      firstFit size tag m = .ok fit { m with gcCountdown := count }) ∨
    ∃ id n, firstFit size tag m = .ok (.reused id) n ∧ Takes m ids id tag n ∧
      ∃ cell, m.cell? id = some cell ∧ size ≤ cell.bytes.length := by
  obtain ⟨head, hhead, hchain⟩ := h.chain
  have hfreeHead := freeHead_of_head hhead
  cases halign : alignUp size arenaAlign with
  | none =>
      refine .inl ⟨rfl, bind_error (query_error (s := m) ?_)⟩
      simp only [halign]
  | some wanted =>
      right
      rcases hchain.findCandidate hs wanted m.entityCount 0 h.length_le with
        hnone | ⟨before, id, after, cell, rfl, hcell, hfit, hnext, hfound⟩
      · left
        have hmiss : firstFit size tag m = countMiss m := by
          refine (bind_ok (query_ok (s := m) (a := none) ?_)).trans rfl
          simp only [halign, hfreeHead]
          exact hnone
        rw [hmiss, countMiss]
        split
        · exact ⟨_, _, .inr rfl, rfl⟩
        · exact ⟨_, _, .inl rfl, rfl⟩
      · right
        obtain ⟨n, k, hlink, hreuse, htakes⟩ :=
          takes_of_chain hs hhead hchain h.nodup hcell hnext tag
        refine ⟨id, { k with gcCountdown := k.gcPeriod }, ?_, ?_, cell, hcell, ?_⟩
        · refine (bind_ok (query_ok (s := m) (a := some ⟨before.getLastD 0, id, cell.link⟩) ?_)).trans
            ((bind_ok hlink).trans ((bind_ok hreuse).trans rfl))
          simp only [halign, hfreeHead]
          exact hfound
        · exact
            { sound := sound_countdown htakes.sound _
              count := htakes.count
              resources := htakes.resources
              policy := htakes.policy
              mem := htakes.mem
              threads := htakes.threads.congr rfl fun _ _ => rfl
              cell := htakes.cell
              kept := htakes.kept
              shape := htakes.shape }
        · exact Nat.le_trans (le_of_alignUp halign) hfit

/-! ## Adding rows and freeing -/

/-- A chain does not notice a new row. -/
lemma Threads.pushed (h : Threads m ids) (hs : Sound m) {row : Row} {arena : Arena}
    (hext : Extends m row arena) : Threads (m.pushed row arena) ids := by
  refine h.congr (head?_pushed hs row arena) fun id hid => ?_
  obtain ⟨cell, hcell, -⟩ := h.cell hid
  rw [cell?_pushed hs hext, if_neg (Nat.ne_of_lt (cell_lt hcell))]

/-- The head of a chain is a word if all entity numbers are. -/
lemma Chain.lt_wordBound {cursor : Nat} (h : Chain m cursor ids)
    (hcount : m.entityCount ≤ wordBound) : cursor < wordBound := by
  cases h with
  | nil => decide
  | cons hcell => exact Nat.lt_of_lt_of_le (cell_lt hcell) hcount

/-- **Freeing puts an entity in front of the chain.** -/
lemma Threads.freed (h : Threads m ids) (hs : Sound m) (hcount : m.entityCount ≤ wordBound)
    {id : Nat} {row head : Row} (hid : id ≠ 0) (hrow : m.rows[id]? = some row)
    (hsize : linkSize ≤ row.size) (hlive : row.isFree = false) (hhead : m.rows[0]? = some head) :
    Threads ((m.retired id row head.address).linked id) (id :: ids) := by
  obtain ⟨first, hfirst, hchain⟩ := h.chain
  obtain rfl : head.address = first := by
    rw [head?, hhead] at hfirst
    exact Option.some.inj hfirst
  have hnot : id ∉ ids := by
    intro hmem
    obtain ⟨cell, hcell, hfree, -⟩ := h.cell hmem
    rw [cell?_of_row hid hrow] at hcell
    obtain rfl := Option.some.inj hcell
    have hlive' : row.tag.kind ≠ .free := by simpa [Row.isFree] using hlive
    exact hlive' (by simpa [Cell.isFree] using hfree)
  have hcells : ∀ j, ((m.retired id row head.address).linked id).cell? j = _ :=
    fun j => (cell?_linked _ _ j).trans (cell?_retired hs hid hrow hsize head.address j)
  have hlength : linkSize ≤ (m.arena.image.read row.address row.size).length := by
    rw [Image.length_read]; exact hsize
  have hretired := (carries_retired hs hrow hsize head.address).sound hs
  refine ⟨⟨id, head?_linked hretired id, ?_⟩, List.nodup_cons.mpr ⟨hnot, h.nodup⟩⟩
  refine .cons ((hcells id).trans (if_pos rfl)) rfl ?_ ?_
  · rw [length_patched (by simpa using hlength)]
    exact hlength
  · rw [Cell.link_patched hlength (hchain.lt_wordBound hcount)]
    refine hchain.congr fun j hj => (hcells j).trans (if_neg ?_)
    rintro rfl
    exact hnot hj

/-! ## Allocating without a collection -/

/-- An entity was handed out, off the chain or at the end of the table.  What was neither handed out
nor on the chain keeps its contents. -/
structure Grants (m : Memory) (ids : List Nat) (id size : Nat) (cell : Cell) (n : Memory)
    (ids' : List Nat) : Prop where
  sound : Sound n
  resources : n.resources = m.resources
  policy : n.policy = m.policy
  count : m.entityCount ≤ n.entityCount
  threads : Threads n ids'
  listed : ∀ j ∈ ids', j ∈ ids ∧ j ≠ id
  holds : n.cell? id = some cell
  size_le : size ≤ cell.bytes.length
  origin : (id ∈ ids ∧ ∃ old, m.cell? id = some old ∧ cell.bytes.length = old.bytes.length) ∨
    (id = m.entityCount ∧ alignUp size arenaAlign = some cell.bytes.length)
  tail : size % arenaAlign = 0 → ∀ i, size ≤ i → i < cell.bytes.length → cell.bytes[i]? = some 0
  kept : ∀ j, j ≠ id → j ∉ ids → n.cell? j = m.cell? j
  shape : ∀ j, j ≠ id → n.shape? j = m.shape? j

lemma Takes.grants {id size : Nat} {tag : Tag} {old : Cell} (h : Takes m ids id tag n)
    (hnodup : ids.Nodup) (hold : m.cell? id = some old) (hsize : size ≤ old.bytes.length) :
    Grants m ids id size ⟨tag, List.replicate old.bytes.length 0⟩ n (ids.erase id) where
  sound := h.sound
  resources := h.resources
  policy := h.policy
  count := Nat.le_of_eq h.count.symm
  threads := h.threads
  listed := fun j hj => ⟨List.mem_of_mem_erase hj, fun he => by
    subst he
    exact hnodup.not_mem_erase hj⟩
  holds := by
    obtain ⟨cell, hcell, hn⟩ := h.cell
    obtain rfl : cell = old := Option.some.inj (hcell.symm.trans hold)
    exact hn
  size_le := by rw [List.length_replicate]; exact hsize
  origin := .inl ⟨h.mem, old, hold, List.length_replicate⟩
  tail := by
    intro _ i _ hi
    rw [List.length_replicate] at hi
    rw [List.getElem?_replicate, if_pos hi]
  kept := fun j _ hj => h.kept j hj
  shape := h.shape

lemma grants_pushed (hs : Sound m) (h : Threads m ids) {size : Nat} {row : Row} {arena : Arena}
    (hext : Extends m row arena) (halign : alignUp size arenaAlign = some row.size) :
    Grants m ids m.entityCount size ⟨row.tag, m.arena.image.read row.address row.size⟩
      (m.pushed row arena) ids := by
  have hcells := cell?_pushed hs hext
  refine
    { sound := (carries_pushed hs hext).sound hs
      resources := rfl
      policy := rfl
      count := by rw [pushed, entityCount, entityCount, Array.size_push]; omega
      threads := h.pushed hs hext
      listed := fun j hj => ⟨hj, fun he => ?_⟩
      holds := (hcells _).trans (if_pos rfl)
      size_le := by rw [Image.length_read]; exact le_of_alignUp halign
      origin := .inr ⟨rfl, by rw [Image.length_read]; exact halign⟩
      tail := ?_
      kept := fun j hj _ => (hcells j).trans (if_neg hj)
      shape := fun j hj => by rw [shape?, hcells, if_neg hj]; rfl }
  · obtain ⟨cell, hcell, -⟩ := h.cell hj
    have := cell_lt hcell
    omega
  · intro hmod i hle hi
    have hlt := Nat.lt_of_le_of_lt (le_of_alignUp halign) (Arena.lt_wordBound_of_alignUp halign)
    rw [Arena.alignUp_of_mod hmod hlt, Option.some.injEq] at halign
    rw [Image.length_read] at hi
    omega

/-- What is handed out was listed, or not there at all. -/
lemma Grants.isFree {id size : Nat} {cell old : Cell} {ids' : List Nat}
    (h : Grants m ids id size cell n ids') (hids : Threads m ids) (hold : m.cell? id = some old) :
    old.isFree = true := by
  rcases h.origin with ⟨hmem, -⟩ | ⟨rfl, -⟩
  · exact hids.isFree hmem hold
  · exact absurd (cell_lt hold) (Nat.lt_irrefl _)

/-- What an allocation may end in: it fails for want of space, or because the search was replaced, and
then no cell has changed; or it hands out one entity. -/
inductive Allocates (m : Memory) (ids : List Nat) (size : Nat) (tag : Tag) :
    EStateM.Result Fault Memory Nat → Prop
  | refused {fault : Fault} {n : Memory}
      (hfault : (∀ e, m.policy ≠ .fixed (.error e)) → fault = .vmFull)
      (hcells : ∀ j, n.cell? j = m.cell? j) : Allocates m ids size tag (.error fault n)
  | granted {id : Nat} {cell : Cell} {n : Memory} {ids' : List Nat} (htag : cell.tag = tag)
      (hgrants : Grants m ids id size cell n ids') : Allocates m ids size tag (.ok id n)

/-- After a miss a new row is tried; the countdown to the next collection changes no cell. -/
lemma allocates_of_miss (hs : Sound m) (h : Threads m ids) {size count : Nat} {tag : Tag} {fit : Fit}
    (hfit : fit = .miss ∨ fit = .needsCollection)
    (hfind : findStorage size tag m = .ok fit { m with gcCountdown := count }) :
    Allocates m ids size tag (allocateWithoutGc size tag m) := by
  have hs' := sound_countdown hs count
  have hrun : allocateWithoutGc size tag m = tableAlloc size tag { m with gcCountdown := count } := by
    rw [allocateWithoutGc, bind_ok hfind]
    rcases hfit with rfl | rfl <;> rfl
  rw [hrun]
  rcases tableAlloc_cases size tag hs'.arena with hfull | ⟨row, arena, hext, rfl, halign, hok⟩
  · rw [hfull]
    exact .refused (fun _ => rfl) fun _ => rfl
  · rw [hok]
    have hgrants := grants_pushed hs' (h.congr rfl fun _ _ => rfl) hext halign
    exact .granted rfl ⟨hgrants.sound, hgrants.resources, hgrants.policy, hgrants.count,
      hgrants.threads, hgrants.listed, hgrants.holds, hgrants.size_le, hgrants.origin, hgrants.tail,
      hgrants.kept, hgrants.shape⟩

/-- **An allocation takes one entity from the chain or from the end of the table.** -/
lemma allocates_allocateWithoutGc (hs : Sound m) (h : Threads m ids) (size : Nat) (tag : Tag) :
    Allocates m ids size tag (allocateWithoutGc size tag m) := by
  have hhonest := hs.policy
  rcases hpolicy : m.policy with _ | (fault | fit)
  · have hfind := findStorage_firstFit hpolicy size tag
    rcases firstFit_cases hs h size tag with
      ⟨-, hrun⟩ | ⟨fit, count, hfit, hrun⟩ | ⟨id, n, hrun, htakes, cell, hcell, hsize⟩
    · rw [allocateWithoutGc, bind_error (hfind.trans hrun)]
      exact .refused (fun _ => rfl) fun _ => rfl
    · exact allocates_of_miss hs h hfit (hfind.trans hrun)
    · rw [allocateWithoutGc, bind_ok (hfind.trans hrun)]
      exact .granted rfl (htakes.grants h.nodup hcell hsize)
  · have hfind : findStorage size tag m = .error fault m := by rw [findStorage, hpolicy]
    rw [allocateWithoutGc, bind_error hfind]
    exact .refused (fun he => absurd hpolicy (he fault)) fun _ => rfl
  · have hfind : findStorage size tag m = .ok fit { m with gcCountdown := m.gcCountdown } := by
      rw [findStorage, hpolicy]
    rw [hpolicy] at hhonest
    cases fit with
    | reused id => exact hhonest.elim
    | miss => exact allocates_of_miss hs h (.inl rfl) hfind
    | needsCollection => exact allocates_of_miss hs h (.inr rfl) hfind

end Memory

end PostScriptCore
