import PostScriptCore.Proofs.Memory.Capacity
import PostScriptCore.Proofs.Memory.Recycling

/-!
# A search along the free list

What a search does is decided by the links alone.  Nothing has to be known about the tags of the listed
entities, so that this holds in every memory whose list ends, however it was written to.

* `Memory.Lists` — the links from the head run through the listed entities, each of them once.
* `Memory.Lists.freeEntities`, `Memory.lists_of_freeEntities` — such a list is the one that is answered, and
  a list that is answered without repetitions is such a list.
* `Memory.Links.splice`, `Memory.writeLink_of_links` — relinking takes out one entity.
* `Memory.Refits` — what becomes of the entity that is handed out.
* `Memory.firstFit_hit` — a hit takes out the first entity that fits.
* `Memory.Unserved`, `Memory.Unserved.firstFit_run` — if the list ends without a fit, the search counts a miss.
* `Memory.firstFit_outcomes` — the three ends of a search.
-/

namespace PostScriptCore.Memory

variable {m n : Memory} {ids : List Nat}

/-- The entity has at least `wanted` bytes. -/
def HasRoom (m : Memory) (wanted id : Nat) : Prop := ∃ row, m.row id = .ok row ∧ wanted ≤ row.size

instance (m : Memory) (wanted id : Nat) : Decidable (m.HasRoom wanted id) :=
  decidable_of_iff ((m.row id).toOption.any fun row => decide (wanted ≤ row.size)) <| by
    rw [HasRoom]
    cases m.row id <;> simp [Except.toOption]

lemma hasRoom_iff {wanted id : Nat} {cell : Cell} (hcell : m.cell? id = some cell) :
    m.HasRoom wanted id ↔ wanted ≤ cell.bytes.length := by
  obtain ⟨row, -, hrow, -, hsize, -⟩ := row_of_cell hcell
  rw [← hsize, HasRoom, row_ok hrow]
  exact ⟨fun ⟨_, he, hle⟩ => Except.ok.inj he ▸ hle, fun hle => ⟨row, rfl, hle⟩⟩

/-! ## Links -/

/-- Reading a link fails for want of an entity or of room, and otherwise gives the first word of a cell. -/
lemma readLink_cases (hs : Sound m) {id : Nat} (hid : id ≠ 0) :
    m.readLink id = .error (.invalidEntity id) ∨ m.readLink id = .error .rangeCheck ∨
      ∃ cell, m.cell? id = some cell ∧ linkSize ≤ cell.bytes.length ∧ m.readLink id = .ok cell.link := by
  rcases Nat.lt_or_ge id m.entityCount with hlt | hge
  · obtain ⟨cell, hcell⟩ := exists_cell hid hlt
    right
    by_cases hsize : linkSize ≤ cell.bytes.length
    · exact .inr ⟨cell, hcell, hsize, readWord_cell hs hcell hsize⟩
    · left
      rw [readLink, readWord, bytesAt_cell hs hcell, if_neg (by simpa using hsize)]
  · left
    rw [readLink, readWord, bytesAt, checkedAddress, row_error hge]

lemma cell_of_readLink (hs : Sound m) {id following : Nat} (hid : id ≠ 0)
    (h : m.readLink id = .ok following) :
    ∃ cell, m.cell? id = some cell ∧ linkSize ≤ cell.bytes.length ∧ cell.link = following := by
  rcases readLink_cases hs hid with hrun | hrun | ⟨cell, hcell, hsize, hrun⟩
  · rw [hrun] at h
    contradiction
  · rw [hrun] at h
    contradiction
  · exact ⟨cell, hcell, hsize, Except.ok.inj (hrun.symm.trans h)⟩

lemma Links.cell (hs : Sound m) {cursor id : Nat} (h : Links m cursor ids) (hid : id ∈ ids) :
    ∃ cell, m.cell? id = some cell ∧ linkSize ≤ cell.bytes.length := by
  induction h with
  | stop => exact absurd hid List.not_mem_nil
  | @next j following rest h0 hlink _ ih =>
      rcases List.mem_cons.mp hid with rfl | hid
      · obtain ⟨cell, hcell, hsize, -⟩ := cell_of_readLink hs h0 hlink
        exact ⟨cell, hcell, hsize⟩
      · exact ih hid

lemma Links.congr (hs : Sound m) (hn : Sound n) {cursor : Nat} (h : Links m cursor ids)
    (hcells : ∀ id ∈ ids, n.cell? id = m.cell? id) : Links n cursor ids := by
  induction h with
  | stop => exact .stop
  | @next id following rest hid hlink _ ih =>
      rw [List.forall_mem_cons] at hcells
      obtain ⟨cell, hcell, hsize, rfl⟩ := cell_of_readLink hs hid hlink
      exact .next hid (readWord_cell hn (hcells.1.trans hcell) hsize) (ih hcells.2)

lemma Links.followLinks {cursor : Nat} (h : Links m cursor ids) :
    ∀ steps, ids.length ≤ steps → m.followLinks steps cursor = .ok ids := by
  induction h with
  | stop =>
      intro steps _
      cases steps <;> rfl
  | @next id following rest hid hlink _ ih =>
      intro steps hsteps
      obtain ⟨steps, rfl⟩ : ∃ k, steps = k + 1 := ⟨steps - 1, by simp at hsteps; omega⟩
      rw [Memory.followLinks, if_neg hid, hlink]
      simp only [ih steps (by simpa using hsteps)]

/-- A walk that stops early has come to the end of the list. -/
lemma links_of_followLinks {steps cursor : Nat} (h : m.followLinks steps cursor = .ok ids)
    (hsteps : ids.length < steps) : Links m cursor ids := by
  induction steps generalizing cursor ids with
  | zero => omega
  | succ steps ih =>
      rw [followLinks] at h
      split at h
      · next h0 =>
        obtain rfl := Except.ok.inj h
        rw [h0]
        exact .stop
      · next h0 =>
        split at h
        · contradiction
        · next following hlink =>
          split at h
          · next rest hrest =>
            obtain rfl := Except.ok.inj h
            exact .next h0 hlink (ih hrest (by simpa using hsteps))
          · contradiction

lemma ne_zero_of_followLinks (hs : Sound m) {steps cursor id : Nat}
    (h : m.followLinks steps cursor = .ok ids) (hid : id ∈ ids) : id ≠ 0 ∧ id < m.entityCount := by
  induction steps generalizing cursor ids with
  | zero =>
      obtain rfl := Except.ok.inj h
      exact absurd hid List.not_mem_nil
  | succ steps ih =>
      rw [followLinks] at h
      split at h
      · obtain rfl := Except.ok.inj h
        exact absurd hid List.not_mem_nil
      · next h0 =>
        split at h
        · contradiction
        · next following hlink =>
          split at h
          · next rest hrest =>
            obtain rfl := Except.ok.inj h
            rcases List.mem_cons.mp hid with rfl | hid
            · obtain ⟨cell, hcell, -⟩ := cell_of_readLink hs h0 hlink
              exact ⟨h0, cell_lt hcell⟩
            · exact ih hrest hid
          · contradiction

/-- The links from the head run through the listed entities, each of them once. -/
structure Lists (m : Memory) (ids : List Nat) : Prop where
  links : ∃ head, m.head? = some head ∧ Links m head ids
  nodup : ids.Nodup

/-- Entities other than the reserved one, each listed once, are fewer than the rows of the table. -/
lemma length_lt_of_nodup (hs : Sound m) (hnodup : ids.Nodup)
    (hids : ∀ id ∈ ids, id ≠ 0 ∧ id < m.entityCount) : ids.length < m.entityCount := by
  have hsub : ids ⊆ m.entityIds := by
    intro id hid
    obtain ⟨h0, hlt⟩ := hids id hid
    rw [entityIds, List.mem_range']
    exact ⟨id - 1, by omega, by omega⟩
  have hle := (hnodup.subperm hsub).length_le
  have hpos := hs.entityCount_pos
  rw [entityIds, List.length_range'] at hle
  omega

lemma Lists.length_lt (h : Lists m ids) (hs : Sound m) : ids.length < m.entityCount := by
  obtain ⟨head, -, hlinks⟩ := h.links
  refine length_lt_of_nodup hs h.nodup fun id hid => ?_
  obtain ⟨cell, hcell, -⟩ := hlinks.cell hs hid
  exact ⟨ne_zero_of_cell hcell, cell_lt hcell⟩

lemma Lists.freeEntities (h : Lists m ids) (hs : Sound m) : m.freeEntities = .ok ids := by
  obtain ⟨head, hhead, hlinks⟩ := h.links
  rw [Memory.freeEntities, freeHead_of_head hhead]
  exact hlinks.followLinks _ (Nat.le_of_lt (h.length_lt hs))

/-- **A list that is answered without repetitions is the whole list.** -/
lemma lists_of_freeEntities (hs : Sound m) (h : m.freeEntities = .ok ids) (hnodup : ids.Nodup) :
    Lists m ids := by
  obtain ⟨row, hrow, -⟩ := hs.head
  have hhead : m.head? = some row.address := by rw [head?, hrow]; rfl
  rw [Memory.freeEntities, freeHead_of_head hhead] at h
  have hlt := length_lt_of_nodup hs hnodup fun id hid => ne_zero_of_followLinks hs h hid
  exact ⟨⟨row.address, hhead, links_of_followLinks h hlt⟩, hnodup⟩

lemma Lists.congr (h : Lists m ids) (hs : Sound m) (hn : Sound n) (hhead : n.head? = m.head?)
    (hcells : ∀ id ∈ ids, n.cell? id = m.cell? id) : Lists n ids := by
  obtain ⟨head, hhead', hlinks⟩ := h.links
  exact ⟨⟨head, hhead.trans hhead', hlinks.congr hs hn hcells⟩, h.nodup⟩

lemma Threads.lists (h : Threads m ids) (hs : Sound m) : Lists m ids := by
  obtain ⟨head, hhead, hchain⟩ := h.chain
  exact ⟨⟨head, hhead, hchain.links hs⟩, h.nodup⟩

/-! ## Searching -/

lemma findCandidate_next {wanted steps previous id following : Nat} {cell : Cell}
    (hcell : m.cell? id = some cell) (hlink : m.readLink id = .ok following) :
    m.findCandidate wanted (steps + 1) previous id =
      if wanted ≤ cell.bytes.length then .ok (some ⟨previous, id, following⟩)
      else m.findCandidate wanted steps id following := by
  obtain ⟨row, hid, hrow, -, hsize, -⟩ := row_of_cell hcell
  rw [findCandidate, if_neg hid, row_ok hrow, hlink, ← hsize]

/-- A list without a fit is searched to its end. -/
lemma Links.findCandidate_none (hs : Sound m) {wanted cursor : Nat} (h : Links m cursor ids)
    (hnone : ∀ id ∈ ids, ¬ m.HasRoom wanted id) :
    ∀ steps previous, ids.length ≤ steps → m.findCandidate wanted steps previous cursor = .ok none := by
  induction h with
  | stop =>
      intro steps previous _
      rw [findCandidate.eq_def]
      exact if_pos rfl
  | @next id following rest hid hlink _ ih =>
      intro steps previous hsteps
      obtain ⟨steps, rfl⟩ : ∃ k, steps = k + 1 := ⟨steps - 1, by simp at hsteps; omega⟩
      obtain ⟨cell, hcell, -⟩ := cell_of_readLink hs hid hlink
      rw [List.forall_mem_cons, hasRoom_iff hcell] at hnone
      rw [findCandidate_next hcell hlink, if_neg hnone.1]
      exact ih hnone.2 steps id (by simpa using hsteps)

/-- The search ends at the first entity that fits, with its neighbours in the list. -/
lemma Links.findCandidate_some (hs : Sound m) {wanted cursor id : Nat} {before after : List Nat}
    (h : Links m cursor (before ++ id :: after)) (hbefore : ∀ j ∈ before, ¬ m.HasRoom wanted j)
    (hid : m.HasRoom wanted id) :
    ∃ next, Links m next after ∧ next < wordBound ∧
      ∀ steps previous, (before ++ id :: after).length ≤ steps →
        m.findCandidate wanted steps previous cursor =
          .ok (some ⟨before.getLastD previous, id, next⟩) := by
  induction before generalizing cursor with
  | nil =>
      cases h with
      | @next _ following _ h0 hlink hrest =>
          obtain ⟨cell, hcell, -, rfl⟩ := cell_of_readLink hs h0 hlink
          refine ⟨cell.link, hrest, cell.link_lt, fun steps previous hsteps => ?_⟩
          obtain ⟨steps, rfl⟩ : ∃ k, steps = k + 1 := ⟨steps - 1, by simp at hsteps; omega⟩
          rw [findCandidate_next hcell hlink, if_pos ((hasRoom_iff hcell).mp hid)]
          rfl
  | cons first rest ih =>
      cases h with
      | @next _ following _ h0 hlink hrest =>
          rw [List.forall_mem_cons] at hbefore
          obtain ⟨cell, hcell, -⟩ := cell_of_readLink hs h0 hlink
          obtain ⟨next, hnext, hlt, hfound⟩ := ih hrest hbefore.2
          refine ⟨next, hnext, hlt, fun steps previous hsteps => ?_⟩
          obtain ⟨steps, rfl⟩ : ∃ k, steps = k + 1 := ⟨steps - 1, by simp at hsteps; omega⟩
          rw [hasRoom_iff hcell] at hbefore
          rw [findCandidate_next hcell hlink, if_neg hbefore.1, List.getLastD_cons]
          exact hfound steps first (by simpa using hsteps)

/-- The list comes to its end, and nothing on it is large enough. -/
def Unserved (m : Memory) (wanted : Nat) : Prop :=
  ∃ head ids, m.head? = some head ∧ Links m head ids ∧ ids.length ≤ m.entityCount ∧
    ∀ id ∈ ids, ¬ m.HasRoom wanted id

lemma Lists.unserved (h : Lists m ids) (hs : Sound m) {wanted : Nat}
    (hnone : ∀ id ∈ ids, ¬ m.HasRoom wanted id) : m.Unserved wanted := by
  obtain ⟨head, hhead, hlinks⟩ := h.links
  exact ⟨head, ids, hhead, hlinks, Nat.le_of_lt (h.length_lt hs), hnone⟩

/-- A search faults at a bad link, finds something, or comes to the end of the list. -/
lemma findCandidate_cases (hs : Sound m) (wanted : Nat) : ∀ steps previous cursor,
    (∃ fault, fault ≠ .vmFull ∧ m.findCandidate wanted steps previous cursor = .error fault) ∨
    (∃ found, m.findCandidate wanted steps previous cursor = .ok (some found)) ∨
    ∃ ids, m.findCandidate wanted steps previous cursor = .ok none ∧ Links m cursor ids ∧
      ids.length ≤ steps ∧ ∀ id ∈ ids, ¬ m.HasRoom wanted id := by
  intro steps
  induction steps with
  | zero =>
      intro previous cursor
      by_cases h0 : cursor = 0
      · subst h0
        exact .inr (.inr ⟨[], if_pos rfl, .stop, Nat.le_refl _, fun _ hid => absurd hid List.not_mem_nil⟩)
      · exact .inl ⟨.invalidEntity cursor, Fault.noConfusion, if_neg h0⟩
  | succ steps ih =>
      intro previous cursor
      by_cases h0 : cursor = 0
      · subst h0
        exact .inr (.inr ⟨[], if_pos rfl, .stop, Nat.zero_le _, fun _ hid => absurd hid List.not_mem_nil⟩)
      · rcases readLink_cases hs h0 with hlink | hlink | ⟨cell, hcell, -, hlink⟩
        · refine .inl ⟨.invalidEntity cursor, Fault.noConfusion, ?_⟩
          rw [findCandidate, if_neg h0, hlink, row]
          cases m.rows[cursor]? <;> rfl
        · cases hrow : m.rows[cursor]? with
          | none =>
              refine .inl ⟨.invalidEntity cursor, Fault.noConfusion, ?_⟩
              rw [findCandidate, if_neg h0, hlink, row, hrow]
          | some row =>
              refine .inl ⟨.rangeCheck, Fault.noConfusion, ?_⟩
              rw [findCandidate, if_neg h0, hlink, row_ok hrow]
        · rw [findCandidate_next hcell hlink]
          by_cases hfit : wanted ≤ cell.bytes.length
          · exact .inr (.inl ⟨_, if_pos hfit⟩)
          · rw [if_neg hfit]
            refine (ih cursor cell.link).imp_right (Or.imp_right ?_)
            rintro ⟨ids, hrun, hlinks, hlength, hnone⟩
            refine ⟨cursor :: ids, hrun, .next h0 hlink hlinks, Nat.succ_le_succ hlength, ?_⟩
            exact List.forall_mem_cons.mpr ⟨mt (hasRoom_iff hcell).mp hfit, hnone⟩

/-! ## Taking an entity out -/

/-- Linking a listed entity to what follows its successor takes the successor out. -/
lemma Links.splice (hs : Sound m) (hn : Sound n) {before after : List Nat} {cursor id next previous : Nat}
    {cell : Cell} (h : Links m cursor (before ++ previous :: id :: after))
    (hnodup : (before ++ previous :: id :: after).Nodup) (hnext : Links m next after)
    (hlt : next < wordBound) (hcell : m.cell? previous = some cell)
    (hcells : ∀ j, n.cell? j = if j = previous then
      some ⟨cell.tag, patched cell.bytes 0 (wordBytes next)⟩ else m.cell? j) :
    Links n cursor (before ++ previous :: after) := by
  induction before generalizing cursor with
  | nil =>
      cases h with
      | @next _ following _ h0 hlink _ =>
          obtain ⟨found, hfound, hsize, -⟩ := cell_of_readLink hs h0 hlink
          obtain rfl : found = cell := Option.some.inj (hfound.symm.trans hcell)
          have hfit : 0 + (wordBytes next).length ≤ found.bytes.length := by simpa using hsize
          have hnew := readWord_cell hn ((hcells previous).trans (if_pos rfl))
            (by rw [length_patched hfit]; exact hsize)
          refine .next h0 (hnew.trans (congrArg Except.ok (Cell.link_patched hsize hlt))) ?_
          refine hnext.congr hs hn fun j hj => ?_
          rw [hcells, if_neg]
          rintro rfl
          simp [List.nodup_cons, hj] at hnodup
  | cons first rest ih =>
      cases h with
      | @next _ following _ h0 hlink hrest =>
          have hne : first ≠ previous := by
            rintro rfl
            simp [List.nodup_cons] at hnodup
          obtain ⟨found, hfound, hsize, rfl⟩ := cell_of_readLink hs h0 hlink
          have hsame := (hcells first).trans ((if_neg hne).trans hfound)
          exact .next h0 (readWord_cell hn hsame hsize) (ih hrest (List.nodup_cons.mp hnodup).2)

/-- Relinking the predecessor, or the head, leaves the rest of the list.  Nothing but the predecessor is
written. -/
lemma writeLink_of_links (hs : Sound m) {head id next : Nat} {before after : List Nat}
    (hhead : m.head? = some head) (h : Links m head (before ++ id :: after))
    (hnodup : (before ++ id :: after).Nodup) (hnext : Links m next after) (hlt : next < wordBound) :
    ∃ n, writeLink (before.getLastD 0) next m = .ok () n ∧ Sound n ∧ Lists n (before ++ after) ∧
      ∀ j, j ∉ before → n.cell? j = m.cell? j := by
  have hrest : (before ++ after).Nodup := by
    have hsub : (before ++ after).Sublist (before ++ id :: after) :=
      (List.sublist_cons_self id after).append_left before
    exact hsub.nodup hnodup
  rcases List.eq_nil_or_concat before with rfl | ⟨init, previous, rfl⟩
  · obtain ⟨row, hrow, -⟩ := hs.head
    have hsound := ((Change.relinked next).carries hs).sound hs
    have hcells := cell?_linked m next
    refine ⟨m.linked next, ?_, hsound, ⟨⟨next, head?_linked hs next, ?_⟩, hrest⟩, fun j _ => hcells j⟩
    · rw [List.getLastD_nil, writeLink, if_pos rfl]
      exact changeRow_run hs hrow _
    · exact hnext.congr hs hsound fun j _ => hcells j
  · simp only [List.concat_eq_append, List.append_assoc, List.singleton_append] at h hnodup hrest ⊢
    have hmem : previous ∈ init ++ previous :: id :: after := by simp
    obtain ⟨cell, hcell, hsize⟩ := h.cell hs hmem
    have hfit : 0 + (wordBytes next).length ≤ cell.bytes.length := by simpa using hsize
    obtain ⟨n, hrun, hn⟩ := put_replaces hs hcell hfit
    refine ⟨n, ?_, hn.sound, ⟨⟨head, hn.head.trans hhead, ?_⟩, hrest⟩, fun j hj => ?_⟩
    · rw [List.getLastD_concat, writeLink, if_neg (ne_zero_of_cell hcell)]
      exact hrun
    · exact h.splice hs hn.sound hnodup hnext hlt hcell hn.cell
    · rw [hn.cell, if_neg]
      rintro rfl
      simp at hj

lemma sound_recycled (hs : Sound m) {id : Nat} {row : Row} (hrow : m.rows[id]? = some row) (tag : Tag) :
    Sound (m.recycled id row tag) :=
  (carries_amended hs (alters_recycled hs hrow tag)).sound hs

/-- An entity that is not listed can be handed out without the list noticing. -/
lemma Lists.recycled (h : Lists m ids) (hs : Sound m) {id : Nat} {row : Row} (hid : id ≠ 0)
    (hrow : m.rows[id]? = some row) (hnot : id ∉ ids) (tag : Tag) : Lists (m.recycled id row tag) ids := by
  refine h.congr hs (sound_recycled hs hrow tag) (head?_amended _ _ hid) fun j hj => ?_
  refine (cell?_recycled hs hid hrow tag j).trans (if_neg ?_)
  rintro rfl
  exact hnot hj

/-- What becomes of an entity that is handed out again: it keeps its place, and belongs to the current level
under a new tag.  No storage is used up. -/
structure Refits (m n : Memory) (id : Nat) (tag : Tag) : Prop where
  row : ∃ old new, m.row id = .ok old ∧ n.row id = .ok new ∧ new.address = old.address ∧
    new.size = old.size ∧ new.tag = tag ∧ new.mark.created.val = m.level
  used : n.arena.used = m.arena.used
  count : n.entityCount = m.entityCount

/-- Whatever a search hands out keeps its place. -/
lemma refits_of_firstFit (hs : Sound m) {size id : Nat} {tag : Tag} (hid : id < m.entityCount)
    (h : firstFit size tag m = .ok (.reused id) n) : Refits m n id tag := by
  have hstanding := follows_firstFit (R := Standing) size tag m
  have hperforms := performs_firstFit (A := fun _ => True) size tag hs fun _ _ _ _ _ => trivial
  rw [Ends, h] at hstanding
  rw [Performs, Ends, h] at hperforms
  obtain ⟨hmoves, howned⟩ := hperforms
  obtain ⟨new, h0, hnew, -, htag, hmark⟩ := howned id rfl
  obtain ⟨old, hold⟩ := exists_row hid
  obtain ⟨row, hrow, hsize, haddress⟩ := (hmoves.anchors hs).place id old hold
  obtain rfl : row = new := Option.some.inj (hrow.symm.trans hnew)
  obtain ⟨image, harena⟩ := hstanding.arena
  refine ⟨⟨old, row, row_ok hold, row_ok hrow, haddress h0, hsize, htag, ?_⟩, ?_, hstanding.count⟩
  · rw [hmark, (hmoves.carries hs).level]
    exact hs.createdAt_level.1
  · rw [harena]

/-- **A hit hands out the first entity that fits**, and the others stay listed in their order. -/
lemma firstFit_hit (hs : Sound m) {size wanted id : Nat} {before after : List Nat}
    (h : Lists m (before ++ id :: after)) (halign : alignUp size arenaAlign = some wanted)
    (hbefore : ∀ j ∈ before, ¬ m.HasRoom wanted j) (hid : m.HasRoom wanted id) (tag : Tag) :
    ∃ n, firstFit size tag m = .ok (.reused id) n ∧ Sound n ∧ Lists n (before ++ after) ∧
      Refits m n id tag := by
  obtain ⟨head, hhead, hlinks⟩ := h.links
  obtain ⟨next, hnext, hlt, hfound⟩ := hlinks.findCandidate_some hs hbefore hid
  obtain ⟨k, hlink, hk, hlists, hkept⟩ := writeLink_of_links hs hhead hlinks h.nodup hnext hlt
  have hnot : id ∉ before ∧ id ∉ after := by
    have hnodup := h.nodup
    simp only [List.nodup_append, List.nodup_cons, List.mem_cons] at hnodup
    exact ⟨fun hmem => hnodup.2.2 id hmem id (.inl rfl) rfl, hnodup.2.1.1⟩
  obtain ⟨cell, hcell, -⟩ := hlinks.cell hs (show id ∈ before ++ id :: after by simp)
  obtain ⟨row, h0, hrow, -⟩ := row_of_cell ((hkept id hnot.1).trans hcell)
  have hrun : firstFit size tag m =
      .ok (.reused id) { k.recycled id row tag with gcCountdown := (k.recycled id row tag).gcPeriod } := by
    refine (bind_ok (query_ok (s := m) (a := some ⟨before.getLastD 0, id, next⟩) ?_)).trans
      ((bind_ok hlink).trans ((bind_ok (reuse_run hk h0 hrow tag)).trans rfl))
    simp only [halign, freeHead_of_head hhead]
    exact hfound _ _ (Nat.le_of_lt (h.length_lt hs))
  have hrecycled := sound_recycled hk hrow tag
  have hn := sound_countdown hrecycled (k.recycled id row tag).gcPeriod
  refine ⟨_, hrun, hn, ?_, refits_of_firstFit hs (cell_lt hcell) hrun⟩
  refine (hlists.recycled hk h0 hrow (fun hmem => ?_) tag).congr hrecycled hn rfl fun _ _ => rfl
  exact (List.mem_append.mp hmem).elim hnot.1 hnot.2

/-- **A miss only counts.** -/
lemma Unserved.firstFit_run {size wanted : Nat} (h : m.Unserved wanted) (hs : Sound m)
    (halign : alignUp size arenaAlign = some wanted) (tag : Tag) : firstFit size tag m = countMiss m := by
  obtain ⟨head, ids, hhead, hlinks, hlength, hnone⟩ := h
  refine (bind_ok (query_ok (s := m) (a := none) ?_)).trans rfl
  simp only [halign, freeHead_of_head hhead]
  exact hlinks.findCandidate_none hs hnone _ _ hlength

/-- Once something is found, nothing can fail. -/
lemma firstFit_found (hs : Sound m) {size wanted head : Nat} {found : Candidate}
    (halign : alignUp size arenaAlign = some wanted) (hhead : m.head? = some head)
    (h : m.findCandidate wanted m.entityCount 0 head = .ok (some found)) (tag : Tag) :
    ∃ n, firstFit size tag m = .ok (.reused found.id) n := by
  obtain ⟨hprevious, row, hid, hrow, -⟩ := findCandidate_spec _ _ _ (.inl rfl) h
  obtain ⟨k, hlink, hchange, hkept⟩ := writeLink_cases hs found.next hprevious
  obtain ⟨row', hrow', -⟩ := hkept _ _ hrow
  have hreuse := reuse_run ((hchange.carries hs).sound hs) hid hrow' tag
  refine ⟨_, (bind_ok (query_ok (s := m) (a := some found) ?_)).trans
    ((bind_ok hlink).trans ((bind_ok hreuse).trans rfl))⟩
  simp only [halign, freeHead_of_head hhead]
  exact h

/-- **The ends of a search**: a fault that leaves the memory as it was, and that is a full memory only for a
size that cannot be rounded; a miss; or a hit. -/
lemma firstFit_outcomes (hs : Sound m) (size : Nat) (tag : Tag) :
    (∃ fault, firstFit size tag m = .error fault m ∧
      (fault = .vmFull → alignUp size arenaAlign = none)) ∨
    (∃ wanted, alignUp size arenaAlign = some wanted ∧ m.Unserved wanted ∧
      firstFit size tag m = countMiss m) ∨
    ∃ id n, firstFit size tag m = .ok (.reused id) n := by
  obtain ⟨row, hrow, -⟩ := hs.head
  have hhead : m.head? = some row.address := by rw [head?, hrow]; rfl
  cases halign : alignUp size arenaAlign with
  | none =>
      refine .inl ⟨.vmFull, bind_error (query_error (s := m) ?_), fun _ => rfl⟩
      simp only [halign]
  | some wanted =>
      rcases findCandidate_cases hs wanted m.entityCount 0 row.address with
        ⟨fault, hfault, hrun⟩ | ⟨found, hrun⟩ | ⟨ids, -, hlinks, hlength, hnone⟩
      · refine .inl ⟨fault, bind_error (query_error (s := m) ?_), fun he => absurd he hfault⟩
        simp only [halign, freeHead_of_head hhead]
        exact hrun
      · obtain ⟨n, hfound⟩ := firstFit_found hs halign hhead hrun tag
        exact .inr (.inr ⟨found.id, n, hfound⟩)
      · have hunserved : m.Unserved wanted := ⟨_, ids, hhead, hlinks, hlength, hnone⟩
        exact .inr (.inl ⟨wanted, rfl, hunserved, hunserved.firstFit_run hs halign tag⟩)

/-- Under the search itself an allocation that finds something to reuse ends there. -/
lemma allocate_hit {size id : Nat} {tag : Tag} (hpolicy : m.policy = .firstFit)
    (h : firstFit size tag m = .ok (.reused id) n) :
    allocateWithoutGc size tag m = .ok id n ∧ ∀ roots, allocate size tag roots m = .ok id n := by
  have hfind := (findStorage_firstFit hpolicy size tag).trans h
  exact ⟨(bind_ok hfind).trans rfl, fun roots => (bind_ok hfind).trans rfl⟩

end PostScriptCore.Memory
