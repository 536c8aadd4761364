import PostScriptCore.Proofs.Memory.Relocation

/-!
# Reallocations that fail

A reallocation acquires the new entity before it gives the old one back, and giving it back has conditions of
its own: storage too small for a link is refused.  So an entity without storage is moved half-way only, and
the new entity stays behind.  In every other case a failure has changed nothing.

* `Memory.Intact` — what a failure should leave as it was.
* `Memory.not_intact_of_firstFit`, `Memory.not_intact_of_tableAlloc` — handing out an entity always shows.
* `Memory.Strands` — an entity without storage, and a new one for it.
* `Memory.Collects` — the reallocation runs a collection.
* `Memory.relocate_error` — a failure leaves the memory intact or strands an entity.
* `Memory.realloc_error_intact_iff` — the theorem.
-/

namespace PostScriptCore.Memory

variable {m n k : Memory} {id fresh newSize : Nat} {tag : Tag} {roots : List Object}

/-! ## The entity to be moved -/

/-- Handing out an entity for the contents of another one leaves this one its tag and size, even if it is the
one that is handed out. -/
lemma HandsOut.row_kept {row : Row} (h : HandsOut m newSize row.tag fresh n) (hs : Sound m)
    (hrow : m.rows[id]? = some row) :
    ∃ row', n.rows[id]? = some row' ∧ row'.size = row.size ∧ (id ≠ 0 → row'.tag = row.tag) := by
  by_cases h0 : id = 0
  · subst h0
    obtain ⟨head, hhead, hsize⟩ := hs.head
    obtain ⟨head', hhead', hsize'⟩ := h.sound.head
    obtain rfl := Option.some.inj (hhead.symm.trans hrow)
    exact ⟨head', hhead', hsize'.trans hsize.symm, fun hne => absurd rfl hne⟩
  · have hcell := cell?_of_row h0 hrow
    by_cases hid : id = fresh
    · subst hid
      obtain ⟨row', -, hrow', -, htag, -⟩ := h.owned
      obtain ⟨cell, hheld, hlength⟩ := h.length _ hcell
      obtain rfl := Option.some.inj (hheld.symm.trans (cell?_of_row h0 hrow'))
      exact ⟨row', hrow', by simpa using hlength, fun _ => htag⟩
    · obtain ⟨cell, hheld, hshape⟩ := Option.map_eq_some_iff.mp (h.shape id _ hid hcell)
      obtain ⟨row', -, hrow', htag, hsize, -⟩ := row_of_cell hheld
      obtain ⟨htag', hlength⟩ := Prod.mk.inj hshape
      exact ⟨row', hrow', by simpa [hsize] using hlength, fun _ => htag.trans htag'⟩

/-! ## What a failure leaves behind -/

/-- Everything a failure should leave as it was. -/
structure Intact (m n : Memory) : Prop where
  count : n.entityCount = m.entityCount
  used : n.arena.used = m.arena.used
  listed : n.freeEntities = m.freeEntities
  tag : ∀ j, (n.row j).map Row.tag = (m.row j).map Row.tag
  bytes : ∀ j, n.bytes j = m.bytes j

lemma Unchanged.intact (h : Unchanged m n) (hs : Sound m) : Intact m n := by
  have hn := sound_countdown hs n.gcCountdown
  have halike : Alike m { m with gcCountdown := n.gcCountdown } :=
    ⟨rfl, rfl, rfl, fun _ => rfl, fun _ _ => rfl⟩
  rw [h]
  exact ⟨rfl, rfl, halike.freeEntities hs hn, fun _ => rfl, halike.bytes hs hn⟩

lemma Intact.cell_bytes (h : Intact m n) (hs : Sound m) (hn : Sound n) {cell cell' : Cell}
    (hcell : m.cell? id = some cell) (hcell' : n.cell? id = some cell') : cell'.bytes = cell.bytes := by
  have hbytes := h.bytes id
  rw [bytes_cell hs hcell, bytes_cell hn hcell'] at hbytes
  exact Except.ok.inj hbytes

lemma wordOfBytes_zeros (count : Nat) : wordOfBytes (List.replicate count 0) = 0 := by
  rcases count with _ | _ | _ | _ | _ | count
  all_goals rfl

/-- **Handing out shows.**  Zeroing the storage of the one listed entity can go unnoticed, and so can writing
the link of the one before it, but not both: what was linked to is no zero. -/
lemma not_intact_of_firstFit {size : Nat} (hs : Sound m) (h : firstFit size tag m = .ok (.reused id) n) :
    ¬ Intact m n := by
  intro hintact
  obtain ⟨wanted, found, k, row, -, hfinds, rfl, hk, hrow, -, rfl⟩ := firstFit_reused hs h
  have hid := hfinds.ne_zero
  have hrecycled := sound_recycled hk.sound hrow tag
  have hn := sound_countdown hrecycled (k.recycled found.id row tag).gcPeriod
  have hcells := cell?_recycled hk.sound hid hrow tag
  -- its own link was zero, as all of its storage is now
  obtain ⟨cell, hcell, -, hlink⟩ := (linksTo_iff hs).mp hfinds.next
  have hzero : found.next = 0 := by
    have hbytes := hintact.cell_bytes hs hn hcell ((hcells found.id).trans (if_pos rfl))
    rw [← hlink, Cell.link, ← hbytes, List.take_replicate, wordOfBytes_zeros]
  rw [hzero] at hk hlink
  rcases hfinds.previous with ⟨h0, hhead⟩ | ⟨h0, -, hprevious⟩
  · -- the list had one entity, and has none now
    have hbefore : Lists m [found.id] :=
      ⟨⟨found.id, hhead, .next hid (hzero ▸ hfinds.next) .stop⟩, List.nodup_singleton _⟩
    have hfront : (k.recycled found.id row tag).head? = some 0 :=
      (head?_amended _ _ hid).trans (hk.front h0)
    have hafter : Lists { k.recycled found.id row tag with
        gcCountdown := (k.recycled found.id row tag).gcPeriod } [] := ⟨⟨0, hfront, .stop⟩, List.nodup_nil⟩
    have hlisted := hintact.listed
    rw [hbefore.freeEntities hs, hafter.freeEntities hn] at hlisted
    exact List.cons_ne_nil _ _ (Except.ok.inj hlisted).symm
  · obtain ⟨before, hbefore, hroom, hpoints⟩ := (linksTo_iff hs).mp hprevious
    have hne : found.previous ≠ found.id := by
      intro he
      rw [he, hcell] at hbefore
      obtain rfl := Option.some.inj hbefore
      exact hid (hpoints.symm.trans hlink)
    have hafter := (hcells found.previous).trans ((if_neg hne).trans (hk.link before hbefore))
    have hbytes := hintact.cell_bytes hs hn hbefore hafter
    have hpatched : (Cell.mk before.tag (patched before.bytes 0 (wordBytes 0))).link = 0 :=
      Cell.link_patched hroom (by decide)
    rw [Cell.link, hbytes] at hpatched
    exact hid (hpoints.symm.trans hpatched)

lemma not_intact_of_tableAlloc {size : Nat} (hs : Sound m) (h : tableAlloc size tag m = .ok id n) :
    ¬ Intact m n := by
  intro hintact
  rcases tableAlloc_cases size tag hs.arena with hrun | ⟨row, arena, -, -, -, hrun⟩
  · rw [hrun] at h
    contradiction
  · rw [hrun] at h
    injection h with _ hn
    have hcount := hintact.count
    rw [← hn, entityCount, pushed, Array.size_push, entityCount] at hcount
    omega

lemma Intact.of_countdown {count : Nat} (hs : Sound m) (h : Intact m n) :
    Intact { m with gcCountdown := count } n := by
  have hcounted := (unchanged_countdown m count).intact hs
  exact ⟨h.count, h.used, h.listed.trans hcounted.listed.symm, h.tag,
    fun j => (h.bytes j).trans (hcounted.bytes j).symm⟩

lemma not_intact_of_allocateWithoutGc {size : Nat} (hs : Sound m) (h : allocateWithoutGc size tag m = .ok id n) :
    ¬ Intact m n := by
  rcases allocateWithoutGc_cases hs h with ⟨-, hrun⟩ | ⟨count, hrun⟩
  · exact not_intact_of_firstFit hs hrun
  · intro hintact
    exact not_intact_of_tableAlloc (sound_countdown hs count) hrun (hintact.of_countdown hs)

/-! ## Failing reallocations -/

/-- The entity may be moved but has no storage, and there is a new one for it. -/
def Strands (m : Memory) (id : Nat) (supply : Tag → MemoryM Nat) : Prop :=
  ∃ row fresh, m.movable id = .ok row ∧ row.size = 0 ∧ answer? (supply row.tag) m = some fresh

/-- The allocation asks for a collection, and there is a collector to run it. -/
def Collects (m : Memory) (id newSize : Nat) : Prop :=
  m.collector = some .markSweep ∧ ∃ row, m.movable id = .ok row ∧ m.Requests newSize row.tag

/-- An allocation that runs no collection does what one without does. -/
lemma allocate_uncollected {size : Nat} (roots : List Object) (hs : Sound m)
    (h : ¬ (m.collector = some .markSweep ∧ m.Requests size tag)) :
    ∃ count, allocate size tag roots m = allocateWithoutGc size tag { m with gcCountdown := count } := by
  by_cases hrequests : m.Requests size tag
  · obtain ⟨count, hrun⟩ := allocate_of_requests roots hs hrequests
    have hidle : m.after (.collect roots true false) = m := by
      rw [after, MemoryOp.perform, finalState_discard, finalState, collect]
      rcases hcollector : m.collector with _ | _ | fault
      · rfl
      · exact absurd ⟨hcollector, hrequests⟩ h
      · rfl
    rw [hidle] at hrun
    exact ⟨count, hrun⟩
  · exact ⟨m.gcCountdown, allocate_of_not_requests hrequests⟩

/-- What an allocation hands out for a reallocation, if it takes it from the memory as it is. -/
structure Direct (m : Memory) (newSize : Nat) (tag : Tag) (supply : Tag → MemoryM Nat) : Prop where
  atomic : Atomic (supply tag) m
  handsOut : ∀ fresh k, supply tag m = .ok fresh k → HandsOut m newSize tag fresh k ∧ ¬ Intact m k

lemma direct_allocateWithoutGc (hs : Sound m) (newSize : Nat) (tag : Tag) :
    Direct m newSize tag (allocateWithoutGc newSize) where
  atomic := atomic_allocateWithoutGc hs newSize tag
  handsOut := fun _ _ h => ⟨handsOut_allocateWithoutGc hs h, not_intact_of_allocateWithoutGc hs h⟩

lemma direct_allocate (hs : Sound m) (h : ¬ (m.collector = some .markSweep ∧ m.Requests newSize tag)) :
    Direct m newSize tag fun tag => allocate newSize tag roots := by
  obtain ⟨count, hrun⟩ := allocate_uncollected roots hs h
  have hcounted := sound_countdown hs count
  refine ⟨?_, fun fresh k hallocate => ?_⟩
  · rw [Atomic, Ends, hrun]
    exact atomic_allocateWithoutGc hcounted newSize tag
  · rw [hrun] at hallocate
    exact ⟨(handsOut_allocateWithoutGc hcounted hallocate).of_countdown, fun hintact =>
      not_intact_of_allocateWithoutGc hcounted hallocate (hintact.of_countdown hs)⟩

/-- **A reallocation that fails has changed nothing**, unless it has stranded a new entity. -/
lemma relocate_error (hs : Sound m) {supply : Tag → MemoryM Nat} {fault : Fault}
    (hsupply : ∀ row, m.movable id = .ok row → Direct m newSize row.tag supply)
    (h : relocate supply id newSize m = .error fault n) : Intact m n ↔ ¬ m.Strands id supply := by
  have hstays (hintact : Intact m n) (hnone : ∀ row fresh, m.movable id = .ok row →
      answer? (supply row.tag) m ≠ some fresh) : Intact m n ↔ ¬ m.Strands id supply := by
    refine iff_of_true hintact ?_
    rintro ⟨row, fresh, hmovable, -, hanswer⟩
    exact hnone row fresh hmovable hanswer
  cases hmovable : m.movable id with
  | error refusal =>
      rw [relocate, bind_error (query_error (s := m) hmovable)] at h
      obtain ⟨-, rfl⟩ := EStateM.Result.error.inj h
      refine hstays (Unchanged.intact rfl hs) fun row fresh hother => ?_
      rw [hmovable] at hother
      contradiction
  | ok row =>
      obtain ⟨hatomic, hhands⟩ := hsupply row hmovable
      rw [relocate, bind_ok (query_ok (s := m) hmovable)] at h
      cases hrun : supply row.tag m with
      | error refusal k =>
          rw [bind_error hrun] at h
          obtain ⟨-, rfl⟩ := EStateM.Result.error.inj h
          rw [Atomic, Ends, hrun] at hatomic
          refine hstays (hatomic.intact hs) fun row' fresh hother => ?_
          obtain rfl := Except.ok.inj (hmovable.symm.trans hother)
          rw [answer?, hrun]
          exact (Option.some_ne_none fresh).symm
      | ok fresh k =>
          rw [bind_ok hrun] at h
          obtain ⟨hhanded, hchanged⟩ := hhands fresh k hrun
          obtain ⟨row', hrow', hsize, htag⟩ := hhanded.row_kept hs (row_of_movable hmovable)
          rcases Nat.eq_zero_or_pos row.size with hzero | hpos
          · rw [hzero, moveContents_short hrow' (hsize.trans hzero)] at h
            obtain ⟨-, rfl⟩ := EStateM.Result.error.inj h
            have hstrands : m.Strands id supply := ⟨row, fresh, hmovable, hzero, by rw [answer?, hrun]⟩
            exact iff_of_false hchanged (not_not_intro hstrands)
          · have h0 : id ≠ 0 := by
              rintro rfl
              obtain ⟨head, hhead, hempty⟩ := hhanded.sound.head
              obtain rfl := Option.some.inj (hrow'.symm.trans hhead)
              omega
            have hheld := cell?_of_row h0 hrow'
            have hlive : row'.tag.kind ≠ .free := htag h0 ▸ kind_of_movable hmovable
            obtain ⟨-, l, hmoved, -⟩ := moveContents_run hhanded.sound hheld
              (beq_eq_false_iff_ne.mpr hlive) (by simpa [hsize] using hpos) hhanded.owned
            rw [Image.length_read, hsize, h] at hmoved
            contradiction

/-- **When a failed reallocation leaves the memory intact.**  It does, whatever the entity and the size, but for
an entity without storage that may be moved: if there is a new entity for it, that one is not given back. -/
theorem realloc_error_intact_iff {bank : Bank} {backing : Backing} {settings : Settings} {start : Memory}
    (hstart : withBacking bank backing settings = .ok start) (ops : List MemoryOp) (id newSize : Nat) :
    (∀ fault n, reallocWithoutGc id newSize (start.afterAll ops) = .error fault n →
      (Intact (start.afterAll ops) n ↔ ¬ (start.afterAll ops).Strands id (allocateWithoutGc newSize))) ∧
    ∀ roots fault n, realloc id newSize roots (start.afterAll ops) = .error fault n →
      ¬ (start.afterAll ops).Collects id newSize →
      (Intact (start.afterAll ops) n ↔
        ¬ (start.afterAll ops).Strands id fun tag => allocate newSize tag roots) := by
  have hs := sound_afterAll (sound_of_withBacking hstart) ops
  constructor
  · intro fault n h
    exact relocate_error hs (fun row _ => direct_allocateWithoutGc hs newSize row.tag) h
  · intro roots fault n h hquiet
    refine relocate_error hs (fun row hmovable => direct_allocate hs ?_) h
    rintro ⟨hcollector, hrequests⟩
    exact hquiet ⟨hcollector, row, hmovable, hrequests⟩

/-- An array without elements, which has no storage. -/
def emptyArrayRun : List MemoryOp := [.newArray 0 []]

/-- An entity that does not exist is refused before anything is allocated. -/
theorem realloc_error_intact_iff_missing :
    withBacking .localVM .anonymous Settings.standard = .ok freshLocal ∧
      ∃ fault n, reallocWithoutGc 9 16 (freshLocal.afterAll emptyArrayRun) = .error fault n ∧
        ¬ (freshLocal.afterAll emptyArrayRun).Strands 9 (allocateWithoutGc 16) ∧
        Intact (freshLocal.afterAll emptyArrayRun) n := by
  obtain ⟨fault, hrun⟩ := run_of_no_answer (x := reallocWithoutGc 9 16)
    (m := freshLocal.afterAll emptyArrayRun) (by decide +kernel)
  have hmissing : (freshLocal.afterAll emptyArrayRun).entityCount ≤ 9 := by decide +kernel
  have hstays : ¬ (freshLocal.afterAll emptyArrayRun).Strands 9 (allocateWithoutGc 16) := by
    rintro ⟨row, -, hmovable, -⟩
    exact absurd (row_lt (row_of_movable hmovable)) (Nat.not_lt.mpr hmissing)
  have hiff := realloc_error_intact_iff withBacking_freshLocal emptyArrayRun 9 16
  exact ⟨withBacking_freshLocal, fault, _, hrun, hstays, (hiff.1 fault _ hrun).mpr hstays⟩

/-- **A reallocation can fail and leave a new entity behind.**  An array without elements may be moved, but it
has no storage to give back. -/
theorem realloc_strands_entity :
    answer? (reallocWithoutGc 1 16) (freshLocal.afterAll emptyArrayRun) = none ∧
      ¬ Intact (freshLocal.afterAll emptyArrayRun)
        ((freshLocal.afterAll emptyArrayRun).after (.reallocWithoutGc 1 16)) := by
  refine ⟨by decide +kernel, fun hintact => ?_⟩
  exact absurd hintact.count (by decide +kernel)

end PostScriptCore.Memory
