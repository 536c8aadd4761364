import PostScriptCore.Proofs.Memory.Blank
import PostScriptCore.Proofs.Memory.Failures
import PostScriptCore.Proofs.Memory.Listing
import PostScriptCore.Proofs.Memory.Pacing
import PostScriptCore.Proofs.Memory.Recollection

/-!
# Where allocated storage comes from

An allocation hands out a listed entity, whose storage it zeroes, or a new row over bytes that nobody has
written.  Everything the free list does not lead to is left alone.  Nothing is assumed of the tags of the
listed entities, or of the list coming to an end.

* `Memory.Finds`, `Memory.Relinks` — what a search finds, and what unlinking it changes.
* `Memory.firstFit_reused` — a hit, step by step.
* `Memory.HandsOut` — what handing out an entity does to this and to every other one.
* `Memory.handsOut_firstFit`, `Memory.handsOut_tableAlloc`, … — the four ways to allocate.
* `Memory.Requests` — the search of an allocation asks for a collection first.
* `Memory.InUse.spared` — an allocation leaves alone what its collection does not free.
-/

namespace PostScriptCore.Memory

variable {m n : Memory} {id j size wanted : Nat} {tag : Tag} {roots : List Object}

/-- A step that answers ends in its final state. -/
lemma run_of_answer? {α : Type} {x : MemoryM α} {a : α} (h : answer? x m = some a) :
    x m = .ok a (finalState x m) := by
  rw [answer?] at h
  rw [finalState]
  cases hrun : x m with
  | ok b n =>
      rw [hrun] at h
      rw [Option.some.inj h]
  | error fault n =>
      rw [hrun] at h
      contradiction

/-- A step that does not answer fails in its final state. -/
lemma run_of_no_answer {α : Type} {x : MemoryM α} (h : answer? x m = none) :
    ∃ fault, x m = .error fault (finalState x m) := by
  rw [answer?] at h
  rw [finalState]
  cases hrun : x m with
  | ok a n =>
      rw [hrun] at h
      contradiction
  | error fault n => exact ⟨fault, rfl⟩

/-! ## Taking an entity out of the list -/

/-- A listed entity with room, and its neighbours in the list. -/
structure Finds (m : Memory) (wanted : Nat) (found : Candidate) : Prop where
  listed : m.Listed found.id
  ne_zero : found.id ≠ 0
  room : m.HasRoom wanted found.id
  next : m.LinksTo found.id found.next
  previous : (found.previous = 0 ∧ m.head? = some found.id) ∨
    (found.previous ≠ 0 ∧ m.Listed found.previous ∧ m.LinksTo found.previous found.id)

/-- The search goes from link to link, so that the entity before the cursor always links to it. -/
lemma finds_of_findCandidate {found : Candidate} {steps previous cursor : Nat}
    (hcursor : (previous = 0 ∧ m.head? = some cursor) ∨
      (previous ≠ 0 ∧ m.Listed previous ∧ m.LinksTo previous cursor))
    (h : m.findCandidate wanted steps previous cursor = .ok (some found)) : m.Finds wanted found := by
  induction steps generalizing previous cursor with
  | zero =>
      rw [findCandidate] at h
      split at h <;> cases h
  | succ steps ih =>
      rw [findCandidate] at h
      split at h
      · cases h
      · next h0 =>
        have hlisted : m.Listed cursor := by
          rcases hcursor with ⟨-, hhead⟩ | ⟨-, hlisted, hlink⟩
          · exact .head hhead
          · exact hlisted.next hlink
        split at h
        · contradiction
        · contradiction
        · next row next hrow hlink =>
          split at h
          · next hfit =>
            obtain rfl := Option.some.inj (Except.ok.inj h)
            exact ⟨hlisted, h0, ⟨row, hrow, hfit⟩, hlink, hcursor⟩
          · exact ih (.inr ⟨h0, hlisted, hlink⟩) h

lemma Finds.linkable {found : Candidate} (h : m.Finds wanted found) :
    found.previous = 0 ∨ Linkable m found.previous := by
  rcases h.previous with ⟨h0, -⟩ | ⟨h0, -, hlink⟩
  · exact .inl h0
  · exact .inr (linkable_of_readLink h0 hlink)

/-- `next` has become the entity after `previous`, or the head of the list if `previous` is row 0. -/
structure Relinks (m : Memory) (previous next : Nat) (n : Memory) : Prop where
  sound : Sound n
  count : n.entityCount = m.entityCount
  front : previous = 0 → n.head? = some next
  shape : ∀ j, n.shape? j = m.shape? j
  kept : ∀ j, j ≠ previous → n.cell? j = m.cell? j
  link : ∀ cell, m.cell? previous = some cell →
    n.cell? previous = some ⟨cell.tag, patched cell.bytes 0 (wordBytes next)⟩

lemma relinks_linked (hs : Sound m) (next : Nat) : Relinks m 0 next (m.linked next) where
  sound := ((Change.relinked next).carries hs).sound hs
  count := entityCount_amended ..
  front := fun _ => head?_linked hs next
  shape := fun j => by rw [shape?, cell?_linked, shape?]
  kept := fun j _ => cell?_linked m next j
  link := fun _ hcell => absurd rfl (ne_zero_of_cell hcell)

lemma relinks_overwritten (hs : Sound m) {previous : Nat} {row : Row} (h0 : previous ≠ 0)
    (hrow : m.rows[previous]? = some row) (hsize : linkSize ≤ row.size) (next : Nat) :
    Relinks m previous next (m.overwritten previous (row.address + 0) (wordBytes next)) := by
  have hfit : 0 + (wordBytes next).length ≤ row.size := by simpa using hsize
  have hreplaces := replaces_overwritten hs h0 hrow hfit
  have hcell := cell?_of_row h0 hrow
  refine
    { sound := hreplaces.sound
      count := hreplaces.count
      front := fun he => absurd he h0
      shape := fun j => ?_
      kept := fun j hj => (hreplaces.cell j).trans (if_neg hj)
      link := fun cell hold => ?_ }
  · rw [shape?, hreplaces.cell]
    split
    · next he =>
      subst he
      rw [shape?, hcell, Option.map_some, Option.map_some, Cell.shape, Cell.shape, length_patched]
      simpa using hfit
    · rfl
  · obtain rfl := Option.some.inj (hcell.symm.trans hold)
    exact (hreplaces.cell previous).trans (if_pos rfl)

lemma relinks_of_linkable (hs : Sound m) {previous : Nat} (h : previous = 0 ∨ Linkable m previous)
    (next : Nat) : ∃ n, writeLink previous next m = .ok () n ∧ Relinks m previous next n := by
  rcases h with rfl | ⟨row, h0, hrow, hsize⟩
  · obtain ⟨head, hhead, -⟩ := hs.head
    refine ⟨m.linked next, ?_, relinks_linked hs next⟩
    rw [writeLink, if_pos rfl]
    exact changeRow_run hs hhead _
  · refine ⟨_, ?_, relinks_overwritten hs h0 hrow hsize next⟩
    rw [writeLink, if_neg h0]
    exact put_run hs h0 hrow (by simpa using hsize)

/-- **A hit, step by step**: the listed entity is unlinked, and then handed out zeroed. -/
lemma firstFit_reused (hs : Sound m) (h : firstFit size tag m = .ok (.reused id) n) :
    ∃ wanted found k row, alignUp size arenaAlign = some wanted ∧ m.Finds wanted found ∧ found.id = id ∧
      Relinks m found.previous found.next k ∧ k.rows[id]? = some row ∧ wanted ≤ row.size ∧
      n = { k.recycled id row tag with gcCountdown := (k.recycled id row tag).gcPeriod } := by
  obtain ⟨first, hfirst, -⟩ := hs.head
  have hhead : m.head? = some first.address := by rw [head?, hfirst]; rfl
  cases halign : alignUp size arenaAlign with
  | none =>
      rw [firstFit, bind_error (query_error (s := m) (e := .vmFull) (by simp only [halign]))] at h
      contradiction
  | some wanted =>
      rcases findCandidate_cases hs wanted m.entityCount 0 first.address with
        ⟨fault, -, hrun⟩ | ⟨found, hrun⟩ | ⟨ids, hrun, -⟩
      · rw [firstFit, bind_error (query_error (s := m) (e := fault)
          (by simpa only [halign, freeHead_of_head hhead] using hrun))] at h
        contradiction
      · have hfinds := finds_of_findCandidate (.inl ⟨rfl, hhead⟩) hrun
        obtain ⟨k, hlink, hk⟩ := relinks_of_linkable hs hfinds.linkable found.next
        obtain ⟨old, hold, hroom⟩ := hfinds.room
        obtain ⟨cell, hcell⟩ := exists_cell hfinds.ne_zero (row_lt (row_eq_ok_iff.mp hold))
        obtain ⟨row, hrow⟩ := exists_row (hk.count ▸ cell_lt hcell)
        have hsize : row.size = old.size := by
          have hshape := hk.shape found.id
          rw [shape?, shape?, cell?_of_row hfinds.ne_zero hrow,
            cell?_of_row hfinds.ne_zero (row_eq_ok_iff.mp hold)] at hshape
          simpa [Cell.shape] using congrArg (Option.map Prod.snd) hshape
        rw [firstFit, bind_ok (query_ok (s := m) (a := some found)
          (by simpa only [halign, freeHead_of_head hhead] using hrun))] at h
        dsimp only at h
        rw [bind_ok hlink, bind_ok (reuse_run hk.sound hfinds.ne_zero hrow tag)] at h
        injection h with hid hn
        injection hid with hid
        subst hid
        exact ⟨wanted, found, k, row, rfl, hfinds, rfl, hk, hrow, hsize ▸ hroom, hn.symm⟩
      · rw [firstFit, bind_ok (query_ok (s := m) (a := none)
          (by simpa only [halign, freeHead_of_head hhead] using hrun))] at h
        have hmiss := performs_countMiss (A := fun _ => True) hs
        rw [Performs, Ends, show countMiss m = .ok (.reused id) n from h] at hmiss
        exact absurd rfl (hmiss.2 id)

/-! ## What is handed out -/

/-- An entity was handed out.  Its storage is zero if nobody has written beyond the cursor; every other
entity keeps its tag and size, and everything that the free list did not lead to keeps its bytes as well. -/
structure HandsOut (m : Memory) (size : Nat) (tag : Tag) (id : Nat) (n : Memory) : Prop where
  sound : Sound n
  owned : Owned n id size tag
  zeroed : m.arena.Blank → ∃ length, n.cell? id = some ⟨tag, List.replicate length 0⟩
  length : ∀ cell, m.cell? id = some cell →
    ∃ cell', n.cell? id = some cell' ∧ cell'.bytes.length = cell.bytes.length
  shape : ∀ j cell, j ≠ id → m.cell? j = some cell → n.shape? j = some cell.shape
  kept : ∀ j cell, m.cell? j = some cell → (id < m.entityCount → ¬ m.Listed j) →
    j ≠ id ∧ n.cell? j = some cell

/-- The countdown to the next collection is nothing a cell shows. -/
lemma HandsOut.of_countdown {count : Nat} (h : HandsOut { m with gcCountdown := count } size tag id n) :
    HandsOut m size tag id n :=
  ⟨h.sound, h.owned, h.zeroed, h.length, h.shape, h.kept⟩

lemma handsOut_firstFit (hs : Sound m) (h : firstFit size tag m = .ok (.reused id) n) :
    HandsOut m size tag id n := by
  have howned : Owned n id size tag := by
    have hperforms := performs_firstFit (A := fun _ => True) size tag hs fun _ _ _ _ _ => trivial
    rw [Performs, Ends, h] at hperforms
    exact hperforms.2 id rfl
  obtain ⟨wanted, found, k, row, halign, hfinds, rfl, hk, hrow, hroom, rfl⟩ := firstFit_reused hs h
  have hid := hfinds.ne_zero
  have hcells := cell?_recycled hk.sound hid hrow tag
  have hsound := sound_recycled hk.sound hrow tag
  refine
    { sound := sound_countdown hsound _
      owned := howned
      zeroed := fun _ => ⟨row.size, (hcells found.id).trans (if_pos rfl)⟩
      length := fun cell hcell => ⟨_, (hcells found.id).trans (if_pos rfl), ?_⟩
      shape := fun j cell hj hcell => ?_
      kept := fun j cell hcell hunlisted => ?_ }
  · have hshape := hk.shape found.id
    rw [shape?, shape?, cell?_of_row hid hrow, hcell] at hshape
    simpa [Cell.shape] using congrArg (Option.map Prod.snd) hshape
  · have hshape := hk.shape j
    rw [shape?, shape?, hcell] at hshape
    rw [shape?]
    refine (congrArg (Option.map Cell.shape) (hcells j)).trans ?_
    rw [if_neg hj]
    exact hshape
  · have hcount : found.id < m.entityCount := hk.count ▸ row_lt hrow
    have hne : j ≠ found.id := by
      rintro rfl
      exact hunlisted hcount hfinds.listed
    have hprevious : j ≠ found.previous := by
      rintro rfl
      rcases hfinds.previous with ⟨h0, -⟩ | ⟨-, hlisted, -⟩
      · exact ne_zero_of_cell hcell h0
      · exact hunlisted hcount hlisted
    refine ⟨hne, (hcells j).trans ?_⟩
    rw [if_neg hne, hk.kept j hprevious, hcell]

lemma handsOut_pushed (hs : Sound m) {row : Row} {arena : Arena} (hext : Extends m row arena)
    (halign : alignUp size arenaAlign = some row.size) :
    HandsOut m size row.tag m.entityCount (m.pushed row arena) := by
  have hcells := cell?_pushed hs hext
  refine
    { sound := (carries_pushed hs hext).sound hs
      owned := owned_pushed hs hext (le_of_alignUp halign)
      zeroed := fun hblank => ⟨row.size, ?_⟩
      length := fun cell hcell => absurd (cell_lt hcell) (Nat.lt_irrefl _)
      shape := fun j cell hj hcell => ?_
      kept := fun j cell hcell _ => ?_ }
  · rw [hcells, if_pos rfl]
    congr 2
    refine List.eq_replicate_iff.mpr ⟨Image.length_read .., fun b hb => ?_⟩
    obtain ⟨i, hi, rfl⟩ := List.mem_map.mp hb
    rw [List.mem_range'_1, hext.address] at hi
    exact hblank i hi.1
  · rw [shape?, hcells, if_neg hj, hcell]
    rfl
  · have hne : j ≠ m.entityCount := Nat.ne_of_lt (cell_lt hcell)
    rw [hcells, if_neg hne]
    exact ⟨hne, hcell⟩

lemma handsOut_tableAlloc (hs : Sound m) (h : tableAlloc size tag m = .ok id n) :
    id = m.entityCount ∧ HandsOut m size tag id n := by
  rcases tableAlloc_cases size tag hs.arena with hrun | ⟨row, arena, hext, rfl, halign, hrun⟩
  · rw [hrun] at h
    contradiction
  · rw [hrun] at h
    injection h with hid hn
    subst hid hn
    exact ⟨rfl, handsOut_pushed hs hext halign⟩

/-- An allocation hands out what the search has found, or it adds a row. -/
lemma allocateWithoutGc_cases (hs : Sound m) (h : allocateWithoutGc size tag m = .ok id n) :
    (m.policy = .firstFit ∧ firstFit size tag m = .ok (.reused id) n) ∨
      ∃ count, tableAlloc size tag { m with gcCountdown := count } = .ok id n := by
  rcases findStorage_cases hs size tag with
    ⟨fault, hrun⟩ | ⟨found, k, hrun⟩ | ⟨fit, k, hfit, hk, hrun⟩
  · rw [allocateWithoutGc, bind_error hrun] at h
    contradiction
  · have hreused : allocateWithoutGc size tag m = .ok found k := (bind_ok hrun).trans rfl
    rw [hreused] at h
    injection h with hid hn
    subst hid hn
    have hhonest := hs.policy
    rcases hpolicy : m.policy with _ | (fault | fit)
    · rw [findStorage_firstFit hpolicy] at hrun
      exact .inl ⟨rfl, hrun⟩
    · rw [findStorage, hpolicy] at hrun
      contradiction
    · rw [findStorage, hpolicy] at hrun
      injection hrun with hfit
      subst hfit
      rw [hpolicy] at hhonest
      exact hhonest.elim
  · have hrest : allocateWithoutGc size tag m = tableAlloc size tag k := by
      refine (bind_ok hrun).trans ?_
      cases fit with
      | reused id => exact absurd rfl (hfit id)
      | needsCollection | miss => rfl
    rw [hrest, hk] at h
    exact .inr ⟨k.gcCountdown, h⟩

lemma handsOut_allocateWithoutGc (hs : Sound m) (h : allocateWithoutGc size tag m = .ok id n) :
    HandsOut m size tag id n := by
  rcases allocateWithoutGc_cases hs h with ⟨-, hrun⟩ | ⟨count, hrun⟩
  · exact handsOut_firstFit hs hrun
  · exact (handsOut_tableAlloc (sound_countdown hs count) hrun).2.of_countdown

/-! ## Collecting in between -/

/-- The search for recycled storage asks for a collection. -/
def Requests (m : Memory) (size : Nat) (tag : Tag) : Prop :=
  answer? (findStorage size tag) m = some .needsCollection

instance (m : Memory) (size : Nat) (tag : Tag) : Decidable (m.Requests size tag) :=
  inferInstanceAs (Decidable (answer? (findStorage size tag) m = some .needsCollection))

/-- A request leaves everything but the countdown as it was.  Under first fit the list has come to its end. -/
lemma requests_run (hs : Sound m) (h : m.Requests size tag) :
    (∃ count, findStorage size tag m = .ok .needsCollection { m with gcCountdown := count }) ∧
      (m.policy = .firstFit → ∃ wanted, m.Unserved wanted) := by
  rw [Requests, answer?] at h
  rcases findStorage_cases hs size tag with
    ⟨fault, hrun⟩ | ⟨found, k, hrun⟩ | ⟨fit, k, hfit, hk, hrun⟩
  · rw [hrun] at h
    contradiction
  · rw [hrun] at h
    cases h
  · rw [hrun] at h
    obtain rfl := Option.some.inj h
    refine ⟨⟨k.gcCountdown, hk ▸ hrun⟩, fun hpolicy => ?_⟩
    rw [findStorage_firstFit hpolicy] at hrun
    rcases firstFit_outcomes hs size tag with
      ⟨fault, hfault, -⟩ | ⟨wanted, -, hunserved, -⟩ | ⟨id, l, hreused⟩
    · rw [hfault] at hrun
      contradiction
    · exact ⟨wanted, hunserved⟩
    · rw [hreused] at hrun
      cases hrun

/-- An allocation that asks for a collection goes on as one that does not, from the memory that the collection
leaves behind, whether it goes through or not. -/
lemma allocate_of_requests (roots : List Object) (hs : Sound m) (h : m.Requests size tag) : ∃ count,
    allocate size tag roots m = allocateWithoutGc size tag
      { m.after (.collect roots true false) with gcCountdown := count } := by
  obtain ⟨⟨count, hrun⟩, -⟩ := requests_run hs h
  refine ⟨count, (bind_ok hrun).trans ((bind_ok (attempt_collect roots _)).trans ?_)⟩
  rw [after_collect_countdown]
  rfl

lemma allocate_of_not_requests (h : ¬ m.Requests size tag) :
    allocate size tag roots m = allocateWithoutGc size tag m := by
  rw [Requests, answer?] at h
  cases hrun : findStorage size tag m with
  | error fault n => exact (bind_error hrun).trans (bind_error hrun).symm
  | ok fit n =>
      rw [hrun] at h
      refine (bind_ok hrun).trans (Eq.trans ?_ (bind_ok hrun).symm)
      cases fit with
      | needsCollection => exact absurd rfl h
      | reused id | miss => rfl

/-- What an allocation hands out it takes from the memory as it was, or as the collection left it. -/
lemma handsOut_allocate (hs : Sound m) (h : allocate size tag roots m = .ok id n) :
    (m.Requests size tag ∧ HandsOut (m.after (.collect roots true false)) size tag id n) ∨
      (¬ m.Requests size tag ∧ HandsOut m size tag id n) := by
  by_cases hrequests : m.Requests size tag
  · obtain ⟨count, hrun⟩ := allocate_of_requests roots hs hrequests
    rw [hrun] at h
    have hk := sound_countdown (sound_after hs (.collect roots true false)) count
    exact .inl ⟨hrequests, (handsOut_allocateWithoutGc hk h).of_countdown⟩
  · rw [allocate_of_not_requests hrequests] at h
    exact .inr ⟨hrequests, handsOut_allocateWithoutGc hs h⟩

/-- A list that comes to its end starts at an entity of the table. -/
lemma Unserved.headFits (h : m.Unserved wanted) (hs : Sound m) (hwords : m.entityCount ≤ wordBound) :
    m.HeadFits := by
  obtain ⟨head, ids, hhead, hlinks, -⟩ := h
  intro first hfirst
  obtain rfl := Option.some.inj (hhead.symm.trans hfirst)
  cases hlinks with
  | stop => decide
  | next hid hlink _ =>
      obtain ⟨cell, hcell, -⟩ := cell_of_readLink hs hid hlink
      exact Nat.lt_of_lt_of_le (cell_lt hcell) hwords

/-- **An allocation leaves alone what is in use**, unless the collection that it asked for frees it. -/
lemma InUse.spared (h : m.InUse j) (hs : Sound m) (hwords : m.entityCount ≤ wordBound)
    (hkept : m.Requests size tag → ¬ Freed m (m.after (.collect roots true false)) j)
    (hrun : allocate size tag roots m = .ok id n) : j ≠ id ∧ n.cell? j = m.cell? j := by
  obtain ⟨cell, hcell, hlive⟩ := h.live
  rw [hcell]
  by_cases hrequests : m.Requests size tag
  · have hsame : (m.after (.collect roots true false)).cell? j = some cell := by
      refine ((collect_cases hs j roots true false).resolve_left ?_).trans hcell
      rw [isSpare_iff_freed h]
      exact hkept hrequests
    obtain ⟨count, hallocate⟩ := allocate_of_requests roots hs hrequests
    rw [hallocate] at hrun
    have hk := sound_countdown (sound_after hs (.collect roots true false)) count
    refine (handsOut_allocateWithoutGc hk hrun).of_countdown.kept j cell hsame fun hrecycled => ?_
    have hpolicy : m.policy = .firstFit := by
      rcases allocateWithoutGc_cases hk hrun with ⟨hpolicy, -⟩ | ⟨count', hadded⟩
      · have hsetup : SameSetup m (m.after (.collect roots true false)) := follows_after_collect roots m
        exact hsetup.policy.symm.trans hpolicy
      · have hid := (handsOut_tableAlloc (sound_countdown hk count') hadded).1
        exact absurd hid (Nat.ne_of_lt hrecycled)
    obtain ⟨wanted, hunserved⟩ := (requests_run hs hrequests).2 hpolicy
    exact (h.collected hs hwords (hunserved.headFits hs hwords) (hkept hrequests)).unlisted
  · rw [allocate_of_not_requests hrequests] at hrun
    exact (handsOut_allocateWithoutGc hs hrun).kept j cell hcell fun _ => h.unlisted

end PostScriptCore.Memory
