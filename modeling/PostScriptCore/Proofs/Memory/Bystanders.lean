import PostScriptCore.Proofs.Memory.Placement
import PostScriptCore.Proofs.Memory.Supply

/-!
# Operations on other entities

An entity in use is nobody's business but its owner's.  Whatever is done to other entities, it keeps its tag
and its bytes, or a collection frees it.

* `MemoryOp.subject?` — the entity that an operation is directed at.
* `MemoryOp.Elsewhere` — an operation on other entities, after which this one was not handed out again.
* `Memory.Lasts` — the entity was freed, or it is as it was.
* `Memory.lasts_allocate`, `Memory.lasts_put`, … — the single steps.
* `Memory.InUse.cell?_after` — an entity that is live after such an operation is as it was before.
-/

namespace PostScriptCore

/-- The entity that the operation is directed at. -/
def MemoryOp.subject? : MemoryOp → Option Nat
  | realloc id .. | reallocWithoutGc id .. | free id | put id .. | writeObject id .. | setTag id .. => some id
  | arrayPut obj .. | dictPut obj .. => obj.entity?
  | _ => none

/-- The operation is directed at no entity or at another one, and hands out another one if any.  It restores
nothing. -/
structure MemoryOp.Elsewhere (m : Memory) (id : Nat) (op : MemoryOp) : Prop where
  unrestored : ∀ level, op ≠ .restore level
  subject : op.subject? ≠ some id
  allocation : op.allocation? m ≠ some id

namespace Memory

variable {m n k : Memory} {id j fresh size : Nat} {tag : Tag} {roots : List Object}

/-- The entity was freed, or it has the tag and the bytes it had, if entity numbers are words. -/
structure Lasts (m : Memory) (id : Nat) (n : Memory) : Prop where
  sound : Sound n
  outcome : n.entityCount ≤ wordBound → n.isSpare id = true ∨ n.cell? id = m.cell? id

lemma Lasts.refl (hs : Sound m) : Lasts m id m := ⟨hs, fun _ => .inr rfl⟩

lemma Lasts.congr (h : Lasts m id n) (hk : Sound k) (hcount : k.entityCount = n.entityCount)
    (hcell : n.entityCount ≤ wordBound → k.cell? id = n.cell? id) : Lasts m id k := by
  refine ⟨hk, fun hwords => ?_⟩
  rw [hcount] at hwords
  rw [isSpare, hcell hwords]
  exact h.outcome hwords

lemma Lasts.unchanged (h : Lasts m id n) (hk : Unchanged n k) : Lasts m id k := by
  rw [hk]
  exact h.congr (sound_countdown h.sound _) rfl fun _ => rfl

/-! ## Writing, freeing and moving -/

lemma lasts_put (h : Lasts m id n) (hj : n.entityCount ≤ wordBound → j ≠ id) (offset : Nat)
    (bytes : List UInt8) :
    Keeps (Lasts m id) (put j offset bytes) n fun _ k => k.entityCount = n.entityCount := by
  refine Ends.mono (ends_put h.sound j offset bytes) (fun _ k hk => ?_) fun _ k hk => ?_
  · rcases hk with hk | ⟨cell, -, -, hk⟩
    · exact ⟨h.congr hk.sound hk.count fun _ => hk.cell id, hk.count⟩
    · refine ⟨h.congr hk.sound hk.count fun hwords => ?_, hk.count⟩
      rw [hk.cell, if_neg (hj hwords).symm]
  · exact h.congr hk.sound hk.count fun _ => hk.cell id

lemma lasts_free (h : Lasts m id n) (hj : j ≠ id) : Keeps (Lasts m id) (free j) n fun _ _ => True := by
  rcases free_cases j h.sound with ⟨fault, hrun⟩ | ⟨row, head, h0, hrow, hsize, -, -, hrun⟩
  · exact .of_error hrun h
  · refine .of_ok hrun (h.congr (sound_freed h.sound hrow hsize _) (entityCount_freed ..) fun _ => ?_) trivial
    rw [cell?_freed h.sound h0 hrow hsize, if_neg hj.symm]

lemma lasts_moveContents {oldSize newSize : Nat} (h : Lasts m id n) (hj : j ≠ id) (hfresh : fresh ≠ id)
    (howned : Owned n fresh newSize tag) :
    Keeps (Lasts m id) (moveContents j oldSize fresh newSize) n fun _ _ => True := by
  obtain ⟨row, h0, hrow, hsize, -, hmark⟩ := howned
  have hrest (k : Memory) (hk : Lasts m id k) :
      Keeps (Lasts m id) (do free j; return fresh) k fun _ _ => True :=
    .bind (lasts_free hk hj) fun _ _ ht _ => .pure ht trivial
  have hkeep : (if oldSize < newSize then oldSize else newSize) ≤ newSize := by split <;> omega
  rw [moveContents]
  dsimp only
  generalize (if oldSize < newSize then oldSize else newSize) = keep at hkeep ⊢
  split
  · refine .bind (.query h) fun source k hk hsource => ?_
    obtain ⟨rfl, -⟩ := hsource
    refine .bind (.query hk) fun destination t ht hdestination => ?_
    obtain ⟨rfl, hdestination⟩ := hdestination
    obtain rfl : row = destination := Except.ok.inj ((row_ok hrow).symm.trans hdestination)
    rcases copyWithin_cases source.address ht.sound h0 hrow hmark (show keep ≤ row.size by omega) with
      ⟨fault, hrun⟩ | ⟨t, hrun, hreplaces⟩
    · exact .bind (.of_error (P := fun _ _ => True) hrun ht) fun _ t ht _ => hrest t ht
    · refine .bind (.of_ok hrun (ht.congr hreplaces.sound hreplaces.count fun _ => ?_) trivial)
        fun _ t ht (_ : True) => hrest t ht
      rw [hreplaces.cell, if_neg hfresh.symm]
  · exact hrest n h

lemma lasts_setMark (h : Lasts m id n) {row : Row} (hrow : n.rows[j]? = some row) (count : Nat) :
    Keeps (Lasts m id) (setMark j (row.mark.withRefcount count)) n fun _ _ => True := by
  have hidle := idle_setMark h.sound hrow count
  have hout : ∀ i, outline _ i = n.outline i := fun i => outline_eq_of_map Row.plain_unpinned (hidle.rows i)
  exact .of_ok (setMark_run hrow _) (h.congr (((Change.idle hidle).carries h.sound).sound h.sound)
    (entityCount_of_outline hout) fun _ => cell?_congr hidle.arena hout id) trivial

/-! ## Allocation -/

/-- Handing out another entity keeps this one's tag, so that a free entity is free still. -/
lemma HandsOut.isSpare (h : HandsOut m size tag fresh n) (hne : fresh ≠ id) (hspare : m.isSpare id = true) :
    n.isSpare id = true := by
  obtain ⟨cell, hcell, -⟩ := (Option.any_eq_true ..).mp hspare
  rw [isSpare_of_shape (m := m) ?_, hspare]
  rw [h.shape id cell hne.symm hcell, shape?, hcell]
  rfl

/-- What the list does not lead to is not handed out, and not written to either. -/
lemma HandsOut.lasts (hhanded : HandsOut m size tag fresh n) (h : m.InUse id) : fresh ≠ id ∧ Lasts m id n := by
  obtain ⟨cell, hcell, -⟩ := h.live
  obtain ⟨hne, hsame⟩ := hhanded.kept id cell hcell fun _ => h.unlisted
  exact ⟨hne.symm, hhanded.sound, fun _ => .inr (hsame.trans hcell.symm)⟩

lemma lasts_allocateWithoutGc (hs : Sound m) (h : m.InUse id) (size : Nat) (tag : Tag) :
    Keeps (Lasts m id) (allocateWithoutGc size tag) m fun fresh n => fresh ≠ id ∧ Owned n fresh size tag := by
  have hatomic := atomic_allocateWithoutGc hs size tag
  cases hrun : allocateWithoutGc size tag m with
  | ok fresh n =>
      have hhanded := handsOut_allocateWithoutGc hs hrun
      obtain ⟨hne, hlasts⟩ := hhanded.lasts h
      exact .of_ok hrun hlasts ⟨hne, hhanded.owned⟩
  | error fault n =>
      rw [Atomic, Ends, hrun] at hatomic
      exact .of_error hrun ((Lasts.refl hs).unchanged hatomic)

lemma lasts_allocate (hs : Sound m) (h : m.InUse id)
    (hother : answer? (allocate size tag roots) m ≠ some id) :
    Keeps (Lasts m id) (allocate size tag roots) m fun fresh n => fresh ≠ id ∧ Owned n fresh size tag := by
  by_cases hrequests : m.Requests size tag
  · obtain ⟨count, hsame⟩ := allocate_of_requests roots hs hrequests
    have hk := sound_countdown (sound_after hs (.collect roots true false)) count
    have hatomic := atomic_allocateWithoutGc hk size tag
    cases hrun : allocate size tag roots m with
    | ok fresh n =>
        have hne : fresh ≠ id := by
          rintro rfl
          exact hother (by rw [answer?, hrun])
        have hhanded := (handsOut_allocateWithoutGc hk (hsame ▸ hrun)).of_countdown
        refine .of_ok hrun ⟨hhanded.sound, fun hwords => ?_⟩ ⟨hne, hhanded.owned⟩
        by_cases hfreed : Freed m (m.after (.collect roots true false)) id
        · exact .inl (hhanded.isSpare hne ((isSpare_iff_freed h).mpr hfreed))
        · have hmoves := (performs_allocate (A := fun _ => True) size tag roots hs fun _ _ _ => trivial).moves
          rw [finalState_of_ok hrun] at hmoves
          have hwords := Nat.le_trans (hmoves.anchors hs).count_le hwords
          exact .inr (h.spared hs hwords (fun _ => hfreed) hrun).2
    | error fault n =>
        have hcollected : Lasts m id { m.after (.collect roots true false) with gcCountdown := count } :=
          ⟨hk, fun _ => collect_cases hs id roots true false⟩
        rw [Atomic, Ends, ← hsame, hrun] at hatomic
        exact .of_error hrun (hcollected.unchanged hatomic)
  · rw [Keeps, Ends, allocate_of_not_requests hrequests]
    exact lasts_allocateWithoutGc hs h size tag

lemma lasts_realloc (hs : Sound m) (h : m.InUse id) (hj : j ≠ id)
    (hother : MemoryOp.allocation? m (.realloc j size roots) ≠ some id) :
    Keeps (Lasts m id) (realloc j size roots) m fun _ _ => True := by
  refine .bind (.query (.refl hs)) fun old n hn hold => ?_
  obtain ⟨rfl, hold⟩ := hold
  simp only [MemoryOp.allocation?, hold] at hother
  exact .bind (lasts_allocate hs h hother) fun fresh k hk hnew => lasts_moveContents hk hj hnew.1 hnew.2

lemma lasts_reallocWithoutGc (hs : Sound m) (h : m.InUse id) (hj : j ≠ id) (size : Nat) :
    Keeps (Lasts m id) (reallocWithoutGc j size) m fun _ _ => True := by
  refine .bind (.query (.refl hs)) fun old n hn hold => ?_
  obtain ⟨rfl, -⟩ := hold
  exact .bind (lasts_allocateWithoutGc hs h size old.tag) fun fresh k hk hnew =>
    lasts_moveContents hk hj hnew.1 hnew.2

lemma lasts_tableAlloc (hs : Sound m) (h : m.InUse id) (size : Nat) (tag : Tag) :
    Keeps (Lasts m id) (tableAlloc size tag) m fun _ _ => True := by
  obtain ⟨cell, hcell, -⟩ := h.live
  rcases tableAlloc_cases size tag hs.arena with hrun | ⟨row, arena, hext, -, -, hrun⟩
  · exact .of_error hrun (.refl hs)
  · refine .of_ok hrun ⟨(carries_pushed hs hext).sound hs, fun _ => .inr ?_⟩ trivial
    rw [cell?_pushed hs hext, if_neg (Nat.ne_of_lt (cell_lt hcell))]

lemma lasts_firstFit (hs : Sound m) (h : m.InUse id) (size : Nat) (tag : Tag) :
    Keeps (Lasts m id) (firstFit size tag) m fun _ _ => True := by
  rcases firstFit_outcomes hs size tag with ⟨fault, hrun, -⟩ | ⟨-, -, -, hrun⟩ | ⟨fresh, n, hrun⟩
  · exact .of_error hrun (.refl hs)
  · rw [Keeps, Ends, hrun]
    have hrefl : Lasts m id m := .refl hs
    rcases Nat.lt_or_ge 1 m.gcCountdown with hcount | hcount
    · exact Keeps.of_ok (countMiss_between hcount) (hrefl.unchanged (unchanged_countdown m _)) trivial
    · exact Keeps.of_ok (countMiss_due hcount) (hrefl.unchanged (unchanged_countdown m _)) trivial
  · exact .of_ok hrun ((handsOut_firstFit hs hrun).lasts h).2 trivial

/-! ## Composites -/

lemma lasts_arrayPut (h : Lasts m id n) {array : Object}
    (harray : n.entityCount ≤ wordBound → array.entity? ≠ some id) (index : Nat) (value : Object) :
    Keeps (Lasts m id) (arrayPut array index value) n fun _ k => k.entityCount = n.entityCount := by
  refine .bind (.query h) fun found k hk hfound => ?_
  obtain ⟨rfl, hfound⟩ := hfound
  have hne (hwords : k.entityCount ≤ wordBound) : found ≠ id := by
    rintro rfl
    exact harray hwords (expectType_eq_ok hfound).1
  dsimp only
  split
  · exact .throw_bind hk
  · split
    · exact .throw_bind hk
    · refine .bind (.query hk) fun offset t ht hoffset => ?_
      obtain ⟨rfl, -⟩ := hoffset
      exact lasts_put ht hne _ _

lemma lasts_putElements (h : Lasts m id n) {array : Object}
    (harray : n.entityCount ≤ wordBound → array.entity? ≠ some id) (index : Nat) (elements : List Object) :
    Keeps (Lasts m id) (putElements array index elements) n fun _ _ => True := by
  induction elements generalizing index n with
  | nil => exact .pure h trivial
  | cons obj rest ih =>
      refine .bind (lasts_arrayPut h harray index obj) fun _ k hk hcount => ?_
      exact ih hk (fun hwords => harray (hcount ▸ hwords)) _

lemma lasts_dictPut (h : Lasts m id n) {dict : Object}
    (hdict : n.entityCount ≤ wordBound → dict.entity? ≠ some id) (key value : Object) :
    Keeps (Lasts m id) (dictPut dict key value) n fun _ _ => True := by
  refine .bind (.query h) fun found k hk hfound => ?_
  obtain ⟨rfl, hfound⟩ := hfound
  have hne (hwords : k.entityCount ≤ wordBound) : found ≠ id := by
    rintro rfl
    exact hdict hwords (expectType_eq_ok hfound).1
  have hstore (entry : Nat) : Keeps (Lasts m id) (do
      writeObject found (entry * dictEntrySize) key
      writeObject found (entry * dictEntrySize + objectSize) value) k fun _ _ => True := by
    refine .bind (lasts_put hk hne _ _) fun _ t ht hcount => ?_
    exact (lasts_put ht (fun hwords => hne (hcount ▸ hwords)) _ _).mono fun _ _ _ => trivial
  dsimp only
  split
  · exact .throw_bind hk
  · split
    · exact .throw_bind hk
    · refine .bind (.query hk) fun slot t ht hslot => ?_
      obtain ⟨rfl, -⟩ := hslot
      cases slot with
      | full => exact .throw ht
      | occupied entry => exact hstore entry
      | unused entry => exact hstore entry

/-- The number of the new entity is a word, or there is nothing to be said. -/
lemma entity?_wholeView_ne (howned : Owned n fresh size tag) (hne : fresh ≠ id) (k : Memory) (ty : ObjectType)
    (length : Nat) (hwords : n.entityCount ≤ wordBound) : (k.wholeView ty fresh length).entity? ≠ some id := by
  obtain ⟨row, -, hrow, -⟩ := howned
  have hword : fresh < wordBound := Nat.lt_of_lt_of_le (row_lt hrow) hwords
  intro hentity
  rw [Object.entity?, wholeView, Object.composite] at hentity
  split at hentity
  · rw [UInt32.toNat_ofNat_of_lt' hword] at hentity
    exact hne (Option.some.inj hentity)
  · contradiction

lemma lasts_newString (hs : Sound m) (h : m.InUse id) (bytes : List UInt8)
    (hother : MemoryOp.allocation? m (.newString bytes roots) ≠ some id) :
    Keeps (Lasts m id) (newString bytes roots) m fun _ _ => True := by
  have hrefl : Lasts m id m := .refl hs
  rw [newString, newStringOf]
  split
  · exact .throw_bind hrefl
  · next hword =>
    rw [MemoryOp.allocation?, MemoryOp.allocation?.sized, if_pos (Nat.lt_of_not_le hword)] at hother
    refine .bind (lasts_allocate hs h hother) fun fresh n hn hnew => ?_
    exact .bind (lasts_put hn (fun _ => hnew.1) 0 bytes) fun _ _ hk _ => ⟨hk, trivial⟩

lemma lasts_newElements (hs : Sound m) (h : m.InUse id) {kind : Kind} (ty : ObjectType) {width length : Nat}
    (hother : MemoryOp.allocation?.sized m (length * width) kind roots ≠ some id) :
    Keeps (Lasts m id) (newElements kind ty width length roots) m fun obj n =>
      n.entityCount ≤ wordBound → obj.entity? ≠ some id := by
  rw [newElements]
  split
  · exact .throw_bind (.refl hs)
  · next hword =>
    rw [MemoryOp.allocation?.sized, if_pos (Nat.lt_of_not_le hword)] at hother
    refine .bind (lasts_allocate hs h hother) fun fresh n hn hnew => ⟨hn, fun hwords => ?_⟩
    exact entity?_wholeView_ne hnew.2 hnew.1 n ty length hwords

lemma lasts_newProc (hs : Sound m) (h : m.InUse id) (elements : List Object)
    (hother : MemoryOp.allocation? m (.newProc elements roots) ≠ some id) :
    Keeps (Lasts m id) (newProc elements roots) m fun _ _ => True := by
  rw [newProc]
  split
  · exact .throw_bind (.refl hs)
  · refine .bind (lasts_newElements hs h .array hother) fun array n hn harray => ?_
    exact .bind (lasts_putElements hn harray 0 elements) fun _ k hk _ => .pure hk trivial

lemma lasts_newFile (hs : Sound m) (h : m.InUse id) (handle : Handle) (writable : Bool)
    (hother : MemoryOp.allocation? m (.newFile handle writable roots) ≠ some id) :
    Keeps (Lasts m id) (newFile handle writable roots) m fun _ _ => True := by
  refine .bind (lasts_allocate hs h hother) fun fresh n hn hnew => ?_
  have hopened : Keeps (Lasts m id) ((modifyGet fun m : Memory =>
      ((m.resources.insert handle).1, { m with resources := (m.resources.insert handle).2 })) :
        MemoryM Nat) n fun _ _ => True :=
    ⟨hn.congr (((Change.opened handle).carries hn.sound).sound hn.sound) rfl fun _ => rfl, trivial⟩
  refine .bind hopened fun slot k hk _ => ?_
  exact .bind (lasts_put hk (fun _ => hnew.1) 0 _) fun _ _ ht _ => ⟨ht, trivial⟩

/-! ## Every operation -/

lemma lasts_retain (h : Lasts m id n) (j : Nat) : Keeps (Lasts m id) (retain j) n fun _ _ => True := by
  refine .bind (.query h) fun row k hk hrow => ?_
  obtain ⟨rfl, hrow⟩ := hrow
  split
  · exact .throw_bind hk
  · exact lasts_setMark hk (row_eq_ok_iff.mp hrow) _

lemma lasts_release (h : Lasts m id n) (j : Nat) : Keeps (Lasts m id) (release j) n fun _ _ => True := by
  refine .bind (.query h) fun row k hk hrow => ?_
  obtain ⟨rfl, hrow⟩ := hrow
  split
  · exact .throw_bind hk
  · exact lasts_setMark hk (row_eq_ok_iff.mp hrow) _

lemma lasts_setTag (hs : Sound m) (hj : j ≠ id) (tag : Tag) : Lasts m id (m.after (.setTag j tag)) := by
  have hrefl : Lasts m id m := .refl hs
  have hsound := sound_after hs (.setTag j tag)
  rw [after, MemoryOp.perform, setTag] at hsound ⊢
  rcases Nat.lt_or_ge j m.entityCount with hlt | hge
  · obtain ⟨row, hrow⟩ := exists_row hlt
    rw [finalState_of_ok (changeRow_run hs hrow _)] at hsound ⊢
    refine hrefl.congr hsound (entityCount_amended ..) fun _ => ?_
    simp only [cell?, rows_amended_of_ne m j _ _ hj.symm, arena_amended]
  · rw [finalState_of_error (changeRow_of_missing hge _)]
    exact hrefl

/-- **Operations on other entities** free this one or leave it as it is. -/
lemma InUse.lasts_after (h : m.InUse id) (hs : Sound m) {op : MemoryOp} (hop : op.Elsewhere m id) :
    Lasts m id (m.after op) := by
  have hrefl : Lasts m id m := .refl hs
  obtain ⟨hrestore, hsubject, hother⟩ := hop
  have hne {j : Nat} (hj : some j ≠ some id) : j ≠ id := fun he => hj (congrArg some he)
  cases op with
  | tableAlloc size tag => exact invariant_after rfl (lasts_tableAlloc hs h size tag)
  | allocate size tag roots => exact invariant_after rfl (lasts_allocate hs h hother)
  | allocateWithoutGc size tag => exact invariant_after rfl (lasts_allocateWithoutGc hs h size tag)
  | firstFit size tag => exact invariant_after rfl (lasts_firstFit hs h size tag)
  | realloc j size roots => exact invariant_after rfl (lasts_realloc hs h (hne hsubject) hother)
  | reallocWithoutGc j size => exact invariant_after rfl (lasts_reallocWithoutGc hs h (hne hsubject) size)
  | free j => exact (lasts_free hrefl (hne hsubject)).finalState
  | put j offset bytes => exact (lasts_put hrefl (fun _ => hne hsubject) offset bytes).finalState
  | writeObject j offset obj => exact (lasts_put hrefl (fun _ => hne hsubject) offset obj.encode).finalState
  | arrayPut array index value => exact (lasts_arrayPut hrefl (fun _ => hsubject) index value).finalState
  | dictPut dict key value => exact (lasts_dictPut hrefl (fun _ => hsubject) key value).finalState
  | newString bytes roots => exact invariant_after rfl (lasts_newString hs h bytes hother)
  | newArray length roots => exact invariant_after rfl (lasts_newElements hs h .array hother)
  | newProc elements roots => exact invariant_after rfl (lasts_newProc hs h elements hother)
  | newDict capacity roots => exact invariant_after rfl (lasts_newElements hs h .dict hother)
  | newFile handle writable roots => exact invariant_after rfl (lasts_newFile hs h handle writable hother)
  | collect roots sweeping markAll =>
      exact ⟨sound_after hs _, fun _ => collect_cases hs id roots sweeping markAll⟩
  | retain j => exact (lasts_retain hrefl j).finalState
  | release j => exact (lasts_release hrefl j).finalState
  | setTag j tag => exact lasts_setTag hs (hne hsubject) tag
  | useCollector collector => exact hrefl.congr (sound_after hs _) rfl fun _ => rfl
  | useSearch policy honest => exact hrefl.congr (sound_after hs _) rfl fun _ => rfl
  | save =>
      refine hrefl.congr (sound_after hs _) ?_ fun _ => ?_
      all_goals
        rw [after_save]
        split <;> rfl
  | restore level => exact absurd rfl (hrestore level)

/-- **An entity in use is nobody else's business.**  If it is live after an operation on other entities, it is as
it was before. -/
lemma InUse.cell?_after (h : m.InUse id) (hs : Sound m) {op : MemoryOp} (hop : op.Elsewhere m id)
    (hwords : (m.after op).entityCount ≤ wordBound) (hlive : (m.after op).isSpare id = false) :
    (m.after op).cell? id = m.cell? id := by
  refine ((h.lasts_after hs hop).outcome hwords).resolve_left fun hspare => ?_
  rw [hlive] at hspare
  contradiction

end Memory

end PostScriptCore
