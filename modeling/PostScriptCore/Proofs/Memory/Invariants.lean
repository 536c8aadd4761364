import PostScriptCore.Proofs.Memory.Marking
import PostScriptCore.Proofs.Memory.Run

/-!
# Invariants of operations

Every operation is put together from a few single steps, so that an invariant of these is an
invariant of all of them.  What an operation may write, free, hand out and collect is up to the
invariant.

* `Memory.Terms` — what an invariant lets operations do.
* `Memory.Sustains` — the single steps keep the invariant under its terms.
* `Memory.Sustains.allocate`, `Memory.Sustains.realloc`, … — so do the operations made of them.
* `MemoryOp.Meets`, `Memory.Sustains.after` — and whatever a run does within the terms.
-/

namespace PostScriptCore

namespace Memory

/-- What an invariant lets operations do. -/
structure Terms where
  /-- Tags that may be handed out. -/
  tag : Tag → Prop
  /-- Entities that may be written. -/
  write : Memory → Nat → Prop
  /-- Entities that may be freed. -/
  free : Nat → Prop
  /-- Roots with which the memory may be collected. -/
  collect : Memory → List Object → Bool → Bool → Prop
  /-- Whether files may be opened. -/
  files : Prop

/-- An entity that was handed out under the terms: unless it is free, it may be written. -/
def Terms.Hands (terms : Terms) (size : Nat) (tag : Tag) (id : Nat) (m : Memory) : Prop :=
  Owned m id size tag ∧ (tag.kind ≠ .free → terms.write m id)

/-- What may be written stays so. -/
def Terms.Writes (terms : Terms) (m n : Memory) : Prop := ∀ id, terms.write m id → terms.write n id

/-- The entity behind an object may be written. -/
def Terms.WritesTo (terms : Terms) (m : Memory) (obj : Object) (ty : ObjectType) : Prop :=
  ∀ id, expectType obj ty = .ok id → terms.write m id

/-- The collection that the operation runs, if there is one, may be run. -/
def Terms.Admits (terms : Terms) (m : Memory) (op : MemoryOp) : Prop :=
  ∀ roots sweeping markAll, op.collection? m = some (roots, sweeping, markAll) →
    terms.collect m roots sweeping markAll

/-- What holds for an operation holds for its allocation. -/
lemma Terms.Admits.allocate {terms : Terms} {m : Memory} {op : MemoryOp} (h : terms.Admits m op) {size : Nat}
    {tag : Tag} {roots : List Object} (hrequest : op.request? m = some (size, tag, roots)) :
    terms.Admits m (.allocate size tag roots) := fun roots' sweeping markAll hcollects =>
  h roots' sweeping markAll ((MemoryOp.collection?_of_request hrequest).trans hcollects)

/-- Single steps keep the invariant as long as they respect the terms. -/
structure Sustains (I : Memory → Prop) (terms : Terms) : Prop where
  honest : ∀ {m}, I m → m.policy.Honest
  put : ∀ {m id}, I m → terms.write m id → ∀ offset bytes,
    Keeps I (Memory.put id offset bytes) m fun _ n => terms.Writes m n
  free : ∀ {m id}, I m → terms.free id → Keeps I (Memory.free id) m fun _ _ => True
  setRefcount : ∀ {m id row}, I m → m.rows[id]? = some row → ∀ count,
    Keeps I (setMark id (row.mark.withRefcount count)) m fun _ _ => True
  tableAlloc : ∀ {m tag}, I m → terms.tag tag → ∀ size,
    Keeps I (Memory.tableAlloc size tag) m fun id n => terms.Hands size tag id n
  firstFit : ∀ {m tag}, I m → terms.tag tag → ∀ size,
    Keeps I (Memory.firstFit size tag) m fun fit n =>
      (∀ id, fit = .reused id → terms.Hands size tag id n) ∧
        (fit = .needsCollection → ∀ roots, terms.collect m roots true false →
          terms.collect n roots true false)
  collect : ∀ {m roots sweeping markAll}, I m → terms.collect m roots sweeping markAll →
    Keeps I (Memory.collect roots sweeping markAll) m fun _ _ => True
  copy : ∀ {m id row}, I m → terms.write m id → id ≠ 0 → m.rows[id]? = some row →
    row.mark = Mark.createdAt m.level → ∀ source count, count ≤ row.size →
    Keeps I (onArena (Arena.copyWithin source row.address count)) m fun _ _ => True
  registered : ∀ {m policy}, I m → policy.Honest → ∀ collector, I { m with policy, collector }
  opened : ∀ {m}, I m → terms.files → ∀ handle,
    I { m with resources := (m.resources.insert handle).2 } ∧
      terms.Writes m { m with resources := (m.resources.insert handle).2 }
  /-- A number in an object is a word. -/
  word : ∀ {m id}, I m → terms.write m id → id < m.entityCount →
    terms.write m (UInt32.ofNat id).toNat
  tag : ∀ {tag : Tag}, tag.kind ≠ .free → tag.ownsResource = false → terms.tag tag
  fileTag : terms.files → terms.tag (Tag.ofKind .file)

/-! ## Collections -/

/-- Marking changes collector bits only. -/
lemma ends_markFrom (steps : Nat) (stack : List Nat) (m : Memory) :
    Ends (markFrom steps stack) m (fun _ n => Marks m n) fun _ n => Marks m n := by
  induction steps generalizing stack m with
  | zero => exact Marks.refl m
  | succ steps ih =>
      cases stack with
      | nil => exact Marks.refl m
      | cons id rest =>
          refine Ends.bind (Ends.get ?_)
          split
          · have hmarks := marks_setMarked m id
            refine Ends.bind (Ends.modify (Ends.bind (Ends.query (fun children _ => ?_) ?_)))
            · exact Ends.mono (ih _ _) (fun _ _ h => hmarks.trans h) fun _ _ h => hmarks.trans h
            · exact fun _ _ => hmarks
          · exact ih rest m

/-- **A collection keeps what marking and the freeing of garbage keep.** -/
lemma keeps_collect {I : Memory → Prop} (hmarks : ∀ {m n}, I m → Marks m n → I n)
    (hfree : ∀ {m id row}, I m → m.rows[id]? = some row → isGarbage row = true →
      Keeps I (free id) m fun _ _ => True)
    {m : Memory} (hm : I m) (roots : List Object) (sweeping markAll : Bool) :
    Keeps I (collect roots sweeping markAll) m fun _ _ => True := by
  have hsweepList : ∀ (ids : List Nat) (m : Memory), I m →
      Keeps I (sweepList ids) m fun _ _ => True := by
    intro ids
    induction ids with
    | nil => exact fun m hm => .pure hm trivial
    | cons id rest ih =>
        intro m hm
        refine .bind (.query hm) fun row n hn hrow => ?_
        obtain ⟨rfl, hrow⟩ := hrow
        split
        · next hgarbage =>
          refine .bind (hfree hn (row_eq_ok_iff.mp hrow) hgarbage) fun _ k hk _ => ?_
          exact .bind (ih k hk) fun _ _ ht _ => .pure ht trivial
        · exact ih _ hn
  cases hcollector : m.collector with
  | none => exact .of_ok (a := 0) (by rw [collect, hcollector]) hm trivial
  | some collector =>
      cases collector with
      | failing fault => exact .of_error (e := fault) (by rw [collect, hcollector]) hm
      | markSweep =>
          have hrun : collect roots sweeping markAll m = markSweep roots sweeping markAll m := by
            rw [collect, hcollector]
          rw [Keeps, Ends, hrun, markSweep_eq]
          have hmark : Keeps I (if markAll then markEverything else mark roots) m
              fun _ _ => True := by
            split
            · refine ⟨hmarks hm (marks_mapRows m fun row => ?_), trivial⟩
              split <;> rfl
            · exact Ends.mono (ends_markFrom _ _ m) (fun _ _ hn => ⟨hmarks hm hn, trivial⟩)
                fun _ _ hn => hmarks hm hn
          refine Keeps.bind hmark fun _ n hn _ => ?_
          have hsweep : Keeps I (if sweeping then sweep else pure 0) n fun _ _ => True := by
            split
            · exact hsweepList _ n hn
            · exact .pure hn trivial
          exact Keeps.bind hsweep fun _ k hk _ =>
            ⟨hmarks hk (marks_mapRows k fun _ => rfl), trivial⟩

namespace Sustains

variable {I : Memory → Prop} {terms : Terms} {m : Memory}

/-! ## Pins -/

lemma retain (h : Sustains I terms) (hm : I m) (id : Nat) :
    Keeps I (Memory.retain id) m fun _ _ => True := by
  refine .bind (.query hm) fun row n hn hrow => ?_
  obtain ⟨rfl, hrow⟩ := hrow
  split
  · exact .throw_bind hn
  · exact h.setRefcount hn (row_eq_ok_iff.mp hrow) _

lemma release (h : Sustains I terms) (hm : I m) (id : Nat) :
    Keeps I (Memory.release id) m fun _ _ => True := by
  refine .bind (.query hm) fun row n hn hrow => ?_
  obtain ⟨rfl, hrow⟩ := hrow
  split
  · exact .throw_bind hn
  · exact h.setRefcount hn (row_eq_ok_iff.mp hrow) _

/-! ## Allocation -/

lemma findStorage (h : Sustains I terms) (hm : I m) {tag : Tag} (htag : terms.tag tag)
    (size : Nat) :
    Keeps I (Memory.findStorage size tag) m fun fit n =>
      (∀ id, fit = .reused id → terms.Hands size tag id n) ∧
        (fit = .needsCollection → ∀ roots, terms.collect m roots true false →
          terms.collect n roots true false) := by
  have hhonest := h.honest hm
  rcases hpolicy : m.policy with _ | (fault | fit)
  · have hrun : Memory.findStorage size tag m = Memory.firstFit size tag m := by
      rw [Memory.findStorage, hpolicy]
    rw [Keeps, Ends, hrun]
    exact h.firstFit hm htag size
  · exact .of_error (e := fault) (by rw [Memory.findStorage, hpolicy]) hm
  · refine .of_ok (a := fit) (by rw [Memory.findStorage, hpolicy]) hm ⟨?_, fun _ _ hroots => hroots⟩
    rintro id rfl
    rw [hpolicy] at hhonest
    exact hhonest.elim

lemma allocateWithoutGc (h : Sustains I terms) (hm : I m) {tag : Tag} (htag : terms.tag tag)
    (size : Nat) :
    Keeps I (Memory.allocateWithoutGc size tag) m fun id n => terms.Hands size tag id n := by
  refine .bind (h.findStorage hm htag size) fun fit n hn hfit => ?_
  cases fit with
  | reused id => exact .pure hn (hfit.1 id rfl)
  | needsCollection => exact h.tableAlloc hn htag size
  | miss => exact h.tableAlloc hn htag size

lemma allocate (h : Sustains I terms) (hm : I m) {tag : Tag} (htag : terms.tag tag) {size : Nat}
    {roots : List Object} (hroots : terms.Admits m (.allocate size tag roots)) :
    Keeps I (Memory.allocate size tag roots) m fun id n => terms.Hands size tag id n := by
  refine .bind (Keeps.with_run (h.findStorage hm htag size)) fun fit n hn hfit => ?_
  obtain ⟨hfit, hfind⟩ := hfit
  cases fit with
  | reused id => exact .pure hn (hfit.1 id rfl)
  | miss => exact h.tableAlloc hn htag size
  | needsCollection =>
      have hadmits : terms.collect m roots true false := by
        have hanswer : answer? (Memory.findStorage size tag) m = some .needsCollection := by
          rw [answer?, hfind]
        refine hroots roots true false ?_
        simp only [MemoryOp.collection?, MemoryOp.request?, hanswer]
      have hcollect : Keeps I (attempt (Memory.collect roots true false)) n fun _ _ => True :=
        Ends.attempt (Ends.mono (h.collect hn (hfit.2 rfl roots hadmits)) (fun _ _ hk => hk)
          fun _ _ hk => ⟨hk, trivial⟩)
      exact .bind hcollect fun _ k hk _ => h.allocateWithoutGc hk htag size

lemma moveContents (h : Sustains I terms) {id oldSize target newSize : Nat} {tag : Tag} (hm : I m)
    (hfree : terms.free id) (hhands : terms.Hands newSize tag target m) (hlive : tag.kind ≠ .free) :
    Keeps I (Memory.moveContents id oldSize target newSize) m fun _ _ => True := by
  obtain ⟨⟨row, h0, hrow, hsize, -, hmark⟩, hwrite⟩ := hhands
  have hrest : ∀ n, I n → Keeps I (do Memory.free id; return target) n fun _ _ => True :=
    fun n hn => .bind (h.free hn hfree) fun _ _ hk _ => .pure hk trivial
  have hkeep : (if oldSize < newSize then oldSize else newSize) ≤ newSize := by split <;> omega
  rw [Memory.moveContents]
  dsimp only
  generalize (if oldSize < newSize then oldSize else newSize) = keep at hkeep ⊢
  split
  · refine .bind (.query hm) fun source n hn hsource => ?_
    obtain ⟨rfl, -⟩ := hsource
    refine .bind (.query hn) fun destination k hk hdestination => ?_
    obtain ⟨rfl, hdestination⟩ := hdestination
    obtain rfl : row = destination := Except.ok.inj ((row_ok hrow).symm.trans hdestination)
    exact .bind (h.copy hk (hwrite hlive) h0 hrow hmark _ _ (by omega)) fun _ n hn _ => hrest n hn
  · exact hrest m hm

/-- What may be moved is neither free nor a file. -/
lemma tag_of_movable (h : Sustains I terms) {id : Nat} {row : Row} (hrow : m.movable id = .ok row) :
    row.tag.kind ≠ .free ∧ terms.tag row.tag := by
  rw [movable] at hrow
  split at hrow
  · contradiction
  · split at hrow
    · contradiction
    · next hlive =>
      injection hrow with hrow
      subst hrow
      simp only [Bool.or_eq_true, not_or, Row.isFree, beq_iff_eq, Bool.not_eq_true] at hlive
      exact ⟨hlive.1, h.tag hlive.1 hlive.2⟩

lemma realloc (h : Sustains I terms) (hm : I m) {id : Nat} (hfree : terms.free id) {size : Nat}
    {roots : List Object} (hroots : terms.Admits m (.realloc id size roots)) :
    Keeps I (Memory.realloc id size roots) m fun _ _ => True := by
  refine .bind (.query hm) fun old n hn hold => ?_
  obtain ⟨rfl, hold⟩ := hold
  obtain ⟨hlive, htag⟩ := h.tag_of_movable hold
  have hrequest : (MemoryOp.realloc id size roots).request? n = some (size, old.tag, roots) := by
    rw [MemoryOp.request?, hold]
  exact .bind (h.allocate hn htag (hroots.allocate hrequest)) fun target k hk hhands =>
    h.moveContents hk hfree hhands hlive

lemma reallocWithoutGc (h : Sustains I terms) (hm : I m) {id : Nat} (hfree : terms.free id)
    (size : Nat) : Keeps I (Memory.reallocWithoutGc id size) m fun _ _ => True := by
  refine .bind (.query hm) fun old n hn hold => ?_
  obtain ⟨rfl, hold⟩ := hold
  obtain ⟨hlive, htag⟩ := h.tag_of_movable hold
  exact .bind (h.allocateWithoutGc hn htag size) fun target k hk hhands =>
    h.moveContents hk hfree hhands hlive

/-! ## Composites -/

lemma newString (h : Sustains I terms) (hm : I m) {bytes : List UInt8} {roots : List Object}
    (hroots : terms.Admits m (.newString bytes roots)) :
    Keeps I (Memory.newString bytes roots) m fun _ _ => True := by
  have hlive : (Tag.ofKind .string).kind ≠ .free := by decide
  rw [Memory.newString, newStringOf]
  split
  · exact .throw_bind hm
  · next hlength =>
    have hroots := hroots.allocate (if_pos (Nat.lt_of_not_le hlength))
    refine .bind (h.allocate hm (h.tag hlive rfl) hroots) fun id n hn hhands => ?_
    exact .bind (h.put hn (hhands.2 hlive) 0 bytes) fun _ _ hk _ => ⟨hk, trivial⟩

lemma newElements (h : Sustains I terms) (hm : I m) {kind : Kind}
    (hlive : (Tag.ofKind kind).kind ≠ .free) (hplain : (Tag.ofKind kind).ownsResource = false)
    (ty : ObjectType) (width length : Nat) {roots : List Object}
    (hroots : length * width < wordBound → terms.Admits m (.allocate (length * width) (Tag.ofKind kind) roots)) :
    Keeps I (Memory.newElements kind ty width length roots) m fun obj n =>
      ∃ id, obj = n.wholeView ty id length ∧ id < n.entityCount ∧ terms.write n id := by
  rw [Memory.newElements]
  split
  · exact .throw_bind hm
  · next hlength =>
    have hroots := hroots (Nat.lt_of_not_le hlength)
    refine .bind (h.allocate hm (h.tag hlive hplain) hroots) fun id n hn hhands => ?_
    obtain ⟨row, -, hrow, -⟩ := hhands.1
    exact ⟨hn, id, rfl, row_lt hrow, hhands.2 hlive⟩

lemma newFile (h : Sustains I terms) (hm : I m) (hfiles : terms.files) (handle : Handle)
    (writable : Bool) {roots : List Object} (hroots : terms.Admits m (.newFile handle writable roots)) :
    Keeps I (Memory.newFile handle writable roots) m fun _ _ => True := by
  have hlive : (Tag.ofKind .file).kind ≠ .free := by decide
  refine .bind (h.allocate hm (h.fileTag hfiles) (hroots.allocate rfl)) fun id n hn hhands => ?_
  have hopened : Keeps I ((modifyGet fun m : Memory =>
      ((m.resources.insert handle).1, { m with resources := (m.resources.insert handle).2 })) :
        MemoryM Nat) n fun _ k => terms.write k id :=
    ⟨(h.opened hn hfiles handle).1, (h.opened hn hfiles handle).2 id (hhands.2 hlive)⟩
  refine .bind hopened fun slot k hk hwrite => ?_
  exact .bind (h.put hk hwrite 0 _) fun _ _ ht _ => ⟨ht, trivial⟩

lemma arrayPut (h : Sustains I terms) (hm : I m) {array : Object}
    (hwrite : terms.WritesTo m array .array) (index : Nat) (value : Object) :
    Keeps I (Memory.arrayPut array index value) m fun _ n => terms.Writes m n := by
  refine .bind (.query hm) fun id n hn hid => ?_
  obtain ⟨rfl, hid⟩ := hid
  dsimp only
  split
  · exact .throw_bind hn
  · split
    · exact .throw_bind hn
    · refine .bind (.query hn) fun offset k hk hoffset => ?_
      obtain ⟨rfl, -⟩ := hoffset
      exact h.put hk (hwrite id hid) offset _

lemma putElements (h : Sustains I terms) (hm : I m) {array : Object}
    (hwrite : terms.WritesTo m array .array) (index : Nat) (elements : List Object) :
    Keeps I (Memory.putElements array index elements) m fun _ _ => True := by
  induction elements generalizing index m with
  | nil => exact .pure hm trivial
  | cons obj rest ih =>
      refine .bind (h.arrayPut hm hwrite index obj) fun _ n hn hwrites => ?_
      exact ih hn (fun id hid => hwrites id (hwrite id hid)) _

lemma newProc (h : Sustains I terms) (hm : I m) {elements roots : List Object}
    (hroots : terms.Admits m (.newProc elements roots)) :
    Keeps I (Memory.newProc elements roots) m fun _ _ => True := by
  rw [Memory.newProc]
  split
  · exact .throw_bind hm
  · refine .bind (h.newElements hm (by decide) (by decide) _ _ _ fun hlength =>
      hroots.allocate (if_pos hlength)) fun array n hn hview => ?_
    obtain ⟨id, rfl, hlt, hwrite⟩ := hview
    have hwrites : terms.WritesTo n (n.wholeView .array id elements.length) .array := by
      intro found hfound
      obtain rfl := Except.ok.inj (hfound : Except.ok (UInt32.ofNat id).toNat = Except.ok found)
      exact h.word hn hwrite hlt
    exact .bind (h.putElements hn hwrites 0 elements) fun _ k hk _ => .pure hk trivial

lemma dictPut (h : Sustains I terms) (hm : I m) {dict : Object}
    (hwrite : terms.WritesTo m dict .dict) (key value : Object) :
    Keeps I (Memory.dictPut dict key value) m fun _ _ => True := by
  have hstore : ∀ (id entry : Nat) (n : Memory), I n → terms.write n id →
      Keeps I (do
        writeObject id (entry * dictEntrySize) key
        writeObject id (entry * dictEntrySize + objectSize) value) n fun _ _ => True := by
    intro id entry n hn hid
    refine .bind (h.put hn hid _ _) fun _ k hk hwrites => ?_
    exact (h.put hk (hwrites id hid) _ _).mono fun _ _ _ => trivial
  refine .bind (.query hm) fun id n hn hid => ?_
  obtain ⟨rfl, hid⟩ := hid
  have hid := hwrite id hid
  dsimp only
  split
  · exact .throw_bind hn
  · split
    · exact .throw_bind hn
    · refine .bind (.query hn) fun slot k hk hslot => ?_
      obtain ⟨rfl, -⟩ := hslot
      cases slot with
      | full => exact .throw hk
      | occupied entry => exact hstore id entry _ hk hid
      | unused entry => exact hstore id entry _ hk hid

end Sustains

end Memory

/-! ## Runs -/

/-- What the operation, run from a memory, hands out, writes and frees keeps to the terms.  Levels and tags set
by hand are beyond them. -/
def MemoryOp.Confined (terms : Memory.Terms) (m : Memory) : MemoryOp → Prop
  | tableAlloc _ tag | allocate _ tag _ | allocateWithoutGc _ tag | firstFit _ tag => terms.tag tag
  | free id | realloc id .. | reallocWithoutGc id _ => terms.free id
  | put id .. | writeObject id .. => terms.write m id
  | arrayPut array .. => terms.WritesTo m array .array
  | dictPut dict .. => terms.WritesTo m dict .dict
  | newFile .. => terms.files
  | newString .. | newArray .. | newProc .. | newDict .. | collect .. => True
  | retain _ | release _ | useCollector _ | useSearch .. => True
  | setTag .. | save | restore _ => False

/-- The operation keeps to the terms, and so does the collection that it runs. -/
structure MemoryOp.Meets (terms : Memory.Terms) (m : Memory) (op : MemoryOp) : Prop where
  confined : op.Confined terms m
  admitted : terms.Admits m op

namespace Memory

/-- **What keeps to the terms of an invariant keeps the invariant**, whatever its outcome. -/
lemma Sustains.after {I : Memory → Prop} {terms : Terms} (h : Sustains I terms) {m : Memory}
    (hm : I m) {op : MemoryOp} (hop : op.Meets terms m) : I (m.after op) := by
  rw [Memory.after]
  cases op with
  | tableAlloc size tag =>
      rw [MemoryOp.perform, finalState_discard]
      exact (h.tableAlloc hm hop.confined size).finalState
  | allocate size tag roots =>
      rw [MemoryOp.perform, finalState_discard]
      exact (h.allocate hm hop.confined hop.admitted).finalState
  | allocateWithoutGc size tag =>
      rw [MemoryOp.perform, finalState_discard]
      exact (h.allocateWithoutGc hm hop.confined size).finalState
  | firstFit size tag =>
      rw [MemoryOp.perform, finalState_discard]
      exact (h.firstFit hm hop.confined size).finalState
  | realloc id size roots =>
      rw [MemoryOp.perform, finalState_discard]
      exact (h.realloc hm hop.confined hop.admitted).finalState
  | reallocWithoutGc id size =>
      rw [MemoryOp.perform, finalState_discard]
      exact (h.reallocWithoutGc hm hop.confined size).finalState
  | free id => exact (h.free hm hop.confined).finalState
  | put id offset bytes => exact (h.put hm hop.confined offset bytes).finalState
  | writeObject id offset obj => exact (h.put hm hop.confined offset obj.encode).finalState
  | arrayPut array index value => exact (h.arrayPut hm hop.confined index value).finalState
  | dictPut dict key value => exact (h.dictPut hm hop.confined key value).finalState
  | newString bytes roots =>
      rw [MemoryOp.perform, finalState_discard]
      exact (h.newString hm hop.admitted).finalState
  | newArray length roots =>
      rw [MemoryOp.perform, finalState_discard]
      exact (h.newElements hm (by decide) (by decide) _ _ length fun hlength =>
        hop.admitted.allocate (if_pos hlength)).finalState
  | newProc elements roots =>
      rw [MemoryOp.perform, finalState_discard]
      exact (h.newProc hm hop.admitted).finalState
  | newDict capacity roots =>
      rw [MemoryOp.perform, finalState_discard]
      exact (h.newElements hm (by decide) (by decide) _ _ capacity fun hlength =>
        hop.admitted.allocate (if_pos hlength)).finalState
  | newFile handle writable roots =>
      rw [MemoryOp.perform, finalState_discard]
      exact (h.newFile hm hop.confined handle writable hop.admitted).finalState
  | collect roots sweeping markAll =>
      rw [MemoryOp.perform, finalState_discard]
      exact (h.collect hm (hop.admitted _ _ _ rfl)).finalState
  | retain id => exact (h.retain hm id).finalState
  | release id => exact (h.release hm id).finalState
  | useCollector collector => exact h.registered hm (h.honest hm) _
  | useSearch policy honest => exact h.registered hm honest _
  | setTag id tag => exact hop.confined.elim
  | save => exact hop.confined.elim
  | restore level => exact hop.confined.elim

end Memory

end PostScriptCore
