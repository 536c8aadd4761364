import PostScriptCore.Proofs.Memory.FirstFit
import PostScriptCore.Proofs.Object.Views
import Mathlib.Data.List.Infix

/-!
# Failing operations

A primitive operation that fails has changed nothing.  Its checks come first; what comes after the first
change is never refused in a memory in working order.  Two operations need something of their arguments: a
write to row 0, which has no storage, is remembered before it is refused, and a dictionary has to be as large
as the object says, or else the key of a new entry fits and its value does not.

* `MemoryOp.isAtomic` — the operations that do all of their work or none.
* `Memory.Unchanged`, `Memory.Atomic` — nothing but the countdown is different after a failure.
* `Memory.atomic_put`, `Memory.atomic_dictPut`, …, `Memory.atomic_perform` — one lemma for each operation.
* `Memory.Denotes` — a composite that lies within its entity.
* `Memory.Constructed` — a composite from a constructor, or a part of one, whose entity has been there since.
* `Memory.failures_change_nothing` — the theorem.
-/

namespace PostScriptCore

namespace MemoryOp

/-- Whether the operation does all of its work or none. -/
def isAtomic : MemoryOp → Bool
  | tableAlloc .. | allocateWithoutGc .. | free .. | put .. | writeObject .. | arrayPut .. | dictPut .. | save
  | restore .. | retain .. | release .. => true
  | _ => false

/-- Whether the operation writes no bytes to row 0 by its number. -/
def sparesHead : MemoryOp → Bool
  | put id .. | writeObject id .. => id != 0
  | _ => true

/-- The composite that the operation writes into. -/
def target? : MemoryOp → Option Object
  | arrayPut array .. => some array
  | dictPut dict .. => some dict
  | _ => none

/-- The composite that the operation constructs. -/
def composite? (m : Memory) : MemoryOp → Option Object
  | newString bytes roots => answer? (Memory.newString bytes roots) m
  | newArray length roots => answer? (Memory.newArray length roots) m
  | newProc elements roots => answer? (Memory.newProc elements roots) m
  | newDict capacity roots => answer? (Memory.newDict capacity roots) m
  | newFile handle writable roots => answer? (Memory.newFile handle writable roots) m
  | _ => none

end MemoryOp

/-- Bytes of an element: an object of an array, an entry of a dictionary, a byte of anything else. -/
def ObjectType.width : ObjectType → Nat
  | .array => objectSize
  | .dict => Memory.dictEntrySize
  | _ => 1

/-- The composite is the other one, or was narrowed to a part of it. -/
structure Object.PartOf (view obj : Object) : Prop where
  ty : view.ty = obj.ty
  value : view.value = obj.value
  ends : view.offset.toNat + view.length.toNat * view.ty.width ≤
    obj.offset.toNat + obj.length.toNat * obj.ty.width

lemma Object.PartOf.entity? {view obj : Object} (h : view.PartOf obj) : view.entity? = obj.entity? := by
  rw [Object.entity?, Object.entity?, Object.isComposite, Object.isComposite, h.ty, h.value]

/-- An interval is a part, if its elements are no wider than those of the composite. -/
lemma Object.partOf_interval {view obj : Object} {skip length stride : Nat} (hstride : stride ≤ obj.ty.width)
    (h : obj.interval skip length stride = .ok view) : view.PartOf obj := by
  obtain ⟨-, hview, rfl⟩ := interval_eq_ok_iff.mp h
  have hty : view.ty = obj.ty := by rw [hview.same]
  have hvalue : view.value = obj.value := by rw [hview.same]
  refine ⟨hty, hvalue, ?_⟩
  rw [hty, hview.offset]
  calc obj.offset.toNat + skip * stride + view.length.toNat * obj.ty.width
      ≤ obj.offset.toNat + skip * obj.ty.width + view.length.toNat * obj.ty.width :=
        Nat.add_le_add_right (Nat.add_le_add_left (Nat.mul_le_mul_left _ hstride) _) _
    _ = obj.offset.toNat + (skip + view.length.toNat) * obj.ty.width := by rw [Nat.add_assoc, Nat.add_mul]
    _ ≤ obj.offset.toNat + obj.length.toNat * obj.ty.width :=
        Nat.add_le_add_left (Nat.mul_le_mul_right _ hview.length) _

namespace Memory

variable {m n : Memory} {α β : Type}

/-! ## Atomic steps -/

/-- Nothing but the countdown is different. -/
def Unchanged (m n : Memory) : Prop := n = { m with gcCountdown := n.gcCountdown }

lemma unchanged_countdown (m : Memory) (count : Nat) : Unchanged m { m with gcCountdown := count } := rfl

/-- If the step fails, it has changed nothing. -/
def Atomic (x : MemoryM α) (m : Memory) : Prop := Ends x m (fun _ _ => True) fun _ n => Unchanged m n

namespace Atomic

lemma of_ok {x : MemoryM α} {a : α} (h : x m = .ok a n) : Atomic x m := Ends.of_ok h trivial

lemma of_error {x : MemoryM α} {fault : Fault} (h : x m = .error fault m) : Atomic x m := Ends.of_error h rfl

lemma throw_bind {fault : Fault} {f : α → MemoryM β} :
    Atomic ((MonadExcept.throw fault : MemoryM α) >>= f) m := rfl

/-- A query fails before anything is done. -/
lemma query_bind {q : Memory → Except Fault α} {f : α → MemoryM β} (hf : ∀ a, q m = .ok a → Atomic (f a) m) :
    Atomic (query q >>= f) m :=
  Ends.bind (Ends.query hf fun _ _ => rfl)

lemma discard {x : MemoryM α} (hx : Atomic x m) : Atomic (discard x) m := by
  rw [Atomic, Ends] at hx
  cases hrun : x m with
  | ok a n => exact .of_ok (discard_ok hrun)
  | error fault n =>
      rw [hrun] at hx
      exact Ends.of_error (discard_error hrun) hx

end Atomic

/-! ## Storage -/

lemma atomic_tableAlloc (hs : Sound m) (size : Nat) (tag : Tag) : Atomic (tableAlloc size tag) m := by
  rcases tableAlloc_cases size tag hs.arena with hrun | ⟨row, arena, -, -, -, hrun⟩
  · exact .of_error hrun
  · exact .of_ok hrun

/-- A search that hands out nothing has changed nothing. -/
lemma findStorage_cases (hs : Sound m) (size : Nat) (tag : Tag) :
    (∃ fault, findStorage size tag m = .error fault m) ∨ (∃ id n, findStorage size tag m = .ok (.reused id) n) ∨
      ∃ fit n, (∀ id, fit ≠ .reused id) ∧ Unchanged m n ∧ findStorage size tag m = .ok fit n := by
  cases hpolicy : m.policy with
  | firstFit =>
      rw [findStorage_firstFit hpolicy]
      rcases firstFit_outcomes hs size tag with ⟨fault, hrun, -⟩ | ⟨-, -, -, hrun⟩ | ⟨id, n, hrun⟩
      · exact .inl ⟨fault, hrun⟩
      · refine .inr (.inr ?_)
        rw [hrun]
        rcases Nat.lt_or_ge 1 m.gcCountdown with hcount | hcount
        · exact ⟨_, _, fun _ => Fit.noConfusion, unchanged_countdown m _, countMiss_between hcount⟩
        · exact ⟨_, _, fun _ => Fit.noConfusion, unchanged_countdown m _, countMiss_due hcount⟩
      · exact .inr (.inl ⟨id, n, hrun⟩)
  | fixed answer =>
      rcases answer with fault | fit
      · exact .inl ⟨fault, by rw [findStorage, hpolicy]⟩
      · have hfind : findStorage size tag m = .ok fit m := by rw [findStorage, hpolicy]
        cases fit with
        | reused id => exact .inr (.inl ⟨id, m, hfind⟩)
        | needsCollection | miss => exact .inr (.inr ⟨_, m, fun _ => Fit.noConfusion, rfl, hfind⟩)

lemma atomic_allocateWithoutGc (hs : Sound m) (size : Nat) (tag : Tag) :
    Atomic (allocateWithoutGc size tag) m := by
  rcases findStorage_cases hs size tag with ⟨fault, hrun⟩ | ⟨id, n, hrun⟩ | ⟨fit, n, hfit, hn, hrun⟩
  · exact .of_error (bind_error hrun)
  · exact .of_ok ((bind_ok hrun).trans rfl)
  · have hcounted : Sound n := hn ▸ sound_countdown hs n.gcCountdown
    have hrest : allocateWithoutGc size tag m = tableAlloc size tag n := by
      refine (bind_ok hrun).trans ?_
      cases fit with
      | reused id => exact absurd rfl (hfit id)
      | needsCollection | miss => rfl
    rcases tableAlloc_cases size tag hcounted.arena with hfull | ⟨row, arena, -, -, -, hadded⟩
    · exact Ends.of_error (hrest.trans hfull) hn
    · exact .of_ok (hrest.trans hadded)

lemma atomic_free (hs : Sound m) (id : Nat) : Atomic (free id) m := by
  rcases free_cases id hs with ⟨fault, hrun⟩ | ⟨row, head, -, -, -, -, -, hrun⟩
  · exact .of_error hrun
  · exact .of_ok hrun

/-- What is checked first is all that can fail. -/
lemma atomic_put (hs : Sound m) {id : Nat} (hid : id ≠ 0) (offset : Nat) (bytes : List UInt8) :
    Atomic (put id offset bytes) m := by
  cases hcheck : m.checkedAddress id offset bytes.length with
  | error fault => exact .of_error (bind_error (query_error (s := m) hcheck))
  | ok address =>
      obtain ⟨row, hrow, hfit, -⟩ := checkedAddress_eq_ok hcheck
      exact .of_ok (put_run hs hid hrow hfit)

/-! ## Pins and levels -/

lemma atomic_retain (m : Memory) (id : Nat) : Atomic (retain id) m := by
  refine .query_bind fun row hrow => ?_
  split
  · exact .throw_bind
  · exact .of_ok (setMark_run (row_eq_ok_iff.mp hrow) _)

lemma atomic_release (m : Memory) (id : Nat) : Atomic (release id) m := by
  refine .query_bind fun row hrow => ?_
  split
  · exact .throw_bind
  · exact .of_ok (setMark_run (row_eq_ok_iff.mp hrow) _)

lemma atomic_save (m : Memory) : Atomic save m := by
  rcases Nat.lt_or_ge m.level Mark.maxLevel with hlevel | hlevel
  · exact .of_ok (save_run hlevel)
  · exact .of_error (save_error (by omega))

lemma atomic_restore (hs : Sound m) (level : Nat) : Atomic (restore level) m := by
  by_cases h : level ≠ 0 ∧ level ≤ m.level
  · exact .of_ok (restore_run hs h.1 h.2)
  · exact .of_error (restore_error (by omega))

/-! ## Composites -/

/-- The composite names an entity other than row 0 and lies within its storage. -/
def Denotes (m : Memory) (obj : Object) : Prop :=
  ∃ id row, obj.entity? = some id ∧ id ≠ 0 ∧ m.row id = .ok row ∧
    obj.offset.toNat + obj.length.toNat * obj.ty.width ≤ row.size

lemma expectType_eq_ok {obj : Object} {ty : ObjectType} {id : Nat} (h : expectType obj ty = .ok id) :
    obj.entity? = some id ∧ obj.ty = ty := by
  rw [expectType] at h
  split at h
  · next hentity =>
    split at h
    · next hty =>
      obtain rfl := Except.ok.inj h
      exact ⟨hentity, hty⟩
    · contradiction
  · contradiction

lemma atomic_arrayPut (hs : Sound m) {array : Object} (h : m.Denotes array) (index : Nat) (value : Object) :
    Atomic (arrayPut array index value) m := by
  refine .query_bind fun id hid => ?_
  obtain ⟨id', row, hentity, h0, -⟩ := h
  obtain rfl := Option.some.inj ((expectType_eq_ok hid).1.symm.trans hentity)
  dsimp only
  split
  · exact .throw_bind
  · split
    · exact .throw_bind
    · exact .query_bind fun offset _ => atomic_put hs h0 _ _

/-- A search through a dictionary ends within it. -/
lemma findEntry_lt {id : Nat} {key : Object} {count entry : Nat} {slot : DictSlot}
    (h : m.findEntry id key count entry = .ok slot) :
    slot = .full ∨ ∃ found, (slot = .occupied found ∨ slot = .unused found) ∧ found < entry + count := by
  induction count generalizing entry with
  | zero => exact .inl (Except.ok.inj h).symm
  | succ count ih =>
      rw [findEntry] at h
      split at h
      · contradiction
      · split at h
        · exact .inr ⟨entry, .inr (Except.ok.inj h).symm, by omega⟩
        · split at h
          · exact .inr ⟨entry, .inl (Except.ok.inj h).symm, by omega⟩
          · refine (ih h).imp_right ?_
            rintro ⟨found, hslot, hlt⟩
            exact ⟨found, hslot, by omega⟩

/-- Two writes that both fit both succeed, because the first one resizes nothing. -/
lemma put_put_run (hs : Sound m) {id first second : Nat} {row : Row} {bytes bytes' : List UInt8} (hid : id ≠ 0)
    (hrow : m.rows[id]? = some row) (hfirst : first + bytes.length ≤ row.size)
    (hsecond : second + bytes'.length ≤ row.size) :
    ∃ n, (put id first bytes >>= fun _ => put id second bytes') m = .ok () n := by
  obtain ⟨row', hrow', hsize⟩ := (alters_overwritten hrow hfirst).size_kept hs hrow
  have hwritten := ((Change.wrote first bytes hrow hfirst).carries hs).sound hs
  exact ⟨_, (bind_ok (put_run hs hid hrow hfirst)).trans
    (put_run hwritten hid hrow' (hsize.symm ▸ hsecond))⟩

/-- An entry lies within the dictionary, and so there is room for its value if there is for its key. -/
lemma atomic_dictPut (hs : Sound m) {dict : Object} (h : m.Denotes dict) (key value : Object) :
    Atomic (dictPut dict key value) m := by
  refine .query_bind fun id hid => ?_
  obtain ⟨hid, hty⟩ := expectType_eq_ok hid
  obtain ⟨id', row, hentity, h0, hrow, hfit⟩ := h
  obtain rfl := Option.some.inj (hid.symm.trans hentity)
  rw [hty] at hfit
  have hstore (entry : Nat) (hentry : entry < dict.length.toNat) : Atomic (do
      writeObject id (entry * dictEntrySize) key
      writeObject id (entry * dictEntrySize + objectSize) value) m := by
    have hend : (entry + 1) * dictEntrySize ≤ row.size :=
      Nat.le_trans (Nat.mul_le_mul_right _ hentry) (Nat.le_trans (Nat.le_add_left _ _) hfit)
    rw [Nat.succ_mul] at hend
    have htwo : dictEntrySize = objectSize + objectSize := rfl
    have hkey : entry * dictEntrySize + key.encode.length ≤ row.size := by
      rw [Object.length_encode]
      omega
    have hvalue : entry * dictEntrySize + objectSize + value.encode.length ≤ row.size := by
      rw [Object.length_encode]
      omega
    obtain ⟨n, hrun⟩ := put_put_run hs h0 (row_eq_ok_iff.mp hrow) hkey hvalue
    exact .of_ok hrun
  dsimp only
  split
  · exact .throw_bind
  · split
    · exact .throw_bind
    · refine .query_bind fun slot hslot => ?_
      rcases findEntry_lt hslot with rfl | ⟨entry, rfl | rfl, hlt⟩
      · exact rfl
      · exact hstore entry (by omega)
      · exact hstore entry (by omega)

/-- **A primitive operation does all of its work or none.** -/
lemma atomic_perform (hs : Sound m) {op : MemoryOp} (hop : op.isAtomic = true) (hhead : op.sparesHead = true)
    (htarget : ∀ obj, op.target? = some obj → m.Denotes obj) : Atomic op.perform m := by
  cases op with
  | tableAlloc size tag => exact (atomic_tableAlloc hs size tag).discard
  | allocateWithoutGc size tag => exact (atomic_allocateWithoutGc hs size tag).discard
  | free id => exact atomic_free hs id
  | put id offset bytes => exact atomic_put hs (bne_iff_ne.mp hhead) offset bytes
  | writeObject id offset obj => exact atomic_put hs (bne_iff_ne.mp hhead) offset obj.encode
  | arrayPut array index value => exact atomic_arrayPut hs (htarget array rfl) index value
  | dictPut dict key value => exact atomic_dictPut hs (htarget dict rfl) key value
  | save => exact (atomic_save m).discard
  | restore level => exact atomic_restore hs level
  | retain id => exact atomic_retain m id
  | release id => exact atomic_release m id
  | _ => contradiction

/-! ## Constructors -/

/-- The composite lies within the entity that was handed out for it. -/
def Spans (m : Memory) (obj : Object) : Prop :=
  ∃ id row, id ≠ 0 ∧ m.rows[id]? = some row ∧ obj.isComposite = true ∧ obj.value = UInt32.ofNat id ∧
    obj.offset.toNat + obj.length.toNat * obj.ty.width ≤ row.size

lemma Spans.anchors {obj : Object} (h : Spans m obj) (hn : Anchors m n) : Spans n obj := by
  obtain ⟨id, row, h0, hrow, hcomposite, hvalue, hfit⟩ := h
  obtain ⟨row', hrow', hsize, -⟩ := hn.place id row hrow
  exact ⟨id, row', h0, hrow', hcomposite, hvalue, hsize ▸ hfit⟩

/-- A view of the whole storage covers what was handed out. -/
lemma spans_wholeView (k : Memory) {ty : ObjectType} {id length size : Nat} {tag : Tag}
    (h : Owned m id size tag) (hty : ty.isComposite = true) (hsize : length * ty.width ≤ size) :
    Spans m (k.wholeView ty id length) := by
  obtain ⟨row, h0, hrow, hfit, -⟩ := h
  refine ⟨id, row, h0, hrow, hty, rfl, ?_⟩
  have hlength : (UInt32.ofNat length).toNat * ty.width ≤ length * ty.width :=
    Nat.mul_le_mul_right _ (by rw [UInt32.toNat_ofNat']; exact Nat.mod_le _ _)
  show 0 + (UInt32.ofNat length).toNat * ty.width ≤ row.size
  omega

lemma spans_newString (hs : Sound m) (bytes : List UInt8) (roots : List Object) :
    Performs (fun _ => True) (newString bytes roots) m fun obj n => Spans n obj := by
  rw [newString, newStringOf]
  split
  · exact .throw_bind
  · refine .bind hs (performs_allocate _ _ roots hs fun _ _ _ => trivial) fun id n hn _ howned => ?_
    refine .bind hn (performs_put id 0 bytes hn) fun _ k _ hmoves _ => ⟨.refl, ?_⟩
    exact (spans_wholeView k howned rfl (Nat.le_of_eq (Nat.mul_one _))).anchors (hmoves.anchors hn)

lemma spans_newElements (hs : Sound m) (kind : Kind) {ty : ObjectType} (hty : ty.isComposite = true)
    (length : Nat) (roots : List Object) :
    Performs (fun _ => True) (newElements kind ty ty.width length roots) m fun obj n => Spans n obj := by
  rw [newElements]
  split
  · exact .throw_bind
  · refine .bind hs (performs_allocate _ _ roots hs fun _ _ _ => trivial) fun id n hn _ howned => ?_
    exact ⟨.refl, spans_wholeView n howned hty (Nat.le_refl _)⟩

lemma spans_newProc (hs : Sound m) (elements roots : List Object) :
    Performs (fun _ => True) (newProc elements roots) m fun obj n => Spans n obj := by
  rw [newProc]
  split
  · exact .throw_bind
  · refine .bind hs (spans_newElements hs .array rfl elements.length roots) fun array n hn _ hspans => ?_
    refine .bind hn (performs_putElements array 0 elements hn) fun _ k _ hmoves _ => .pure ?_
    exact hspans.anchors (hmoves.anchors hn)

lemma spans_newFile (hs : Sound m) (handle : Handle) (writable : Bool) (roots : List Object) :
    Performs (fun _ => True) (newFile handle writable roots) m fun obj n => Spans n obj := by
  refine .bind hs (performs_allocate _ _ roots hs fun _ _ _ => trivial) fun id n hn _ howned => ?_
  have hopened : Performs (fun _ => True) (modifyGet fun m : Memory =>
      ((m.resources.insert handle).1, { m with resources := (m.resources.insert handle).2 }))
      n fun _ _ => True := ⟨.of_change (.opened handle), trivial⟩
  refine .bind hn hopened fun slot k hk hmoves _ => ?_
  refine .bind hk (performs_put id 0 _ hk) fun _ j _ hmoves' _ => ⟨.refl, ?_⟩
  have hspans : Spans n (j.wholeView .file id 1) := spans_wholeView j howned rfl (by decide)
  have hlast := (hspans.anchors (hmoves.anchors hn)).anchors (hmoves'.anchors hk)
  dsimp only
  split
  · exact hlast
  · exact hlast

/-- Entity numbers that are words are what an object names. -/
lemma Spans.denotes {obj : Object} (h : Spans m obj) (hwords : m.entityCount ≤ wordBound) : Denotes m obj := by
  obtain ⟨id, row, h0, hrow, hcomposite, hvalue, hfit⟩ := h
  have hword : id < wordBound := Nat.lt_of_lt_of_le (row_lt hrow) hwords
  refine ⟨id, row, ?_, h0, row_ok hrow, hfit⟩
  rw [Object.entity?, if_pos hcomposite, hvalue, UInt32.toNat_ofNat', Nat.mod_eq_of_lt hword]

lemma Performs.of_answer {x : MemoryM α} {P : α → Memory → Prop} {A : Nat → Prop} {a : α}
    (h : Performs A x m P) (hx : answer? x m = some a) : P a (finalState x m) := by
  rw [Performs, Ends] at h
  rw [answer?] at hx
  rw [finalState]
  cases hrun : x m with
  | ok b n =>
      rw [hrun] at h hx
      obtain rfl := Option.some.inj hx
      exact h.2
  | error fault n =>
      rw [hrun] at hx
      contradiction

/-- **A constructor answers an object for what it was given.** -/
lemma denotes_of_composite (hs : Sound m) {op : MemoryOp} {obj : Object} (h : op.composite? m = some obj)
    (hwords : (m.after op).entityCount ≤ wordBound) : Denotes (m.after op) obj := by
  refine Spans.denotes ?_ hwords
  rw [after]
  cases op with
  | newString bytes roots =>
      rw [MemoryOp.perform, finalState_discard]
      exact (spans_newString hs bytes roots).of_answer h
  | newArray length roots =>
      rw [MemoryOp.perform, finalState_discard]
      exact (spans_newElements hs .array rfl length roots).of_answer h
  | newProc elements roots =>
      rw [MemoryOp.perform, finalState_discard]
      exact (spans_newProc hs elements roots).of_answer h
  | newDict capacity roots =>
      rw [MemoryOp.perform, finalState_discard]
      exact (spans_newElements hs .dict rfl capacity roots).of_answer h
  | newFile handle writable roots =>
      rw [MemoryOp.perform, finalState_discard]
      exact (spans_newFile hs handle writable roots).of_answer h
  | _ => contradiction

/-! ## Composites that still denote -/

lemma Denotes.after {obj : Object} (h : Denotes m obj) (hs : Sound m) (op : MemoryOp)
    (hstill : ∀ id, obj.entity? = some id → id < (m.after op).entityCount) : Denotes (m.after op) obj := by
  obtain ⟨id, row, hentity, h0, hrow, hfit⟩ := h
  obtain ⟨row', hrow'⟩ := exists_row (hstill id hentity)
  obtain ⟨-, hsize⟩ := keepsPlaces_after hs op id row row' h0 hrow (row_ok hrow')
  exact ⟨id, row', hentity, h0, row_ok hrow', hsize.symm ▸ hfit⟩

lemma Denotes.afterAll {obj : Object} {ops : List MemoryOp} (h : Denotes m obj) (hs : Sound m)
    (hstill : ∀ later, later <+: ops → ∀ id, obj.entity? = some id → id < (m.afterAll later).entityCount) :
    Denotes (m.afterAll ops) obj := by
  induction ops generalizing m with
  | nil => exact h
  | cons op rest ih =>
      have hnext := h.after hs op (hstill [op] (List.cons_prefix_cons.mpr ⟨rfl, List.nil_prefix⟩))
      refine ih hnext (sound_after hs op) fun later hlater => hstill (op :: later) ?_
      exact List.cons_prefix_cons.mpr ⟨rfl, hlater⟩

lemma Denotes.partOf {view obj : Object} (h : Denotes m obj) (hview : view.PartOf obj) : Denotes m view := by
  obtain ⟨id, row, hentity, h0, hrow, hfit⟩ := h
  exact ⟨id, row, hview.entity?.trans hentity, h0, hrow, Nat.le_trans hview.ends hfit⟩

/-- The composite was constructed in the run, when entity numbers were words, or is a part of one that was, and
its entity has been in the table since. -/
def Constructed (start : Memory) (ops : List MemoryOp) (view : Object) : Prop :=
  ∃ before op later obj, ops = before ++ op :: later ∧ op.composite? (start.afterAll before) = some obj ∧
    ((start.afterAll before).after op).entityCount ≤ wordBound ∧ view.PartOf obj ∧
    ∀ run, run <+: later → ∀ id, obj.entity? = some id →
      id < (((start.afterAll before).after op).afterAll run).entityCount

lemma Constructed.denotes {start : Memory} {ops : List MemoryOp} {view : Object}
    (h : Constructed start ops view) (hs : Sound start) : Denotes (start.afterAll ops) view := by
  obtain ⟨before, op, later, obj, rfl, hobj, hwords, hview, hstill⟩ := h
  have hbefore := sound_afterAll hs before
  have hdenotes := (denotes_of_composite hbefore hobj hwords).afterAll (sound_after hbefore op) hstill
  rw [afterAll, List.foldl_append]
  exact hdenotes.partOf hview

/-- **Failing operations change nothing.**  After every run, and at every level, an operation on storage, pins
or levels that fails leaves all of the memory as it was but for the countdown to the next collection, if it
does not write to row 0 and writes only into composites that were constructed in the run and whose entities
have been in the table since. -/
theorem failures_change_nothing {bank : Bank} {backing : Backing} {settings : Settings} {start : Memory}
    (hstart : withBacking bank backing settings = .ok start) (ops : List MemoryOp) {op : MemoryOp}
    (hop : op.isAtomic = true) (hhead : op.sparesHead = true)
    (htarget : ∀ obj, op.target? = some obj → Constructed start ops obj) {fault : Fault} {n : Memory}
    (hfails : op.perform (start.afterAll ops) = .error fault n) :
    n = { start.afterAll ops with gcCountdown := n.gcCountdown } := by
  have hs := sound_of_withBacking hstart
  have hatomic := atomic_perform (sound_afterAll hs ops) hop hhead fun obj hobj => (htarget obj hobj).denotes hs
  rw [Atomic, Ends, hfails] at hatomic
  exact hatomic

lemma error_of_answer {x : MemoryM α} (h : answer? x m = none) : ∃ fault n, x m = .error fault n := by
  rw [answer?] at h
  cases hrun : x m with
  | ok a n =>
      rw [hrun] at h
      contradiction
  | error fault n => exact ⟨fault, n, rfl⟩

/-- Two of the three entries of a dictionary are used, and a level is opened. -/
def storingRun : List MemoryOp :=
  [.newDict 3 [], .dictPut (.composite .dict .localVM 1 0 3) (.int 1) (.int 10),
    .dictPut (.composite .dict .localVM 1 0 3) (.int 2) (.int 20), .save]

/-- The first two entries are the whole of an interval, which has no room for a third key. -/
theorem failures_change_nothing_storing :
    withBacking .localVM .anonymous Settings.standard = .ok freshLocal ∧
      Constructed freshLocal storingRun (.composite .dict .localVM 1 0 2) ∧
      ∃ fault n, MemoryOp.perform (.dictPut (.composite .dict .localVM 1 0 2) (.int 3) (.int 30))
          (freshLocal.afterAll storingRun) = .error fault n ∧
        n = { freshLocal.afterAll storingRun with gcCountdown := n.gcCountdown } := by
  have hinterval : Object.interval (.composite .dict .localVM 1 0 3) 0 2 dictEntrySize =
      .ok (.composite .dict .localVM 1 0 2) := rfl
  have hobj : Constructed freshLocal storingRun (.composite .dict .localVM 1 0 2) := by
    refine ⟨[], .newDict 3 [], storingRun.tail, .composite .dict .localVM 1 0 3, rfl, by decide +kernel,
      by decide +kernel, Object.partOf_interval (Nat.le_refl _) hinterval, ?_⟩
    have hlater : ∀ run ∈ storingRun.tail.inits,
        1 < (((freshLocal.afterAll []).after (.newDict 3 [])).afterAll run).entityCount := by decide +kernel
    intro run hrun id hid
    obtain rfl : 1 = id := Option.some.inj hid
    exact hlater run ((List.mem_inits run _).mpr hrun)
  obtain ⟨fault, n, hfails⟩ := error_of_answer (m := freshLocal.afterAll storingRun)
    (x := MemoryOp.perform (.dictPut (.composite .dict .localVM 1 0 2) (.int 3) (.int 30))) (by decide +kernel)
  refine ⟨withBacking_freshLocal, hobj, fault, n, hfails, ?_⟩
  refine failures_change_nothing withBacking_freshLocal storingRun rfl rfl (fun obj he => ?_) hfails
  obtain rfl := Option.some.inj he
  exact hobj

end Memory

end PostScriptCore
