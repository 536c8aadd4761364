import PostScriptCore.Proofs.Memory.Packed
import PostScriptCore.Proofs.Memory.Room
import PostScriptCore.Proofs.Memory.Sheltered
import PostScriptCore.Proofs.Memory.Upkeep

/-!
# Storing a procedure

A procedure is made by an allocation, which may collect, and a write for each of its elements.  What it
was made of can be read back, and whatever the roots keep alive stays as it was.

* `Memory.allocate_cases` — an allocation is one without a collection, perhaps after one.
* `Memory.Allotted`, `Memory.ends_allocate` — what an allocation gives and what it leaves alone.
* `Memory.putElements_run` — writing the elements never fails.
* `Memory.Procured`, `Memory.ends_newProc` — the procedure is stored.
* `Memory.affords_newProc` — and there is one if there is room.
-/

namespace PostScriptCore.Memory

variable {m n : Memory} {bank : Bank} {size : Nat} {tag : Tag} {roots es : List Object}

/-! ## Allocations that may collect -/

lemma attempt_run {α : Type} (x : MemoryM α) (m : Memory) : attempt x m = .ok () (finalState x m) := by
  rw [attempt, finalState]
  cases x m <;> rfl

/-- **An allocation** collects at most once, before the attempt that decides. -/
lemma allocate_cases (h : Threaded m) (hm : m.entityCount ≤ wordBound) (size : Nat) (tag : Tag)
    (roots : List Object) :
    allocate size tag roots m = allocateWithoutGc size tag m ∨
      ∃ count, allocate size tag roots m =
        allocateWithoutGc size tag (finalState (collect roots true false) { m with gcCountdown := count }) := by
  cases hfind : findStorage size tag m with
  | error fault n => exact .inl (by rw [allocate, allocateWithoutGc, bind_error hfind, bind_error hfind])
  | ok fit n =>
      rw [allocate, allocateWithoutGc, bind_ok hfind, bind_ok hfind]
      cases fit with
      | reused id => exact .inl rfl
      | miss => exact .inl rfl
      | needsCollection =>
          refine .inr ?_
          have hn : ∃ count, n = { m with gcCountdown := count } := by
            rcases hpolicy : m.policy with _ | (fault | fit)
            · obtain ⟨ids, hids⟩ := h.chained hm
              rw [findStorage, hpolicy] at hfind
              rcases firstFit_cases h.sound hids size tag with
                ⟨-, hrun⟩ | ⟨fit, count, -, hrun⟩ | ⟨id, k, hrun, -⟩
              all_goals
                rw [hrun] at hfind
                cases hfind
              exact ⟨count, by rw [← hpolicy]⟩
            · rw [findStorage, hpolicy] at hfind
              cases hfind
            · rw [findStorage, hpolicy] at hfind
              cases hfind
              exact ⟨m.gcCountdown, by rw [← hpolicy]⟩
          obtain ⟨count, rfl⟩ := hn
          exact ⟨count, (bind_ok (attempt_run _ _)).trans rfl⟩

/-- An entity of the size and tag was handed out.  What was live and could be reached from the roots is
another entity, with the cell that it had. -/
structure Allotted (m : Memory) (bank : Bank) (roots : List Object) (size : Nat) (tag : Tag) (id : Nat)
    (n : Memory) : Prop where
  inOrder : n.InOrder bank
  count : n.entityCount ≤ m.entityCount + 1
  cell : ∃ cell, n.cell? id = some cell ∧ cell.tag = tag ∧ size ≤ cell.bytes.length
  kept : ∀ j cell, m.cell? j = some cell → cell.isFree = false → ¬ Garbage m roots j →
    j ≠ id ∧ n.cell? j = some cell

lemma ends_allocate (h : Threaded m) (ho : m.InOrder bank) (hm : m.entityCount ≤ wordBound) (size : Nat)
    (tag : Tag) (roots : List Object) :
    Ends (allocate size tag roots) m (fun id n => Allotted m bank roots size tag id n)
      fun _ _ => True := by
  have horder : (finalState (allocate size tag roots) m).InOrder bank := by
    have hafter : (m.after (.allocate size tag roots)).InOrder bank := ho.after rfl
    rwa [after, MemoryOp.perform, finalState_discard] at hafter
  -- the attempt that decides takes an entity off the chain or appends one
  have hlast {k : Memory} (hs : Sound k) {ids : List Nat} (hids : Threads k ids)
      (hcount : k.entityCount = m.entityCount)
      (hkept : ∀ j cell, m.cell? j = some cell → ¬ Garbage m roots j → k.cell? j = some cell)
      (hrun : allocate size tag roots m = allocateWithoutGc size tag k) :
      Ends (allocate size tag roots) m (fun id n => Allotted m bank roots size tag id n)
        fun _ _ => True := by
    have hallocates := allocates_allocateWithoutGc hs hids size tag
    have hlengthens := lengthens_allocateWithoutGc size tag k
    rw [Ends, ← hrun] at hlengthens
    rw [← hrun] at hallocates
    rw [Ends]
    cases hresult : allocate size tag roots m with
    | error fault n => trivial
    | ok id n =>
        rw [hresult] at hallocates hlengthens
        cases hallocates with
        | granted htag hgrants =>
            have hbound : n.entityCount ≤ k.entityCount + 1 := hlengthens
            refine ⟨finalState_of_ok hresult ▸ horder, hcount ▸ hbound,
              ⟨_, hgrants.holds, htag, hgrants.size_le⟩, fun j cell hcell hlive hreached => ?_⟩
            have hcell' := hkept j cell hcell hreached
            have hne : j ≠ id := by
              rintro rfl
              rw [hgrants.isFree hids hcell'] at hlive
              contradiction
            have hunlisted : j ∉ ids := by
              intro hmem
              rw [hids.isFree hmem hcell'] at hlive
              contradiction
            exact ⟨hne, (hgrants.kept j hne hunlisted).trans hcell'⟩
  rcases allocate_cases h hm size tag roots with hrun | ⟨count, hrun⟩
  · obtain ⟨ids, hids⟩ := h.chained hm
    exact hlast h.sound hids rfl (fun _ _ hcell _ => hcell) hrun
  · have hs := sound_countdown h.sound count
    have htidy : Tidy { m with gcCountdown := count } := ho.tidy.change h.sound (change_countdown h.sound count)
    have hthreaded : Threaded { m with gcCountdown := count } :=
      ((h.secures (P := fun _ => False) fun _ hid => hid.elim).congr hs rfl rfl fun _ => rfl).toThreaded
    obtain ⟨k, hcollect, hcollected⟩ := collect_run hs htidy ho.collector_eq roots
    have hchained : Threaded k := by
      have hkeeps : Keeps (Secures (fun _ => False) { m with gcCountdown := count })
          (collect roots true false) { m with gcCountdown := count } fun _ _ => True :=
        sustains_secures.collect (hthreaded.secures fun _ hid => hid.elim) trivial
      rw [Keeps, Ends, hcollect] at hkeeps
      exact hkeeps.1.toThreaded
    rw [finalState_of_ok hcollect] at hrun
    have hcount : k.entityCount = m.entityCount := hcollected.count
    obtain ⟨ids, hids⟩ := hchained.chained (hcount ▸ hm)
    refine hlast hchained.sound hids hcount (fun j cell hcell hreached => ?_) hrun
    exact (hcollected.cell?_kept hs hcell fun hgarbage => hreached (garbage_countdown.mp hgarbage)).trans hcell

/-! ## Writing the elements -/

lemma Replaces.trans {k : Memory} {id : Nat} {cell cell' : Cell} (h : Replaces m n id cell)
    (h' : Replaces n k id cell') : Replaces m k id cell' where
  sound := h'.sound
  count := h'.count.trans h.count
  resources := h'.resources.trans h.resources
  policy := h'.policy.trans h.policy
  head := h'.head.trans h.head
  cell j := by
    rw [h'.cell, h.cell]
    split <;> rfl

lemma Replaces.self (hs : Sound m) {id : Nat} {cell : Cell} (hcell : m.cell? id = some cell) :
    Replaces m m id cell where
  sound := hs
  count := rfl
  resources := rfl
  policy := rfl
  head := rfl
  cell j := by
    split
    · next hj => exact hj ▸ hcell
    · rfl

/-- Storing an element of an array that covers its entity is a write into it. -/
lemma arrayPut_run (hs : Sound m) (bank : Bank) {id length index : Nat} {cell : Cell}
    (hid : id < wordBound) (hcell : m.cell? id = some cell) (hindex : index < length)
    (hword : length * objectSize < wordBound) (hfit : length * objectSize ≤ cell.bytes.length)
    (obj : Object) :
    ∃ n, arrayPut (Object.composite .array bank id 0 length) index obj m = .ok () n ∧
      Replaces m n id ⟨cell.tag, patched cell.bytes (index * objectSize) obj.encode⟩ := by
  have hroom : (index + 1) * objectSize ≤ length * objectSize := Nat.mul_le_mul_right _ hindex
  rw [Nat.succ_mul] at hroom
  have hencoded : index * objectSize + obj.encode.length ≤ cell.bytes.length := by
    rw [Object.length_encode]
    omega
  obtain ⟨n, hput, hn⟩ := put_replaces hs hcell hencoded
  have hlength : (Object.composite .array bank id 0 length).length.toNat = length :=
    UInt32.toNat_ofNat_of_lt' (show length < wordBound by unfold objectSize at hword; omega)
  have htype : expectType (Object.composite .array bank id 0 length) .array = .ok id :=
    congrArg Except.ok (UInt32.toNat_ofNat_of_lt' hid)
  have hoffset : elementOffset (Object.composite .array bank id 0 length) index =
      .ok (index * objectSize) := by
    have hzero : (Object.composite .array bank id 0 length).offset.toNat = 0 := rfl
    rw [elementOffset, hzero, Nat.zero_add, if_neg (by omega)]
  have hwritable : (Object.composite .array bank id 0 length).wcheck = true := rfl
  refine ⟨n, ?_, hn⟩
  rw [arrayPut]
  refine (bind_ok (query_ok (s := m) (f := fun _ => expectType _ .array) htype)).trans ?_
  simp only [hwritable, hlength, Nat.not_le.mpr hindex, Bool.not_true, Bool.false_eq_true, if_false]
  exact (bind_ok (query_ok (s := m) (f := fun _ => elementOffset _ index) hoffset)).trans hput

/-- **Writing the elements** of an array that covers its entity, from those that are there already. -/
lemma putElements_run (hs : Sound m) (bank : Bank) {id : Nat} {cell : Cell} (hid : id < wordBound)
    (hcell : m.cell? id = some cell) {stored : List Object}
    (hpacked : Packed Object.encode objectSize stored cell.bytes) (rest : List Object)
    (hword : (stored ++ rest).length * objectSize < wordBound)
    (hfit : (stored ++ rest).length * objectSize ≤ cell.bytes.length) :
    ∃ n bytes, putElements (Object.composite .array bank id 0 (stored ++ rest).length) stored.length
        rest m = .ok () n ∧
      Replaces m n id ⟨cell.tag, bytes⟩ ∧ Packed Object.encode objectSize (stored ++ rest) bytes := by
  induction rest generalizing m cell stored with
  | nil =>
      rw [List.append_nil]
      exact ⟨m, cell.bytes, rfl, Replaces.self hs hcell, hpacked⟩
  | cons obj rest ih =>
      have hindex : stored.length < (stored ++ obj :: rest).length := by simp
      have hroom : (stored.length + 1) * objectSize ≤ cell.bytes.length :=
        Nat.le_trans (Nat.mul_le_mul_right _ hindex) hfit
      obtain ⟨k, hput, hk⟩ := arrayPut_run hs bank hid hcell hindex hword hfit obj
      have hone : (stored ++ [obj]) ++ rest = stored ++ obj :: rest := by simp
      have hlength : (patched cell.bytes (stored.length * objectSize) obj.encode).length =
          cell.bytes.length :=
        length_patched (by rw [Object.length_encode]; rw [Nat.succ_mul] at hroom; exact hroom)
      obtain ⟨n, bytes, hrest, hn, hdone⟩ := ih hk.sound ((hk.cell id).trans (if_pos rfl))
        (hpacked.concat (Object.length_encode obj) hroom) (hone ▸ hword) (by
          rw [hone, hlength]
          exact hfit)
      rw [hone] at hrest hdone
      rw [show (stored ++ [obj]).length = stored.length + 1 by simp] at hrest
      exact ⟨n, bytes, (bind_ok hput).trans hrest, hk.trans hn, hdone⟩

/-! ## New procedures -/

/-- A procedure of the elements was stored in an entity of its own. -/
structure Procured (m : Memory) (bank : Bank) (roots es : List Object) (p : Object) (n : Memory) :
    Prop where
  inOrder : n.InOrder bank
  count : n.entityCount ≤ m.entityCount + 1
  words : es.length * objectSize < wordBound
  stored : ∃ id, id < wordBound ∧ p = Object.procedure bank id es.length ∧ n.StoresArray id es
  kept : ∀ j cell, m.cell? j = some cell → cell.isFree = false → ¬ Garbage m roots j →
    n.cell? j = some cell

namespace Procured

variable {p q : Object} {k : Memory} {roots' es' : List Object}

lemma isProc (h : m.Procured bank roots es p n) : p.isProc = true := by
  obtain ⟨id, -, rfl, -⟩ := h.stored
  rfl

lemma bank_eq (h : m.Procured bank roots es p n) : p.bank = bank := by
  obtain ⟨id, -, rfl, -⟩ := h.stored
  rfl

lemma elements (h : m.Procured bank roots es p n) : n.arrayElements p = .ok es := by
  obtain ⟨id, hid, rfl, hstores⟩ := h.stored
  exact arrayElements_of_stores h.inOrder.sound hstores bank hid h.words

/-- A procedure that is reported when the next one is stored keeps its elements. -/
lemma elements_kept (h : m.Procured bank roots es p n) (h' : n.Procured bank roots' es' q k)
    (hp : p ∈ roots') : k.arrayElements p = .ok es := by
  obtain ⟨id, hid, rfl, cell, hcell, hlive, hpacked⟩ := h.stored
  have hentity : (Object.procedure bank id es.length).entity? = some id :=
    congrArg some (UInt32.toNat_ofNat_of_lt' hid)
  have hreached : ¬ Garbage n roots' id := fun ⟨_, _, _, _, hunreached⟩ =>
    hunreached (.root hp h.inOrder.bank_eq.symm hentity)
  exact arrayElements_of_stores h'.inOrder.sound ⟨cell, h'.kept id cell hcell hlive hreached, hlive, hpacked⟩
    bank hid h.words

end Procured

/-- Once it has an entity, the procedure is stored. -/
lemma newProc_run (h : m.InOrder bank) (hm : m.entityCount < wordBound)
    (hwords : es.length * objectSize < wordBound) {id : Nat}
    (hrun : allocate (es.length * objectSize) (Tag.ofKind .array) roots m = .ok id n)
    (hn : Allotted m bank roots (es.length * objectSize) (Tag.ofKind .array) id n) :
    ∃ p k, newProc es roots m = .ok p k ∧ Standing n k ∧ Procured m bank roots es p k := by
  obtain ⟨cell, hcell, htag, hsize⟩ := hn.cell
  have hid : id < wordBound := by
    have hlt := cell_lt hcell
    have hcount := hn.count
    omega
  obtain ⟨k, bytes, hput, hk, hpacked⟩ := putElements_run hn.inOrder.sound bank hid hcell
    Packed.nil es hwords hsize
  rw [List.nil_append] at hput hpacked
  have hstanding := follows_putElements (R := Standing) (Object.composite .array bank id 0 es.length) 0 es n
  rw [Ends, show putElements (Object.composite .array bank id 0 es.length) 0 es n = _ from hput] at hstanding
  have hnew : newProc es roots m = .ok (Object.procedure bank id es.length) k := by
    have hlength : ¬ wordBound ≤ es.length := by
      unfold objectSize at hwords
      omega
    have harray : newArray es.length roots m = .ok (Object.composite .array bank id 0 es.length) n := by
      rw [newArray, newElements, if_neg (Nat.not_le.mpr hwords), ← hn.inOrder.bank_eq]
      exact bind_ok hrun
    rw [newProc, if_neg hlength]
    exact (bind_ok harray).trans ((bind_ok hput).trans rfl)
  have horder : (m.after (.newProc es roots)).InOrder bank := h.after rfl
  rw [after_of_ok rfl hnew] at horder
  refine ⟨_, k, hnew, hstanding, horder, hk.count ▸ hn.count, hwords, ⟨id, hid, rfl, _,
    (hk.cell id).trans (if_pos rfl), by rw [Cell.isFree, htag]; rfl, hpacked⟩, ?_⟩
  intro j other hother hlive hreached
  obtain ⟨hne, hsame⟩ := hn.kept j other hother hlive hreached
  rw [hk.cell, if_neg hne]
  exact hsame

/-- **A new procedure** holds its elements, if there is one. -/
lemma ends_newProc (h : Threaded m) (ho : m.InOrder bank) (hm : m.entityCount < wordBound)
    (es roots : List Object) :
    Ends (newProc es roots) m (fun p n => Procured m bank roots es p n) fun _ _ => True := by
  by_cases hwords : es.length * objectSize < wordBound
  · have hends := ends_allocate h ho (Nat.le_of_lt hm) (es.length * objectSize) (Tag.ofKind .array) roots
    rw [Ends] at hends
    cases hrun : allocate (es.length * objectSize) (Tag.ofKind .array) roots m with
    | ok id n =>
        rw [hrun] at hends
        obtain ⟨p, k, hnew, -, hk⟩ := newProc_run ho hm hwords hrun hends
        exact Ends.of_ok hnew hk
    | error fault n =>
        rw [newProc, newArray, newElements, if_neg (Nat.not_le.mpr hwords)]
        split
        · exact Ends.throw trivial
        · exact Ends.of_error (bind_error (bind_error hrun)) trivial
  · rw [newProc, newArray, newElements, if_pos (Nat.le_of_not_lt hwords)]
    split
    · exact Ends.throw trivial
    · exact Ends.of_error (bind_error (bind_error rfl)) trivial

/-- **There is a new procedure** if there is room for its elements. -/
lemma affords_newProc (h : Threaded m) (ho : m.InOrder bank) (hm : m.entityCount < wordBound)
    (es roots : List Object) (hwords : es.length * objectSize < wordBound)
    (hroom : Offers (es.length * objectSize + 7) 1 m) :
    Affords id (es.length * objectSize + 7) 1 (newProc es roots) m fun p n =>
      Procured m bank roots es p n := by
  obtain ⟨id, n, hrun, hspends, hallotted⟩ := ((affords_allocate h (Tag.ofKind .array) roots hroom).knowing
    (ends_allocate h ho (Nat.le_of_lt hm) _ _ roots)).exists_ok
  obtain ⟨p, k, hnew, hstanding, hk⟩ := newProc_run ho hm hwords hrun hallotted
  exact .of_ok hnew (hspends.trans (hstanding.spends 0 0)) hk

end PostScriptCore.Memory
