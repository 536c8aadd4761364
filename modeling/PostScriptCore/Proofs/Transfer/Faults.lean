import PostScriptCore.Proofs.Transfer.Isomorphism

/-!
# Why a copy fails

A recycled entity may be larger than what is stored in it, by any multiple of the granule, and the
slots of a copy are redirected up to the end of its entity.  If the entity ends in half a slot, this
last step reads past its end.  Apart from want of space nothing else can go wrong when everything
reachable is live, decodes and has its files open.

* `Transferable` — what is asked of the source.
* `WholeSlots` — no array or dictionary on either side can end in half a slot.
* `Transfer.copy_fails_for_half_slots` — the two reasons for a copy to fail.
* `Transfer.copy_fails_into_odd_storage` — an array of one element that cannot be copied into an
  empty memory.
-/

namespace PostScriptCore

open Memory

/-- What an object reaches is live, its files are open and its whole slots decode. -/
structure Transferable (source : Memory) (obj : Object) : Prop where
  live : ∀ e, Reached source [obj] e → Live source e
  file : ∀ e row, Reached source [obj] e → source.row e = .ok row → row.tag.ownsResource = true →
    ∃ handle, source.handleOf e = .ok handle
  decodes : ∀ e row index, Reached source [obj] e → source.row e = .ok row →
    row.tag.kind.holdsObjects = true → index * objectSize + objectSize ≤ row.size →
    ∃ slot, source.slot? e index = some slot

/-- Every array or dictionary that the object reaches has whole slots only, and so has every free
entity of the target that could take its copy. -/
def WholeSlots (source target : Memory) (obj : Object) : Prop :=
  ∀ e row, Reached source [obj] e → source.row e = .ok row → row.tag.kind.holdsObjects = true →
    row.size % objectSize = 0 ∧ ∀ f free, target.row f = .ok free → free.isFree = true →
      row.size ≤ free.size → free.size % objectSize = 0

namespace Transfer

variable {source target : Memory} {obj : Object}

lemma portable_of_transferable (hsource : Sound source)
    (hsearch : ∀ fault, target.policy ≠ .fixed (.error fault)) (hobj : Transferable source obj) :
    Portable source target (Reached source [obj]) where
  search := hsearch
  row := fun e he => by
    obtain ⟨row, hrow, -⟩ := hobj.live e he
    exact ⟨row, row_ok hrow⟩
  readable := fun e row he hrow => by
    refine ⟨hobj.file e row he hrow, fun _ hpos => ?_⟩
    have hid : e ≠ 0 := by
      rintro rfl
      obtain ⟨head, hhead, hsize⟩ := hsource.head
      obtain rfl := Except.ok.inj (hrow.symm.trans (row_ok hhead))
      omega
    exact ⟨_, bytes_ok hsource hid (row_eq_ok_iff.mp hrow)⟩
  decodes := fun e row he hrow hkind index => hobj.decodes e row index he hrow hkind

/-- Half slots come from the source or from a free entity of the target. -/
lemma not_halved_of_wholeSlots (h : WholeSlots source target obj) (t : Transfer) :
    ¬ Halved source target (Reached source [obj]) t := by
  rintro ⟨e, f, row, length, -, he, hrow, hkind, hplaced, hsize, hmod⟩
  obtain ⟨heven, hfree⟩ := h e row he hrow hkind
  rcases hmod with hmod | hmod
  · exact hmod heven
  · rcases hplaced with ⟨old, hold, hisFree, rfl⟩ | ⟨-, halign⟩
    · obtain ⟨free, -, hrow', htag, hlength, -⟩ := row_of_cell hold
      have heven' := hfree f free (row_ok hrow') (by rw [Row.isFree, htag]; exact hisFree)
        (by rw [hlength]; exact hsize)
      rw [hlength] at heven'
      exact hmod heven'
    · have hgranule : row.size % arenaAlign = 0 := by
        simp only [objectSize, arenaAlign] at heven ⊢
        omega
      have hlt := Nat.lt_of_le_of_lt (le_of_alignUp halign) (Arena.lt_wordBound_of_alignUp halign)
      rw [Arena.alignUp_of_mod hgranule hlt, Option.some.injEq] at halign
      rw [← halign] at hmod
      exact hmod heven

/-- **Why a copy fails.**  If everything that the object reaches can be copied, then a copy with a
fresh transfer fails for want of space, or after it copied an array or a dictionary whose entity ends
in half a slot; it never succeeds with such a copy.  Where no entity can end in half a slot, only
want of space is left. -/
theorem copy_fails_for_half_slots (hsource : Sound source) (htarget : Representable target)
    (hsearch : ∀ fault, target.policy ≠ .fixed (.error fault)) (hobj : Transferable source obj) :
    Ends (copy source obj) (Transfer.empty, target)
      (fun _ s => ∀ e f row copy, s.1.image? e = some f → source.row e = .ok row →
        row.tag.kind.holdsObjects = true → s.2.row f = .ok copy → copy.size % objectSize = 0)
      (fun fault s => fault = .vmFull ∨ Halved source target (Reached source [obj]) s.1) ∧
    (WholeSlots source target obj →
      Ends (copy source obj) (Transfer.empty, target) (fun _ _ => True)
        fun fault _ => fault = .vmFull) := by
  have hportable := portable_of_transferable hsource hsearch hobj
  have hclosed : Closed source (Reached source [obj]) :=
    fun he hrow hkind hslot he' => .slot he hrow hkind hslot he'
  have hroot : ∀ e, obj.localEntity? = some e → Reached source [obj] e :=
    fun e he => .root (List.mem_singleton_self obj) he
  have hends := (ends_copy hclosed (copying_empty htarget) hroot).2
  refine ⟨hends.mono ?_ fun fault s hfault => hfault hportable, fun hwhole =>
    hends.mono (fun _ _ _ => trivial) fun fault s hfault =>
      (hfault hportable).resolve_right (not_halved_of_wholeSlots hwhole s.1)⟩
  rintro image ⟨t, m⟩ ⟨hcopying, -, hpending, -⟩ e f row copy himage hrow hkind hcopy
  obtain ⟨row', cell, hentry⟩ := hcopying.entry e f himage
  obtain rfl : row = row' := Except.ok.inj (hrow.symm.trans hentry.hasRow)
  obtain ⟨copy', -, hcopy', -, hsize, -⟩ := row_of_cell hentry.hasCell
  obtain rfl : copy = copy' := Except.ok.inj (hcopy.symm.trans (row_ok hcopy'))
  obtain ⟨count, hlength, -⟩ := hentry.finished hpending hkind
  rw [hsize, hlength, Nat.mul_mod_left]

/-- The fault of a step, if it fails. -/
def fault? {ε σ α : Type} (x : EStateM ε σ α) (s : σ) : Option ε :=
  match x s with
  | .ok _ _ => none
  | .error fault _ => some fault

lemma error_of_fault {ε σ α : Type} {x : EStateM ε σ α} {s : σ} {fault : ε}
    (h : fault? x s = some fault) : ∃ s', x s = .error fault s' := by
  rw [fault?] at h
  split at h
  · contradiction
  · next hx =>
    obtain rfl := Option.some.inj h
    exact ⟨_, hx⟩

/-- An array whose only element is the array itself. -/
def loopArray : Object := Object.composite .array .localVM 1 0 1

def loopRun : List MemoryOp := [.newArray 1 [], .arrayPut loopArray 0 loopArray]

/-- A string of some length was freed. -/
def spareStringRun (length : Nat) : List MemoryOp :=
  [.newString (List.replicate length 0) [], .free 1]

lemma slot_loopArray :
    (∃ row, (freshLocal.afterAll loopRun).row 1 = .ok row ∧ row.tag = Tag.ofKind .array ∧
      row.size = objectSize) ∧ (freshLocal.afterAll loopRun).slot? 1 0 = some loopArray := by
  have hrows : (freshLocal.afterAll loopRun).rows[1]?.map (fun row => (row.tag, row.size)) =
      some (Tag.ofKind .array, objectSize) := by decide +kernel
  obtain ⟨row, hrow, hsame⟩ := Option.map_eq_some_iff.mp hrows
  exact ⟨⟨row, row_ok hrow, congrArg Prod.fst hsame, congrArg Prod.snd hsame⟩, by decide +kernel⟩

lemma index_loopArray {row : Row} {index : Nat} (hrow : (freshLocal.afterAll loopRun).row 1 = .ok row)
    (hfit : index * objectSize + objectSize ≤ row.size) : index = 0 := by
  obtain ⟨⟨row', hrow', -, hsize⟩, -⟩ := slot_loopArray
  obtain rfl := Except.ok.inj (hrow.symm.trans hrow')
  simp only [hsize, objectSize] at hfit
  omega

lemma reached_loopArray {e : Nat} (he : Reached (freshLocal.afterAll loopRun) [loopArray] e) :
    e = 1 := by
  have hroot : loopArray.localEntity? = some 1 := by decide
  induction he with
  | root hobj he =>
      obtain rfl := List.mem_singleton.mp hobj
      exact (Option.some.inj (hroot.symm.trans he)).symm
  | slot _ hrow _ hslot he' ih =>
      subst ih
      obtain rfl := index_loopArray hrow (slot?_le hrow hslot)
      obtain rfl := Option.some.inj (hslot.symm.trans slot_loopArray.2)
      exact (Option.some.inj (hroot.symm.trans he')).symm

lemma transferable_loopArray : Transferable (freshLocal.afterAll loopRun) loopArray := by
  obtain ⟨⟨row, hrow, htag, -⟩, hslot⟩ := slot_loopArray
  refine ⟨fun e he => ?_, fun e row' he hrow' howns => ?_, fun e row' index he hrow' _ hfit => ?_⟩
  · rw [reached_loopArray he]
    exact ⟨row, row_eq_ok_iff.mp hrow, by rw [Row.isFree, htag]; rfl⟩
  · rw [reached_loopArray he] at hrow'
    obtain rfl := Except.ok.inj (hrow'.symm.trans hrow)
    rw [htag] at howns
    contradiction
  · rw [reached_loopArray he] at hrow' ⊢
    rw [index_loopArray hrow' hfit]
    exact ⟨_, hslot⟩

lemma not_fixed {m : Memory} (h : (m.policy matches .firstFit) = true) (fault : Fault) :
    m.policy ≠ .fixed (.error fault) := by
  intro he
  rw [he] at h
  contradiction

lemma wholeSlots_loopArray :
    WholeSlots (freshLocal.afterAll loopRun) (freshLocal.afterAll (spareStringRun 32)) loopArray := by
  intro e row he hrow _
  rw [reached_loopArray he] at hrow
  obtain ⟨⟨row', hrow', -, hsize⟩, -⟩ := slot_loopArray
  obtain rfl := Except.ok.inj (hrow.symm.trans hrow')
  refine ⟨by rw [hsize]; rfl, fun f free hfree _ _ => ?_⟩
  have hall : ∀ free ∈ (freshLocal.afterAll (spareStringRun 32)).rows.toList,
      free.size % objectSize = 0 := by decide +kernel
  exact hall free (Array.mem_toList_iff.mpr (Array.mem_of_getElem? (row_eq_ok_iff.mp hfree)))

theorem copy_fails_for_half_slots_loop :
    Sound (freshLocal.afterAll loopRun) ∧ Transferable (freshLocal.afterAll loopRun) loopArray ∧
    Representable (freshLocal.afterAll (spareStringRun 32)) ∧
    WholeSlots (freshLocal.afterAll loopRun) (freshLocal.afterAll (spareStringRun 32)) loopArray ∧
    Ends (copy (freshLocal.afterAll loopRun) loopArray)
      (Transfer.empty, freshLocal.afterAll (spareStringRun 32)) (fun _ _ => True)
      fun fault _ => fault = .vmFull := by
  have hsource : Sound (freshLocal.afterAll loopRun) := sound_freshLocal loopRun
  have htarget : Representable (freshLocal.afterAll (spareStringRun 32)) :=
    representable_afterAll withBacking_freshLocal (by decide +kernel) (by decide +kernel)
  have hsearch : ∀ fault,
      (freshLocal.afterAll (spareStringRun 32)).policy ≠ .fixed (.error fault) :=
    not_fixed (by decide +kernel)
  have hobj := transferable_loopArray
  have hwhole := wholeSlots_loopArray
  -- the memories are not left closed, because unification would evaluate them
  generalize freshLocal.afterAll (spareStringRun 32) = target at *
  generalize freshLocal.afterAll loopRun = source at *
  exact ⟨hsource, hobj, htarget, hwhole,
    (copy_fails_for_half_slots hsource htarget hsearch hobj).2 hwhole⟩

/-- An array of one element is not copied into a memory whose only free entity has 24 bytes. -/
theorem copy_fails_into_odd_storage :
    Sound (freshLocal.afterAll loopRun) ∧ Transferable (freshLocal.afterAll loopRun) loopArray ∧
    Representable (freshLocal.afterAll (spareStringRun 20)) ∧
    (∀ fault, (freshLocal.afterAll (spareStringRun 20)).policy ≠ .fixed (.error fault)) ∧
    ∃ s, copy (freshLocal.afterAll loopRun) loopArray
      (Transfer.empty, freshLocal.afterAll (spareStringRun 20)) = .error .rangeCheck s := by
  have htarget : Representable (freshLocal.afterAll (spareStringRun 20)) :=
    representable_afterAll withBacking_freshLocal (by decide +kernel) (by decide +kernel)
  have hfault : fault? (copy (freshLocal.afterAll loopRun) loopArray)
      (Transfer.empty, freshLocal.afterAll (spareStringRun 20)) = some .rangeCheck := by
    decide +kernel
  exact ⟨sound_freshLocal _, transferable_loopArray, htarget, not_fixed (by decide +kernel),
    error_of_fault hfault⟩

end Transfer

end PostScriptCore
