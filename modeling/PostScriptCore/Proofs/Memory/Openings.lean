import PostScriptCore.Proofs.Memory.Custody

/-!
# Handing out entities for files

An entity that is handed out was no file before.  If it is to be one, the file is put into a slot and
the slot is written into the entity, and from then on the entity holds the file.

* `Memory.Granted` — an entity that was handed out and not written yet.
* `Memory.Granted.custody`, `Memory.Granted.opens` — what becomes of files then.
* `Memory.Custody.allocate`, `Memory.Custody.newFile` — the operations that hand out entities.
* `Memory.sustains_custody` — the single steps of all operations keep the custody of files.
-/

namespace PostScriptCore.Memory

variable {m n : Memory}

/-! ## Handing out entities -/

/-- An entity was handed out, and nothing was written into it yet. -/
def Granted (opened : List (Nat × Handle)) (size : Nat) (tag : Tag) (id : Nat) (n : Memory) : Prop :=
  Measured n ∧ ∃ m ids ids' cell, Custody opened m ∧ Threads m ids ∧
    Grants m ids id size cell n ids' ∧ cell.tag = tag ∧ Owned n id size tag

variable {opened : List (Nat × Handle)} {size id : Nat} {tag : Tag}

lemma Grants.isFile {ids ids' : List Nat} {cell : Cell} (h : Grants m ids id size cell n ids')
    {j : Nat} (hj : j ≠ id) (hj0 : j ≠ 0) : n.isFile j = m.isFile j :=
  isFile_of_shape hj0 (h.shape j hj)

/-- What is handed out was no file. -/
lemma Grants.not_file {ids ids' : List Nat} {cell : Cell} (h : Grants m ids id size cell n ids')
    (hids : Threads m ids) : m.isFile id = false := by
  rw [isFile_of_cell (ne_zero_of_cell h.holds)]
  cases hcell : m.cell? id with
  | none => rfl
  | some old =>
      have hfree := h.isFree hids hcell
      rw [Cell.isFree, beq_iff_eq] at hfree
      rw [Option.any_some, Tag.ownsResource, hfree]
      rfl

/-- The files of before keep their contents. -/
lemma Grants.cell_of_isFile {ids ids' : List Nat} {cell : Cell}
    (h : Grants m ids id size cell n ids') (hids : Threads m ids) {j : Nat}
    (hj : m.isFile j = true) : n.cell? j = m.cell? j := by
  refine h.kept j ?_ fun hmem => ?_
  · rintro rfl
    rw [h.not_file hids] at hj
    contradiction
  · obtain ⟨cell, hcell, hfree, -⟩ := hids.cell hmem
    have hlive := isSpare_eq_false.mp (isSpare_of_isFile hj) cell hcell
    rw [hlive] at hfree
    contradiction

/-- Handing out something else than a file is no matter of files. -/
lemma Granted.custody (h : Granted opened size tag id n) (htag : tag.ownsResource = false) :
    Custody opened n := by
  obtain ⟨hn, m, ids, ids', cell, hm, hids, hgrants, rfl, -⟩ := h
  have hid0 := ne_zero_of_cell hgrants.holds
  refine hm.same ⟨hn, hgrants.count⟩ ⟨ids', hgrants.threads⟩ hgrants.resources (fun j hj => ?_)
    fun j hj => hgrants.cell_of_isFile hids hj
  by_cases he : j = id
  · rw [he, hgrants.not_file hids, isFile_of_cell hid0, hgrants.holds]
    exact htag
  · exact hgrants.isFile he hj

lemma Granted.hands (h : Granted opened size tag id n) (htag : tag.ownsResource = false) :
    custodyTerms.Hands size tag id n := by
  obtain ⟨-, m, ids, ids', cell, -, -, hgrants, rfl, howned⟩ := h
  refine ⟨howned, fun hlive => ⟨?_, howned.not_spare hlive⟩⟩
  rw [isFile_of_cell (ne_zero_of_cell hgrants.holds), hgrants.holds]
  exact htag

/-- Filling what was handed out is no matter of files either, even if it was handed out as free. -/
lemma Granted.put (h : Granted opened size tag id n) (htag : tag.ownsResource = false)
    (offset : Nat) (bytes : List UInt8) :
    Keeps (Custody opened) (put id offset bytes) n fun _ k => ∀ j, n.shape? j = k.shape? j := by
  have hcustody := h.custody htag
  obtain ⟨hn, m, ids, ids', cell, -, -, hgrants, rfl, -⟩ := h
  have hmeasured := hn.ends (A := fun _ => True) (performs_put id offset bytes hn.sound)
    (follows_put id offset bytes)
  by_cases hfit : offset + bytes.length ≤ cell.bytes.length
  · obtain ⟨k, hrun, hk⟩ := put_replaces hn.sound hgrants.holds hfit
    rw [Ends, hrun] at hmeasured
    have hshape : (Cell.mk cell.tag (patched cell.bytes offset bytes)).shape = cell.shape := by
      rw [Cell.shape, Cell.shape, length_patched hfit]
    refine .of_ok hrun (hcustody.replaced hmeasured hgrants.threads hk hgrants.holds hshape
      (fun hmem => (hgrants.listed id hmem).2 rfl) ?_) fun j =>
        (hk.shape hgrants.holds hshape j).symm
    rw [isFile_of_cell (ne_zero_of_cell hgrants.holds), hgrants.holds]
    exact htag
  · exact .of_error (put_outside hgrants.holds hfit) hcustody

/-- **A file entity that was handed out gets its slot**, once the file is in it. -/
lemma Granted.opens (h : Granted opened size tag id n) (htag : tag.ownsResource = true)
    (hsize : linkSize ≤ size) (handle : Handle) :
    ∃ k, Memory.put id 0 (wordBytes (n.resources.insert handle).1)
        { n with resources := (n.resources.insert handle).2 } = .ok () k ∧
      Custody ((id, handle) :: opened) k ∧ ∀ j, k.shape? j = n.shape? j := by
  obtain ⟨hn, m, ids, ids', cell, hm, hids, hgrants, rfl, -⟩ := h
  have hid0 := ne_zero_of_cell hgrants.holds
  have hlength : linkSize ≤ cell.bytes.length := hsize.trans hgrants.size_le
  rw [hgrants.resources]
  have hchange : Change n { n with resources := (m.resources.insert handle).2 } := by
    rw [← hgrants.resources]
    exact .opened handle
  have hn' := hn.moves (A := fun _ => True) (.of_change hchange) ⟨rfl, fun _ _ h => h⟩
  have hcells := cell?_congr (m := n) (n := { n with resources := (m.resources.insert handle).2 })
    rfl fun _ => rfl
  have hhead : head? { n with resources := (m.resources.insert handle).2 } = n.head? := rfl
  have hslots : ({ n with resources := (m.resources.insert handle).2 } : Memory).resources =
      (m.resources.insert handle).2 := rfl
  generalize ({ n with resources := (m.resources.insert handle).2 } : Memory) = n' at *
  have hfit : 0 + (wordBytes (m.resources.insert handle).1).length ≤ cell.bytes.length := by
    simpa using hlength
  obtain ⟨k, hrun, hk⟩ := put_replaces hn'.1.sound ((hcells id).trans hgrants.holds) hfit
  have hmeasured := hn'.1.of_ok (A := fun _ => True) (performs_put id 0 _ hn'.1.sound)
    (follows_put id 0 _) hrun
  have hslot : (m.resources.insert handle).1 < wordBound := by
    have hroom := hm.room
    have hbound := hm.bound
    rcases hm.tight.insert_cases handle with ⟨hlt, -⟩ | ⟨heq, -⟩ <;> omega
  have hcell : ∀ j, j ≠ id → k.cell? j = n.cell? j := fun j hj => by
    rw [hk.cell, if_neg hj, hcells]
  refine ⟨k, hrun, hm.opens ⟨hmeasured.1, hgrants.count.trans (hn'.2.trans hmeasured.2)⟩
    ⟨ids', hgrants.threads.congr (hk.head.trans hhead) fun j hj => hcell j (hgrants.listed j hj).2⟩
    (hk.resources.trans hslots) (hgrants.not_file hids) ⟨?_, ?_⟩ (fun j hj0 hj => ?_)
    fun j hj => ?_, fun j => ?_⟩
  · rw [isFile_of_cell hid0, hk.cell, if_pos rfl]
    exact htag
  · have hnew := hk.cell id
    rw [if_pos rfl] at hnew
    rw [resourceSlot_cell hmeasured.1.sound hnew, length_patched hfit,
      if_pos hlength, Cell.link_patched hlength hslot]
  · rw [isFile_of_cell hj0, hcell j hj, ← isFile_of_cell hj0, hgrants.isFile hj hj0]
  · rw [← hgrants.cell_of_isFile hids hj]
    refine hcell j ?_
    rintro rfl
    rw [hgrants.not_file hids] at hj
    contradiction
  · by_cases hj : j = id
    · subst hj
      rw [shape?, shape?, hk.cell, if_pos rfl, hgrants.holds, Option.map_some, Option.map_some,
        Cell.shape, Cell.shape, length_patched hfit]
    · rw [shape?, hcell j hj, shape?]

/-- What a search for storage leaves behind: an entity that was taken out of the free list, or files
as they were. -/
def Searched (opened : List (Nat × Handle)) (size : Nat) (tag : Tag) (fit : Fit) (n : Memory) :
    Prop :=
  match fit with
  | .reused id => Granted opened size tag id n
  | _ => Custody opened n

lemma Custody.firstFit (h : Custody opened m) (size : Nat) (tag : Tag) :
    Ends (Memory.firstFit size tag) m (fun fit n => Searched opened size tag fit n)
      fun _ n => Custody opened n := by
  have hmeasured := h.toMeasured.ends (A := fun _ => True)
    (performs_firstFit size tag h.sound fun _ _ _ _ _ => trivial) (follows_firstFit size tag)
  have howned := performs_firstFit (A := fun _ => True) size tag h.sound fun _ _ _ _ _ => trivial
  obtain ⟨ids, hids⟩ := h.threads
  rcases firstFit_cases h.sound hids size tag with
    ⟨-, hrun⟩ | ⟨fit, count, hfit, hrun⟩ | ⟨id, n, hrun, htakes, cell, hcell, hsize⟩
  · exact .of_error hrun h
  · rw [Ends, hrun] at hmeasured
    have hn := h.of_outline hmeasured rfl rfl fun _ => rfl
    refine .of_ok hrun ?_
    rcases hfit with rfl | rfl <;> exact hn
  · rw [Ends, hrun] at hmeasured
    rw [Performs, Ends, hrun] at howned
    exact .of_ok hrun ⟨hmeasured.1, m, ids, _, _, h, hids, htakes.grants hids.nodup hcell hsize, rfl,
      howned.2 id rfl⟩

lemma Custody.findStorage (h : Custody opened m) (size : Nat) (tag : Tag) :
    Ends (Memory.findStorage size tag) m (fun fit n => Searched opened size tag fit n)
      fun _ n => Custody opened n := by
  have hhonest := h.sound.policy
  rcases hpolicy : m.policy with _ | (fault | fit)
  · have hrun : Memory.findStorage size tag m = Memory.firstFit size tag m := by
      rw [Memory.findStorage, hpolicy]
    rw [Ends, hrun]
    exact h.firstFit size tag
  · exact .of_error (e := fault) (by rw [Memory.findStorage, hpolicy]) h
  · refine .of_ok (a := fit) (by rw [Memory.findStorage, hpolicy]) ?_
    rw [hpolicy] at hhonest
    cases fit with
    | reused id => exact hhonest.elim
    | needsCollection => exact h
    | miss => exact h

lemma Custody.tableAlloc (h : Custody opened m) (size : Nat) (tag : Tag) :
    Ends (Memory.tableAlloc size tag) m (fun id n => Granted opened size tag id n)
      fun _ n => Custody opened n := by
  have hmeasured := h.toMeasured.ends (A := fun _ => True)
    (performs_tableAlloc size tag h.sound fun _ _ _ => trivial) (IgnoresAllocation.tableAlloc size tag)
  obtain ⟨ids, hids⟩ := h.threads
  rcases tableAlloc_cases size tag h.sound.arena with hrun | ⟨row, arena, hext, rfl, halign, hrun⟩
  · exact .of_error hrun h
  · rw [Ends, hrun] at hmeasured
    exact .of_ok hrun ⟨hmeasured.1, m, ids, ids, _, h, hids, grants_pushed h.sound hids hext halign, rfl,
      owned_pushed h.sound hext (le_of_alignUp halign)⟩

lemma Custody.allocateWithoutGc (h : Custody opened m) (size : Nat) (tag : Tag) :
    Ends (Memory.allocateWithoutGc size tag) m (fun id n => Granted opened size tag id n)
      fun _ n => Custody opened n := by
  refine Ends.bind (Ends.mono (h.findStorage size tag) (fun fit n hn => ?_) fun _ _ hn => hn)
  cases fit with
  | reused id => exact hn
  | needsCollection => exact Custody.tableAlloc hn size tag
  | miss => exact Custody.tableAlloc hn size tag

lemma Custody.collect (h : Custody opened m) (roots : List Object) (sweeping markAll : Bool) :
    Keeps (Custody opened) (Memory.collect roots sweeping markAll) m fun _ _ => True :=
  keeps_collect Custody.marks (fun h _ _ => h.free _) h roots sweeping markAll

lemma Custody.allocate (h : Custody opened m) (size : Nat) (tag : Tag) (roots : List Object) :
    Ends (Memory.allocate size tag roots) m (fun id n => Granted opened size tag id n)
      fun _ n => Custody opened n := by
  refine Ends.bind (Ends.mono (h.findStorage size tag) (fun fit n hn => ?_) fun _ _ hn => hn)
  cases fit with
  | reused id => exact hn
  | miss => exact Custody.tableAlloc hn size tag
  | needsCollection =>
      have hcollect : Ends (attempt (Memory.collect roots true false)) n
          (fun _ k => Custody opened k) fun _ k => Custody opened k :=
        Ends.attempt (Ends.mono (Custody.collect hn roots true false) (fun _ _ hk => hk.1)
          fun _ _ hk => hk)
      exact Ends.bind (Ends.mono hcollect (fun _ _ hk => hk.allocateWithoutGc size tag)
        fun _ _ hk => hk)

/-- Opening a file makes its entity the holder of the handle, or it fails and opens nothing. -/
lemma Custody.newFile (h : Custody opened m) (handle : Handle) (writable : Bool)
    (roots : List Object) :
    Ends (Memory.newFile handle writable roots) m
      (fun obj n => ∃ id, obj.entity? = some id ∧ Custody ((id, handle) :: opened) n)
      fun _ n => Custody opened n := by
  refine Ends.bind (Ends.mono (h.allocate _ _ roots) (fun id n hn => ?_) fun _ _ hn => hn)
  obtain ⟨k, hrun, hk, -⟩ := hn.opens rfl (by decide) handle
  have hlt : id < wordBound := by
    obtain ⟨hmeasured, -, -, -, -, -, -, -, -, row, -, hrow, -⟩ := hn
    exact Nat.lt_of_lt_of_le (row_lt hrow) hmeasured.bound
  have hname : ∀ n : Memory, (if writable then n.wholeView .file id 1
      else (n.wholeView .file id 1).restrict .readOnly).entity? = some id := by
    intro n
    have hword : (UInt32.ofNat id).toNat = id := UInt32.toNat_ofNat_of_lt' hlt
    cases writable <;> exact congrArg some hword
  exact .of_ok (bind_ok hrun) ⟨id, hname k, hk⟩

/-- **The single steps of operations are no matter of files**, except that freeing one closes it. -/
lemma sustains_custody : Sustains (Custody opened) custodyTerms where
  honest := fun h => h.sound.policy
  put := fun h hid offset bytes => h.put hid offset bytes
  free := fun h _ => h.free _
  setRefcount := fun h hrow count =>
    have hn := h.toMeasured.of_ok (A := fun _ => True) (performs_setRefcount h.sound hrow count)
      (follows_setMark _ _) (setMark_run hrow _)
    .of_ok (setMark_run hrow _) (h.of_outline hn rfl rfl fun id =>
      outline_eq_of_map Row.plain_unpinned ((idle_setMark h.sound hrow count).rows id)) trivial
  tableAlloc := fun h htag size => Ends.mono (h.tableAlloc size _)
    (fun _ _ hn => ⟨hn.custody htag, hn.hands htag⟩) fun _ _ hn => hn
  firstFit := by
    intro m tag h htag size
    refine Ends.mono (h.firstFit size tag) (fun fit n hn => ?_) fun _ _ hn => hn
    cases fit with
    | reused id =>
        refine ⟨hn.custody htag, fun _ he => ?_, fun _ _ _ => trivial⟩
        obtain rfl := Fit.reused.inj he
        exact hn.hands htag
    | needsCollection => exact ⟨hn, nofun, fun _ _ _ => trivial⟩
    | miss => exact ⟨hn, nofun, fun _ _ _ => trivial⟩
  collect := fun h _ => h.collect _ _ _
  copy := by
    intro m id row h hwrite hid hrow hmark source count hfit
    obtain ⟨ids, hids⟩ := h.threads
    have hcell := cell?_of_row hid hrow
    have hperforms : Performs (fun _ => True)
        (onArena (Arena.copyWithin source row.address count)) m fun _ _ => True :=
      performs_copy h.sound hrow hmark hfit
    have hmeasured := h.toMeasured.ends hperforms (capped_onArena _)
    rcases copyWithin_cases source h.sound hid hrow hmark hfit with ⟨fault, hrun⟩ | ⟨n, hrun, hn⟩
    · exact .of_error hrun h
    · rw [Ends, hrun] at hmeasured
      refine .of_ok hrun (h.replaced hmeasured hids hn hcell ?_ (fun hmem => ?_) hwrite.1) trivial
      · rw [Cell.shape, Cell.shape, length_patched]
        rw [Image.length_read, Image.length_read]
        omega
      · have hfree := hids.isFree hmem hcell
        rw [isSpare_eq_false.mp hwrite.2 _ hcell] at hfree
        contradiction
  registered := by
    intro m policy h honest collector
    have hidle : Idle m { m with policy, collector } := ⟨rfl, rfl, rfl, honest, fun _ => rfl⟩
    have hn := h.toMeasured.moves (A := fun _ => True) (.of_change (.idle hidle)) ⟨rfl, fun _ _ h => h⟩
    exact h.of_outline hn rfl rfl fun _ => rfl
  opened := fun _ hfiles => hfiles.elim
  word := by
    intro m id h hid hlt
    rw [UInt32.toNat_ofNat_of_lt' (Nat.lt_of_lt_of_le hlt h.bound)]
    exact hid
  tag := fun _ hplain => hplain
  fileTag := fun hfiles => hfiles.elim

end PostScriptCore.Memory
