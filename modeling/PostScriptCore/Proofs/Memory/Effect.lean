import PostScriptCore.Proofs.Memory.Change
import PostScriptCore.Proofs.Step

/-!
# What the primitive operations do

On a sound memory every primitive operation either refuses before it changes anything or runs to its
end.  This file gives the memory it ends in.

* `Memory.touch_run`, `Memory.changeRow_run`, `Memory.put_run` — the writing operations.
* `Memory.free_run` — freeing retags the entity, links it and makes it the head of the free list.
* `Memory.reuse_run` — a recycled entity gets its new tag, zeroed storage and the current level.
-/

namespace PostScriptCore.Memory

lemma row_ok {m : Memory} {id : Nat} {row : Row} (h : m.rows[id]? = some row) :
    m.row id = .ok row := by
  rw [Memory.row, h]

lemma row_error {m : Memory} {id : Nat} (h : m.entityCount ≤ id) :
    m.row id = .error (.invalidEntity id) := by
  rw [Memory.row, Array.getElem?_eq_none h]

lemma row_eq_ok_iff {m : Memory} {id : Nat} {row : Row} :
    m.row id = .ok row ↔ m.rows[id]? = some row := by
  rw [Memory.row]
  cases m.rows[id]? <;> simp

lemma onArena_ok {α : Type} {x : EStateM Fault Arena α} {m : Memory} {a : α} {arena : Arena}
    (h : x m.arena = .ok a arena) : onArena x m = .ok a { m with arena } := by
  rw [onArena, focus]
  dsimp only
  rw [h]

lemma onArena_error {α : Type} {x : EStateM Fault Arena α} {m : Memory} {fault : Fault}
    {arena : Arena} (h : x m.arena = .error fault arena) :
    onArena x m = .error fault { m with arena } := by
  rw [onArena, focus]
  dsimp only
  rw [h]

/-! ## Remembering -/

section Touched

variable (m : Memory) (id : Nat)

@[simp] lemma arena_touched : (m.touched id).arena = m.arena := by
  rw [touched]; split <;> rfl

@[simp] lemma resources_touched : (m.touched id).resources = m.resources := by
  rw [touched]; split <;> rfl

@[simp] lemma bank_touched : (m.touched id).bank = m.bank := by
  rw [touched]; split <;> rfl

@[simp] lemma policy_touched : (m.touched id).policy = m.policy := by
  rw [touched]; split <;> rfl

@[simp] lemma entityCount_touched : (m.touched id).entityCount = m.entityCount := by
  rw [touched]
  split
  · exact Array.size_modify
  · rfl

@[simp] lemma level_touched : (m.touched id).level = m.level := by
  rw [touched]
  split
  · exact level_addSnapshot _ _
  · rfl

lemma rows_touched_of_ne {j : Nat} (h : j ≠ id) : (m.touched id).rows[j]? = m.rows[j]? := by
  rw [touched]
  split
  · rw [Array.getElem?_modify, if_neg (Ne.symm h)]
  · rfl

end Touched

/-- Remembering an entity changes the snapshot level of its mark at most, and then the current level
knows the entity. -/
lemma rows_touched {m : Memory} (hs : Sound m) {id : Nat} {row : Row}
    (hrow : m.rows[id]? = some row) :
    ∃ snapshot, (m.touched id).rows[id]? = some { row with mark := { row.mark with snapshot } } ∧
      (m.level = 0 ∨ m.level ≤ row.mark.created.val ∨ m.level ≤ snapshot.val) := by
  by_cases h : m.level = 0 ∨ m.level ≤ row.mark.created.val ∨ m.level ≤ row.mark.snapshot.val
  · exact ⟨row.mark.snapshot, by rw [touched_of_known hs hrow h]; exact hrow, h⟩
  · refine ⟨(row.mark.withSnapshot m.level).snapshot, ?_, .inr (.inr ?_)⟩
    · rw [touched_of_pending hs hrow h, Array.getElem?_modify, if_pos rfl, hrow]
      rfl
    · exact Nat.le_of_eq hs.createdAt_level.2.symm

/-- A mark that knows the current level. -/
def Known (m : Memory) (mark : Mark) : Prop :=
  m.level = 0 ∨ m.level ≤ mark.created.val ∨ m.level ≤ mark.snapshot.val

lemma touch_of_known {m : Memory} {id : Nat} {row : Row} (hrow : m.rows[id]? = some row)
    (h : m.Known row.mark) : touch id m = .ok () m := by
  have hnone : m.pendingSnapshot id = .ok none := by
    rw [pendingSnapshot]
    by_cases h0 : m.level = 0
    · rw [if_pos h0]
    · rw [if_neg h0, row_ok hrow]
      exact if_pos (h.resolve_left h0)
  exact (bind_ok (query_ok (s := m) hnone)).trans rfl

lemma touch_of_pendingSnapshot {m : Memory} {id : Nat} {pending : Option Snapshot}
    (h : m.pendingSnapshot id = .ok pending) : touch id m = .ok () (m.touched id) := by
  rw [touched, h]
  refine (bind_ok (query_ok (s := m) h)).trans ?_
  cases pending with
  | none => rfl
  | some snapshot =>
      have hlevel := level_addSnapshot snapshot m.saves
      show EStateM.Result.ok () _ = _
      simp only [Memory.level, hlevel]

lemma touch_run {m : Memory} (hs : Sound m) {id : Nat} (hid : id < m.entityCount) :
    touch id m = .ok () (m.touched id) := by
  obtain ⟨row, hrow⟩ := exists_row hid
  have hpending := pendingSnapshot_eq hs hrow
  split at hpending
  all_goals exact touch_of_pendingSnapshot hpending

/-- An entity that does not exist is not remembered. -/
lemma touch_of_missing {m : Memory} {id : Nat} (hid : m.entityCount ≤ id) :
    touch id m = .ok () m ∨ touch id m = .error (.invalidEntity id) m := by
  by_cases h0 : m.level = 0
  · left
    have hnone : m.pendingSnapshot id = .ok none := by rw [pendingSnapshot, if_pos h0]
    exact (bind_ok (query_ok (s := m) hnone)).trans rfl
  · right
    refine bind_error (query_error ?_)
    rw [pendingSnapshot, if_neg h0, row_error hid]

/-! ## Remembering, then changing -/

/-- The memory after remembering an entity and then changing its row and some bytes. -/
def amended (m : Memory) (id : Nat) (f : Row → Row) (image : Image) : Memory :=
  (m.touched id).edited id f image

section Amended

variable (m : Memory) (id : Nat) (f : Row → Row) (image : Image)

@[simp] lemma arena_amended : (m.amended id f image).arena = { m.arena with image } := by
  rw [amended, edited, arena_touched]

@[simp] lemma bank_amended : (m.amended id f image).bank = m.bank := bank_touched m id

@[simp] lemma entityCount_amended : (m.amended id f image).entityCount = m.entityCount :=
  Array.size_modify.trans (entityCount_touched m id)

@[simp] lemma level_amended : (m.amended id f image).level = m.level := level_touched m id

lemma rows_amended_of_ne {j : Nat} (h : j ≠ id) :
    (m.amended id f image).rows[j]? = m.rows[j]? := by
  rw [amended, edited, Array.getElem?_modify, if_neg (Ne.symm h), rows_touched_of_ne m id h]

end Amended

lemma rows_amended {m : Memory} (hs : Sound m) {id : Nat} {row : Row}
    (hrow : m.rows[id]? = some row) (f : Row → Row) (image : Image) :
    ∃ snapshot, m.Known { row.mark with snapshot } ∧ snapshot.val ≤ m.level ∧
      (m.amended id f image).rows[id]? = some (f { row with mark := { row.mark with snapshot } }) := by
  obtain ⟨snapshot, hrows, hknown⟩ := rows_touched hs hrow
  refine ⟨snapshot, hknown, ?_, ?_⟩
  · have hlayout := (carries_touched hs (row_lt hrow)).1.layout
    have := (hlayout.within id _ (outline_of_row hrows)).2
    rwa [level_touched] at this
  · rw [amended, edited, Array.getElem?_modify, if_pos rfl, hrows]
    rfl

/-- What may be done to an entity that is remembered first. -/
structure Alters (m : Memory) (id : Nat) (row : Row) (f : Row → Row) (image : Image) : Prop where
  before : m.rows[id]? = some row
  size : ∀ r : Row, (f r).size = r.size
  address : id ≠ 0 → ∀ r : Row, (f r).address = r.address
  mark : ∀ r : Row, r.mark.created.val ≤ m.level → r.mark.snapshot.val ≤ m.level →
    r.mark.created = row.mark.created →
    r.mark.created.val ≤ (f r).mark.created.val ∧ (f r).mark.created.val ≤ m.level ∧
      (f r).mark.snapshot.val ≤ m.level
  byte : ∀ a, a < row.address ∨ row.address + row.size ≤ a →
    image.byte a = m.arena.image.byte a

/-- **An entity may change once it is remembered**, and closing the level undoes both. -/
lemma carries_amended {m : Memory} (hs : Sound m) {id : Nat} {row : Row} {f : Row → Row}
    {image : Image} (h : Alters m id row f image) : Carries m (m.amended id f image) := by
  obtain ⟨htouch, hcov⟩ := carries_touched hs (row_lt h.before)
  obtain ⟨snapshot, hrow, -⟩ := rows_touched hs h.before
  have hwithin := htouch.layout.within id _ (outline_of_row hrow)
  rw [level_touched] at hwithin
  obtain ⟨hyounger, hmark⟩ :=
    h.mark { row with mark := { row.mark with snapshot } } hwithin.1 hwithin.2 rfl
  have hedits : Edits (m.touched id) id _ f image :=
    { before := hrow
      size := h.size _
      address := fun h0 => h.address h0 _
      younger := hyounger
      within := by rw [level_touched]; exact hmark
      byte := by rw [arena_touched]; exact h.byte }
  exact htouch.trans (carries_edited (htouch.sound hs) hedits hcov)

/-- No row is lost, and none changes its size. -/
lemma Alters.size_kept {m : Memory} (hs : Sound m) {id : Nat} {row : Row} {f : Row → Row}
    {image : Image} (h : Alters m id row f image) {j : Nat} {r : Row} (hr : m.rows[j]? = some r) :
    ∃ r', (m.amended id f image).rows[j]? = some r' ∧ r'.size = r.size := by
  by_cases hj : j = id
  · subst hj
    obtain ⟨snapshot, -, -, hr'⟩ := rows_amended hs hr f image
    exact ⟨_, hr', h.size _⟩
  · exact ⟨r, by rw [rows_amended_of_ne m id f image hj]; exact hr, rfl⟩

lemma modify_modify {α : Type} (xs : Array α) (i : Nat) (f g : α → α) :
    (xs.modify i f).modify i g = xs.modify i fun x => g (f x) := by
  refine Array.ext_getElem? fun j => ?_
  simp only [Array.getElem?_modify]
  split
  · rw [Option.map_map]
    rfl
  · rfl

lemma edited_edited (m : Memory) (id : Nat) (f g : Row → Row) (image image' : Image) :
    (m.edited id f image).edited id g image' = m.edited id (fun row => g (f row)) image' := by
  simp only [edited, modify_modify]

/-- Writing bytes edits no row. -/
lemma edited_id (m : Memory) (id : Nat) (image : Image) :
    m.edited id (fun row => row) image = { m with arena := { m.arena with image } } := by
  have hrows : m.rows.modify id (fun row => row) = m.rows := by
    refine Array.ext_getElem? fun j => ?_
    rw [Array.getElem?_modify]
    split <;> simp
  rw [edited, hrows]

/-! ## Rows -/

lemma changeRow_run {m : Memory} (hs : Sound m) {id : Nat} {row : Row}
    (hrow : m.rows[id]? = some row) (f : Row → Row) :
    changeRow id f m = .ok () (m.amended id f m.arena.image) := by
  obtain ⟨snapshot, hrow', -⟩ := rows_touched hs hrow
  refine (bind_ok (touch_run hs (row_lt hrow))).trans ?_
  refine (bind_ok (discard_ok (query_ok (s := m.touched id) (row_ok hrow')))).trans ?_
  rw [amended, edited, arena_touched]
  show EStateM.Result.ok () _ = _
  rw [← arena_touched m id]

/-- A row that does not exist is not changed. -/
lemma changeRow_of_missing {m : Memory} {id : Nat} (hid : m.entityCount ≤ id) (f : Row → Row) :
    changeRow id f m = .error (.invalidEntity id) m := by
  rcases touch_of_missing hid with h | h
  · refine (bind_ok h).trans ?_
    exact bind_error (discard_error (query_error (s := m) (row_error hid)))
  · exact bind_error h

lemma setMark_run {m : Memory} {id : Nat} {row : Row} (hrow : m.rows[id]? = some row)
    (mark : Mark) :
    setMark id mark m = .ok () (m.edited id (fun row => { row with mark }) m.arena.image) :=
  (bind_ok (discard_ok (query_ok (s := m) (row_ok hrow)))).trans rfl

/-! ## Bytes -/

lemma checkedAddress_ok {m : Memory} (hs : Sound m) {id offset count : Nat} {row : Row}
    (hid : id ≠ 0) (hrow : m.rows[id]? = some row) (hfit : offset + count ≤ row.size) :
    m.checkedAddress id offset count = .ok (row.address + offset) := by
  have hused := hs.arena.used_lt
  obtain ⟨-, -, hend⟩ := hs.fits hid hrow
  rw [checkedAddress, row_ok hrow]
  dsimp only
  rw [if_neg (by omega), if_neg (by omega)]

lemma checkedAddress_eq_ok {m : Memory} {id offset count address : Nat}
    (h : m.checkedAddress id offset count = .ok address) :
    ∃ row, m.rows[id]? = some row ∧ offset + count ≤ row.size ∧
      address = row.address + offset := by
  rw [checkedAddress] at h
  split at h
  · contradiction
  · next row hrow =>
    split at h
    · contradiction
    · split at h
      · contradiction
      · injection h with h
        exact ⟨row, row_eq_ok_iff.mp hrow, by omega, h.symm⟩

/-- The memory after overwriting bytes of an entity. -/
def overwritten (m : Memory) (id address : Nat) (bytes : List UInt8) : Memory :=
  m.amended id (fun row => row) (m.arena.image.write address bytes)

lemma write_run {m : Memory} (hs : Sound m) {address : Nat} {bytes : List UInt8}
    (h : address + bytes.length ≤ m.arena.used) :
    onArena (Arena.write address bytes) m =
      .ok () { m with arena := { m.arena with image := m.arena.image.write address bytes } } := by
  refine onArena_ok ?_
  rw [Arena.write, hs.arena.obstacle?_eq_none h]

lemma put_run {m : Memory} (hs : Sound m) {id offset : Nat} {row : Row} {bytes : List UInt8}
    (hid : id ≠ 0) (hrow : m.rows[id]? = some row) (hfit : offset + bytes.length ≤ row.size) :
    put id offset bytes m = .ok () (m.overwritten id (row.address + offset) bytes) := by
  have hend := (hs.fits hid hrow).2.2
  refine (bind_ok (query_ok (s := m) (checkedAddress_ok hs hid hrow hfit))).trans ?_
  refine (bind_ok (touch_run hs (row_lt hrow))).trans ?_
  rw [write_run ((carries_touched hs (row_lt hrow)).1.sound hs) (by rw [arena_touched]; omega),
    overwritten, amended, edited_id, arena_touched]

/-! ## Freeing and reusing -/

/-- Emptying a slot changes the resource table only. -/
lemma releaseResourceOf_eq (m : Memory) (id : Nat) :
    m.releaseResourceOf id = { m with resources := (m.releaseResourceOf id).resources } := by
  rw [releaseResourceOf]
  split
  · rfl
  · split
    · split <;> rfl
    · rfl

section ReleaseResourceOf

variable (m : Memory) (id : Nat)

@[simp] lemma rows_releaseResourceOf : (m.releaseResourceOf id).rows = m.rows := by
  rw [releaseResourceOf_eq]

@[simp] lemma arena_releaseResourceOf : (m.releaseResourceOf id).arena = m.arena := by
  rw [releaseResourceOf_eq]

@[simp] lemma saves_releaseResourceOf : (m.releaseResourceOf id).saves = m.saves := by
  rw [releaseResourceOf_eq]

@[simp] lemma policy_releaseResourceOf : (m.releaseResourceOf id).policy = m.policy := by
  rw [releaseResourceOf_eq]

@[simp] lemma bank_releaseResourceOf : (m.releaseResourceOf id).bank = m.bank := by
  rw [releaseResourceOf_eq]

@[simp] lemma entityCount_releaseResourceOf :
    (m.releaseResourceOf id).entityCount = m.entityCount := by
  rw [entityCount, rows_releaseResourceOf, entityCount]

end ReleaseResourceOf

lemma carries_releaseResourceOf {m : Memory} (hs : Sound m) (id : Nat) :
    Carries m (m.releaseResourceOf id) :=
  carries_of_outline hs (arena_releaseResourceOf m id) (saves_releaseResourceOf m id)
    (by rw [policy_releaseResourceOf]; exact hs.policy)
    fun j => by rw [outline, rows_releaseResourceOf, outline]

/-- The mark of an entity that is being freed: neither collector bit nor pins. -/
def clearedMark (mark : Mark) : Mark := (mark.withMarked false).withRefcount 0

/-- The memory after an entity was retagged as free and its storage linked to the free list. -/
def retired (m : Memory) (id : Nat) (row : Row) (head : Nat) : Memory :=
  (m.releaseResourceOf id).amended id
    (fun r => { r with tag := Tag.free, mark := clearedMark row.mark })
    (m.arena.image.write row.address (wordBytes head))

/-- The memory with another head of its free list. -/
def linked (m : Memory) (head : Nat) : Memory :=
  m.amended 0 (fun row => { row with address := head }) m.arena.image

/-- The memory after an entity was handed to a new owner. -/
def recycled (m : Memory) (id : Nat) (row : Row) (tag : Tag) : Memory :=
  m.amended id (fun r => { r with tag, mark := Mark.createdAt m.level })
    (m.arena.image.zero row.address (row.address + row.size))

lemma alters_overwritten {m : Memory} {id offset : Nat} {row : Row} {bytes : List UInt8}
    (hrow : m.rows[id]? = some row) (hfit : offset + bytes.length ≤ row.size) :
    Alters m id row (fun r => r) (m.arena.image.write (row.address + offset) bytes) where
  before := hrow
  size := fun _ => rfl
  address := fun _ _ => rfl
  mark := fun _ hc hs _ => ⟨Nat.le_refl _, hc, hs⟩
  byte := fun _ ha => Image.byte_write_of_outside (by omega)

lemma alters_linked {m : Memory} {row : Row} (hrow : m.rows[0]? = some row) (head : Nat) :
    Alters m 0 row (fun r => { r with address := head }) m.arena.image where
  before := hrow
  size := fun _ => rfl
  address := fun h0 => absurd rfl h0
  mark := fun _ hc hs _ => ⟨Nat.le_refl _, hc, hs⟩
  byte := fun _ _ => rfl

lemma alters_retired {m : Memory} (hs : Sound m) {id : Nat} {row : Row}
    (hrow : m.rows[id]? = some row) (hsize : linkSize ≤ row.size) (head : Nat) :
    Alters m id row (fun r => { r with tag := Tag.free, mark := clearedMark row.mark })
      (m.arena.image.write row.address (wordBytes head)) where
  before := hrow
  size := fun _ => rfl
  address := fun _ _ => rfl
  mark := by
    intro r hcreated _ hsame
    have hwithin := hs.layout.within id _ (outline_of_row hrow)
    refine ⟨?_, hwithin.1, hwithin.2⟩
    rw [hsame]
    exact Nat.le_refl _
  byte := by
    intro a ha
    refine Image.byte_write_of_outside ?_
    rw [length_wordBytes]
    simp only [linkSize] at hsize
    omega

lemma alters_recycled {m : Memory} (hs : Sound m) {id : Nat} {row : Row}
    (hrow : m.rows[id]? = some row) (tag : Tag) :
    Alters m id row (fun r => { r with tag, mark := Mark.createdAt m.level })
      (m.arena.image.zero row.address (row.address + row.size)) where
  before := hrow
  size := fun _ => rfl
  address := fun _ _ => rfl
  mark := by
    intro r hcreated _ _
    have h := hs.createdAt_level
    exact ⟨by rw [h.1]; exact hcreated, Nat.le_of_eq h.1, Nat.le_of_eq h.2⟩
  byte := fun a ha => by rw [Image.byte_zero, if_neg (by omega)]

lemma carries_retired {m : Memory} (hs : Sound m) {id : Nat} {row : Row}
    (hrow : m.rows[id]? = some row) (hsize : linkSize ≤ row.size) (head : Nat) :
    Carries m (m.retired id row head) := by
  have hrelease := carries_releaseResourceOf hs id
  have hs' := hrelease.sound hs
  have halters := alters_retired hs' (by rw [rows_releaseResourceOf]; exact hrow) hsize head
  rw [arena_releaseResourceOf] at halters
  exact hrelease.trans (carries_amended hs' halters)

/-! A freed or recycled entity is retagged first; what follows finds it remembered already. -/

section Retagged

variable {m : Memory} {id : Nat} {row : Row} {image : Image}

/-- The memory after retagging an entity and changing its bytes. -/
def retagged (m : Memory) (id : Nat) (tag : Tag) (image : Image) : Memory :=
  m.amended id (fun row => { row with tag }) image

lemma carries_retagged (hs : Sound m) (hrow : m.rows[id]? = some row) (tag : Tag) :
    Carries m (m.retagged id tag m.arena.image) :=
  carries_amended hs
    { before := hrow
      size := fun _ => rfl
      address := fun _ _ => rfl
      mark := fun _ hc hn _ => ⟨Nat.le_refl _, hc, hn⟩
      byte := fun _ _ => rfl }

lemma rows_retagged (hs : Sound m) (hrow : m.rows[id]? = some row) (tag : Tag) (image : Image) :
    ∃ mark, (m.retagged id tag image).rows[id]? = some { row with mark, tag } := by
  obtain ⟨snapshot, -, -, hrow'⟩ := rows_amended hs hrow (fun row => { row with tag }) image
  exact ⟨_, hrow'⟩

/-- Once an entity is remembered, the level knows it. -/
lemma touch_retagged (hs : Sound m) (hrow : m.rows[id]? = some row) (tag : Tag) (image : Image) :
    touch id (m.retagged id tag image) = .ok () (m.retagged id tag image) := by
  obtain ⟨snapshot, hknown, -, hrow'⟩ := rows_amended hs hrow (fun row => { row with tag }) image
  refine touch_of_known hrow' ?_
  rw [Known, retagged, level_amended]
  exact hknown

lemma onArena_retagged {tag : Tag} {x : EStateM Fault Arena Unit}
    (h : x m.arena = .ok () { m.arena with image }) :
    onArena x (m.retagged id tag m.arena.image) = .ok () (m.retagged id tag image) := by
  have harena : (m.retagged id tag m.arena.image).arena = m.arena := arena_amended _ _ _ _
  rw [← harena] at h
  refine (onArena_ok h).trans ?_
  rw [retagged, retagged, amended, amended, edited, edited, arena_touched]

lemma setMark_retagged (hs : Sound m) (hrow : m.rows[id]? = some row) (tag : Tag) (mark : Mark) :
    setMark id mark (m.retagged id tag image) =
      .ok () (m.amended id (fun r => { r with tag, mark }) image) := by
  obtain ⟨_, hrow'⟩ := rows_retagged hs hrow tag image
  rw [setMark_run hrow', retagged, arena_amended, amended, edited_edited, amended]

end Retagged

lemma free_run {m : Memory} (hs : Sound m) {id : Nat} {row head : Row} (hid : id ≠ 0)
    (hrow : m.rows[id]? = some row) (hsize : linkSize ≤ row.size) (hlive : row.isFree = false)
    (hhead : m.rows[0]? = some head) :
    free id m = .ok () ((m.retired id row head.address).linked id) := by
  have hguard : ¬ (id = 0 ∨ row.size < linkSize ∨ row.isFree = true) := by
    simp only [hlive, Bool.false_eq_true, or_false, not_or, Nat.not_lt]
    exact ⟨hid, hsize⟩
  have hfit : 0 + (wordBytes head.address).length ≤ row.size := by
    simpa [length_wordBytes] using hsize
  set m' := m.releaseResourceOf id with hm'
  have hs' : Sound m' := (carries_releaseResourceOf hs id).sound hs
  have hrow' : m'.rows[id]? = some row := by rw [hm', rows_releaseResourceOf]; exact hrow
  have hhead' : m'.rows[0]? = some head := by rw [hm', rows_releaseResourceOf]; exact hhead
  have hs₁ := (carries_retagged hs' hrow' Tag.free).sound hs'
  obtain ⟨_, hrow₁⟩ := rows_retagged hs' hrow' Tag.free m'.arena.image
  have hend := (hs'.fits hid hrow').2.2
  have hput : put id 0 (wordBytes head.address) (m'.retagged id Tag.free m'.arena.image) =
      .ok () (m'.retagged id Tag.free (m'.arena.image.write row.address (wordBytes head.address))) := by
    refine (bind_ok (query_ok (s := m'.retagged id Tag.free m'.arena.image)
      (checkedAddress_ok hs₁ hid hrow₁ hfit))).trans ?_
    refine (bind_ok (touch_retagged hs' hrow' _ _)).trans ?_
    refine onArena_retagged ?_
    dsimp only
    rw [Arena.write, Nat.add_zero, hs'.arena.obstacle?_eq_none (by omega)]
  have hs₃ := (carries_retired hs hrow hsize head.address).sound hs
  have hhead₃ : (m.retired id row head.address).rows[0]? = some head := by
    rw [retired, rows_amended_of_ne _ _ _ _ (Ne.symm hid)]
    exact hhead'
  have hmark : setMark id (clearedMark row.mark) (m'.retagged id Tag.free
      (m'.arena.image.write row.address (wordBytes head.address))) =
        .ok () (m.retired id row head.address) := by
    rw [setMark_retagged hs' hrow', retired, ← arena_releaseResourceOf m id]
  refine (bind_ok (query_ok (s := m) (row_ok hrow))).trans ?_
  rw [if_neg hguard]
  refine (bind_ok (t := m') rfl).trans ?_
  refine (bind_ok (query_ok (s := m') (a := head.address) ?_)).trans ?_
  · rw [freeHead, row_ok hhead']
  refine (bind_ok (changeRow_run hs' hrow' _)).trans ?_
  refine (bind_ok hput).trans ?_
  refine (bind_ok hmark).trans ?_
  exact changeRow_run hs₃ hhead₃ _

lemma reuse_run {m : Memory} (hs : Sound m) {id : Nat} {row : Row} (hid : id ≠ 0)
    (hrow : m.rows[id]? = some row) (tag : Tag) :
    reuse id tag m = .ok () (m.recycled id row tag) := by
  have hs₁ := (carries_retagged hs hrow tag).sound hs
  obtain ⟨_, hrow₁⟩ := rows_retagged hs hrow tag m.arena.image
  have hend := (hs.fits hid hrow).2.2
  have hzero : putZeros id (m.retagged id tag m.arena.image) =
      .ok () (m.retagged id tag (m.arena.image.zero row.address (row.address + row.size))) := by
    refine (bind_ok (query_ok (s := m.retagged id tag m.arena.image) (row_ok hrow₁))).trans ?_
    refine (bind_ok (query_ok (s := m.retagged id tag m.arena.image)
      (checkedAddress_ok hs₁ hid hrow₁ (Nat.le_of_eq (Nat.zero_add _))))).trans ?_
    refine (bind_ok (touch_retagged hs hrow _ _)).trans ?_
    refine onArena_retagged ?_
    rw [Arena.zero, Nat.add_zero, hs.arena.obstacle?_eq_none hend]
  refine (bind_ok (changeRow_run hs hrow _)).trans ?_
  refine (bind_ok hzero).trans ?_
  have hlevel : (m.retagged id tag (m.arena.image.zero row.address (row.address + row.size))).level
      = m.level := level_amended _ _ _ _
  refine (bind_ok rfl).trans ?_
  rw [hlevel]
  exact setMark_retagged hs hrow tag _

end PostScriptCore.Memory
