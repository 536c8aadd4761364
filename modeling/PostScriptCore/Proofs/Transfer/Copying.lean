import PostScriptCore.Proofs.Transfer.Target
import Mathlib.Data.List.Nodup
import Mathlib.Data.List.Perm.Subperm

/-!
# Copying step by step

While objects are copied, an entity of the source is in one of three states: it has no copy, it has
a copy whose slots still name entities of the source, or its copy is finished.  At most one copy is
between the last two, with the slots of a front part redirected.

* `Redirected` — the first slots of a copy are images of the source's, the others still are the
  source's.
* `stage`, `Worked` — how far a copy is.
* `Entry`, `Copying` — the invariant of one copy, and of a transfer with its target.
* `Onward` — what a step never takes back; it also bounds how often copies become pending.
* `ends_mapObject`, `ends_visit` — mapping one object and redirecting one copy keep the invariant.
-/

namespace PostScriptCore

open Memory

/-- What a slot of a copy holds before it is redirected: the source's slot, and past the end of the
source null. -/
def Memory.rawSlot (source : Memory) (e : Nat) (row : Row) (index : Nat) : Option Object :=
  if index * objectSize + objectSize ≤ row.size then source.slot? e index else some Object.null

/-- Entities that a transfer is meant to come across: with an array or a dictionary everything its
slots name. -/
def Closed (source : Memory) (Expected : Nat → Prop) : Prop :=
  ∀ {e index e' : Nat} {row : Row} {obj : Object}, Expected e → source.row e = .ok row →
    row.tag.kind.holdsObjects = true → source.slot? e index = some obj →
    obj.localEntity? = some e' → Expected e'

/-- Nothing but want of space stands in the way of copying the slots of the source. -/
structure Portable (source base : Memory) (Expected : Nat → Prop) : Prop where
  search : ∀ fault, base.policy ≠ .fixed (.error fault)
  row : ∀ e, Expected e → ∃ row, source.row e = .ok row
  readable : ∀ e row, Expected e → source.row e = .ok row → Transfer.Readable source e row
  decodes : ∀ e row, Expected e → source.row e = .ok row → row.tag.kind.holdsObjects = true →
    ∀ index, index * objectSize + objectSize ≤ row.size → ∃ obj, source.slot? e index = some obj

namespace Transfer

/-- Of the slots of a copy, those before `count` are images of the source's slots, and the others
are as they were. -/
def Redirected (source : Memory) (t : Transfer) (e : Nat) (row : Row) (bytes : List UInt8)
    (count : Nat) : Prop :=
  ∀ index, index * objectSize + objectSize ≤ bytes.length →
    (row.size % objectSize = 0 ∨ index * objectSize + objectSize ≤ row.size) →
    if index < count then
      ∃ obj image, source.rawSlot e row index = some obj ∧ t.Sends obj image ∧
        slotIn bytes index = some image
    else slotIn bytes index = source.rawSlot e row index

/-- How many slots of a copy are redirected, if it is not finished. -/
def stage (t : Transfer) (visiting : Option (Nat × Nat)) (f : Nat) : Option Nat :=
  if f ∈ t.pending then some 0
  else
    match visiting with
    | some (g, count) => if g = f then some count else none
    | none => none

/-- The slots of a copy at some stage.  A finished copy has whole slots only. -/
def Worked (source : Memory) (t : Transfer) (e : Nat) (row : Row) (bytes : List UInt8) :
    Option Nat → Prop
  | some count => Redirected source t e row bytes count
  | none => ∃ count, bytes.length = count * objectSize ∧ Redirected source t e row bytes count

/-- The copy `f` of the entity `e`, apart from its file. -/
structure Entry (source base : Memory) (visiting : Option (Nat × Nat)) (s : Transfer × Memory)
    (e f : Nat) (row : Row) (cell : Cell) : Prop where
  hasRow : source.row e = .ok row
  hasCell : s.2.cell? f = some cell
  tag : cell.tag = row.tag
  size : row.size ≤ cell.bytes.length
  placed : Placed base f row.size cell.bytes.length
  verbatim : row.tag.kind.holdsObjects = false → row.tag.ownsResource = false → 0 < row.size →
    source.bytes e = .ok (cell.bytes.take row.size)
  slots : row.tag.kind.holdsObjects = true →
    Worked source s.1 e row cell.bytes (stage s.1 visiting f)

/-- The entity was copied and owns a file. -/
def CopiedFile (source : Memory) (t : Transfer) (e f : Nat) : Prop :=
  t.image? e = some f ∧ ∃ row, source.row e = .ok row ∧ row.tag.ownsResource = true

/-- The copy of a file entity names a slot that was empty in the base and holds the same file. -/
def OwnFile (source base m : Memory) (e f slot : Nat) : Prop :=
  ∃ handle cell, source.handleOf e = .ok handle ∧ m.cell? f = some cell ∧
    cell.bytes.take linkSize = wordBytes slot ∧ m.resources.occupant? slot = some handle ∧
    base.resources.occupant? slot = none

/-- Every copied file has a slot of its own, which was empty in the base. -/
structure Filed (source base : Memory) (s : Transfer × Memory) (slots : Nat → Nat) : Prop where
  file : ∀ e f, CopiedFile source s.1 e f → OwnFile source base s.2 e f (slots e)
  distinct : ∀ e f e' f', CopiedFile source s.1 e f → CopiedFile source s.1 e' f' →
    slots e = slots e' → e = e'

/-- A copy whose slots have to be redirected. -/
def HasSlots (source : Memory) (t : Transfer) (f : Nat) : Prop :=
  ∃ e row, t.image? e = some f ∧ source.row e = .ok row ∧ row.tag.kind.holdsObjects = true

/-- An array or a dictionary was copied whose entity ends in half a slot, in the source or in the
target.  Such a half slot may name anything. -/
def Halved (source base : Memory) (Expected : Nat → Prop) (t : Transfer) : Prop :=
  ∃ e f row length, t.image? e = some f ∧ Expected e ∧ source.row e = .ok row ∧
    row.tag.kind.holdsObjects = true ∧ Placed base f row.size length ∧ row.size ≤ length ∧
    (row.size % objectSize ≠ 0 ∨ length % objectSize ≠ 0)

/-- The entities of the target that are copies. -/
def Copies (t : Transfer) (f : Nat) : Prop := ∃ e, t.image? e = some f

/-- **The invariant of a transfer and its target**, where `base` is the target before the first
copy and `visiting` the copy that is being redirected. -/
structure Copying (source base : Memory) (Expected : Nat → Prop) (visiting : Option (Nat × Nat))
    (s : Transfer × Memory) : Prop where
  hosts : Hosts base s.2 s.1.Copies
  keys : (s.1.copied.map Prod.fst).Nodup
  injective : ∀ e e' f, s.1.image? e = some f → s.1.image? e' = some f → e = e'
  expected : Halved source base Expected s.1 ∨ ∀ e f, s.1.image? e = some f → Expected e
  entry : ∀ e f, s.1.image? e = some f → ∃ row cell, Entry source base visiting s e f row cell
  filed : ∃ slots, Filed source base s slots
  nodup : s.1.pending.Nodup
  pending : ∀ f ∈ s.1.pending, HasSlots source s.1 f
  visited : ∀ f count, visiting = some (f, count) → f ∉ s.1.pending ∧ HasSlots source s.1 f

/-- What a step never takes back, and a bound for the copies it makes pending. -/
structure Onward (s s' : Transfer × Memory) : Prop where
  images : ∀ e f, s.1.image? e = some f → s'.1.image? e = some f
  fresh : ∀ e f, s.1.image? e = none → s'.1.image? e = some f →
    ∀ cell, s.2.cell? f = some cell → cell.isFree = true
  live : ∀ id tag size, tag.kind ≠ .free → s.2.shape? id = some (tag, size) →
    s'.2.shape? id = some (tag, size)
  work : s'.1.pending.length + s.1.copied.length ≤ s.1.pending.length + s'.1.copied.length

namespace Onward

variable {s s' s'' : Transfer × Memory}

lemma refl (s : Transfer × Memory) : Onward s s where
  images := fun _ _ h => h
  fresh := fun _ _ h h' => absurd (h'.symm.trans h) (Option.some_ne_none _)
  live := fun _ _ _ _ h => h
  work := Nat.le_refl _

lemma trans (h : Onward s s') (h' : Onward s' s'') : Onward s s'' where
  images := fun e f hf => h'.images e f (h.images e f hf)
  fresh := by
    intro e f hnone hf cell hcell
    cases hmid : s'.1.image? e with
    | some g =>
        obtain rfl : g = f := Option.some.inj ((h'.images e g hmid).symm.trans hf)
        exact h.fresh e g hnone hmid cell hcell
    | none =>
        -- what was live before the first step still is before the second
        by_contra hlive
        have hshape : s.2.shape? f = some (cell.tag, cell.bytes.length) := by
          rw [shape?, hcell]
          rfl
        have hkind : cell.tag.kind ≠ .free := by simpa [Cell.isFree] using hlive
        have hshape' := h.live f _ _ hkind hshape
        obtain ⟨cell', hcell', htag⟩ := Option.map_eq_some_iff.mp hshape'
        have hfree := h'.fresh e f hmid hf cell' hcell'
        have hsame : cell'.tag = cell.tag := congrArg Prod.fst htag
        rw [Cell.isFree, hsame] at hfree
        exact hlive hfree
  live := fun id tag size hkind hshape => h'.live id tag size hkind (h.live id tag size hkind hshape)
  work := by
    have hle := h.work
    have hle' := h'.work
    omega

lemma popped {f : Nat} {rest : List Nat} (h : s.1.pending = f :: rest) :
    Onward s ({ s.1 with pending := rest }, s.2) where
  images := fun _ _ h => h
  fresh := fun _ _ h h' => absurd (h'.symm.trans h) (Option.some_ne_none _)
  live := fun _ _ _ _ h => h
  work := by
    rw [h, List.length_cons]
    exact Nat.add_le_add_right (Nat.le_succ _) _

end Onward

/-! ## A new copy -/

variable {source base : Memory} {Expected : Nat → Prop} {visiting visiting' : Option (Nat × Nat)}
  {s s' : Transfer × Memory} {t t' : Transfer} {e f : Nat} {row : Row} {cell : Cell}

lemma Redirected.mono {bytes : List UInt8} {count : Nat}
    (h : Redirected source t e row bytes count)
    (himages : ∀ e f, t.image? e = some f → t'.image? e = some f) :
    Redirected source t' e row bytes count := by
  intro index hfit hknown
  have hslot := h index hfit hknown
  split at hslot
  · next hlt =>
    obtain ⟨obj, image, hraw, hsends, hread⟩ := hslot
    rw [if_pos hlt]
    exact ⟨obj, image, hraw, hsends.mono himages, hread⟩
  · next hlt =>
    rw [if_neg hlt]
    exact hslot

lemma Worked.mono {bytes : List UInt8} {progress : Option Nat}
    (h : Worked source t e row bytes progress)
    (himages : ∀ e f, t.image? e = some f → t'.image? e = some f) :
    Worked source t' e row bytes progress := by
  cases progress with
  | some count => exact Redirected.mono h himages
  | none =>
      obtain ⟨count, hlength, hslots⟩ := h
      exact ⟨count, hlength, hslots.mono himages⟩

lemma Halved.mono (h : Halved source base Expected t)
    (himages : ∀ e f, t.image? e = some f → t'.image? e = some f) :
    Halved source base Expected t' := by
  obtain ⟨e, f, row, length, himage, hrest⟩ := h
  exact ⟨e, f, row, length, himages e f himage, hrest⟩

/-- An entry stays as long as its cell and its stage do. -/
lemma Entry.mono (h : Entry source base visiting s e f row cell)
    (hcell : s'.2.cell? f = some cell)
    (himages : ∀ e f, s.1.image? e = some f → s'.1.image? e = some f)
    (hstage : stage s'.1 visiting' f = stage s.1 visiting f) :
    Entry source base visiting' s' e f row cell where
  hasRow := h.hasRow
  hasCell := hcell
  tag := h.tag
  size := h.size
  placed := h.placed
  verbatim := h.verbatim
  slots := fun hkind => by
    rw [hstage]
    exact (h.slots hkind).mono himages

/-- The transfer after an entity was copied. -/
def register (t : Transfer) (e f : Nat) (row : Row) : Transfer where
  copied := (e, f) :: t.copied
  pending := if row.tag.kind.holdsObjects then f :: t.pending else t.pending

lemma image?_register (t : Transfer) (e f : Nat) (row : Row) (e' : Nat) :
    (t.register e f row).image? e' = if e' = e then some f else t.image? e' :=
  image?_cons ..

lemma image?_register_of_some (hnone : t.image? e = none) (row : Row) {e' g : Nat}
    (h : t.image? e' = some g) : (t.register e f row).image? e' = some g := by
  rw [image?_register, if_neg, h]
  rintro rfl
  exact Option.some_ne_none _ (h.symm.trans hnone)

lemma mem_pending_register {g : Nat} :
    g ∈ (t.register e f row).pending ↔
      (row.tag.kind.holdsObjects = true ∧ g = f) ∨ g ∈ t.pending := by
  rw [register]
  split
  · next hkind => simp [hkind]
  · next hkind => simp [hkind]

lemma stage_of_pending (h : f ∈ t.pending) : stage t visiting f = some 0 := if_pos h

lemma stage_register_of_ne {g : Nat} (hne : g ≠ f) :
    stage (t.register e f row) visiting g = stage t visiting g := by
  simp only [stage, mem_pending_register, hne, and_false, false_or]

lemma not_ownsResource (hkind : row.tag.kind.holdsObjects = true) : row.tag.ownsResource = false := by
  rw [Tag.ownsResource]
  cases hk : row.tag.kind with
  | file => rw [hk] at hkind; contradiction
  | _ => rfl

/-- Nothing is redirected in a copy that was filled with zeros and then with the source's bytes. -/
lemma Filled.redirected {before bytes : List UInt8} {table table' : ResourceTable}
    (h : Filled source e row before table bytes table') (hrow : source.row e = .ok row)
    (hkind : row.tag.kind.holdsObjects = true) (hsize : row.size ≤ before.length)
    (htail : row.size % arenaAlign = 0 → ∀ i, row.size ≤ i → i < before.length →
      before[i]? = some 0) : Redirected source t e row bytes 0 := by
  intro index hfit hknown
  rw [if_neg (Nat.not_lt_zero _), rawSlot]
  cases h with
  | file howns =>
      rw [not_ownsResource hkind] at howns
      contradiction
  | @data data _ _ hdata =>
      have hlength := length_of_bytes hrow hdata
      have hroom : 0 + data.length ≤ before.length := by omega
      rw [length_patched hroom] at hfit
      split
      · next hfront => rw [slotIn_patched_front (by omega) (by omega), slot?_of_bytes hdata]
      · next hfront =>
        have hmod : row.size % objectSize = 0 := by omega
        simp only [objectSize] at hmod hfront hfit
        refine slotIn_zeros (by rw [length_patched hroom]; exact hfit) fun i hlo hhi => ?_
        simp only [objectSize] at hlo hhi
        rw [getElem?_patched hroom, if_neg (by omega)]
        exact htail (by simp only [arenaAlign]; omega) i (by omega) (by omega)
  | empty _ hempty =>
      rw [if_neg (by simp only [objectSize]; omega)]
      exact slotIn_zeros hfit fun i hlo hhi =>
        htail (by rw [hempty]; rfl) i (by omega) (by omega)

lemma Filled.verbatim {before bytes : List UInt8} {table table' : ResourceTable}
    (h : Filled source e row before table bytes table') (hrow : source.row e = .ok row)
    (hplain : row.tag.ownsResource = false) (hpos : 0 < row.size) (hsize : row.size ≤ before.length) :
    source.bytes e = .ok (bytes.take row.size) := by
  cases h with
  | file howns =>
      rw [hplain] at howns
      contradiction
  | @data data _ _ hdata =>
      have hlength := length_of_bytes hrow hdata
      have hfit : 0 + data.length ≤ before.length := by omega
      have hread := take_drop_patched hfit
      rw [List.drop_zero, hlength] at hread
      rw [hread]
      exact hdata
  | empty _ hempty => omega

/-- The entity `e` was copied to `f`, which was filled with `bytes` over `before`. -/
structure Made (source base : Memory) (s : Transfer × Memory) (e f : Nat) (row : Row)
    (before bytes : List UInt8) (k : Memory) : Prop where
  hosts : Hosts base k fun g => s.1.Copies g ∨ g = f
  unmapped : s.1.image? e = none
  hasRow : source.row e = .ok row
  new : ¬ s.1.Copies f
  free : ∀ old, s.2.cell? f = some old → old.isFree = true
  hasCell : k.cell? f = some ⟨row.tag, bytes⟩
  copies : ∀ g, s.1.Copies g → k.cell? g = s.2.cell? g
  shape : ∀ g, g ≠ f → k.shape? g = s.2.shape? g
  length : bytes.length = before.length
  size_le : row.size ≤ before.length
  placed : Placed base f row.size before.length
  tail : row.size % arenaAlign = 0 → ∀ i, row.size ≤ i → i < before.length → before[i]? = some 0
  filled : Filled source e row before s.2.resources bytes k.resources

lemma made_of_adds {n k : Memory} {bytes : List UInt8} (hnone : s.1.image? e = none)
    (hrow : source.row e = .ok row) (htag : cell.tag = row.tag)
    (hadds : Hosts.Adds base s.2 n s.1.Copies f row.size cell)
    (hrefilled : Refilled base (fun g => s.1.Copies g ∨ g = f) n k f cell bytes)
    (hfilled : Filled source e row cell.bytes n.resources bytes k.resources) :
    Made source base s e f row cell.bytes bytes k where
  hosts := hrefilled.hosts
  unmapped := hnone
  hasRow := hrow
  new := hadds.new
  free := hadds.free
  hasCell := by rw [hrefilled.cells, if_pos rfl, htag]
  copies := by
    intro g hg
    rw [hrefilled.cells, if_neg, hadds.copies g hg]
    rintro rfl
    exact hadds.new hg
  shape := by
    intro g hg
    rw [shape?, hrefilled.cells, if_neg hg, ← hadds.shape g hg]
    rfl
  length := hrefilled.length
  size_le := hadds.size_le
  placed := hadds.placed
  tail := hadds.tail
  filled := by
    rw [← hadds.resources]
    exact hfilled

namespace Made

variable {before bytes : List UInt8} {k : Memory}

lemma ne (h : Made source base s e f row before bytes k) {g : Nat} (hg : s.1.Copies g) : g ≠ f := by
  rintro rfl
  exact h.new hg

lemma images (h : Made source base s e f row before bytes k) (e' g : Nat)
    (himage : s.1.image? e' = some g) : (s.1.register e f row).image? e' = some g :=
  image?_register_of_some h.unmapped row himage

lemma copies_iff (h : Made source base s e f row before bytes k) (g : Nat) :
    s.1.Copies g ∨ g = f ↔ (s.1.register e f row).Copies g := by
  constructor
  · rintro (⟨e', himage⟩ | rfl)
    · exact ⟨e', h.images e' g himage⟩
    · exact ⟨e, by rw [image?_register, if_pos rfl]⟩
  · rintro ⟨e', himage⟩
    rw [image?_register] at himage
    split at himage
    · exact .inr (Option.some.inj himage).symm
    · exact .inl ⟨e', himage⟩

/-- The new copy. -/
lemma entry (h : Made source base s e f row before bytes k) :
    Entry source base visiting (s.1.register e f row, k) e f row ⟨row.tag, bytes⟩ where
  hasRow := h.hasRow
  hasCell := h.hasCell
  tag := rfl
  size := by rw [h.length]; exact h.size_le
  placed := by rw [h.length]; exact h.placed
  verbatim := fun _ hplain hpos => h.filled.verbatim h.hasRow hplain hpos h.size_le
  slots := fun hkind => by
    rw [stage_of_pending (mem_pending_register.mpr (.inl ⟨hkind, rfl⟩))]
    exact h.filled.redirected h.hasRow hkind h.size_le h.tail

/-- The other copies. -/
lemma entry_of_entry (h : Made source base s e f row before bytes k) {e' g : Nat} {row' : Row}
    (himage : s.1.image? e' = some g) (hentry : Entry source base visiting s e' g row' cell) :
    Entry source base visiting (s.1.register e f row, k) e' g row' cell :=
  hentry.mono ((h.copies g ⟨e', himage⟩).trans hentry.hasCell) h.images
    (stage_register_of_ne (h.ne ⟨e', himage⟩))

lemma onward (h : Made source base s e f row before bytes k) :
    Onward s (s.1.register e f row, k) where
  images := h.images
  fresh := by
    intro e' g hnone himage old hold
    rw [image?_register] at himage
    split at himage
    · obtain rfl := Option.some.inj himage
      exact h.free old hold
    · exact absurd (himage.symm.trans hnone) (Option.some_ne_none _)
  live := by
    intro id tag size hkind hshape
    have hid : id ≠ f := by
      rintro rfl
      obtain ⟨old, hold, hsame⟩ := Option.map_eq_some_iff.mp hshape
      have hfree := h.free old hold
      have htag : old.tag = tag := congrArg Prod.fst hsame
      rw [Cell.isFree, htag] at hfree
      exact hkind (by simpa using hfree)
    exact (h.shape id hid).trans hshape
  work := by
    rw [register]
    split <;> simp only [List.length_cons] <;> omega

end Made

/-! ## Files of copies -/

lemma copiedFile_register {e' g : Nat} (hrow : source.row e = .ok row)
    (h : CopiedFile source (t.register e f row) e' g) :
    (e' = e ∧ g = f ∧ row.tag.ownsResource = true) ∨ (e' ≠ e ∧ CopiedFile source t e' g) := by
  obtain ⟨himage, row', hrow', howns⟩ := h
  rw [image?_register] at himage
  split at himage
  · next he =>
    subst he
    obtain rfl : row = row' := Except.ok.inj (hrow.symm.trans hrow')
    exact .inl ⟨rfl, (Option.some.inj himage).symm, howns⟩
  · next hne => exact .inr ⟨hne, himage, row', hrow', howns⟩

lemma OwnFile.mono {m n : Memory} {slot : Nat} (h : OwnFile source base m e f slot)
    (hcell : n.cell? f = m.cell? f)
    (hresources : ∀ slot handle, m.resources.occupant? slot = some handle →
      n.resources.occupant? slot = some handle) : OwnFile source base n e f slot := by
  obtain ⟨handle, cell, hhandle, hm, hword, hoccupied, hempty⟩ := h
  exact ⟨handle, cell, hhandle, hcell.trans hm, hword, hresources _ _ hoccupied, hempty⟩

section Opening

variable {before bytes : List UInt8} {k : Memory} {slots : Nat → Nat} {handle : Handle}

/-- Nothing but a new file makes the table change. -/
lemma Filed.added_plain (h : Filed source base s slots)
    (hmade : Made source base s e f row before bytes k) (hplain : row.tag.ownsResource = false)
    (hresources : k.resources = s.2.resources) :
    Filed source base (s.1.register e f row, k) slots := by
  have hold : ∀ e' g, CopiedFile source (s.1.register e f row) e' g →
      CopiedFile source s.1 e' g := by
    intro e' g hcopied
    rcases copiedFile_register hmade.hasRow hcopied with ⟨-, -, howns⟩ | ⟨-, hcopied⟩
    · rw [hplain] at howns
      contradiction
    · exact hcopied
  refine ⟨fun e' g hcopied => ?_, fun e₁ g₁ e₂ g₂ h₁ h₂ =>
    h.distinct e₁ g₁ e₂ g₂ (hold _ _ h₁) (hold _ _ h₂)⟩
  have hfile := h.file e' g (hold _ _ hcopied)
  exact hfile.mono (hmade.copies g ⟨e', (hold _ _ hcopied).1⟩) (by rw [hresources]; exact fun _ _ h => h)

/-- The slot of a new file was empty, also in the base. -/
lemma ownFile_of_made (hhosts : Hosts base s.2 s.1.Copies)
    (hmade : Made source base s e f row before
      (patched before 0 (wordBytes (s.2.resources.insert handle).1)) k)
    (hhandle : source.handleOf e = .ok handle) (hroom : linkSize ≤ row.size)
    (hresources : k.resources = (s.2.resources.insert handle).2) :
    OwnFile source base k e f (s.2.resources.insert handle).1 := by
  have hempty := hhosts.coherent.occupant?_insert_fst handle
  have hsize := hmade.size_le
  have hfit : 0 + (wordBytes (s.2.resources.insert handle).1).length ≤ before.length := by
    rw [length_wordBytes]
    simp only [linkSize] at hroom
    omega
  have hread := take_drop_patched hfit
  rw [List.drop_zero, length_wordBytes] at hread
  refine ⟨handle, _, hhandle, hmade.hasCell, hread, ?_, ?_⟩
  · rw [hresources, hhosts.coherent.occupant?_insert, if_pos rfl]
  · by_contra hbase
    obtain ⟨other, hother⟩ := Option.ne_none_iff_exists'.mp hbase
    exact Option.some_ne_none _ ((hhosts.files _ _ hother).symm.trans hempty)

/-- A new file takes a slot that no other copy has. -/
lemma Filed.added_file (h : Filed source base s slots) (hhosts : Hosts base s.2 s.1.Copies)
    (hmade : Made source base s e f row before bytes k)
    (hfile : OwnFile source base k e f (s.2.resources.insert handle).1)
    (hresources : k.resources = (s.2.resources.insert handle).2) :
    Filed source base (s.1.register e f row, k)
      (Function.update slots e (s.2.resources.insert handle).1) := by
  have hempty := hhosts.coherent.occupant?_insert_fst handle
  have hstay : ∀ slot other, s.2.resources.occupant? slot = some other →
      k.resources.occupant? slot = some other := by
    intro slot other hslot
    rw [hresources, hhosts.coherent.occupant?_insert, if_neg, hslot]
    rintro rfl
    exact Option.some_ne_none _ (hslot.symm.trans hempty)
  have hother : ∀ e' g, CopiedFile source s.1 e' g →
      slots e' ≠ (s.2.resources.insert handle).1 := by
    intro e' g hcopied he
    obtain ⟨other, -, -, -, -, hoccupied, -⟩ := h.file e' g hcopied
    rw [he, hempty] at hoccupied
    contradiction
  refine ⟨fun e' g hcopied => ?_, fun e₁ g₁ e₂ g₂ h₁ h₂ he => ?_⟩
  · rcases copiedFile_register hmade.hasRow hcopied with ⟨rfl, rfl, -⟩ | ⟨hne, hold⟩
    · rw [Function.update_self]
      exact hfile
    · rw [Function.update_of_ne hne]
      exact (h.file e' g hold).mono (hmade.copies g ⟨e', hold.1⟩) hstay
  · rcases copiedFile_register hmade.hasRow h₁ with ⟨rfl, -, -⟩ | ⟨hne₁, hold₁⟩ <;>
      rcases copiedFile_register hmade.hasRow h₂ with ⟨rfl, -, -⟩ | ⟨hne₂, hold₂⟩
    · rfl
    · rw [Function.update_self, Function.update_of_ne hne₂] at he
      exact absurd he.symm (hother _ _ hold₂)
    · rw [Function.update_self, Function.update_of_ne hne₁] at he
      exact absurd he (hother _ _ hold₁)
    · rw [Function.update_of_ne hne₁, Function.update_of_ne hne₂] at he
      exact h.distinct _ _ _ _ hold₁ hold₂ he

lemma Filed.added (h : Filed source base s slots) (hhosts : Hosts base s.2 s.1.Copies)
    (hmade : Made source base s e f row before bytes k) :
    ∃ slots', Filed source base (s.1.register e f row, k) slots' := by
  have hfilled := hmade.filled
  -- the table is an index of `Filled`, so it has to be a variable
  generalize hresources : k.resources = resources at hfilled
  cases hfilled with
  | file howns hhandle hroom =>
      exact ⟨_, h.added_file hhosts hmade
        (ownFile_of_made hhosts hmade hhandle hroom hresources) hresources⟩
  | data hplain | empty hplain => exact ⟨slots, h.added_plain hmade hplain hresources⟩

end Opening

/-- **Copying an entity keeps the invariant.** -/
lemma Copying.added (h : Copying source base Expected visiting s)
    (he : Halved source base Expected s.1 ∨ Expected e) {before bytes : List UInt8} {k : Memory}
    (hmade : Made source base s e f row before bytes k) :
    Copying source base Expected visiting (s.1.register e f row, k) := by
  have hslots : ∀ g, HasSlots source s.1 g → HasSlots source (s.1.register e f row) g := by
    rintro g ⟨e', row', himage, hrest⟩
    exact ⟨e', row', hmade.images e' g himage, hrest⟩
  have hnot : f ∉ s.1.pending := by
    intro hf
    obtain ⟨e', -, himage, -⟩ := h.pending f hf
    exact hmade.new ⟨e', himage⟩
  obtain ⟨slots, hfiled⟩ := h.filed
  refine
    { hosts := hmade.hosts.mono hmade.copies_iff
      keys := ?_
      injective := ?_
      expected := ?_
      entry := ?_
      filed := hfiled.added h.hosts hmade
      nodup := ?_
      pending := ?_
      visited := ?_ }
  · refine List.nodup_cons.mpr ⟨fun hmem => ?_, h.keys⟩
    obtain ⟨⟨e', g⟩, hpair, rfl⟩ := List.mem_map.mp hmem
    have hnone := hmade.unmapped
    rw [image?, List.lookup_eq_none_iff] at hnone
    simpa using hnone _ hpair
  · intro e₁ e₂ g h₁ h₂
    rw [image?_register] at h₁ h₂
    split at h₁ <;> split at h₂
    · next h₁' h₂' => rw [h₁', h₂']
    · exact absurd (Option.some.inj h₁).symm (hmade.ne ⟨e₂, h₂⟩)
    · exact absurd (Option.some.inj h₂).symm (hmade.ne ⟨e₁, h₁⟩)
    · exact h.injective e₁ e₂ g h₁ h₂
  · rcases h.expected with hhalved | hexpected
    · exact .inl (hhalved.mono hmade.images)
    · refine he.imp (fun hhalved => hhalved.mono hmade.images) fun he e' g himage => ?_
      rw [image?_register] at himage
      split at himage
      · next he' => rw [he']; exact he
      · exact hexpected e' g himage
  · intro e' g himage
    rw [image?_register] at himage
    split at himage
    · next he' =>
      subst he'
      obtain rfl := Option.some.inj himage
      exact ⟨row, _, hmade.entry⟩
    · obtain ⟨row', cell', hentry⟩ := h.entry e' g himage
      exact ⟨row', cell', hmade.entry_of_entry himage hentry⟩
  · rw [register]
    split
    · exact List.nodup_cons.mpr ⟨hnot, h.nodup⟩
    · exact h.nodup
  · intro g hg
    rcases mem_pending_register.mp hg with ⟨hkind, rfl⟩ | hg
    · exact ⟨e, row, by rw [image?_register, if_pos rfl], hmade.hasRow, hkind⟩
    · exact hslots g (h.pending g hg)
  · intro g count hvisiting
    obtain ⟨hidle, hg⟩ := h.visited g count hvisiting
    refine ⟨fun hmem => ?_, hslots g hg⟩
    rcases mem_pending_register.mp hmem with ⟨-, rfl⟩ | hmem
    · obtain ⟨e', -, himage, -⟩ := hg
      exact hmade.new ⟨e', himage⟩
    · exact hidle hmem

/-- Where nothing else stands in the way, a fault means want of space or half a slot. -/
def Excused (source base : Memory) (Expected : Nat → Prop) (fault : Fault)
    (s : Transfer × Memory) : Prop :=
  Portable source base Expected → fault = .vmFull ∨ Halved source base Expected s.1

/-- **Mapping an entity keeps the invariant**, and no earlier copy changes. -/
lemma ends_mapEntity (h : Copying source base Expected visiting s)
    (he : Halved source base Expected s.1 ∨ Expected e) :
    Ends (mapEntity source e) s
      (fun f s' => Copying source base Expected visiting s' ∧ Onward s s' ∧
        s'.1.image? e = some f ∧ ∀ g, s.1.Copies g → s'.2.cell? g = s.2.cell? g)
      (Excused source base Expected) := by
  rw [mapEntity]
  refine Ends.bind (Ends.get ?_)
  cases hfound : s.1.copied.lookup e with
  | some f => exact Ends.pure ⟨h, .refl s, hfound, fun _ _ => rfl⟩
  | none =>
      refine Ends.bind (Ends.query (fun row hrow => ?_) fun fault hrow hportable => ?_)
      · refine Ends.bind (ends_onTarget ((h.hosts.allocate row.size row.tag).mono ?_
          fun fault _ hfault hportable => .inl (hfault hportable.search)))
        rintro f n ⟨cell, htag, hadds⟩
        have hfill := ends_fill (s := (s.1, n)) (f := f) hadds.hosts (.inr rfl) hadds.holds hrow
          hadds.size_le
        refine Ends.bind (hfill.mono ?_ ?_)
        · rintro - ⟨t, k⟩ ⟨rfl, bytes, hrefilled, hfilled⟩
          have hmade := made_of_adds hfound hrow htag hadds hrefilled hfilled
          refine Ends.bind (Ends.modify (Ends.pure
            ⟨h.added he hmade, hmade.onward, ?_, hmade.copies⟩))
          exact (image?_register ..).trans (if_pos rfl)
        · rintro fault ⟨t, k⟩ ⟨rfl, hnot⟩ hportable
          exact he.symm.imp (fun he => absurd (hportable.readable e row he hrow) hnot) id
      · refine he.symm.imp (fun he => ?_) id
        obtain ⟨row, hok⟩ := hportable.row e he
        have hclash : Except.ok row = Except.error fault := hok.symm.trans hrow
        contradiction

lemma mapObject_of_none {obj : Object} (h : obj.localEntity? = none) :
    mapObject source obj = pure obj := by
  rw [mapObject]
  split
  · rfl
  · next e he =>
    split
    · rfl
    · next hbank =>
      have hlocal : obj.bank = .localVM := by
        cases hb : obj.bank with
        | localVM => rfl
        | globalVM => exact absurd hb hbank
      rw [Object.localEntity?, if_pos hlocal, he] at h
      contradiction

lemma mapObject_of_some {obj : Object} (h : obj.localEntity? = some e) :
    mapObject source obj = do
      let f ← mapEntity source e
      return obj.rebased f := by
  rw [Object.localEntity?] at h
  split at h
  · next hbank =>
    rw [mapObject, h, hbank]
    rfl
  · contradiction

/-- **Mapping an object keeps the invariant** and has the object's image for an answer. -/
lemma ends_mapObject (h : Copying source base Expected visiting s) {obj : Object}
    (he : ∀ e, obj.localEntity? = some e → Halved source base Expected s.1 ∨ Expected e) :
    Ends (mapObject source obj) s
      (fun image s' => Copying source base Expected visiting s' ∧ Onward s s' ∧
        s'.1.Sends obj image ∧ ∀ g, s.1.Copies g → s'.2.cell? g = s.2.cell? g)
      (Excused source base Expected) := by
  cases hobj : obj.localEntity? with
  | none =>
      rw [mapObject_of_none hobj]
      exact Ends.pure ⟨h, .refl s, .of_none hobj, fun _ _ => rfl⟩
  | some e =>
      rw [mapObject_of_some hobj]
      refine Ends.bind ((ends_mapEntity h (he e hobj)).mono ?_ fun _ _ hfault => hfault)
      rintro f s' ⟨hcopying, honward, himage, hcells⟩
      exact Ends.pure ⟨hcopying, honward, .of_some hobj himage, hcells⟩

/-! ## Redirecting a copy -/

lemma stage_of_ne {g : Nat} (count : Nat) (hne : g ≠ f) :
    stage t (some (f, count)) g = stage t none g := by
  rw [stage, stage, if_neg (Ne.symm hne)]

lemma stage_visiting {count : Nat} (h : f ∉ t.pending) :
    stage t (some (f, count)) f = some count := by
  rw [stage, if_neg h, if_pos rfl]

/-- The copy that is being redirected. -/
lemma Copying.current {count : Nat} (h : Copying source base Expected (some (f, count)) s)
    (hcell : s.2.cell? f = some cell) :
    ∃ e row, s.1.image? e = some f ∧ row.tag.kind.holdsObjects = true ∧
      Entry source base (some (f, count)) s e f row cell ∧
      Redirected source s.1 e row cell.bytes count := by
  obtain ⟨hnot, e, row, himage, hrow, hkind⟩ := h.visited f count rfl
  obtain ⟨row', cell', hentry⟩ := h.entry e f himage
  obtain rfl : row = row' := Except.ok.inj (hrow.symm.trans hentry.hasRow)
  obtain rfl : cell = cell' := Option.some.inj (hcell.symm.trans hentry.hasCell)
  have hslots := hentry.slots hkind
  rw [stage_visiting hnot] at hslots
  exact ⟨e, row, himage, hkind, hentry, hslots⟩

/-- The next pending copy is begun. -/
lemma Copying.begun (h : Copying source base Expected none s) {rest : List Nat}
    (hpending : s.1.pending = f :: rest) :
    Copying source base Expected (some (f, 0)) ({ s.1 with pending := rest }, s.2) := by
  have hnodup := h.nodup
  rw [hpending, List.nodup_cons] at hnodup
  have hstage : ∀ g, stage { s.1 with pending := rest } (some (f, 0)) g = stage s.1 none g := by
    intro g
    by_cases hg : g = f
    · subst hg
      rw [stage_visiting (by exact hnodup.1),
        stage_of_pending (by rw [hpending]; exact List.mem_cons_self ..)]
    · rw [stage_of_ne 0 hg, stage, stage, hpending]
      simp only [List.mem_cons, hg, false_or]
  refine
    { hosts := h.hosts
      keys := h.keys
      injective := h.injective
      expected := h.expected
      entry := fun e g himage => ?_
      filed := ?_
      nodup := hnodup.2
      pending := fun g hg => h.pending g (by rw [hpending]; exact List.mem_cons_of_mem _ hg)
      visited := ?_ }
  · obtain ⟨row, cell, hentry⟩ := h.entry e g himage
    exact ⟨row, cell, hentry.mono hentry.hasCell (fun _ _ himage => himage) (hstage g)⟩
  · obtain ⟨slots, hfiled⟩ := h.filed
    exact ⟨slots, hfiled.file, hfiled.distinct⟩
  · rintro g count hvisiting
    obtain ⟨rfl, -⟩ := Prod.mk.inj (Option.some.inj hvisiting)
    exact ⟨hnodup.1, h.pending f (by rw [hpending]; exact List.mem_cons_self ..)⟩

/-- A slot of a copy was redirected, or needs no redirection. -/
structure Redirects (source base : Memory) (s : Transfer × Memory) (f count : Nat) (cell : Cell)
    (n : Memory) (bytes : List UInt8) : Prop where
  refilled : Refilled base s.1.Copies s.2 n f cell bytes
  resources : n.resources = s.2.resources
  slot : ∃ obj image, slotIn cell.bytes count = some obj ∧ s.1.Sends obj image ∧
    slotIn bytes count = some image
  others : ∀ index, index ≠ count → slotIn bytes index = slotIn cell.bytes index

namespace Redirects

variable {count : Nat} {n : Memory} {bytes : List UInt8}

lemma hasCell (h : Redirects source base s f count cell n bytes) :
    n.cell? f = some ⟨cell.tag, bytes⟩ :=
  (h.refilled.cells f).trans (if_pos rfl)

lemma kept (h : Redirects source base s f count cell n bytes) {g : Nat} (hg : g ≠ f) :
    n.cell? g = s.2.cell? g :=
  (h.refilled.cells g).trans (if_neg hg)

/-- One more slot is an image. -/
lemma redirected (h : Redirects source base s f count cell n bytes)
    (hslots : Redirected source s.1 e row cell.bytes count) :
    Redirected source s.1 e row bytes (count + 1) := by
  obtain ⟨obj, image, hobj, hsends, himage⟩ := h.slot
  intro index hfit hknown
  rw [h.refilled.length] at hfit
  have hslot := hslots index hfit hknown
  rcases Nat.lt_trichotomy index count with hlt | rfl | hgt
  · rw [if_pos hlt] at hslot
    rw [if_pos (Nat.lt_succ_of_lt hlt), h.others index (Nat.ne_of_lt hlt)]
    exact hslot
  · rw [if_neg (Nat.lt_irrefl _), hobj] at hslot
    rw [if_pos (Nat.lt_succ_self _)]
    exact ⟨obj, image, hslot.symm, hsends, himage⟩
  · rw [if_neg (by omega)] at hslot
    rw [if_neg (by omega), h.others index (Nat.ne_of_gt hgt)]
    exact hslot

lemma onward (h : Redirects source base s f count cell n bytes) (hcell : s.2.cell? f = some cell) :
    Onward s (s.1, n) where
  images := fun _ _ h => h
  fresh := fun _ _ h h' => absurd (h'.symm.trans h) (Option.some_ne_none _)
  live := by
    intro id _ _ _ hshape
    refine Eq.trans ?_ hshape
    by_cases hid : id = f
    · subst hid
      rw [shape?, shape?, h.hasCell, hcell, Option.map_some, Option.map_some, Cell.shape, Cell.shape,
        h.refilled.length]
    · rw [shape?, shape?, h.kept hid]
  work := Nat.le_refl _

end Redirects

/-- **Redirecting a slot keeps the invariant.** -/
lemma Copying.advanced {count : Nat} (h : Copying source base Expected (some (f, count)) s)
    (hcell : s.2.cell? f = some cell) {n : Memory} {bytes : List UInt8}
    (hn : Redirects source base s f count cell n bytes) :
    Copying source base Expected (some (f, count + 1)) (s.1, n) := by
  obtain ⟨e, row, hef, hkind, hentry, hslots⟩ := h.current hcell
  refine
    { hosts := hn.refilled.hosts
      keys := h.keys
      injective := h.injective
      expected := h.expected
      entry := fun e' g himage' => ?_
      filed := ?_
      nodup := h.nodup
      pending := h.pending
      visited := ?_ }
  · by_cases hg : g = f
    · subst hg
      obtain rfl := h.injective e e' g hef himage'
      refine ⟨row, ⟨cell.tag, bytes⟩,
        { hasRow := hentry.hasRow
          hasCell := hn.hasCell
          tag := hentry.tag
          size := by rw [hn.refilled.length]; exact hentry.size
          placed := by rw [hn.refilled.length]; exact hentry.placed
          verbatim := fun hplain => ?_
          slots := fun _ => ?_ }⟩
      · rw [hkind] at hplain
        contradiction
      · rw [stage_visiting (h.visited g count rfl).1]
        exact hn.redirected hslots
    · obtain ⟨row', cell', hentry'⟩ := h.entry e' g himage'
      refine ⟨row', cell', hentry'.mono ((hn.kept hg).trans hentry'.hasCell) (fun _ _ h => h) ?_⟩
      rw [stage_of_ne _ hg, stage_of_ne _ hg]
  · obtain ⟨slots, hfiled⟩ := h.filed
    refine ⟨slots, fun e' g hcopied => ?_, hfiled.distinct⟩
    have hg : g ≠ f := by
      rintro rfl
      obtain ⟨himage', row', hrow', howns⟩ := hcopied
      obtain rfl := h.injective e e' g hef himage'
      obtain rfl : row = row' := Except.ok.inj (hentry.hasRow.symm.trans hrow')
      rw [not_ownsResource hkind] at howns
      contradiction
    exact (hfiled.file e' g hcopied).mono (hn.kept hg) (by rw [hn.resources]; exact fun _ _ h => h)
  · rintro g count' hvisiting
    obtain ⟨rfl, -⟩ := Prod.mk.inj (Option.some.inj hvisiting)
    exact h.visited f count rfl

/-- All slots of a copy are redirected. -/
lemma Copying.finished {count : Nat} (h : Copying source base Expected (some (f, count)) s)
    (hcell : s.2.cell? f = some cell) (hlength : cell.bytes.length = count * objectSize) :
    Copying source base Expected none s := by
  refine
    { hosts := h.hosts
      keys := h.keys
      injective := h.injective
      expected := h.expected
      entry := fun e g himage => ?_
      filed := h.filed
      nodup := h.nodup
      pending := h.pending
      visited := fun _ _ hvisiting => nomatch hvisiting }
  by_cases hg : g = f
  · subst hg
    obtain ⟨e', row, himage', hkind, hentry, hslots⟩ := h.current hcell
    obtain rfl := h.injective e e' g himage himage'
    refine ⟨row, cell, { hentry with slots := fun _ => ?_ }⟩
    rw [stage, if_neg (h.visited g count rfl).1]
    exact ⟨count, hlength, hslots⟩
  · obtain ⟨row, cell', hentry⟩ := h.entry e g himage
    exact ⟨row, cell', hentry.mono hentry.hasCell (fun _ _ h => h) (stage_of_ne count hg).symm⟩

/-- A slot that is read from a copy before it is redirected names only what is expected. -/
lemma Copying.expects {count : Nat} (h : Copying source base Expected (some (f, count)) s)
    (hclosed : Closed source Expected) (hcell : s.2.cell? f = some cell) {obj : Object}
    (hobj : slotIn cell.bytes count = some obj) (he : obj.localEntity? = some e) :
    Halved source base Expected s.1 ∨ Expected e := by
  obtain ⟨e', row, himage, hkind, hentry, hslots⟩ := h.current hcell
  rcases h.expected with hhalved | hexpected
  · exact .inl hhalved
  -- with whole slots only, a slot past the end of the source is null
  · by_cases hmod : row.size % objectSize = 0
    · right
      have hslot := hslots count (slotIn_le hobj) (.inl hmod)
      rw [if_neg (Nat.lt_irrefl _), hobj, rawSlot] at hslot
      split at hslot
      · exact hclosed (hexpected e' f himage) hentry.hasRow hkind hslot.symm he
      · obtain rfl := Option.some.inj hslot
        exact nomatch he
    · exact .inl ⟨e', f, row, _, himage, hexpected e' f himage, hentry.hasRow, hkind, hentry.placed,
        hentry.size, .inl hmod⟩

/-- Only a half slot does not decode. -/
lemma Copying.decodes {count : Nat} (h : Copying source base Expected (some (f, count)) s)
    (hportable : Portable source base Expected) (hcell : s.2.cell? f = some cell)
    (hcount : count < (cell.bytes.length + (objectSize - 1)) / objectSize) :
    Halved source base Expected s.1 ∨ ∃ obj, slotIn cell.bytes count = some obj := by
  obtain ⟨e, row, himage, hkind, hentry, hslots⟩ := h.current hcell
  rcases h.expected with hhalved | hexpected
  · exact .inl hhalved
  · by_cases hmod : row.size % objectSize = 0 ∧ cell.bytes.length % objectSize = 0
    · right
      have hslot := hslots count (by simp only [objectSize] at hmod hcount ⊢; omega) (.inl hmod.1)
      rw [if_neg (Nat.lt_irrefl _), rawSlot] at hslot
      rw [hslot]
      split
      · next hfront =>
        exact hportable.decodes e row (hexpected e f himage) hentry.hasRow hkind count hfront
      · exact ⟨_, rfl⟩
    · exact .inl ⟨e, f, row, _, himage, hexpected e f himage, hentry.hasRow, hkind, hentry.placed,
        hentry.size, by rw [not_and_or] at hmod; exact hmod⟩

lemma readObject_slotIn (hs : Sound s.2) (hcell : s.2.cell? f = some cell) (index : Nat) :
    (∃ obj, s.2.readObject f (index * objectSize) = .ok obj ∧ slotIn cell.bytes index = some obj) ∨
      (∃ fault, s.2.readObject f (index * objectSize) = .error fault) ∧
        slotIn cell.bytes index = none := by
  rw [readObject_cell hs hcell, slotIn]
  split_ifs
  · cases Object.decode ((cell.bytes.drop (index * objectSize)).take objectSize) with
    | ok obj => exact .inl ⟨obj, rfl, rfl⟩
    | error fault => exact .inr ⟨⟨fault, rfl⟩, rfl⟩
  · exact .inr ⟨⟨_, rfl⟩, rfl⟩

/-- Redirects one slot of a copy, which holds `obj`. -/
def redirectSlot (source : Memory) (f offset : Nat) (obj : Object) : TransferM Unit := do
  if obj.bank = .localVM ∧ obj.isComposite = true then
    let image ← mapObject source obj
    onTarget (Memory.writeObject f offset image)

lemma redirectSlots_cons (offset : Nat) (rest : List Nat) :
    redirectSlots source f (offset :: rest) = (do
      let obj ← query fun s => s.2.readObject f offset
      redirectSlot source f offset obj
      redirectSlots source f rest) := by
  rw [redirectSlots]
  congr 1
  funext obj
  rw [redirectSlot]
  split
  · rw [bind_assoc]
  · rw [pure_bind]

/-- **Redirecting one slot keeps the invariant.** -/
lemma ends_redirectSlot {count : Nat} (h : Copying source base Expected (some (f, count)) s)
    (hclosed : Closed source Expected) (hcell : s.2.cell? f = some cell) {obj : Object}
    (hobj : slotIn cell.bytes count = some obj) :
    Ends (redirectSlot source f (count * objectSize) obj) s
      (fun _ s' => Copying source base Expected (some (f, count + 1)) s' ∧ Onward s s' ∧
        ∃ cell', s'.2.cell? f = some cell' ∧ cell'.bytes.length = cell.bytes.length)
      (Excused source base Expected) := by
  obtain ⟨e, row, himage, -⟩ := h.current hcell
  have hfit := slotIn_le hobj
  rw [redirectSlot]
  split
  · have hexpects : ∀ e, obj.localEntity? = some e →
        Halved source base Expected s.1 ∨ Expected e :=
      fun e he => h.expects hclosed hcell hobj he
    refine Ends.bind ((ends_mapObject h hexpects).mono ?_ fun _ _ hfault => hfault)
    rintro image s' ⟨hcopying, honward, hsends, hcells⟩
    have hcell' : s'.2.cell? f = some cell := (hcells f ⟨e, himage⟩).trans hcell
    have hroom : count * objectSize + image.encode.length ≤ cell.bytes.length := by
      rw [Object.length_encode]
      exact hfit
    obtain ⟨n, hrun, hresources, hn⟩ :=
      refilled_put hcopying.hosts ⟨e, honward.images e f himage⟩ hcell' hroom
    refine ends_onTarget (Ends.of_ok hrun ?_)
    have hredirects : Redirects source base s' f count cell n _ :=
      ⟨hn, hresources, ⟨obj, image, hobj, hsends, slotIn_patched image hfit⟩,
        fun index hne => slotIn_patched_of_ne image hfit hne⟩
    exact ⟨hcopying.advanced hcell' hredirects, honward.trans (hredirects.onward hcell'), _,
      hredirects.hasCell, hn.length⟩
  · next hlocal =>
    have hsends : s.1.Sends obj obj := .of_none (Object.localEntity?_eq_none.mpr hlocal)
    have hredirects : Redirects source base s f count cell s.2 cell.bytes :=
      ⟨refilled_self h.hosts hcell, rfl, ⟨obj, obj, hobj, hsends, hobj⟩, fun _ _ => rfl⟩
    exact Ends.pure ⟨h.advanced hcell hredirects, .refl s, cell, hcell, rfl⟩

/-- **Redirecting the slots of a copy finishes it**, from any slot on. -/
lemma ends_redirectSlots (hclosed : Closed source Expected) (left : Nat) {count : Nat}
    (h : Copying source base Expected (some (f, count)) s) (hcell : s.2.cell? f = some cell)
    (hdone : count * objectSize ≤ cell.bytes.length)
    (hleft : count + left = (cell.bytes.length + (objectSize - 1)) / objectSize) :
    Ends (redirectSlots source f ((List.range' count left).map (· * objectSize))) s
      (fun _ s' => Copying source base Expected none s' ∧ Onward s s')
      (Excused source base Expected) := by
  induction left generalizing s count cell with
  | zero =>
      -- the rounds count a half slot, but it was read, so there is none
      refine Ends.pure ⟨h.finished hcell ?_, .refl s⟩
      simp only [objectSize] at hdone hleft ⊢
      omega
  | succ left ih =>
      rw [List.range'_succ, List.map_cons, redirectSlots_cons]
      rcases readObject_slotIn h.hosts.sound hcell count with
        ⟨obj, hread, hobj⟩ | ⟨⟨fault, hread⟩, hnone⟩
      · refine Ends.bind (Ends.of_ok (query_ok (s := s) hread) ?_)
        refine Ends.bind ((ends_redirectSlot h hclosed hcell hobj).mono ?_
          fun _ _ hfault => hfault)
        rintro - s' ⟨hnext, honward, cell', hcell', hlength⟩
        have hfit := slotIn_le hobj
        have hrest := ih hnext hcell' (by rw [hlength, Nat.succ_mul]; exact hfit)
          (by rw [hlength, ← hleft]; omega)
        exact hrest.mono (fun _ s'' hs'' => ⟨hs''.1, honward.trans hs''.2⟩) fun _ _ hfault => hfault
      · refine Ends.bind (Ends.of_error (query_error (s := s) hread) fun hportable => ?_)
        rcases h.decodes hportable hcell (by omega) with hhalved | ⟨obj, hobj⟩
        · exact .inr hhalved
        · exact absurd (hobj.symm.trans hnone) (Option.some_ne_none _)

/-- Redirects all slots of a copy. -/
def visit (source : Memory) (f : Nat) : TransferM Unit := do
  let row ← query fun s => s.2.row f
  redirectSlots source f (slotOffsets row.size)

/-- **Visiting the next pending copy keeps the invariant.** -/
lemma ends_visit (hclosed : Closed source Expected) (h : Copying source base Expected none s)
    {rest : List Nat} (hpending : s.1.pending = f :: rest) :
    Ends (visit source f) ({ s.1 with pending := rest }, s.2)
      (fun _ s' => Copying source base Expected none s' ∧
        Onward ({ s.1 with pending := rest }, s.2) s')
      (Excused source base Expected) := by
  have hbegun := h.begun hpending
  obtain ⟨-, e, -, himage, -⟩ := hbegun.visited f 0 rfl
  obtain ⟨row, cell, hentry⟩ := hbegun.entry e f himage
  obtain ⟨copy, -, hcopy, -, hsize, -⟩ := row_of_cell hentry.hasCell
  refine Ends.bind (Ends.of_ok (query_ok (row_ok hcopy)) ?_)
  rw [slotOffsets, List.range_eq_range', hsize]
  exact ends_redirectSlots hclosed _ hbegun hentry.hasCell (by simp) (Nat.zero_add _)

end Transfer

end PostScriptCore
