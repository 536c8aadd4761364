import PostScriptCore.Proofs.Memory.Handles
import PostScriptCore.Proofs.Memory.Recycling
import PostScriptCore.Proofs.Transfer.Objects

/-!
# Memories that receive copies

The target of a transfer hands out storage and never collects.  Everything it had stays as it was,
and a copy never lies where something was live.

* `Memory.Representable` — what is assumed of a target; `Memory.representable_afterAll` says that
  runs keep it.
* `Hosts` — a memory with some copies in it, against the memory it was before.
* `Hosts.allocate`, `Hosts.replaced`, `Hosts.opened` — a copy is added, gets other contents, or gets
  a file.
* `Transfer.ends_fill` — a new copy holds what the source has.
-/

namespace PostScriptCore

open Memory

/-- A memory in working order: its free list ends, and its files have slots of their own. -/
structure Memory.Representable (m : Memory) : Prop where
  sound : Sound m
  threads : ∃ ids, Threads m ids
  coherent : m.resources.Coherent

lemma Memory.representable_afterAll {bank : Bank} {backing : Backing} {settings : Settings}
    {start : Memory} (hstart : withBacking bank backing settings = .ok start) {ops : List MemoryOp}
    (hops : start.respectsAll ops = true) (hcount : (start.afterAll ops).entityCount ≤ wordBound) :
    Representable (start.afterAll ops) := by
  have hlayered := (layered_of_withBacking hstart).afterAll hops
  have hsound := sound_of_withBacking hstart
  obtain ⟨ids, hids⟩ := hlayered.orderly.listed hcount
  exact ⟨hlayered.orderly.sound, ⟨ids, hids.threads⟩,
    coherent_afterAll hsound (coherent_of_withBacking hstart) ops⟩

/-! ## The target -/

/-- Where a copy of `size` bytes was put: into a free entity, or behind the table. -/
def Placed (base : Memory) (f size length : Nat) : Prop :=
  (∃ old, base.cell? f = some old ∧ old.isFree = true ∧ length = old.bytes.length) ∨
    (base.cell? f = none ∧ alignUp size arenaAlign = some length)

/-- The free list still consists of entities of the base, as they were, and of no copies. -/
def Spares (base m : Memory) (copies : Nat → Prop) (ids : List Nat) : Prop :=
  ∀ id ∈ ids, m.shape? id = base.shape? id ∧ ¬ copies id

/-- The memory `m` is `base` with copies in it. -/
structure Hosts (base m : Memory) (copies : Nat → Prop) : Prop where
  sound : Sound m
  policy : m.policy = base.policy
  count : base.entityCount ≤ m.entityCount
  coherent : m.resources.Coherent
  spare : ∃ ids, Threads m ids ∧ Spares base m copies ids
  kept : ∀ id cell, base.cell? id = some cell → cell.isFree = false → m.cell? id = some cell
  files : ∀ slot handle, base.resources.occupant? slot = some handle →
    m.resources.occupant? slot = some handle
  held : ∀ f, copies f → (∃ cell, m.cell? f = some cell) ∧
    ∀ cell, base.cell? f = some cell → cell.isFree = true

namespace Hosts

variable {base m n : Memory} {copies : Nat → Prop}

lemma of_representable (h : Representable m) : Hosts m m fun _ => False where
  sound := h.sound
  policy := rfl
  count := Nat.le_refl _
  coherent := h.coherent
  spare := by
    obtain ⟨ids, hids⟩ := h.threads
    exact ⟨ids, hids, fun _ _ => ⟨rfl, fun h => h⟩⟩
  kept := fun _ _ h _ => h
  files := fun _ _ h => h
  held := fun _ h => h.elim

/-- What an allocation adds to the target. -/
structure Adds (base m n : Memory) (copies : Nat → Prop) (f size : Nat) (cell : Cell) : Prop where
  hosts : Hosts base n fun g => copies g ∨ g = f
  placed : Placed base f size cell.bytes.length
  new : ¬ copies f
  free : ∀ old, m.cell? f = some old → old.isFree = true
  holds : n.cell? f = some cell
  size_le : size ≤ cell.bytes.length
  tail : size % arenaAlign = 0 → ∀ i, size ≤ i → i < cell.bytes.length → cell.bytes[i]? = some 0
  copies : ∀ g, copies g → n.cell? g = m.cell? g
  shape : ∀ g, g ≠ f → n.shape? g = m.shape? g
  resources : n.resources = m.resources

section Granting

variable {ids ids' : List Nat} {f size : Nat} {cell : Cell}

/-- What is live in the base is live in the target. -/
lemma isFree_of_base (h : Hosts base m copies)
    (hfree : ∀ old, m.cell? f = some old → old.isFree = true) (old : Cell)
    (hold : base.cell? f = some old) : old.isFree = true := by
  by_contra hlive
  rw [Bool.not_eq_true] at hlive
  have hfree' := hfree old (h.kept f old hold hlive)
  rw [hlive] at hfree'
  contradiction

lemma new_of_grants (h : Hosts base m copies) (hspare : Spares base m copies ids)
    (hn : Grants m ids f size cell n ids') : ¬ copies f := by
  intro hf
  rcases hn.origin with ⟨hmem, -⟩ | ⟨rfl, -⟩
  · exact (hspare f hmem).2 hf
  · obtain ⟨⟨old, hold⟩, -⟩ := h.held _ hf
    exact Nat.lt_irrefl _ (cell_lt hold)

/-- What is handed out was free in the base with the same size, or comes after its table. -/
lemma placed_of_grants (h : Hosts base m copies) (hids : Threads m ids)
    (hspare : Spares base m copies ids) (hn : Grants m ids f size cell n ids') :
    Placed base f size cell.bytes.length := by
  rcases hn.origin with ⟨hmem, old, hold, hlength⟩ | ⟨rfl, halign⟩
  · have hshape : base.shape? f = some old.shape := by
      rw [← (hspare f hmem).1, shape?, hold]
      rfl
    obtain ⟨first, hfirst, hsame⟩ := Option.map_eq_some_iff.mp hshape
    have hsize : first.bytes.length = old.bytes.length := congrArg Prod.snd hsame
    exact .inl ⟨first, hfirst, h.isFree_of_base (fun _ => hids.isFree hmem) first hfirst,
      hlength.trans hsize.symm⟩
  · refine .inr ⟨?_, halign⟩
    cases hcell : base.cell? m.entityCount with
    | none => rfl
    | some old => exact absurd (Nat.lt_of_lt_of_le (cell_lt hcell) h.count) (Nat.lt_irrefl _)

lemma hosts_of_grants (h : Hosts base m copies) (hids : Threads m ids)
    (hspare : Spares base m copies ids) (hn : Grants m ids f size cell n ids')
    (hcopies : ∀ g, copies g → n.cell? g = m.cell? g) :
    Hosts base n fun g => copies g ∨ g = f := by
  have hbase := h.isFree_of_base fun _ => hn.isFree hids
  refine
    { sound := hn.sound
      policy := hn.policy.trans h.policy
      count := Nat.le_trans h.count hn.count
      coherent := by rw [hn.resources]; exact h.coherent
      spare := ⟨ids', hn.threads, fun id hid => ?_⟩
      kept := fun id old hold hlive => ?_
      files := by rw [hn.resources]; exact h.files
      held := ?_ }
  · obtain ⟨hmem, hne⟩ := hn.listed id hid
    refine ⟨(hn.shape id hne).trans (hspare id hmem).1, ?_⟩
    rintro (hcopy | he)
    · exact (hspare id hmem).2 hcopy
    · exact hne he
  · have hm := h.kept id old hold hlive
    rw [hn.kept id, hm]
    · rintro rfl
      rw [hbase old hold] at hlive
      contradiction
    · intro hmem
      rw [hids.isFree hmem hm] at hlive
      contradiction
  · rintro g (hg | rfl)
    · rw [hcopies g hg]
      exact h.held g hg
    · exact ⟨⟨cell, hn.holds⟩, hbase⟩

lemma adds_of_grants (h : Hosts base m copies) (hids : Threads m ids)
    (hspare : Spares base m copies ids) (hn : Grants m ids f size cell n ids') :
    Adds base m n copies f size cell := by
  have hnew := h.new_of_grants hspare hn
  have hcopies : ∀ g, copies g → n.cell? g = m.cell? g := by
    intro g hg
    refine hn.kept g ?_ fun hmem => (hspare g hmem).2 hg
    rintro rfl
    exact hnew hg
  exact
    { hosts := h.hosts_of_grants hids hspare hn hcopies
      placed := h.placed_of_grants hids hspare hn
      new := hnew
      free := fun _ => hn.isFree hids
      holds := hn.holds
      size_le := hn.size_le
      tail := hn.tail
      copies := hcopies
      shape := hn.shape
      resources := hn.resources }

end Granting

/-- **An allocation for a copy adds an entity that was not live**, or fails for want of space. -/
lemma allocate (h : Hosts base m copies) (size : Nat) (tag : Tag) :
    Ends (allocateWithoutGc size tag) m
      (fun f n => ∃ cell, cell.tag = tag ∧ Adds base m n copies f size cell)
      fun fault _ => (∀ e, base.policy ≠ .fixed (.error e)) → fault = .vmFull := by
  obtain ⟨ids, hids, hspare⟩ := h.spare
  have hallocates := allocates_allocateWithoutGc h.sound hids size tag
  rw [Ends]
  generalize allocateWithoutGc size tag m = result at hallocates
  cases hallocates with
  | refused hfault _ => rw [← h.policy]; exact hfault
  | granted htag hgrants => exact ⟨_, htag, h.adds_of_grants hids hspare hgrants⟩

/-- A copy gets other contents. -/
lemma replaced (h : Hosts base m copies) {f : Nat} (hf : copies f) {cell : Cell}
    (hn : Replaces m n f cell) : Hosts base n copies where
  sound := hn.sound
  policy := hn.policy.trans h.policy
  count := by rw [hn.count]; exact h.count
  coherent := by rw [hn.resources]; exact h.coherent
  spare := by
    obtain ⟨ids, hids, hspare⟩ := h.spare
    have hcells : ∀ id ∈ ids, n.cell? id = m.cell? id := by
      intro id hid
      rw [hn.cell, if_neg]
      rintro rfl
      exact (hspare id hid).2 hf
    refine ⟨ids, hids.congr hn.head hcells, fun id hid => ⟨?_, (hspare id hid).2⟩⟩
    rw [shape?, hcells id hid]
    exact (hspare id hid).1
  kept := by
    intro id old hold hlive
    rw [hn.cell, if_neg, h.kept id old hold hlive]
    rintro rfl
    rw [(h.held id hf).2 old hold] at hlive
    contradiction
  files := by rw [hn.resources]; exact h.files
  held := by
    intro g hg
    refine ⟨?_, (h.held g hg).2⟩
    rw [hn.cell]
    split
    · exact ⟨cell, rfl⟩
    · exact (h.held g hg).1

/-- A file is opened, in a slot that was empty. -/
lemma opened (h : Hosts base m copies) (handle : Handle) :
    Hosts base { m with resources := (m.resources.insert handle).2 } copies where
  sound := ((Change.opened handle).carries h.sound).sound h.sound
  policy := h.policy
  count := h.count
  coherent := h.coherent.insert handle
  spare := by
    obtain ⟨ids, hids, hspare⟩ := h.spare
    exact ⟨ids, hids.congr rfl fun _ _ => rfl, hspare⟩
  kept := h.kept
  files := by
    intro slot other hslot
    have hm := h.files slot other hslot
    rw [h.coherent.occupant?_insert, if_neg, hm]
    rintro rfl
    rw [h.coherent.occupant?_insert_fst] at hm
    contradiction
  held := h.held

lemma mono {copies' : Nat → Prop} (h : Hosts base m copies) (hcopies : ∀ f, copies f ↔ copies' f) :
    Hosts base m copies' := by
  have he : copies = copies' := funext fun f => propext (hcopies f)
  rw [← he]
  exact h

end Hosts

/-! ## Filling a copy -/

namespace Transfer

lemma ends_onTarget {α : Type} {x : MemoryM α} {s : Transfer × Memory}
    {ok : α → Transfer × Memory → Prop} {err : Fault → Transfer × Memory → Prop}
    (h : Ends x s.2 (fun a m => ok a (s.1, m)) fun fault m => err fault (s.1, m)) :
    Ends (onTarget x) s ok err :=
  Ends.focus h

/-- The entity can be copied: its bytes can be read, or its file can be opened again. -/
structure Readable (source : Memory) (e : Nat) (row : Row) : Prop where
  file : row.tag.ownsResource = true → ∃ handle, source.handleOf e = .ok handle
  data : row.tag.ownsResource = false → 0 < row.size → ∃ bytes, source.bytes e = .ok bytes

/-- The bytes of a copy that was filled, from what it held before. -/
inductive Filled (source : Memory) (e : Nat) (row : Row) (before : List UInt8)
    (table : ResourceTable) : List UInt8 → ResourceTable → Prop
  | file {handle : Handle} (howns : row.tag.ownsResource = true)
      (hhandle : source.handleOf e = .ok handle) (hroom : linkSize ≤ row.size) :
      Filled source e row before table (patched before 0 (wordBytes (table.insert handle).1))
        (table.insert handle).2
  | data {data : List UInt8} (hplain : row.tag.ownsResource = false) (hsize : 0 < row.size)
      (hdata : source.bytes e = .ok data) : Filled source e row before table (patched before 0 data) table
  | empty (hplain : row.tag.ownsResource = false) (hsize : row.size = 0) :
      Filled source e row before table before table

variable {source base : Memory} {copies : Nat → Prop} {s : Transfer × Memory} {e f : Nat} {row : Row}
  {cell : Cell}

/-- The target holds other bytes in one copy. -/
structure Refilled (base : Memory) (copies : Nat → Prop) (m n : Memory) (f : Nat) (cell : Cell)
    (bytes : List UInt8) : Prop where
  hosts : Hosts base n copies
  cells : ∀ j, n.cell? j = if j = f then some ⟨cell.tag, bytes⟩ else m.cell? j
  length : bytes.length = cell.bytes.length

lemma refilled_self (h : Hosts base s.2 copies) (hcell : s.2.cell? f = some cell) :
    Refilled base copies s.2 s.2 f cell cell.bytes := by
  refine ⟨h, fun j => ?_, rfl⟩
  split
  · next he =>
    subst he
    exact hcell
  · rfl

lemma refilled_put {m : Memory} (h : Hosts base m copies) (hf : copies f)
    (hcell : m.cell? f = some cell) {offset : Nat} {bytes : List UInt8}
    (hfit : offset + bytes.length ≤ cell.bytes.length) :
    ∃ n, put f offset bytes m = .ok () n ∧ n.resources = m.resources ∧
      Refilled base copies m n f cell (patched cell.bytes offset bytes) := by
  obtain ⟨n, hrun, hn⟩ := put_replaces h.sound hcell hfit
  exact ⟨n, hrun, hn.resources, h.replaced hf hn, hn.cell, length_patched hfit⟩

/-- **A new copy holds what the source has**, and only a source that cannot be read is refused. -/
lemma ends_fill (h : Hosts base s.2 copies) (hf : copies f) (hcell : s.2.cell? f = some cell)
    (hrow : source.row e = .ok row) (hsize : row.size ≤ cell.bytes.length) :
    Ends (fill source e f row) s
      (fun _ s' => s'.1 = s.1 ∧ ∃ bytes, Refilled base copies s.2 s'.2 f cell bytes ∧
        Filled source e row cell.bytes s.2.resources bytes s'.2.resources)
      fun _ s' => s'.1 = s.1 ∧ ¬ Readable source e row := by
  rw [fill]
  split
  · next howns =>
    refine Ends.bind (Ends.query (fun slot hslot => ?_) fun fault hslot => ⟨rfl, fun hreadable => ?_⟩)
    · refine Ends.bind (Ends.query (fun handle hhandle => ?_)
        fun fault hhandle => ⟨rfl, fun hreadable => ?_⟩)
      · have hroom := le_of_resourceSlot hrow hslot
        have hfit : 0 + (wordBytes (s.2.resources.insert handle).1).length ≤ cell.bytes.length := by
          rw [length_wordBytes]
          simp only [linkSize] at hroom
          omega
        obtain ⟨n, hrun, hresources, hn⟩ :=
          refilled_put (h.opened handle) hf hcell hfit
        refine Ends.bind (ends_onTarget (Ends.of_ok rfl (ends_onTarget (Ends.of_ok hrun ?_))))
        refine ⟨rfl, _, ⟨hn.hosts, hn.cells, hn.length⟩, ?_⟩
        rw [hresources]
        refine .file howns ?_ hroom
        rw [handleOf, hslot]
        exact hhandle
      · obtain ⟨handle, hok⟩ := hreadable.file howns
        rw [handleOf, hslot] at hok
        have hclash : Except.ok handle = Except.error fault := hok.symm.trans hhandle
        contradiction
    · obtain ⟨handle, hok⟩ := hreadable.file howns
      rw [handleOf, hslot] at hok
      contradiction
  · next hplain =>
    rw [Bool.not_eq_true] at hplain
    split
    · next hpos =>
      refine Ends.bind (Ends.query (fun data hdata => ?_)
        fun fault hdata => ⟨rfl, fun hreadable => ?_⟩)
      · have hfit : 0 + data.length ≤ cell.bytes.length := by
          rw [length_of_bytes hrow hdata]
          omega
        obtain ⟨n, hrun, hresources, hn⟩ := refilled_put h hf hcell hfit
        refine ends_onTarget (Ends.of_ok hrun ⟨rfl, _, hn, ?_⟩)
        rw [hresources]
        exact .data hplain hpos hdata
      · obtain ⟨bytes, hok⟩ := hreadable.data hplain hpos
        have hclash : Except.ok bytes = Except.error fault := hok.symm.trans hdata
        contradiction
    · next hpos =>
      exact Ends.pure ⟨rfl, _, refilled_self h hcell, .empty hplain (by omega)⟩

end Transfer

end PostScriptCore
