import PostScriptCore.Proofs.Memory.Moves

/-!
# Relations that operations follow

Operations are put together from a few single steps.  A relation between memories that holds from one end of these
to the other therefore holds from one end of an operation to the other, whether it succeeds or fails.  The more a
relation ignores, the fewer steps have to be looked at.

* `Memory.IgnoresContents` — bytes, files and what a row says beside its save levels do not matter.
* `Memory.IgnoresRecycling`, `Memory.IgnoresAllocation` — nor does it matter that entities are freed and recycled,
  and that rows are added.
* `Memory.IgnoresCountdown` — nor how far away the next collection is.
* `Memory.IgnoresRows` — nothing in a row matters, so that freeing and recycling come for free.

Each class is followed by the operations that it is enough for.
-/

namespace PostScriptCore

/-! ## Arenas -/

/-- The arenas differ in their bytes only. -/
def Arena.Repaints (a b : Arena) : Prop := ∃ image, b = { a with image }

lemma Arena.repaints_write (offset : Nat) (bytes : List UInt8) :
    Follows Repaints (Arena.write offset bytes) := by
  intro a
  cases hobstacle : a.obstacle? offset bytes.length with
  | some fault => exact Ends.of_error (by rw [Arena.write, hobstacle]) ⟨_, rfl⟩
  | none => exact Ends.of_ok (by rw [Arena.write, hobstacle]) ⟨_, rfl⟩

lemma Arena.repaints_zero (offset count : Nat) : Follows Repaints (Arena.zero offset count) := by
  intro a
  cases hobstacle : a.obstacle? offset count with
  | some fault => exact Ends.of_error (by rw [Arena.zero, hobstacle]) ⟨_, rfl⟩
  | none => exact Ends.of_ok (by rw [Arena.zero, hobstacle]) ⟨_, rfl⟩

lemma Arena.repaints_copyWithin (source target count : Nat) :
    Follows Repaints (Arena.copyWithin source target count) := by
  intro a
  by_cases hbounds : ¬ a.inBounds source count
  · exact Ends.of_error (if_pos hbounds) ⟨_, rfl⟩
  · cases hobstacle : a.obstacle? target count with
    | some fault => exact Ends.of_error (by rw [Arena.copyWithin, if_neg hbounds, hobstacle]) ⟨_, rfl⟩
    | none => exact Ends.of_ok (by rw [Arena.copyWithin, if_neg hbounds, hobstacle]) ⟨_, rfl⟩

/-- The save levels in the mark of a row. -/
def Row.dates (row : Row) : Fin 4096 × Fin 4096 := (row.mark.created, row.mark.snapshot)

lemma size_eq_of_dates {rows rows' : Array Row}
    (h : ∀ id : Nat, rows[id]?.map Row.dates = rows'[id]?.map Row.dates) : rows.size = rows'.size := by
  have hmap : rows.map Row.dates = rows'.map Row.dates :=
    Array.ext_getElem? fun id => by rw [Array.getElem?_map, Array.getElem?_map, h]
  rw [← Array.size_map (f := Row.dates), hmap, Array.size_map]

namespace Memory

variable {R : Memory → Memory → Prop}

/-! ## Contents -/

/-- A relation that does not look at bytes, at files and at what rows say beside their save levels, and that holds
when an entity is remembered. -/
class IgnoresContents (R : Memory → Memory → Prop) : Prop extends Std.Refl R, IsTrans Memory R where
  contents : ∀ (m : Memory) (rows : Array Row) (image : Image) (resources : ResourceTable),
    (∀ id : Nat, rows[id]?.map Row.dates = m.rows[id]?.map Row.dates) →
      R m { m with rows, arena := { m.arena with image }, resources }
  touch : ∀ id, Follows R (touch id)

section Contents

variable [IgnoresContents R]

lemma follows_repaint {α : Type} {x : EStateM Fault Arena α} (hx : Follows Arena.Repaints x) :
    Follows R (onArena x) := by
  have hrepaint (m : Memory) {arena : Arena} (harena : m.arena.Repaints arena) : R m { m with arena } := by
    obtain ⟨image, rfl⟩ := harena
    exact IgnoresContents.contents m m.rows image m.resources fun _ => rfl
  exact fun m => Ends.focus (Ends.mono (hx m.arena) (fun _ _ => hrepaint m) fun _ _ => hrepaint m)

lemma related_resources (m : Memory) (resources : ResourceTable) : R m { m with resources } :=
  IgnoresContents.contents m m.rows m.arena.image resources fun _ => rfl

lemma related_modify (m : Memory) (id : Nat) {f : Row → Row}
    (hf : ∀ row, m.rows[id]? = some row → (f row).dates = row.dates) :
    R m { m with rows := m.rows.modify id f } := by
  refine IgnoresContents.contents m _ m.arena.image m.resources fun j => ?_
  rw [Array.getElem?_modify]
  split
  · next he =>
    subst he
    rw [Option.map_map]
    exact Option.map_congr fun row hrow => hf row hrow
  · rfl

/-- Marking is not seen. -/
lemma related_of_marks {m n : Memory} (h : Marks m n) : R m n := by
  rw [h.frame]
  refine IgnoresContents.contents m n.rows m.arena.image m.resources fun id => ?_
  have hrows := congrArg (Option.map Row.dates) (h.rows id)
  rw [Option.map_map, Option.map_map] at hrows
  exact hrows

lemma follows_changeRow (id : Nat) {f : Row → Row} (hf : ∀ row, (f row).dates = row.dates) :
    Follows R (changeRow id f) :=
  .bind (IgnoresContents.touch id) fun _ => .bind (.map (.query _) _) fun _ =>
    .modify fun m => related_modify m id fun row _ => hf row

lemma follows_put (id offset : Nat) (bytes : List UInt8) : Follows R (put id offset bytes) :=
  .bind (.query _) fun _ => .bind (IgnoresContents.touch id) fun _ => follows_repaint (Arena.repaints_write _ _)

lemma follows_putZeros (id : Nat) : Follows R (putZeros id) :=
  .bind (.query _) fun _ => .bind (.query _) fun _ => .bind (IgnoresContents.touch id) fun _ =>
    follows_repaint (Arena.repaints_zero _ _)

/-- Counting a pin is not seen. -/
lemma ends_setRefcount {m : Memory} {id : Nat} {row : Row} (hrow : m.row id = .ok row) (count : Nat) :
    Ends (setMark id (row.mark.withRefcount count)) m (fun _ n => R m n) fun _ n => R m n := by
  have hrow' := row_eq_ok_iff.mp hrow
  refine Ends.of_ok (setMark_run hrow' _) (related_modify m id fun r hr => ?_)
  obtain rfl := Option.some.inj (hrow'.symm.trans hr)
  rfl

lemma follows_retain (id : Nat) : Follows R (retain id) := by
  refine fun m => Ends.bind (Ends.query (fun row hrow => ?_) fun _ _ => Std.Refl.refl m)
  split
  · exact Std.Refl.refl m
  · exact ends_setRefcount hrow _

lemma follows_release (id : Nat) : Follows R (release id) := by
  refine fun m => Ends.bind (Ends.query (fun row hrow => ?_) fun _ _ => Std.Refl.refl m)
  split
  · exact Std.Refl.refl m
  · exact ends_setRefcount hrow _

lemma follows_releaseResourceOf (id : Nat) : Follows R (modify fun m => m.releaseResourceOf id : MemoryM Unit) := by
  refine .modify fun m => ?_
  rw [releaseResourceOf_eq]
  exact related_resources m _

lemma follows_writeLink (previous next : Nat) : Follows R (writeLink previous next) :=
  .ite (follows_changeRow _ fun _ => rfl) (follows_put _ _ _)

lemma follows_markFrom (steps : Nat) (stack : List Nat) : Follows R (markFrom steps stack) := by
  induction steps generalizing stack with
  | zero => exact .pure _
  | succ steps ih =>
      cases stack with
      | nil => exact .pure _
      | cons id rest =>
          refine .bind .get fun m => .ite ?_ (ih rest)
          exact .bind (.modify fun m => related_of_marks (marks_setMarked m id)) fun _ =>
            .bind (.query _) fun _ => ih _

lemma follows_arrayPut (array : Object) (index : Nat) (value : Object) :
    Follows R (arrayPut array index value) :=
  .bind (.query _) fun _ => .ite (.throw_bind _) (.ite (.throw_bind _)
    (.bind (.query _) fun _ => follows_put _ _ _))

lemma follows_putElements (array : Object) (index : Nat) (elements : List Object) :
    Follows R (putElements array index elements) := by
  induction elements generalizing index with
  | nil => exact .pure _
  | cons obj rest ih => exact .bind (follows_arrayPut _ _ _) fun _ => ih _

lemma follows_dictPut (dict key value : Object) : Follows R (dictPut dict key value) := by
  refine .bind (.query _) fun id => .ite (.throw_bind _) (.ite (.throw_bind _) ?_)
  refine .bind (.query _) fun slot => ?_
  split
  · exact .throw _
  all_goals exact .bind (follows_put _ _ _) fun _ => follows_put _ _ _

end Contents

/-! ## Freeing and recycling -/

/-- A relation that also holds when entities are freed and handed out again. -/
class IgnoresRecycling (R : Memory → Memory → Prop) : Prop extends IgnoresContents R where
  free : ∀ id, Follows R (free id)
  reuse : ∀ id tag, Follows R (reuse id tag)

section Recycling

variable [IgnoresRecycling R]

lemma follows_moveContents (id oldSize target newSize : Nat) :
    Follows R (moveContents id oldSize target newSize) := by
  refine .ite (.bind (.query _) fun _ => .bind (.query _) fun _ =>
    .bind (follows_repaint (Arena.repaints_copyWithin _ _ _)) fun _ => ?_) ?_
  all_goals exact .bind (IgnoresRecycling.free id) fun _ => .pure _

lemma follows_sweepList (ids : List Nat) : Follows R (sweepList ids) := by
  induction ids with
  | nil => exact .pure _
  | cons id rest ih =>
      refine .bind (.query _) fun row => .ite ?_ ih
      exact .bind (IgnoresRecycling.free id) fun _ => .bind ih fun _ => .pure _

lemma follows_markSweep (roots : List Object) (sweeping markAll : Bool) :
    Follows R (markSweep roots sweeping markAll) := by
  have hrows {f : Row → Row} (hf : ∀ row, (f row).unmarked = row.unmarked) :
      Follows R (modify fun m => m.mapRows f : MemoryM Unit) :=
    .modify fun m => related_of_marks (marks_mapRows m hf)
  rw [markSweep_eq]
  refine .bind (.ite (hrows fun row => ?_) (.bind .get fun _ => follows_markFrom _ _)) fun _ =>
    .bind (.ite ?_ (.pure 0)) fun _ => .bind (hrows fun _ => rfl) fun _ => .pure _
  · split <;> rfl
  · exact .bind .get fun _ => follows_sweepList _

/-- **A collection** marks, frees and clears. -/
lemma follows_collect (roots : List Object) (sweeping markAll : Bool) :
    Follows R (collect roots sweeping markAll) := by
  intro m
  rw [Ends, collect]
  cases m.collector with
  | none => exact Std.Refl.refl m
  | some collector =>
      cases collector with
      | markSweep => exact follows_markSweep roots sweeping markAll m
      | failing fault => exact Std.Refl.refl m

end Recycling

/-- A relation that holds also if the countdown to the next collection changes. -/
class IgnoresCountdown (R : Memory → Memory → Prop) : Prop where
  countdown : ∀ m count, R m { m with gcCountdown := count }

/-! ## Searching -/

lemma follows_countMiss [IgnoresCountdown R] : Follows R countMiss := by
  intro m
  by_cases h : m.gcCountdown ≤ 1
  · exact Ends.of_ok (if_pos h) (IgnoresCountdown.countdown m m.gcPeriod)
  · exact Ends.of_ok (if_neg h) (IgnoresCountdown.countdown m (m.gcCountdown - 1))

lemma follows_firstFit [IgnoresRecycling R] [IgnoresCountdown R] (size : Nat) (tag : Tag) :
    Follows R (firstFit size tag) := by
  refine .bind (.query _) fun found => ?_
  split
  · refine .bind (follows_writeLink _ _) fun _ => .bind (IgnoresRecycling.reuse _ _) fun _ => ?_
    exact .bind (.modify fun m => IgnoresCountdown.countdown m m.gcPeriod) fun _ => .pure _
  · exact follows_countMiss

lemma follows_findStorage [IgnoresRecycling R] [IgnoresCountdown R] (size : Nat) (tag : Tag) :
    Follows R (findStorage size tag) := by
  intro m
  rw [Ends, findStorage]
  cases m.policy with
  | firstFit => exact follows_firstFit size tag m
  | fixed answer =>
      cases answer with
      | ok fit => exact Std.Refl.refl m
      | error fault => exact Std.Refl.refl m

/-! ## Allocating -/

/-- A relation that also holds when a row is added. -/
class IgnoresAllocation (R : Memory → Memory → Prop) : Prop extends IgnoresRecycling R where
  tableAlloc : ∀ size tag, Follows R (tableAlloc size tag)

section Allocation

variable [IgnoresAllocation R] [IgnoresCountdown R]

lemma follows_allocateWithoutGc (size : Nat) (tag : Tag) : Follows R (allocateWithoutGc size tag) := by
  refine .bind (follows_findStorage size tag) fun fit => ?_
  split
  · exact .pure _
  · exact IgnoresAllocation.tableAlloc size tag

lemma follows_allocate (size : Nat) (tag : Tag) (roots : List Object) :
    Follows R (allocate size tag roots) := by
  refine .bind (follows_findStorage size tag) fun fit => ?_
  split
  · exact .pure _
  · exact .bind (.attempt (follows_collect roots true false)) fun _ => follows_allocateWithoutGc size tag
  · exact IgnoresAllocation.tableAlloc size tag

lemma follows_realloc (id newSize : Nat) (roots : List Object) : Follows R (realloc id newSize roots) :=
  .bind (.query _) fun _ => .bind (follows_allocate _ _ _) fun _ => follows_moveContents _ _ _ _

lemma follows_reallocWithoutGc (id newSize : Nat) : Follows R (reallocWithoutGc id newSize) :=
  .bind (.query _) fun _ => .bind (follows_allocateWithoutGc _ _) fun _ => follows_moveContents _ _ _ _

lemma follows_newString (bytes : List UInt8) (roots : List Object) : Follows R (newString bytes roots) :=
  .ite (.throw_bind _) (.bind (follows_allocate _ _ _) fun _ => .bind (follows_put _ _ _) fun _ =>
    .bind .get fun _ => .pure _)

lemma follows_newElements (kind : Kind) (ty : ObjectType) (width length : Nat) (roots : List Object) :
    Follows R (newElements kind ty width length roots) :=
  .ite (.throw_bind _) (.bind (follows_allocate _ _ _) fun _ => .bind .get fun _ => .pure _)

lemma follows_newFile (handle : Handle) (writable : Bool) (roots : List Object) :
    Follows R (newFile handle writable roots) := by
  refine .bind (follows_allocate _ _ _) fun _ => .bind (fun m => ?_) fun _ => ?_
  · exact related_resources m (m.resources.insert handle).2
  · exact .bind (follows_put _ _ _) fun _ => .bind .get fun _ => .pure _

lemma follows_newProc (elements roots : List Object) : Follows R (newProc elements roots) :=
  .ite (.throw_bind _) (.bind (follows_newElements _ _ _ _ _) fun _ =>
    .bind (follows_putElements _ _ _) fun _ => .pure _)

end Allocation

/-- A relation that holds when entities are allocated and written without a collection and files are opened. -/
class AllowsCopies (R : Memory → Memory → Prop) : Prop extends Std.Refl R, IsTrans Memory R where
  allocate : ∀ size tag, Follows R (allocateWithoutGc size tag)
  put : ∀ id offset bytes, Follows R (put id offset bytes)
  insert : ∀ (m : Memory) (handle : Handle), R m { m with resources := (m.resources.insert handle).2 }

instance [IgnoresAllocation R] [IgnoresCountdown R] : AllowsCopies R where
  allocate := follows_allocateWithoutGc
  put := follows_put
  insert m handle := related_resources m (m.resources.insert handle).2

/-! ## Rows -/

/-- A relation that looks at no more of the rows than how many there are, and at neither bytes, files nor save
levels. -/
class IgnoresRows (R : Memory → Memory → Prop) : Prop extends Std.Refl R, IsTrans Memory R where
  storage : ∀ (m : Memory) (rows : Array Row) (image : Image) (saves : List SaveRecord)
    (resources : ResourceTable), rows.size = m.rows.size →
      R m { m with rows, arena := { m.arena with image }, saves, resources }

section Rows

variable [IgnoresRows R]

lemma follows_modifyRow (id : Nat) (f : Row → Row) : Follows R (modifyRow id f) :=
  .modify fun m => IgnoresRows.storage m _ m.arena.image m.saves m.resources Array.size_modify

lemma follows_touch (id : Nat) : Follows R (touch id) := by
  refine .bind (.query _) fun snapshot => ?_
  split
  · exact .pure _
  · exact .bind (.modify fun m => IgnoresRows.storage m m.rows m.arena.image _ m.resources rfl) fun _ =>
      .bind .get fun _ => follows_modifyRow _ _

instance : IgnoresContents R where
  refl := Std.Refl.refl
  trans := IsTrans.trans
  contents m rows image resources hdates :=
    IgnoresRows.storage m rows image m.saves resources (size_eq_of_dates hdates)
  touch := follows_touch

lemma follows_setMark (id : Nat) (mark : Mark) : Follows R (setMark id mark) :=
  .bind (.map (.query _) _) fun _ => follows_modifyRow _ _

instance : IgnoresRecycling R where
  free id := by
    refine .bind (.query _) fun _ => .ite (.throw_bind _) ?_
    refine .bind (follows_releaseResourceOf id) fun _ => .bind (.query _) fun _ => ?_
    refine .bind (follows_changeRow _ fun _ => rfl) fun _ => .bind (follows_put _ _ _) fun _ => ?_
    exact .bind (follows_setMark _ _) fun _ => follows_changeRow _ fun _ => rfl
  reuse id tag :=
    .bind (follows_changeRow _ fun _ => rfl) fun _ => .bind (follows_putZeros _) fun _ => .bind .get fun _ =>
      follows_setMark _ _

end Rows

end Memory

end PostScriptCore
