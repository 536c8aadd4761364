import PostScriptCore.Proofs.Memory.Effect
import PostScriptCore.Memory.Composite
import Mathlib.Logic.Relation

/-!
# What operations may do

Between two openings or closings of levels, an operation changes a memory by a few kinds of steps.
They are listed once, and what an operation does is a sequence of them, whether it succeeds or fails.

* `Memory.Change` — the kinds of steps that hand out nothing.
* `Memory.Alloc` — an entity is handed out.
* `Memory.Marks` — a change of collector bits, which only a collection makes.
* `Memory.Move`, `Memory.Moves` — a step, an allocation or a whole collection, and sequences of them;
  the entities they may hand out are a parameter.
* `Memory.Change.carries`, `Memory.Moves.carries` — closing the innermost level undoes them all.
-/

namespace PostScriptCore

/-- The row without its pins. -/
def Row.unpinned (row : Row) : Row := { row with mark := row.mark.withRefcount 0 }

/-- The row without its collector bit. -/
def Row.unmarked (row : Row) : Row := { row with mark := row.mark.withMarked false }

lemma Row.plain_unpinned (row : Row) : row.unpinned.plain = row.plain := rfl

lemma Row.plain_unmarked (row : Row) : row.unmarked.plain = row.plain := rfl

namespace Memory

/-! ## Steps -/

/-- Only pins, the countdown to the next collection or the choice of search and collector
changed. -/
structure Idle (m n : Memory) : Prop where
  arena : n.arena = m.arena
  saves : n.saves = m.saves
  resources : n.resources = m.resources
  policy : n.policy.Honest
  rows : ∀ id : Nat, n.rows[id]?.map Row.unpinned = m.rows[id]?.map Row.unpinned

/-- Only collector bits changed. -/
structure Marks (m n : Memory) : Prop where
  frame : n = { m with rows := n.rows }
  rows : ∀ id : Nat, n.rows[id]?.map Row.unmarked = m.rows[id]?.map Row.unmarked

/-- One step of an operation. -/
inductive Change (m : Memory) : Memory → Prop
  | idle {n : Memory} (h : Idle m n) : Change m n
  /-- A file is put into a slot. -/
  | opened (handle : Handle) : Change m { m with resources := (m.resources.insert handle).2 }
  | remembered {id : Nat} (hid : id < m.entityCount) : Change m (m.touched id)
  | wrote {id : Nat} {row : Row} (offset : Nat) (bytes : List UInt8) (hrow : m.rows[id]? = some row)
      (hfit : offset + bytes.length ≤ row.size) :
      Change m (m.overwritten id (row.address + offset) bytes)
  | relinked (head : Nat) : Change m (m.linked head)
  | freed {id : Nat} {row : Row} (head : Nat) (hid : id ≠ 0) (hrow : m.rows[id]? = some row)
      (hsize : linkSize ≤ row.size) (hlive : row.isFree = false) : Change m (m.retired id row head)

/-- An entity is handed out, from the free list or from the end of the table. -/
inductive Alloc (m : Memory) : Nat → Memory → Prop
  | reused {id : Nat} {row : Row} (tag : Tag) (hid : id ≠ 0) (hrow : m.rows[id]? = some row) :
      Alloc m id (m.recycled id row tag)
  | added {row : Row} {arena : Arena} (h : Extends m row arena) :
      Alloc m m.entityCount (m.pushed row arena)

/-- A step, an allocation of an entity in `A`, or one whole collection. -/
inductive Move (A : Nat → Prop) (m : Memory) : Memory → Prop
  | change {n : Memory} (h : Change m n) : Move A m n
  | alloc {id : Nat} {n : Memory} (hid : A id) (h : Alloc m id n) : Move A m n
  | collected (roots : List Object) (sweeping markAll : Bool) :
      Move A m (finalState (collect roots sweeping markAll) m)

/-- Any number of moves that hand out entities in `A` only. -/
abbrev Moves (A : Nat → Prop) : Memory → Memory → Prop := Relation.ReflTransGen (Move A)

/-- Any number of steps and changes of collector bits: what a collection does. -/
abbrev Sweeps : Memory → Memory → Prop :=
  Relation.ReflTransGen fun m n => Change m n ∨ Marks m n

lemma outline_eq_of_map {m n : Memory} {f : Row → Row} (hf : ∀ row, (f row).plain = row.plain)
    {id : Nat} (h : n.rows[id]?.map f = m.rows[id]?.map f) : n.outline id = m.outline id := by
  have hcomp : Row.plain = Row.plain ∘ f := funext fun row => (hf row).symm
  rw [outline, outline, hcomp, ← Option.map_map, ← Option.map_map, h]

lemma Change.carries {m n : Memory} (hs : Sound m) (h : Change m n) : Carries m n := by
  cases h with
  | idle h =>
      exact carries_of_outline hs h.arena h.saves h.policy fun id =>
        outline_eq_of_map Row.plain_unpinned (h.rows id)
  | opened handle => exact carries_of_outline hs rfl rfl hs.policy fun _ => rfl
  | remembered hid => exact (carries_touched hs hid).1
  | wrote offset bytes hrow hfit => exact carries_amended hs (alters_overwritten hrow hfit)
  | relinked head =>
      obtain ⟨row, hrow, -⟩ := hs.head
      exact carries_amended hs (alters_linked hrow head)
  | freed head hid hrow hsize hlive => exact carries_retired hs hrow hsize head

lemma Alloc.carries {m n : Memory} {id : Nat} (hs : Sound m) (h : Alloc m id n) : Carries m n := by
  cases h with
  | reused tag hid hrow => exact carries_amended hs (alters_recycled hs hrow tag)
  | added h => exact carries_pushed hs h

lemma Marks.carries {m n : Memory} (hs : Sound m) (h : Marks m n) : Carries m n :=
  carries_of_outline hs (by rw [h.frame]) (by rw [h.frame]) (by rw [h.frame]; exact hs.policy)
    fun id => outline_eq_of_map Row.plain_unmarked (h.rows id)

lemma Sweeps.carries {m n : Memory} (hs : Sound m) (h : Sweeps m n) : Carries m n := by
  induction h with
  | refl => exact .refl hs
  | tail _ hstep ih =>
      rcases hstep with hstep | hstep
      · exact ih.trans (hstep.carries (ih.sound hs))
      · exact ih.trans (hstep.carries (ih.sound hs))

/-! ## Collections -/

/-- The operation only sweeps, whatever its outcome. -/
def OnlySweeps {α : Type} (x : MemoryM α) (m : Memory) : Prop :=
  Ends x m (fun _ n => Sweeps m n) (fun _ n => Sweeps m n)

lemma OnlySweeps.bind {α β : Type} {x : MemoryM α} {f : α → MemoryM β} {m : Memory}
    (hs : Sound m) (hx : OnlySweeps x m)
    (hf : ∀ a n, Sound n → Sweeps m n → OnlySweeps (f a) n) : OnlySweeps (x >>= f) m := by
  refine Ends.bind (Ends.mono hx (fun a n hn => ?_) fun _ _ hn => hn)
  exact Ends.mono (hf a n (hn.carries hs |>.sound hs) hn) (fun _ _ hk => hn.trans hk)
    fun _ _ hk => hn.trans hk

lemma OnlySweeps.pure {α : Type} {a : α} {m : Memory} :
    OnlySweeps (Pure.pure a : MemoryM α) m :=
  Relation.ReflTransGen.refl

lemma OnlySweeps.query {α : Type} {f : Memory → Except Fault α} {m : Memory} :
    OnlySweeps (PostScriptCore.query f) m :=
  Ends.query (fun _ _ => .refl) fun _ _ => .refl

lemma marks_setMarked (m : Memory) (id : Nat) :
    Marks m { m with rows := m.rows.modify id fun row =>
      { row with mark := row.mark.withMarked true } } where
  frame := rfl
  rows := by
    intro j
    rw [Array.getElem?_modify]
    split
    · rw [Option.map_map]
      rfl
    · rfl

lemma marks_mapRows (m : Memory) {f : Row → Row} (hf : ∀ row, (f row).unmarked = row.unmarked) :
    Marks m (m.mapRows f) where
  frame := rfl
  rows := by
    intro j
    rw [mapRows, Array.getElem?_mapIdx, Option.map_map]
    congr 1
    funext row
    simp only [Function.comp_apply]
    split
    · rfl
    · exact hf row

lemma onlySweeps_markFrom (steps : Nat) (stack : List Nat) {m : Memory} (hs : Sound m) :
    OnlySweeps (markFrom steps stack) m := by
  induction steps generalizing stack m with
  | zero => exact .pure
  | succ steps ih =>
      cases stack with
      | nil => exact .pure
      | cons id rest =>
          refine Ends.bind (Ends.get ?_)
          split
          · have hmarks := marks_setMarked m id
            have hs' := (hmarks.carries hs).sound hs
            have hset : OnlySweeps (setMarked id) m := .single (.inr hmarks)
            refine OnlySweeps.bind hs hset fun _ n hn _ => ?_
            exact .bind hn .query fun children k hk _ => ih _ hk
          · exact ih rest hs

/-- Freeing refuses, or it links the entity and makes it the head of the list. -/
lemma free_cases (id : Nat) {m : Memory} (hs : Sound m) :
    (∃ fault, free id m = .error fault m) ∨
    ∃ row head, id ≠ 0 ∧ m.rows[id]? = some row ∧ linkSize ≤ row.size ∧ row.isFree = false ∧
      m.rows[0]? = some head ∧ free id m = .ok () ((m.retired id row head.address).linked id) := by
  rcases Nat.lt_or_ge id m.entityCount with hid | hid
  · obtain ⟨row, hrow⟩ := exists_row hid
    obtain ⟨head, hhead, -⟩ := hs.head
    by_cases hguard : id = 0 ∨ row.size < linkSize ∨ row.isFree = true
    · refine .inl ⟨.invalidAccess, (bind_ok (query_ok (s := m) (row_ok hrow))).trans ?_⟩
      rw [if_pos hguard]
      rfl
    · simp only [not_or, Nat.not_lt, Bool.not_eq_true] at hguard
      obtain ⟨h0, hsize, hlive⟩ := hguard
      exact .inr ⟨row, head, h0, hrow, hsize, hlive, hhead,
        free_run hs h0 hrow hsize hlive hhead⟩
  · exact .inl ⟨.invalidEntity id, bind_error (query_error (s := m) (row_error hid))⟩

lemma onlySweeps_free (id : Nat) {m : Memory} (hs : Sound m) : OnlySweeps (free id) m := by
  rcases free_cases id hs with ⟨fault, hrun⟩ | ⟨row, head, h0, hrow, hsize, hlive, -, hrun⟩
  · exact Ends.of_error hrun .refl
  · exact Ends.of_ok hrun
      (.tail (.single (.inl (.freed _ h0 hrow hsize hlive))) (.inl (.relinked id)))

lemma onlySweeps_sweepList (ids : List Nat) {m : Memory} (hs : Sound m) :
    OnlySweeps (sweepList ids) m := by
  induction ids generalizing m with
  | nil => exact .pure
  | cons id rest ih =>
      refine OnlySweeps.bind hs .query fun row n hn _ => ?_
      split
      · refine .bind hn (onlySweeps_free id hn) fun _ k hk _ => ?_
        exact .bind hk (ih hk) fun _ _ _ _ => .pure
      · exact ih hn

/-- A collection as three phases. -/
lemma markSweep_eq (roots : List Object) (sweeping markAll : Bool) :
    markSweep roots sweeping markAll =
      (if markAll then markEverything else mark roots) >>= fun _ =>
        (if sweeping then sweep else pure 0) >>= fun reclaimed =>
          clearMarks >>= fun _ => pure reclaimed := by
  cases markAll <;> cases sweeping <;> rfl

lemma onlySweeps_collect (roots : List Object) (sweeping markAll : Bool) {m : Memory}
    (hs : Sound m) : OnlySweeps (collect roots sweeping markAll) m := by
  cases hcollector : m.collector with
  | none =>
      refine Ends.of_ok (a := 0) (t := m) ?_ .refl
      rw [collect, hcollector]
  | some collector =>
      cases collector with
      | failing fault =>
          refine Ends.of_error (e := fault) (t := m) ?_ .refl
          rw [collect, hcollector]
      | markSweep =>
          have hrun : collect roots sweeping markAll m = markSweep roots sweeping markAll m := by
            rw [collect, hcollector]
          rw [OnlySweeps, Ends, hrun, markSweep_eq]
          have hmark : OnlySweeps (if markAll then markEverything else mark roots) m := by
            split
            · refine .single (.inr (marks_mapRows m fun row => ?_))
              split <;> rfl
            · exact onlySweeps_markFrom _ _ hs
          refine OnlySweeps.bind hs hmark fun _ n hn _ => ?_
          refine OnlySweeps.bind hn ?_ fun _ k hk _ => ?_
          · split
            · exact onlySweeps_sweepList _ hn
            · exact .pure
          · exact .bind hk (.single (.inr (marks_mapRows k fun _ => rfl))) fun _ _ _ _ => .pure

/-! ## Moves -/

variable {A : Nat → Prop}

lemma Move.carries {m n : Memory} (hs : Sound m) (h : Move A m n) : Carries m n := by
  cases h with
  | change h => exact h.carries hs
  | alloc _ h => exact h.carries hs
  | collected roots sweeping markAll =>
      exact Sweeps.carries hs (Ends.finalState (onlySweeps_collect roots sweeping markAll hs))

/-- **Closing the innermost level undoes every move.** -/
lemma Moves.carries {m n : Memory} (hs : Sound m) (h : Moves A m n) : Carries m n := by
  induction h with
  | refl => exact .refl hs
  | tail _ hstep ih => exact ih.trans (hstep.carries (ih.sound hs))

lemma Moves.sound {m n : Memory} (hs : Sound m) (h : Moves A m n) : Sound n :=
  (h.carries hs).sound hs

lemma Moves.of_change {m n : Memory} (h : Change m n) : Moves A m n := .single (.change h)

end Memory

end PostScriptCore
