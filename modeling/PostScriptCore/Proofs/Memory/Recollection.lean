import PostScriptCore.Proofs.Context.Reachability
import PostScriptCore.Proofs.Memory.Setup

/-!
# Collecting again

A collection does not look at the countdown, so that it makes no difference whether it runs before a search
counts a miss or after.  It leaves no garbage behind, and a collection that finds none only moves
collector bits.

* `Memory.Oblivious` — a step that neither looks at the countdown nor changes it.
* `Memory.after_collect_countdown` — collections are such steps.
* `Memory.Collected.no_garbage` — what a collection leaves can be reached from the same roots.
* `Memory.marks_after_collect` — without garbage a collection changes nothing else.
-/

namespace PostScriptCore

/-! ## Row 0 -/

/-- Whether the operation leaves row 0 without objects. -/
def MemoryOp.keepsHead : MemoryOp → Bool
  | setTag id tag => id != 0 || !tag.kind.holdsObjects
  | _ => true

namespace Memory

variable {m n : Memory}

lemma Tidy.after_of_keepsHead (ht : Tidy m) (hs : Sound m) {op : MemoryOp} (hop : op.keepsHead = true) :
    Tidy (m.after op) := by
  cases op with
  | setTag id tag =>
      rw [Memory.after, MemoryOp.perform, setTag]
      rcases Nat.lt_or_ge id m.entityCount with hlt | hge
      · obtain ⟨row, hrow⟩ := exists_row hlt
        rw [finalState_of_ok (changeRow_run hs hrow _)]
        refine Tidy.amended (f := fun row => { row with tag }) ht hs hrow (fun r hr => ⟨fun h0 => ?_, hr.2⟩) _
        subst h0
        simpa [MemoryOp.keepsHead] using hop
      · rw [finalState_of_error (changeRow_of_missing hge _)]
        exact ht
  | _ => exact ht.after hs rfl

lemma Tidy.afterAll_of_keepsHead (ht : Tidy m) (hs : Sound m) {ops : List MemoryOp}
    (hops : ∀ op ∈ ops, op.keepsHead = true) : Tidy (m.afterAll ops) := by
  induction ops generalizing m with
  | nil => exact ht
  | cons op rest ih =>
      rw [List.forall_mem_cons] at hops
      exact ih (ht.after_of_keepsHead hs hops.1) (sound_after hs op) hops.2

/-! ## The countdown -/

/-- The same end of a step, with another countdown. -/
def recounted {α : Type} (count : Nat) : EStateM.Result Fault Memory α → EStateM.Result Fault Memory α
  | .ok a n => .ok a { n with gcCountdown := count }
  | .error fault n => .error fault { n with gcCountdown := count }

/-- The step neither looks at the countdown nor changes it. -/
def Oblivious {α : Type} (x : MemoryM α) : Prop :=
  ∀ m count, x { m with gcCountdown := count } = recounted count (x m)

namespace Oblivious

variable {α β : Type}

lemma pure (a : α) : Oblivious (Pure.pure a : MemoryM α) := fun _ _ => rfl

lemma throw (fault : Fault) : Oblivious (MonadExcept.throw fault : MemoryM α) := fun _ _ => rfl

lemma query {f : Memory → Except Fault α} (hf : ∀ m count, f { m with gcCountdown := count } = f m) :
    Oblivious (PostScriptCore.query f) := by
  intro m count
  rw [PostScriptCore.query, PostScriptCore.query, hf]
  cases f m <;> rfl

lemma modify {f : Memory → Memory}
    (hf : ∀ m count, f { m with gcCountdown := count } = { f m with gcCountdown := count }) :
    Oblivious (MonadState.modifyGet fun m => (PUnit.unit, f m) : MemoryM PUnit) := fun m count =>
  congrArg (EStateM.Result.ok PUnit.unit) (hf m count)

lemma bind {x : MemoryM α} {f : α → MemoryM β} (hx : Oblivious x) (hf : ∀ a, Oblivious (f a)) :
    Oblivious (x >>= f) := by
  intro m count
  have hrun := hx m count
  cases hm : x m with
  | ok a n =>
      rw [hm] at hrun
      rw [bind_ok hrun, bind_ok hm]
      exact hf a n count
  | error fault n =>
      rw [hm] at hrun
      rw [bind_error hrun, bind_error hm]
      rfl

/-- A step that reads the whole memory, but not the countdown. -/
lemma get_bind {f : Memory → MemoryM α} (hsame : ∀ m count, f { m with gcCountdown := count } = f m)
    (hf : ∀ m, Oblivious (f m)) : Oblivious (get >>= f) := by
  intro m count
  show f { m with gcCountdown := count } { m with gcCountdown := count } = recounted count (f m m)
  rw [hsame]
  exact hf m m count

lemma discard {x : MemoryM α} (hx : Oblivious x) : Oblivious (discard x) := by
  intro m count
  have hrun := hx m count
  cases hm : x m with
  | ok a n =>
      rw [hm] at hrun
      rw [discard_ok hrun, discard_ok hm]
      rfl
  | error fault n =>
      rw [hm] at hrun
      rw [discard_error hrun, discard_error hm]
      rfl

lemma ite {p : Prop} [Decidable p] {x y : MemoryM α} (hx : Oblivious x) (hy : Oblivious y) :
    Oblivious (if p then x else y) := by
  split
  · exact hx
  · exact hy

end Oblivious

lemma oblivious_onArena {α : Type} (x : EStateM Fault Arena α) : Oblivious (onArena x) := by
  intro m count
  rw [onArena, focus, focus]
  cases x m.arena <;> rfl

lemma oblivious_modifyRow (id : Nat) (f : Row → Row) : Oblivious (modifyRow id f) :=
  .modify fun _ _ => rfl

lemma oblivious_touch (id : Nat) : Oblivious (touch id) := by
  refine .bind (.query fun _ _ => rfl) fun snapshot => ?_
  cases snapshot with
  | none => exact .pure _
  | some snapshot =>
      exact .bind (.modify fun _ _ => rfl) fun _ => .get_bind (fun _ _ => rfl) fun _ => oblivious_modifyRow _ _

lemma oblivious_changeRow (id : Nat) (f : Row → Row) : Oblivious (changeRow id f) :=
  .bind (oblivious_touch id) fun _ => .bind (.discard (.query fun _ _ => rfl)) fun _ => oblivious_modifyRow _ _

lemma oblivious_setMark (id : Nat) (mark : Mark) : Oblivious (setMark id mark) :=
  .bind (.discard (.query fun _ _ => rfl)) fun _ => oblivious_modifyRow _ _

lemma oblivious_put (id offset : Nat) (bytes : List UInt8) : Oblivious (put id offset bytes) :=
  .bind (.query fun _ _ => rfl) fun _ => .bind (oblivious_touch id) fun _ => oblivious_onArena _

lemma releaseResourceOf_recounted (m : Memory) (count id : Nat) :
    ({ m with gcCountdown := count }).releaseResourceOf id =
      { m.releaseResourceOf id with gcCountdown := count } := by
  have hrow : ({ m with gcCountdown := count } : Memory).row id = m.row id := rfl
  have hslot : ({ m with gcCountdown := count } : Memory).resourceSlot id = m.resourceSlot id := rfl
  rw [releaseResourceOf, releaseResourceOf, hrow, hslot]
  cases m.row id with
  | error fault => rfl
  | ok row =>
      dsimp only
      split
      · cases m.resourceSlot id <;> rfl
      · rfl

lemma oblivious_free (id : Nat) : Oblivious (free id) := by
  refine .bind (.query fun _ _ => rfl) fun _ => .ite (.bind (.throw _) fun _ => ?_) ?_
  all_goals
    refine .bind (.modify fun m count => releaseResourceOf_recounted m count id) fun _ => ?_
    refine .bind (.query fun _ _ => rfl) fun _ => .bind (oblivious_changeRow _ _) fun _ => ?_
    exact .bind (oblivious_put _ _ _) fun _ => .bind (oblivious_setMark _ _) fun _ => oblivious_changeRow _ _

lemma oblivious_markFrom (steps : Nat) (stack : List Nat) : Oblivious (markFrom steps stack) := by
  induction steps generalizing stack with
  | zero => exact .pure _
  | succ steps ih =>
      cases stack with
      | nil => exact .pure _
      | cons id rest =>
          refine .get_bind (fun _ _ => rfl) fun m => .ite ?_ (ih rest)
          exact .bind (oblivious_modifyRow _ _) fun _ => .bind (.query fun _ _ => rfl) fun _ => ih _

lemma oblivious_sweepList (ids : List Nat) : Oblivious (sweepList ids) := by
  induction ids with
  | nil => exact .pure _
  | cons id rest ih =>
      refine .bind (.query fun _ _ => rfl) fun row => .ite ?_ ih
      exact .bind (oblivious_free id) fun _ => .bind ih fun _ => .pure _

lemma oblivious_collect (roots : List Object) : Oblivious (collect roots true false) := by
  have hrun : Oblivious (markSweep roots true false) := by
    refine .bind (.get_bind (fun _ _ => rfl) fun _ => oblivious_markFrom _ _) fun _ => ?_
    refine .bind (.get_bind (fun _ _ => rfl) fun _ => oblivious_sweepList _) fun _ => ?_
    exact .bind (.modify fun _ _ => rfl) fun _ => .pure _
  intro m count
  obtain ⟨arena, rows, limit, bank, policy, collector, period, countdown, saves, resources⟩ := m
  rcases collector with _ | _ | fault
  · rfl
  · exact hrun _ count
  · rfl

/-- **A collection does not look at the countdown.** -/
lemma after_collect_countdown (m : Memory) (count : Nat) (roots : List Object) :
    ({ m with gcCountdown := count }).after (.collect roots true false) =
      { m.after (.collect roots true false) with gcCountdown := count } := by
  rw [after, after, MemoryOp.perform, finalState_discard, finalState_discard, finalState, finalState,
    oblivious_collect roots m count]
  cases collect roots true false m <;> rfl

/-! ## What a collection leaves -/

/-- Whatever could be reached still can, because nothing on the way to it is garbage. -/
lemma Collected.reaches {roots : List Object} (hs : Sound m) (ht : Tidy m) (hbank : n.bank = m.bank)
    (h : Collected m (Garbage m roots) n) {id : Nat} (hid : id ≠ 0) (hreach : Reaches m roots id) :
    Reaches n roots id := by
  have hkept {id : Nat} (hreach : Reaches m roots id) : ¬ Garbage m roots id := by
    rintro ⟨-, -, -, -, hnot⟩
    exact hnot hreach
  induction hreach with
  | root hmem hobj hentity => exact .root hmem (hobj.trans hbank.symm) hentity
  | pin hrow hpin => exact .pin (h.kept _ _ hid hrow (hkept (.pin hrow hpin))).1 hpin
  | @stored parent child hparent hrefers ih =>
      have h0 := ne_zero_of_refers ht.plainHead hrefers
      obtain ⟨row, index, obj, hrow, hholds, hindex, hslot, hobj, hentity⟩ := hrefers
      rw [← h.slot?_kept hs h0 hrow (hkept hparent)] at hslot
      exact .stored (ih h0) ⟨row, index, obj, (h.kept _ _ h0 hrow (hkept hparent)).1, hholds, hindex, hslot,
        hobj.trans hbank.symm, hentity⟩

/-- Row 0 has no storage, so that it is no garbage. -/
lemma ne_zero_of_garbage {roots : List Object} (hs : Sound m) {id : Nat} (h : Garbage m roots id) : id ≠ 0 := by
  rintro rfl
  obtain ⟨row, hrow, hpos, -⟩ := h
  obtain ⟨head, hhead, hzero⟩ := hs.head
  obtain rfl := Option.some.inj (hrow.symm.trans hhead)
  omega

/-- **A collection leaves no garbage behind.** -/
lemma Collected.no_garbage {roots : List Object} (hs : Sound m) (ht : Tidy m) (hbank : n.bank = m.bank)
    (h : Collected m (Garbage m roots) n) (id : Nat) : ¬ Garbage n roots id := by
  intro hleft
  have hid := ne_zero_of_garbage h.sound hleft
  obtain ⟨row', hrow', hpos, hkind, hnot⟩ := hleft
  have hlt : id < m.entityCount := h.count ▸ row_lt hrow'
  obtain ⟨row, hrow⟩ := exists_row hlt
  by_cases hgarbage : Garbage m roots id
  · obtain rfl := Option.some.inj (hrow'.symm.trans (h.gone id row hid hrow hgarbage))
    exact absurd (isFree_of_collectable hkind) (by rw [isFree_freedRow]; decide)
  · obtain rfl := Option.some.inj (hrow'.symm.trans (h.kept id row hid hrow hgarbage).1)
    have hreach : Reaches m roots id := by
      by_contra hreach
      exact hgarbage ⟨row', hrow, hpos, hkind, hreach⟩
    exact hnot (h.reaches hs ht hbank hid hreach)

lemma sweepList_idle {ids : List Nat}
    (hids : ∀ id ∈ ids, ∃ row, m.rows[id]? = some row ∧ isGarbage row = false) :
    sweepList ids m = .ok 0 m := by
  induction ids with
  | nil => rfl
  | cons id rest ih =>
      rw [List.forall_mem_cons] at hids
      obtain ⟨⟨row, hrow, hgarbage⟩, hrest⟩ := hids
      rw [sweepList, bind_ok (query_ok (s := m) (row_ok hrow)), hgarbage]
      exact ih hrest

/-- Without garbage a collection only moves collector bits. -/
lemma marks_after_collect {roots : List Object} (hs : Sound m) (ht : Tidy m)
    (hc : m.collector = some .markSweep) (hnone : ∀ id, ¬ Garbage m roots id) :
    Marks m (m.after (.collect roots true false)) := by
  obtain ⟨k, hmark, hmarking⟩ := mark_run hs ht.plainHead roots
  have hidle : sweepList k.entityIds k = .ok 0 k := by
    refine sweepList_idle fun id hid => ?_
    rw [entityIds, List.mem_range'_1, ← hmarking.marks.alike.count] at hid
    have hlt : id < m.entityCount := by omega
    obtain ⟨row, hrow⟩ := exists_row hlt
    obtain ⟨row', hrow', -⟩ := hmarking.marks.row hrow
    refine ⟨row', hrow', ?_⟩
    rw [← Bool.not_eq_true, garbage_iff ht hmarking (by omega) hrow hrow']
    exact hnone id
  have hrun : collect roots true false m = .ok 0 k.cleared := by
    rw [collect, hc]
    show markSweep roots true false m = _
    rw [markSweep_eq]
    exact (bind_ok hmark).trans ((bind_ok ((bind_ok (t := k) rfl).trans hidle)).trans
      (bind_ok (clearMarks_run k)))
  rw [after_of_ok rfl hrun]
  exact hmarking.marks.trans (marks_cleared k)

end Memory

end PostScriptCore
