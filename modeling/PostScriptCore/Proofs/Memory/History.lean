import PostScriptCore.Proofs.Memory.Run

/-!
# Where an allocation comes from

A live entity holds the allocation that was made for it last, unless a `restore` has put an older one
back.  The log of a run keeps the allocations that are still in force, each with the level that it
was made in.

* `Memory.Holds` — the entity is live and has the tag.
* `Grant`, `Memory.granted` — the allocations in force after a run.
* `Memory.Traced` — the invariant: closing a level changes nothing about a live entity that was not
  allocated in it.
* `Memory.Traced.holds_undone` — what survives the closing of several levels.
-/

namespace PostScriptCore

/-- An allocation in force: the level that was innermost when it was made, and the entity. -/
structure Grant where
  level : Nat
  id : Nat
  deriving DecidableEq

/-- The allocations in force after an operation.  A `restore` takes back those of the levels that it
closes. -/
def MemoryOp.grants (op : MemoryOp) (m : Memory) (log : List Grant) : List Grant :=
  match op with
  | restore level =>
    if level ≠ 0 ∧ level ≤ m.level then log.filter fun grant => grant.level < level else log
  | op =>
    match op.allocation? m with
    | some id => ⟨m.level, id⟩ :: log
    | none => log

namespace Memory

/-- The allocations in force after a run, if those in `log` are in force before it. -/
def granted : Memory → List Grant → List MemoryOp → List Grant
  | _, log, [] => log
  | m, log, op :: rest => granted (m.after op) (op.grants m log) rest

/-! ## What a live entity holds -/

/-- The entity is live and has the tag. -/
def Holds (m : Memory) (id : Nat) (tag : Tag) : Prop :=
  ∃ row, m.rows[id]? = some row ∧ row.isFree = false ∧ row.tag = tag

lemma Holds.of_rows {m n : Memory} {id : Nat} {tag : Tag} {f : Row → Row}
    (hf : ∀ row, (f row).tag = row.tag) (h : n.rows[id]?.map f = m.rows[id]?.map f)
    (hn : Holds n id tag) : Holds m id tag := by
  obtain ⟨row, hrow, hlive, rfl⟩ := hn
  rw [hrow] at h
  obtain ⟨row', hrow', hsame⟩ := Option.map_eq_some_iff.mp h.symm
  have htag : row'.tag = row.tag := by rw [← hf row', hsame, hf]
  refine ⟨row', hrow', ?_, htag⟩
  rw [Row.isFree, htag]
  exact hlive

lemma Alike.holds {m n : Memory} (h : Alike m n) {id : Nat} {tag : Tag} (hm : Holds m id tag) :
    Holds n id tag :=
  hm.of_rows Row.plain_tag (h.outline id)

/-- Amending a row without retagging it makes nothing live. -/
lemma Holds.of_amended {m : Memory} (hs : Sound m) {id j : Nat} {row : Row} {tag : Tag}
    {f : Row → Row} {image : Image} (hrow : m.rows[id]? = some row)
    (hf : ∀ r, (f r).tag = r.tag) (h : Holds (m.amended id f image) j tag) : Holds m j tag := by
  by_cases hj : j = id
  · subst hj
    obtain ⟨snapshot, -, -, hrow'⟩ := rows_amended hs hrow f image
    obtain ⟨r, hr, hlive, rfl⟩ := h
    obtain rfl := Option.some.inj (hrow'.symm.trans hr)
    rw [Row.isFree, hf] at hlive
    refine ⟨row, hrow, hlive, ?_⟩
    rw [hf]
  · rw [Holds, rows_amended_of_ne m id f image hj] at h
    exact h

lemma Change.holds {m n : Memory} (hs : Sound m) (h : Change m n) {id : Nat} {tag : Tag}
    (hn : Holds n id tag) : Holds m id tag := by
  cases h with
  | idle h => exact hn.of_rows (f := Row.unpinned) (fun _ => rfl) (h.rows id)
  | opened handle => exact hn
  | @remembered j hj =>
      obtain ⟨row, hrow⟩ := exists_row hj
      have hsame : m.touched j = m.amended j (fun r => r) (m.touched j).arena.image :=
        (edited_id _ _ _).symm
      rw [hsame] at hn
      exact hn.of_amended hs hrow fun _ => rfl
  | wrote offset bytes hrow hfit => exact hn.of_amended hs hrow fun _ => rfl
  | relinked head =>
      obtain ⟨row, hrow, -⟩ := hs.head
      exact hn.of_amended (f := fun r => { r with address := head }) hs hrow fun _ => rfl
  | @freed j row head h0 hrow hsize hlive =>
      have hrow' : (m.releaseResourceOf j).rows[j]? = some row := by
        rw [rows_releaseResourceOf]
        exact hrow
      by_cases hj : id = j
      · subst hj
        obtain ⟨_, -, -, hfreed⟩ := rows_amended ((carries_releaseResourceOf hs id).sound hs) hrow'
          (fun r => { r with tag := Tag.free, mark := clearedMark row.mark })
          (m.arena.image.write row.address (wordBytes head))
        obtain ⟨r, hr, hlive', -⟩ := hn
        obtain rfl := Option.some.inj (hfreed.symm.trans hr)
        contradiction
      · rw [Holds, retired, rows_amended_of_ne _ _ _ _ hj, rows_releaseResourceOf] at hn
        exact hn

lemma Alloc.holds {m n : Memory} {j : Nat} (h : Alloc m j n) {id : Nat} (hid : id ≠ j) {tag : Tag}
    (hn : Holds n id tag) : Holds m id tag := by
  cases h with
  | reused _ _ hrow =>
      rw [Holds, recycled, rows_amended_of_ne _ _ _ _ hid] at hn
      exact hn
  | added h =>
      rw [entityCount] at hid
      rw [Holds, pushed, Array.getElem?_push, if_neg hid] at hn
      exact hn

lemma Sweeps.holds {m n : Memory} (hs : Sound m) (h : Sweeps m n) {id : Nat} {tag : Tag}
    (hn : Holds n id tag) : Holds m id tag := by
  induction h with
  | refl => exact hn
  | tail hsweeps hstep ih =>
      refine ih ?_
      rcases hstep with hstep | hstep
      · exact hstep.holds ((Sweeps.carries hs hsweeps).sound hs) hn
      · exact hn.of_rows (f := Row.unmarked) (fun _ => rfl) (hstep.rows id)

/-- **Moves make nothing live but what they hand out**, and they retag nothing else. -/
lemma Moves.holds {A : Nat → Prop} {m n : Memory} (hs : Sound m) (h : Moves A m n) {id : Nat}
    (hid : ¬ A id) {tag : Tag} (hn : Holds n id tag) : Holds m id tag := by
  induction h with
  | refl => exact hn
  | tail hmoves hstep ih =>
      have hs' := Moves.sound hs hmoves
      refine ih ?_
      cases hstep with
      | change h => exact h.holds hs' hn
      | alloc hA h => exact h.holds (by rintro rfl; exact hid hA) hn
      | collected roots sweeping markAll =>
          exact Sweeps.holds hs'
            (Ends.finalState (onlySweeps_collect roots sweeping markAll hs')) hn

/-! ## The log of a run -/

/-- Closing a level changes nothing about a live entity that was not allocated in it. -/
def Traced (m : Memory) (log : List Grant) : Prop :=
  ∀ (level id : Nat) (tag : Tag), level < m.level → ⟨level + 1, id⟩ ∉ log →
    Holds (undone^[m.level - (level + 1)] m) id tag → Holds (undone^[m.level - level] m) id tag

/-- The levels below the innermost one are the same after a change that closing it undoes. -/
lemma Carries.iterate_undone {m n : Memory} (h : Carries m n) (hs : Sound m) {count : Nat}
    (hcount : 0 < count) (hlevel : count ≤ m.level) :
    Alike (Memory.undone^[count] m) (Memory.undone^[count] n) := by
  obtain ⟨count, rfl⟩ : ∃ k, count = k + 1 := ⟨count - 1, by omega⟩
  rw [Function.iterate_succ_apply, Function.iterate_succ_apply]
  cases h.continues with
  | base saves _ =>
      rw [Memory.level, saves] at hlevel
      exact absurd hlevel (Nat.not_succ_le_zero _)
  | level _ _ _ _ _ _ _ _ _ hundone => exact hundone.iterate_undone hs.restorable.undone count

lemma Traced.moves {m n : Memory} {log log' : List Grant} {A : Nat → Prop} (h : Traced m log)
    (hs : Sound m) (hmoves : Moves A m n) (hlog : log ⊆ log')
    (hgranted : ∀ id, A id → ⟨m.level, id⟩ ∈ log') : Traced n log' := by
  have hc := hmoves.carries hs
  intro level id tag hlevel hnot hn
  rw [hc.level] at hlevel hn ⊢
  have hold : Holds (undone^[m.level - (level + 1)] m) id tag := by
    rcases Nat.eq_zero_or_pos (m.level - (level + 1)) with h0 | hpos
    · -- the innermost level: what was not handed out there was live before
      have htop : m.level = level + 1 := by omega
      rw [h0] at hn ⊢
      refine hmoves.holds hs (fun hA => hnot ?_) hn
      rw [← htop]
      exact hgranted id hA
    · exact (hc.iterate_undone hs hpos (Nat.sub_le _ _)).symm.holds hn
  have hbelow := h level id tag hlevel (fun hmem => hnot (hlog hmem)) hold
  exact (hc.iterate_undone hs (by omega) (Nat.sub_le _ _)).holds hbelow

lemma Traced.opened {m : Memory} {log : List Grant} (h : Traced m log) (hs : Sound m)
    (hdepth : m.level < Mark.maxLevel) : Traced m.opened log := by
  -- one level more to close leads to the same memories
  have hback : ∀ count, Alike (undone^[count + 1] m.opened) (undone^[count] m) := by
    intro count
    rw [Function.iterate_succ_apply]
    exact (alike_undone_opened m).iterate_undone (sound_opened hs hdepth).restorable.undone count
  intro level id tag hlevel hnot hn
  rw [level_opened] at hlevel hn ⊢
  have hsucc : m.level + 1 - level = m.level - level + 1 := by omega
  rw [hsucc]
  refine (hback _).symm.holds ?_
  rcases Nat.eq_or_lt_of_le (Nat.le_of_lt_succ hlevel) with heq | hlt
  · rw [heq, Nat.sub_self] at hn ⊢
    exact hn
  · refine h level id tag hlt hnot ?_
    have hsucc' : m.level + 1 - (level + 1) = m.level - (level + 1) + 1 := by omega
    rw [hsucc'] at hn
    exact (hback _).holds hn

lemma Traced.iterate_closed {m : Memory} {log : List Grant} (h : Traced m log) (hs : Sound m)
    (count : Nat) :
    Traced (closed^[count] m) (log.filter fun grant => grant.level < m.level - count + 1) := by
  have hs' := sound_iterate_closed count hs
  have halike := alike_iterate_closed count hs
  have hback : ∀ k, Alike (undone^[k + count] m) (undone^[k] (closed^[count] m)) := by
    intro k
    rw [Function.iterate_add_apply]
    exact halike.iterate_undone (hs'.restorable.congr halike.symm) k
  intro level id tag hlevel hnot hn
  rw [level_iterate_closed] at hlevel hn ⊢
  have hsum : ∀ l, l < m.level - count + 1 → m.level - count - l + count = m.level - l := by omega
  have hold := (hback _).symm.holds hn
  rw [hsum _ (by omega)] at hold
  refine (hback _).holds ?_
  rw [hsum _ (by omega)]
  refine h level id tag (by omega) (fun hmem => hnot ?_) hold
  rw [List.mem_filter]
  exact ⟨hmem, decide_eq_true (by simp only; omega)⟩

lemma Traced.after {m : Memory} {log : List Grant} (h : Traced m log) (hs : Sound m) {op : MemoryOp}
    (hop : op.keepsTags = true) : Traced (m.after op) (op.grants m log) := by
  by_cases hplain : op.isPlain = true
  · have hgrants : op.grants m log =
        match op.allocation? m with
        | some id => ⟨m.level, id⟩ :: log
        | none => log := by
      cases op <;> first | rfl | contradiction
    rw [hgrants]
    refine h.moves hs (moves_after hs hplain) (fun grant hmem => ?_) fun id hid => ?_
    · split
      · exact List.mem_cons_of_mem _ hmem
      · exact hmem
    · rw [hid]
      exact List.mem_cons_self ..
  · cases op with
    | save =>
        rw [after_save]
        split
        · next hdepth => exact h.opened hs hdepth
        · exact h
    | restore level =>
        rw [after_restore hs, MemoryOp.grants]
        split
        · next hlevel =>
          have hsum : m.level - (m.level - level + 1) + 1 = level := by omega
          have hclosed := h.iterate_closed hs (m.level - level + 1)
          rw [hsum] at hclosed
          exact hclosed
        · exact h
    | setTag id tag => contradiction
    | _ => exact absurd rfl hplain

/-- **The log of a run accounts for every live entity.** -/
lemma Traced.afterAll {m : Memory} {log : List Grant} (h : Traced m log) (hs : Sound m)
    {ops : List MemoryOp} (hops : ∀ op ∈ ops, op.keepsTags = true) :
    Traced (m.afterAll ops) (granted m log ops) := by
  induction ops generalizing m log with
  | nil => exact h
  | cons op rest ih =>
      exact ih (h.after hs (hops op (List.mem_cons_self ..))) (sound_after hs op)
        fun op' hmem => hops op' (List.mem_cons_of_mem _ hmem)

/-- Without levels there is nothing to account for. -/
lemma traced_of_level {m : Memory} (h : m.level = 0) (log : List Grant) : Traced m log := by
  intro level _ _ hlevel
  omega

/-- The entity was allocated in the level or in one inside it. -/
def AllocatedSince (log : List Grant) (level id : Nat) : Prop :=
  ∃ grant ∈ log, level ≤ grant.level ∧ grant.id = id

/-- **A live entity that was not allocated since a level was opened outlives the level**, and it is
what it was then. -/
lemma Traced.holds_undone {m : Memory} {log : List Grant} (h : Traced m log) {level id : Nat}
    {tag : Tag} (hlevel : level ≤ m.level) (hnot : ¬ AllocatedSince log (level + 1) id)
    (hm : Holds m id tag) : Holds (undone^[m.level - level] m) id tag := by
  induction hcount : m.level - level generalizing level with
  | zero => exact hm
  | succ count ih =>
      have hinner : Holds (undone^[count] m) id tag := by
        refine @ih (level + 1) (by omega) ?_ (by omega)
        rintro ⟨grant, hmem, hle, hid⟩
        exact hnot ⟨grant, hmem, Nat.le_of_succ_le hle, hid⟩
      rw [← hcount]
      refine h level id tag (by omega) (fun hmem => hnot ⟨_, hmem, Nat.le_refl _, rfl⟩) ?_
      have hsub : m.level - (level + 1) = count := by omega
      rw [hsub]
      exact hinner

end Memory

end PostScriptCore
