import PostScriptCore.Proofs.Memory.Moves
import PostScriptCore.Proofs.Memory.Reading
import Mathlib.Algebra.GroupWithZero.Nat
import Mathlib.Algebra.Order.BigOperators.Group.List
import Mathlib.Algebra.Order.Group.Nat

/-!
# Marking

Marking visits exactly what can be reached, and it always comes to its end: every visit of a new
entity pays for the slots it puts on the stack.

* `Memory.Reaches` — what a collection has to keep, from roots and pins through stored composites.
* `Memory.pending` — how many slots the entities that are still unmarked have together; the measure.
* `Memory.Marking` — what a traversal from a stack of entities does to the collector bits.
* `Memory.markFrom_run`, `Memory.mark_run` — the traversal ends well and does that.
* `Memory.Marking.isMarked_iff` — after marking, the marked entities are the reachable ones.
-/

namespace PostScriptCore.Memory

/-! ## Reachability -/

/-- A slot of a live array or dictionary holds a composite of the same bank. -/
def Refers (m : Memory) (parent child : Nat) : Prop :=
  ∃ row index obj, m.rows[parent]? = some row ∧ row.tag.kind.holdsObjects = true ∧
    index < row.size / objectSize ∧ m.slot? parent index = some obj ∧ obj.bank = m.bank ∧
    obj.entity? = some child

/-- What can be reached from the composites among the roots and from the pinned entities. -/
inductive Reaches (m : Memory) (roots : List Object) : Nat → Prop
  | root {obj : Object} {id : Nat} (hmem : obj ∈ roots) (hbank : obj.bank = m.bank)
      (hid : obj.entity? = some id) : Reaches m roots id
  | pin {id : Nat} {row : Row} (hrow : m.rows[id]? = some row)
      (hpin : 0 < row.mark.refcount.val) : Reaches m roots id
  | stored {parent child : Nat} (h : Reaches m roots parent) (hrefers : Refers m parent child) :
      Reaches m roots child

/-- The same from a list of entities. -/
def ReachesFrom (m : Memory) (start : List Nat) (id : Nat) : Prop :=
  ∃ first ∈ start, Relation.ReflTransGen (Refers m) first id

def Live (m : Memory) (id : Nat) : Prop := ∃ row, m.rows[id]? = some row ∧ row.isFree = false

def IsMarked (m : Memory) (id : Nat) : Prop :=
  ∃ row, m.rows[id]? = some row ∧ row.mark.marked = true

/-- Row 0 holds no objects. -/
def PlainHead (m : Memory) : Prop :=
  ∀ row, m.rows[0]? = some row → row.tag.kind.holdsObjects = false

lemma isUnmarked_iff {m : Memory} {id : Nat} :
    m.isUnmarked id = true ↔ Live m id ∧ ¬ IsMarked m id := by
  rw [isUnmarked]
  cases hrow : m.rows[id]? with
  | none => simp [Live, hrow]
  | some row => simp [Live, IsMarked, hrow]

lemma live_of_refers {m : Memory} {parent child : Nat} (h : Refers m parent child) :
    Live m parent := by
  obtain ⟨row, -, -, hrow, hholds, -⟩ := h
  refine ⟨row, hrow, ?_⟩
  rw [Row.isFree]
  revert hholds
  cases row.tag.kind <;> simp [Kind.holdsObjects]

lemma ne_zero_of_refers {m : Memory} (hhead : PlainHead m) {parent child : Nat}
    (h : Refers m parent child) : parent ≠ 0 := by
  rintro rfl
  obtain ⟨row, -, -, hrow, hholds, -⟩ := h
  rw [hhead row hrow] at hholds
  contradiction

/-! ## Collector bits do not matter for reading -/

section Marks

variable {m n : Memory}

lemma Marks.arena (h : Marks m n) : n.arena = m.arena := by rw [h.frame]

lemma Marks.bank (h : Marks m n) : n.bank = m.bank := by rw [h.frame]

lemma Marks.saves (h : Marks m n) : n.saves = m.saves := by rw [h.frame]

lemma Marks.refl (m : Memory) : Marks m m := ⟨rfl, fun _ => rfl⟩

lemma Marks.symm (h : Marks m n) : Marks n m :=
  ⟨by rw [h.frame], fun id => (h.rows id).symm⟩

lemma Marks.trans {k : Memory} (h : Marks m n) (h' : Marks n k) : Marks m k :=
  ⟨by rw [h'.frame, h.frame], fun id => (h'.rows id).trans (h.rows id)⟩

/-- A row keeps everything but its collector bit. -/
lemma Marks.row (h : Marks m n) {id : Nat} {row : Row} (hrow : m.rows[id]? = some row) :
    ∃ row', n.rows[id]? = some row' ∧ row'.unmarked = row.unmarked := by
  have hmap := h.rows id
  rw [hrow] at hmap
  exact Option.map_eq_some_iff.mp hmap

lemma Row.eq_of_unmarked {row row' : Row} (h : row'.unmarked = row.unmarked) :
    row'.address = row.address ∧ row'.size = row.size ∧ row'.tag = row.tag ∧
      row'.mark.refcount = row.mark.refcount := by
  simp only [Row.unmarked, Mark.withMarked, Row.mk.injEq, Mark.mk.injEq] at h
  tauto

lemma Marks.live (h : Marks m n) {id : Nat} (hlive : Live m id) : Live n id := by
  obtain ⟨row, hrow, hfree⟩ := hlive
  obtain ⟨row', hrow', hsame⟩ := h.row hrow
  exact ⟨row', hrow', by rw [Row.isFree, (Row.eq_of_unmarked hsame).2.2.1]; exact hfree⟩

lemma Marks.alike (h : Marks m n) : Alike m n := by
  have hout : ∀ id, m.outline id = n.outline id := fun id =>
    (outline_eq_of_map Row.plain_unmarked (h.rows id)).symm
  refine ⟨h.saves.symm, by rw [h.arena], ?_, hout, fun a _ => by rw [h.arena]⟩
  refine Nat.le_antisymm ?_ ?_
  · exact outline_eq_none_iff.mp (by rw [hout]; exact outline_eq_none_iff.mpr (Nat.le_refl _))
  · exact outline_eq_none_iff.mp (by rw [← hout]; exact outline_eq_none_iff.mpr (Nat.le_refl _))

lemma Marks.slot? (h : Marks m n) (id index : Nat) : n.slot? id index = m.slot? id index := by
  simp only [Memory.slot?, readObject, bytesAt, h.alike.checkedAddress, h.arena]

lemma Marks.refers (h : Marks m n) {parent child : Nat} (hr : Refers m parent child) :
    Refers n parent child := by
  obtain ⟨row, index, obj, hrow, hholds, hindex, hslot, hbank, hid⟩ := hr
  obtain ⟨row', hrow', hsame⟩ := h.row hrow
  obtain ⟨-, hsize, htag, -⟩ := Row.eq_of_unmarked hsame
  exact ⟨row', index, obj, hrow', htag ▸ hholds, hsize ▸ hindex, by rw [h.slot?]; exact hslot,
    by rw [h.bank]; exact hbank, hid⟩

lemma Marks.plainHead (h : Marks m n) (hhead : PlainHead m) : PlainHead n := by
  intro row hrow
  obtain ⟨row', hrow', hsame⟩ := h.symm.row hrow
  rw [← (Row.eq_of_unmarked hsame).2.2.1]
  exact hhead row' hrow'

/-- Two memories that differ in collector bits only are equal if these are equal too. -/
lemma Marks.ext (h : Marks m n) (hmarked : ∀ id, IsMarked m id ↔ IsMarked n id) : m = n := by
  have hrows : n.rows = m.rows := by
    refine Array.ext_getElem? fun id => ?_
    cases hrow : m.rows[id]? with
    | none =>
        have hmap := h.rows id
        rw [hrow] at hmap
        exact Option.map_eq_none_iff.mp hmap
    | some row =>
        obtain ⟨row', hrow', hsame⟩ := h.row hrow
        have hbit : row'.mark.marked = row.mark.marked := by
          have := hmarked id
          simp only [IsMarked, hrow, hrow', Option.some.injEq, exists_eq_left'] at this
          exact Bool.eq_iff_iff.mpr this.symm
        rw [hrow']
        congr 1
        obtain ⟨address, size, ⟨marked, pins⟩, tag⟩ := row
        obtain ⟨address', size', ⟨marked', pins'⟩, tag'⟩ := row'
        simp only [Row.unmarked, Mark.withMarked, Row.mk.injEq, Mark.mk.injEq] at hsame hbit ⊢
        tauto
  rw [h.frame, hrows]

end Marks

/-! ## The entities that an entity refers to -/

lemma children_ok {m : Memory} (hs : Sound m) (hhead : PlainHead m) {id : Nat} {row : Row}
    (hrow : m.rows[id]? = some row) :
    ∃ children, m.children id = .ok children ∧ children.length ≤ row.size / objectSize ∧
      ∀ child, child ∈ children ↔ Refers m id child := by
  rw [Memory.children, row_ok hrow]
  dsimp only
  split
  · next hholds =>
    have hid : id ≠ 0 := by
      rintro rfl
      rw [hhead row hrow] at hholds
      contradiction
    rw [stored, storage_ok hs hid hrow]
    refine ⟨_, rfl, ?_, fun child => ?_⟩
    · refine Nat.le_trans (List.length_filterMap_le _ _) ?_
      refine Nat.le_trans (List.length_filterMap_le _ _) ?_
      rw [List.length_range]
    · simp only [references, List.mem_filterMap, List.mem_range, Option.ite_none_right_eq_some]
      constructor
      · rintro ⟨obj, ⟨index, hindex, hslot⟩, hbank, hchild⟩
        exact ⟨row, index, obj, hrow, hholds, hindex, hslot, hbank, hchild⟩
      · rintro ⟨row', index, obj, hrow', -, hindex, hslot, hbank, hchild⟩
        rw [hrow] at hrow'
        injection hrow' with he
        subst he
        exact ⟨obj, ⟨index, hindex, hslot⟩, hbank, hchild⟩
  · next hholds =>
    refine ⟨[], rfl, Nat.zero_le _, fun child => ?_⟩
    constructor
    · intro hmem
      exact nomatch hmem
    · rintro ⟨row', -, -, hrow', hholds', -⟩
      rw [hrow] at hrow'
      injection hrow' with he
      subst he
      exact absurd hholds' hholds

/-! ## The measure -/

/-- The slots of a row that a traversal may still have to visit. -/
def weight (row : Row) : Nat :=
  if row.isFree || row.mark.marked then 0 else row.size / objectSize

/-- The slots of all unmarked entities together. -/
def pending (m : Memory) : Nat := (m.rows.toList.map weight).sum

/-- Changing one element changes a sum by what that element weighs. -/
lemma sum_map_modify {α : Type} (w : α → Nat) (f : α → α) :
    ∀ (xs : List α) (i : Nat) (x : α), xs[i]? = some x →
      ((xs.modify i f).map w).sum + w x = (xs.map w).sum + w (f x)
  | [], _, _, h => by simp at h
  | y :: ys, 0, x, h => by
      simp only [List.getElem?_cons_zero, Option.some.injEq] at h
      subst h
      simp only [List.modify_zero_cons, List.map_cons, List.sum_cons]
      omega
  | y :: ys, i + 1, x, h => by
      have ih := sum_map_modify w f ys i x (by simpa using h)
      simp only [List.modify_succ_cons, List.map_cons, List.sum_cons]
      omega

lemma slotCount_eq (m : Memory) :
    m.slotCount = (m.rows.toList.map fun row => row.size / objectSize).sum := by
  have hfold : ∀ (rows : List Row) (total : Nat),
      rows.foldl (fun total row => total + row.size / objectSize) total =
        total + (rows.map fun row => row.size / objectSize).sum := by
    intro rows
    induction rows with
    | nil => simp
    | cons row rest ih =>
        intro total
        rw [List.foldl_cons, ih, List.map_cons, List.sum_cons, Nat.add_assoc]
  rw [slotCount, ← Array.foldl_toList, hfold, Nat.zero_add]

lemma pending_le_slotCount (m : Memory) : m.pending ≤ m.slotCount := by
  rw [slotCount_eq, pending]
  refine List.sum_le_sum fun row _ => ?_
  rw [weight]
  split
  · exact Nat.zero_le _
  · exact Nat.le_refl _

/-! ## Marking one entity -/

/-- The memory with one more collector bit set. -/
def withBit (m : Memory) (id : Nat) : Memory :=
  { m with rows := m.rows.modify id fun row => { row with mark := row.mark.withMarked true } }

lemma isMarked_withBit {m : Memory} {id : Nat} (hid : id < m.entityCount) {j : Nat} :
    IsMarked (m.withBit id) j ↔ j = id ∨ IsMarked m j := by
  simp only [IsMarked, withBit, Array.getElem?_modify]
  by_cases hj : id = j
  · subst hj
    obtain ⟨row, hrow⟩ := exists_row hid
    simp [hrow, Mark.withMarked]
  · simp only [if_neg hj, Ne.symm hj, false_or]

/-- Marking an entity pays for its slots. -/
lemma pending_withBit {m : Memory} {id : Nat} {row : Row} (hrow : m.rows[id]? = some row)
    (h : m.isUnmarked id = true) :
    (m.withBit id).pending + row.size / objectSize = m.pending := by
  have hsum := sum_map_modify weight (fun row => { row with mark := row.mark.withMarked true })
    m.rows.toList id row (by rw [Array.getElem?_toList]; exact hrow)
  have hbefore : weight row = row.size / objectSize := by
    rw [isUnmarked, hrow] at h
    simp only [Bool.and_eq_true, Bool.not_eq_true'] at h
    rw [weight, h.1, h.2]
    rfl
  have hafter : weight { row with mark := row.mark.withMarked true } = 0 := by
    simp [weight, Mark.withMarked]
  rw [hbefore, hafter, Nat.add_zero] at hsum
  rw [pending, pending, withBit, Array.toList_modify]
  exact hsum

/-! ## The traversal -/

/-- What a traversal from a stack of entities does: it only sets collector bits, of live entities
that can be reached from the stack; it marks the live part of the stack, and with every entity that
it marks the live entities stored there. -/
structure Marking (m : Memory) (stack : List Nat) (n : Memory) : Prop where
  marks : Marks m n
  kept : ∀ id, IsMarked m id → IsMarked n id
  origin : ∀ id, IsMarked n id → IsMarked m id ∨ (Live m id ∧ ReachesFrom m stack id)
  start : ∀ id ∈ stack, Live m id → IsMarked n id
  onward : ∀ id, IsMarked n id → ¬ IsMarked m id →
    ∀ child, Refers m id child → Live m child → IsMarked n child

lemma Marking.nil (m : Memory) : Marking m [] m where
  marks := .refl m
  kept := fun _ h => h
  origin := fun _ h => .inl h
  start := fun _ hmem => nomatch hmem
  onward := fun _ h hnot => absurd h hnot

/-- An entity that is marked already, free or missing is passed over. -/
lemma Marking.skip {m n : Memory} {id : Nat} {rest : List Nat} (h : Marking m rest n)
    (hid : ¬ m.isUnmarked id = true) : Marking m (id :: rest) n where
  marks := h.marks
  kept := h.kept
  origin := by
    intro j hj
    rcases h.origin j hj with hj | ⟨hlive, first, hmem, hpath⟩
    · exact .inl hj
    · exact .inr ⟨hlive, first, List.mem_cons_of_mem _ hmem, hpath⟩
  start := by
    intro j hj hlive
    rcases List.mem_cons.mp hj with rfl | hj
    · rw [isUnmarked_iff] at hid
      exact h.kept j (by tauto)
    · exact h.start j hj hlive
  onward := h.onward

/-- An unmarked entity is marked, and what it refers to goes onto the stack. -/
lemma Marking.visit {m n : Memory} {id : Nat} {rest children : List Nat}
    (hid : m.isUnmarked id = true) (hchildren : ∀ child, child ∈ children ↔ Refers m id child)
    (h : Marking (m.withBit id) (children.reverse ++ rest) n) : Marking m (id :: rest) n := by
  obtain ⟨hlive, hnot⟩ := isUnmarked_iff.mp hid
  have hmarks : Marks m (m.withBit id) := marks_setMarked m id
  have hlt : id < m.entityCount := by
    obtain ⟨row, hrow, -⟩ := hlive
    exact row_lt hrow
  have hself : IsMarked n id := h.kept id ((isMarked_withBit hlt).mpr (.inl rfl))
  refine ⟨hmarks.trans h.marks, ?_, ?_, ?_, ?_⟩
  · intro j hj
    exact h.kept j ((isMarked_withBit hlt).mpr (.inr hj))
  · intro j hj
    rcases h.origin j hj with hj | ⟨hlive', first, hmem, hpath⟩
    · rcases (isMarked_withBit hlt).mp hj with rfl | hj
      · exact .inr ⟨hlive, j, List.mem_cons_self .., .refl⟩
      · exact .inl hj
    · have hpath' := Relation.ReflTransGen.mono (fun _ _ => hmarks.symm.refers) _ _ hpath
      refine .inr ⟨hmarks.symm.live hlive', ?_⟩
      rcases List.mem_append.mp hmem with hmem | hmem
      · have hrefers := (hchildren first).mp (List.mem_reverse.mp hmem)
        exact ⟨id, List.mem_cons_self .., .head hrefers hpath'⟩
      · exact ⟨first, List.mem_cons_of_mem _ hmem, hpath'⟩
  · intro j hj hlivej
    rcases List.mem_cons.mp hj with rfl | hj
    · exact hself
    · exact h.start j (List.mem_append.mpr (.inr hj)) (hmarks.live hlivej)
  · intro j hj hnotj child hrefers hlivec
    by_cases he : j = id
    · subst he
      refine h.start child (List.mem_append.mpr (.inl ?_)) (hmarks.live hlivec)
      exact List.mem_reverse.mpr ((hchildren child).mpr hrefers)
    · refine h.onward j hj ?_ child (hmarks.refers hrefers) (hmarks.live hlivec)
      rw [isMarked_withBit hlt]
      tauto

/-- **The traversal ends well.**  Enough steps are those for the stack and for the slots of all
unmarked entities. -/
lemma markFrom_run (steps : Nat) (stack : List Nat) {m : Memory} (hs : Sound m)
    (hhead : PlainHead m) (hsteps : stack.length + m.pending ≤ steps) :
    ∃ n, markFrom steps stack m = .ok () n ∧ Marking m stack n := by
  induction steps generalizing stack m with
  | zero =>
      have hnil : stack = [] := List.length_eq_zero_iff.mp (by omega)
      subst hnil
      exact ⟨m, rfl, .nil m⟩
  | succ steps ih =>
      cases stack with
      | nil => exact ⟨m, rfl, .nil m⟩
      | cons id rest =>
          rw [List.length_cons] at hsteps
          rw [markFrom]
          by_cases hid : m.isUnmarked id = true
          · obtain ⟨row, hrow, -⟩ := (isUnmarked_iff.mp hid).1
            have hmarks : Marks m (m.withBit id) := marks_setMarked m id
            have hs' := (hmarks.carries hs).sound hs
            have hhead' := hmarks.plainHead hhead
            obtain ⟨row', hrow', hsame⟩ := hmarks.row hrow
            obtain ⟨children, hrun, hlength, hmem⟩ := children_ok hs' hhead' hrow'
            have hpending := pending_withBit hrow hid
            rw [(Row.eq_of_unmarked hsame).2.1] at hlength
            obtain ⟨n, hrun', hmarking⟩ := ih (children.reverse ++ rest) hs' hhead' (by
              rw [List.length_append, List.length_reverse]
              omega)
            refine ⟨n, ?_, .visit hid (fun child => ?_) hmarking⟩
            · refine (bind_ok (t := m) rfl).trans ?_
              rw [if_pos hid]
              refine (bind_ok (t := m.withBit id) rfl).trans ?_
              exact (bind_ok (query_ok (s := m.withBit id) hrun)).trans hrun'
            · exact (hmem child).trans ⟨hmarks.symm.refers, hmarks.refers⟩
          · obtain ⟨n, hrun, hmarking⟩ := ih rest hs hhead (by omega)
            refine ⟨n, ?_, hmarking.skip hid⟩
            refine (bind_ok (t := m) rfl).trans ?_
            rw [if_neg hid]
            exact hrun

/-! ## What is marked in the end -/

/-- Before a collection no entity but row 0 is marked. -/
def Unmarked (m : Memory) : Prop := ∀ id, id ≠ 0 → ¬ IsMarked m id

/-- Where a collection starts: the composites among the roots, and the pinned entities. -/
def origins (m : Memory) (roots : List Object) : List Nat := references m.bank roots ++ m.pinned

lemma mem_origins {m : Memory} {roots : List Object} {id : Nat} :
    id ∈ m.origins roots ↔ (∃ obj ∈ roots, obj.bank = m.bank ∧ obj.entity? = some id) ∨
      (id ≠ 0 ∧ Live m id ∧ ∃ row, m.rows[id]? = some row ∧ 0 < row.mark.refcount.val) := by
  simp only [origins, List.mem_append, references, List.mem_filterMap, Option.ite_none_right_eq_some,
    pinned, entityIds, List.mem_filter, List.mem_range'_1]
  refine or_congr Iff.rfl ?_
  constructor
  · rintro ⟨hrange, hpin⟩
    rw [isPinned] at hpin
    split at hpin
    · next row hrow =>
      simp only [Bool.and_eq_true, Bool.not_eq_true', decide_eq_true_eq] at hpin
      exact ⟨by omega, ⟨row, hrow, hpin.1⟩, row, hrow, hpin.2⟩
    · contradiction
  · rintro ⟨h0, ⟨row, hrow, hfree⟩, row', hrow', hcount⟩
    have hlt := row_lt hrow
    rw [hrow] at hrow'
    injection hrow' with he
    subst he
    refine ⟨by omega, ?_⟩
    rw [isPinned, hrow]
    simp only [Bool.and_eq_true, Bool.not_eq_true', decide_eq_true_eq]
    exact ⟨hfree, hcount⟩

lemma mark_run {m : Memory} (hs : Sound m) (hhead : PlainHead m) (roots : List Object) :
    ∃ n, mark roots m = .ok () n ∧ Marking m (m.origins roots).reverse n := by
  have hle := pending_le_slotCount m
  obtain ⟨n, hrun, hmarking⟩ := markFrom_run ((m.origins roots).length + m.slotCount)
    (m.origins roots).reverse hs hhead (by rw [List.length_reverse]; omega)
  exact ⟨n, (bind_ok (t := m) rfl).trans hrun, hmarking⟩

/-- After a traversal the marked entities are those marked before and the live ones reached. -/
lemma Marking.isMarked_iff {m n : Memory} {stack : List Nat} (h : Marking m stack n)
    (hhead : PlainHead m) (hunmarked : Unmarked m) {id : Nat} :
    IsMarked n id ↔ IsMarked m id ∨ (Live m id ∧ ReachesFrom m stack id) := by
  refine ⟨h.origin id, ?_⟩
  rintro (hid | ⟨hlive, first, hmem, hpath⟩)
  · exact h.kept id hid
  · induction hpath with
    | refl => exact h.start first hmem hlive
    | tail _ hrefers ih =>
        have hparent := live_of_refers hrefers
        exact h.onward _ (ih hparent) (hunmarked _ (ne_zero_of_refers hhead hrefers)) _ hrefers
          hlive

/-- A live entity is reached from the origins exactly if roots or pins reach it. -/
lemma reachesFrom_origins_iff {m : Memory} (hhead : PlainHead m) {roots : List Object} {id : Nat}
    (hid : id ≠ 0) (hlive : Live m id) :
    ReachesFrom m (m.origins roots).reverse id ↔ Reaches m roots id := by
  constructor
  · rintro ⟨first, hmem, hpath⟩
    induction hpath with
    | refl =>
        rcases mem_origins.mp (List.mem_reverse.mp hmem) with
          ⟨obj, hobj, hbank, hentity⟩ | ⟨-, -, row, hrow, hcount⟩
        · exact .root hobj hbank hentity
        · exact .pin hrow hcount
    | tail _ hrefers ih =>
        exact .stored (ih (ne_zero_of_refers hhead hrefers) (live_of_refers hrefers)) hrefers
  · intro h
    induction h with
    | root hobj hbank hentity =>
        exact ⟨_, List.mem_reverse.mpr (mem_origins.mpr (.inl ⟨_, hobj, hbank, hentity⟩)), .refl⟩
    | pin hrow hcount =>
        exact ⟨_, List.mem_reverse.mpr (mem_origins.mpr (.inr ⟨hid, hlive, _, hrow, hcount⟩)), .refl⟩
    | stored _ hrefers ih =>
        obtain ⟨first, hmem, hpath⟩ :=
          ih (ne_zero_of_refers hhead hrefers) (live_of_refers hrefers)
        exact ⟨first, hmem, hpath.tail hrefers⟩

/-- Marking does not depend on the order or the number of times the roots are visited. -/
lemma Marking.unique {m n n' : Memory} {stack stack' : List Nat} (hhead : PlainHead m)
    (hunmarked : Unmarked m) (hmem : ∀ id, id ∈ stack ↔ id ∈ stack') (h : Marking m stack n)
    (h' : Marking m stack' n') : n = n' := by
  refine (h.marks.symm.trans h'.marks).ext fun id => ?_
  rw [h.isMarked_iff hhead hunmarked, h'.isMarked_iff hhead hunmarked]
  simp only [ReachesFrom, hmem]

end PostScriptCore.Memory
