import PostScriptCore.Proofs.Memory.Collection
import PostScriptCore.Proofs.Memory.Custody

/-!
# What happens to one entity

A live entity keeps its tag, its size and its bytes for as long as nobody frees it, nobody writes into
it, and every collection reaches it.  Allocations leave it alone because the free list lists free
entities only.

* `Memory.Settled` — in working order, with a free list that lists the free entities.
* `Memory.Sheltered` — the entity is what it was, and so are its bytes unless it was written.
* `Memory.shelterTerms`, `Memory.sustains_sheltered` — what others may do meanwhile.
* `MemoryOp.Writes`, `MemoryOp.Drops`, `MemoryOp.Confined.meets` — writing into the entity itself, and
  collecting without reaching it.
-/

namespace PostScriptCore

namespace Memory

variable {b m n : Memory} {id : Nat} {written : Prop}

/-- In working order between two operations, with a free list that lists the free entities. -/
structure Settled (m : Memory) : Prop extends Measured m where
  tidy : Tidy m
  orderly : Orderly m

lemma Settled.moves {A : Nat → Prop} (h : Settled m) (hmoves : Moves A m n) (hcap : Capped m n)
    (horderly : Orderly n) : Settled n :=
  ⟨(h.toMeasured.moves hmoves hcap).1, h.tidy.moves h.sound hmoves, horderly⟩

lemma Settled.keeps {A : Nat → Prop} {α : Type} {x : MemoryM α} {P Q : α → Memory → Prop}
    (h : Settled m) (hx : Performs A x m P) (hcap : Follows Capped x) (horderly : Keeps Orderly x m Q) :
    Keeps Settled x m Q :=
  Ends.mono (Ends.and (Ends.and hx (hcap m)) horderly)
    (fun _ _ hn => ⟨h.moves hn.1.1.1 hn.1.2 hn.2.1, hn.2.2⟩) fun _ _ hn => h.moves hn.1.1 hn.1.2 hn.2

/-- A free list that lists the free entities. -/
lemma Settled.freeList (h : Settled m) : ∃ ids, FreeList m ids := h.orderly.listed h.bound

/-! ## The entity -/

/-- The entity has the tag and the size that it had, and the bytes as well unless it was written. -/
def Persists (id : Nat) (written : Prop) (m n : Memory) : Prop :=
  ∀ cell, m.cell? id = some cell →
    ∃ cell', n.cell? id = some cell' ∧ cell'.shape = cell.shape ∧ (¬ written → cell' = cell)

lemma Persists.of_cell (h : n.cell? id = m.cell? id) : Persists id written m n :=
  fun cell hcell => ⟨cell, h.trans hcell, rfl, fun _ => rfl⟩

/-- Writing into an entity keeps its tag and its size. -/
lemma Persists.replaced {j : Nat} {cell cell' : Cell} (h : Replaces m n j cell')
    (hcell : m.cell? j = some cell) (hshape : cell'.shape = cell.shape) (hj : j = id → written) :
    Persists id written m n := by
  by_cases hid : id = j
  · subst hid
    intro old hold
    obtain rfl := Option.some.inj (hold.symm.trans hcell)
    exact ⟨cell', (h.cell id).trans (if_pos rfl), hshape, fun hw => absurd (hj rfl) hw⟩
  · exact .of_cell ((h.cell id).trans (if_neg hid))

/-- What a collection keeps is what it was. -/
lemma Collected.cell?_kept {garbage : Nat → Prop} (h : Collected m garbage n) (hs : Sound m)
    {cell : Cell} (hcell : m.cell? id = some cell) (hkept : ¬ garbage id) :
    n.cell? id = m.cell? id := by
  obtain ⟨row, hid, hrow, -⟩ := row_of_cell hcell
  obtain ⟨hrow', hbytes⟩ := h.kept id row hid hrow hkept
  rw [bytes_ok h.sound hid hrow', bytes_ok hs hid hrow] at hbytes
  rw [cell?_of_row hid hrow', cell?_of_row hid hrow, Except.ok.inj hbytes]

/-- What is garbage has nothing to do with when the next collection is due. -/
lemma garbage_countdown {count : Nat} {roots : List Object} :
    Garbage { m with gcCountdown := count } roots id ↔ Garbage m roots id := by
  have hreaches : Reaches { m with gcCountdown := count } roots id ↔ Reaches m roots id := by
    constructor
    · intro h
      induction h with
      | root hmem hbank hid => exact .root hmem hbank hid
      | pin hrow hpin => exact .pin hrow hpin
      | stored _ hrefers ih => exact .stored ih hrefers
    · intro h
      induction h with
      | root hmem hbank hid => exact .root hmem hbank hid
      | pin hrow hpin => exact .pin hrow hpin
      | stored _ hrefers ih => exact .stored ih hrefers
  rw [Garbage, Garbage, hreaches]

/-- The entity is live in a settled memory and is what it was in `b`. -/
structure Sheltered (b : Memory) (id : Nat) (written : Prop) (m : Memory) : Prop extends Settled m where
  live : ∃ cell, b.cell? id = some cell ∧ cell.isFree = false
  persists : Persists id written b m

lemma Settled.sheltered (h : Settled m) {cell : Cell} (hcell : m.cell? id = some cell)
    (hlive : cell.isFree = false) : Sheltered m id written m :=
  ⟨h, ⟨cell, hcell, hlive⟩, .of_cell rfl⟩

/-- Entities other than this one may be written and freed; it may be written only if that is to be
counted, and every collection that sweeps has to reach it. -/
def shelterTerms (id : Nat) (written : Prop) : Terms where
  tag := fun tag => tag.kind ≠ .free
  write := fun m j => m.isSpare j = false ∧ (j = id → written)
  free := fun j => j ≠ id
  collect := fun m roots sweeping markAll =>
    sweeping = true → markAll = false → ¬ Garbage m roots id
  files := True

namespace Sheltered

lemma cell (h : Sheltered b id written m) : ∃ cell, m.cell? id = some cell ∧ cell.isFree = false := by
  obtain ⟨old, hold, hlive⟩ := h.live
  obtain ⟨cell, hcell, hshape, -⟩ := h.persists old hold
  have htag : cell.tag = old.tag := congrArg Prod.fst hshape
  refine ⟨cell, hcell, ?_⟩
  rw [Cell.isFree, htag]
  exact hlive

/-- One step: the memory stays settled and the entity persists. -/
lemma keeps {α : Type} {x : MemoryM α} {Q : α → Memory → Prop} {R : α → Prop}
    (h : Sheltered b id written m) (hsettled : Keeps Settled x m Q)
    (hpersists : Ends x m (fun a n => Persists id written m n ∧ R a)
      fun _ n => Persists id written m n) :
    Keeps (Sheltered b id written) x m fun a n => Q a n ∧ R a := by
  have hstep : ∀ {n}, Settled n → Persists id written m n → Sheltered b id written n := by
    intro n hn hpersists
    refine ⟨hn, h.live, fun old hold => ?_⟩
    obtain ⟨cell, hcell, hshape, hsame⟩ := h.persists old hold
    obtain ⟨cell', hcell', hshape', hsame'⟩ := hpersists cell hcell
    exact ⟨cell', hcell', hshape'.trans hshape, fun hw => (hsame' hw).trans (hsame hw)⟩
  exact Ends.mono (Ends.and hsettled hpersists)
    (fun _ _ hn => ⟨hstep hn.1.1 hn.2.1, hn.1.2, hn.2.2⟩) fun _ _ hn => hstep hn.1 hn.2

/-- The same for a step that leaves the cell of the entity alone. -/
lemma keeps_of_cell {α : Type} {x : MemoryM α} {Q : α → Memory → Prop}
    (h : Sheltered b id written m) (hsettled : Keeps Settled x m Q)
    (hcell : Ends x m (fun _ n => n.cell? id = m.cell? id) fun _ n => n.cell? id = m.cell? id) :
    Keeps (Sheltered b id written) x m Q :=
  (h.keeps (R := fun _ => True) hsettled (Ends.mono hcell (fun _ _ hn => ⟨.of_cell hn, trivial⟩)
    fun _ _ hn => .of_cell hn)).mono fun _ _ hn => hn.1

/-- The entity is on no free list. -/
lemma not_listed (h : Sheltered b id written m) {ids : List Nat} (hids : Threads m ids) : id ∉ ids := by
  obtain ⟨cell, hcell, hlive⟩ := h.cell
  intro hmem
  rw [hids.isFree hmem hcell] at hlive
  contradiction

/-- **What is handed out is another entity.** -/
lemma granted (h : Sheltered b id written m) {ids ids' : List Nat} {j size : Nat} {cell : Cell}
    (hids : Threads m ids) (hgrants : Grants m ids j size cell n ids') :
    j ≠ id ∧ n.cell? id = m.cell? id := by
  obtain ⟨old, hold, hlive⟩ := h.cell
  have hne : id ≠ j := by
    rintro rfl
    rw [hgrants.isFree hids hold] at hlive
    contradiction
  exact ⟨hne.symm, hgrants.kept id hne (h.not_listed hids)⟩

/-- What was handed out may be written, since it is not this entity. -/
lemma hands {j size : Nat} {tag : Tag} (howned : Owned n j size tag) (hne : j ≠ id) :
    (shelterTerms id written).Hands size tag j n :=
  ⟨howned, fun htag => ⟨howned.not_spare htag, fun he => absurd he hne⟩⟩

/-! ## Single steps -/

lemma put (h : Sheltered b id written m) {j : Nat} (hj : (shelterTerms id written).write m j)
    (offset : Nat) (bytes : List UInt8) :
    Keeps (Sheltered b id written) (Memory.put j offset bytes) m fun _ n =>
      (shelterTerms id written).Writes m n := by
  have hpersists : Ends (Memory.put j offset bytes) m (fun _ n => Persists id written m n ∧ True)
      fun _ n => Persists id written m n := by
    refine Ends.mono (ends_put h.sound j offset bytes) (fun _ n hn => ⟨?_, trivial⟩)
      fun _ n hn => .of_cell (hn.cell id)
    rcases hn with hn | ⟨cell, hcell, hfit, hn⟩
    · exact .of_cell (hn.cell id)
    · exact Persists.replaced hn hcell (by rw [Cell.shape, Cell.shape, length_patched hfit]) hj.2
  have hsettled := h.toSettled.keeps (A := fun _ => True) (performs_put j offset bytes h.sound)
    (follows_put j offset bytes) (sustains_orderly.put h.orderly (fun _ => hj.1) offset bytes)
  refine Ends.mono (h.keeps hsettled hpersists) (fun _ n hn => ⟨hn.1, fun k hk => ?_⟩) fun _ _ hn => hn
  exact ⟨hn.2.1 k (fun _ => hk.1) hn.1.bound, hk.2⟩

lemma free (h : Sheltered b id written m) {j : Nat} (hj : j ≠ id) :
    Keeps (Sheltered b id written) (Memory.free j) m fun _ _ => True := by
  refine h.keeps_of_cell (h.toSettled.keeps (A := fun _ => True) (performs_free j h.sound)
    (IgnoresRecycling.free j) (sustains_orderly.free h.orderly trivial)) ?_
  rcases free_cases j h.sound with ⟨fault, hrun⟩ | ⟨row, head, h0, hrow, hsize, -, -, hrun⟩
  · exact .of_error hrun rfl
  · refine .of_ok hrun ?_
    rw [cell?_linked, cell?_retired h.sound h0 hrow hsize, if_neg hj.symm]

lemma setRefcount (h : Sheltered b id written m) {j : Nat} {row : Row} (hrow : m.rows[j]? = some row)
    (count : Nat) :
    Keeps (Sheltered b id written) (setMark j (row.mark.withRefcount count)) m fun _ _ => True := by
  have hidle := idle_setMark h.sound hrow count
  refine h.keeps_of_cell (h.toSettled.keeps (A := fun _ => True)
    (performs_setRefcount h.sound hrow count) (follows_setMark _ _)
    (sustains_orderly.setRefcount h.orderly hrow count)) ?_
  exact .of_ok (setMark_run hrow _) (cell?_congr hidle.arena (fun k =>
    outline_eq_of_map Row.plain_unpinned (hidle.rows k)) id)

lemma tableAlloc (h : Sheltered b id written m) {tag : Tag} (htag : tag.kind ≠ .free) (size : Nat) :
    Keeps (Sheltered b id written) (Memory.tableAlloc size tag) m fun j n =>
      (shelterTerms id written).Hands size tag j n := by
  have hsettled := h.toSettled.keeps (A := fun _ => True)
    (performs_tableAlloc size tag h.sound fun _ _ _ => trivial) (IgnoresAllocation.tableAlloc size tag)
    (sustains_orderly.tableAlloc h.orderly htag size)
  obtain ⟨ids, hids⟩ := h.freeList
  have hpersists : Ends (Memory.tableAlloc size tag) m (fun j n => Persists id written m n ∧ j ≠ id)
      fun _ n => Persists id written m n := by
    rcases tableAlloc_cases size tag h.sound.arena with hrun | ⟨row, arena, hext, rfl, halign, hrun⟩
    · exact .of_error hrun (.of_cell rfl)
    · obtain ⟨hne, hcell⟩ := h.granted hids.threads (grants_pushed h.sound hids.threads hext halign)
      exact .of_ok hrun ⟨.of_cell hcell, hne⟩
  exact (h.keeps hsettled hpersists).mono fun j n hn => hands hn.1.1 hn.2

lemma firstFit (h : Sheltered b id written m) {tag : Tag} (htag : tag.kind ≠ .free) (size : Nat) :
    Keeps (Sheltered b id written) (Memory.firstFit size tag) m fun fit n =>
      (∀ j, fit = .reused j → (shelterTerms id written).Hands size tag j n) ∧
        (fit = .needsCollection → ∀ roots, (shelterTerms id written).collect m roots true false →
          (shelterTerms id written).collect n roots true false) := by
  have hsettled := h.toSettled.keeps (A := fun _ => True)
    (performs_firstFit size tag h.sound fun _ _ _ _ _ => trivial) (follows_firstFit size tag)
    (sustains_orderly.firstFit h.orderly htag size)
  obtain ⟨ids, hids⟩ := h.freeList
  rcases firstFit_cases h.sound hids.threads size tag with
    ⟨-, hrun⟩ | ⟨fit, count, hfit, hrun⟩ | ⟨j, n, hrun, htakes, cell, hcell, hsize⟩
  · exact .of_error hrun h
  · have hkept := h.keeps_of_cell hsettled (.of_ok hrun rfl)
    rw [Keeps, Ends, hrun] at hkept
    refine .of_ok hrun hkept.1 ⟨?_, fun _ roots hroots hs hm hgarbage => hroots hs hm ?_⟩
    · rintro j rfl
      simp at hfit
    · exact garbage_countdown.mp hgarbage
  · obtain ⟨hne, hsame⟩ := h.granted hids.threads (htakes.grants hids.threads.nodup hcell hsize)
    have hkept := h.keeps_of_cell hsettled (.of_ok hrun hsame)
    rw [Keeps, Ends, hrun] at hkept
    refine .of_ok hrun hkept.1 ⟨fun k hk => ?_, fun hfit => by cases hfit⟩
    obtain rfl := Fit.reused.inj hk
    exact hands (hkept.2.1 j rfl).1 hne

/-- **A collection that reaches the entity leaves it alone**, and so does one that does not sweep. -/
lemma collect (h : Sheltered b id written m) {roots : List Object} {sweeping markAll : Bool}
    (hroots : (shelterTerms id written).collect m roots sweeping markAll) :
    Keeps (Sheltered b id written) (Memory.collect roots sweeping markAll) m fun _ _ => True := by
  refine h.keeps_of_cell (h.toSettled.keeps (A := fun _ => True)
    (performs_collect roots sweeping markAll m) (follows_collect roots sweeping markAll)
    (sustains_orderly.collect h.orderly trivial)) ?_
  rcases hcollector : m.collector with _ | (_ | fault)
  · exact .of_ok (a := 0) (by rw [Memory.collect, hcollector]) rfl
  · obtain ⟨cell, hcell, -⟩ := h.cell
    by_cases hidle : sweeping = false ∨ markAll = true
    · obtain ⟨n, hrun, hn⟩ := collect_run_idle h.sound h.tidy hcollector roots hidle
      exact .of_ok hrun (hn.cell?_kept h.sound hcell not_false)
    · simp only [not_or, Bool.not_eq_false, Bool.not_eq_true] at hidle
      obtain ⟨rfl, rfl⟩ := hidle
      obtain ⟨n, hrun, hn⟩ := collect_run h.sound h.tidy hcollector roots
      exact .of_ok hrun (hn.cell?_kept h.sound hcell (hroots rfl rfl))
  · exact .of_error (e := fault) (by rw [Memory.collect, hcollector]) rfl

lemma copy (h : Sheltered b id written m) {j : Nat} {row : Row}
    (hj : (shelterTerms id written).write m j) (h0 : j ≠ 0) (hrow : m.rows[j]? = some row)
    (hmark : row.mark = Mark.createdAt m.level) (source count : Nat) (hfit : count ≤ row.size) :
    Keeps (Sheltered b id written) (onArena (Arena.copyWithin source row.address count)) m
      fun _ _ => True := by
  have hperforms : Performs (fun _ => True)
      (onArena (Arena.copyWithin source row.address count)) m fun _ _ => True :=
    performs_copy h.sound hrow hmark hfit
  have hsettled := h.toSettled.keeps hperforms (capped_onArena _)
    (sustains_orderly.copy h.orderly (fun _ => hj.1) h0 hrow hmark source count hfit)
  have hpersists : Ends (onArena (Arena.copyWithin source row.address count)) m
      (fun _ n => Persists id written m n ∧ True) fun _ n => Persists id written m n := by
    rcases copyWithin_cases source h.sound h0 hrow hmark hfit with ⟨fault, hrun⟩ | ⟨n, hrun, hn⟩
    · exact .of_error hrun (.of_cell rfl)
    · refine .of_ok hrun ⟨.replaced hn (cell?_of_row h0 hrow) ?_ hj.2, trivial⟩
      rw [Cell.shape, Cell.shape, length_patched]
      rw [Image.length_read, Image.length_read]
      omega
  exact (h.keeps (R := fun _ => True) hsettled hpersists).mono fun _ _ hn => hn.1

end Sheltered

/-- **The single steps leave the entity alone**, as long as they keep to the terms. -/
lemma sustains_sheltered : Sustains (Sheltered b id written) (shelterTerms id written) where
  honest := fun h => h.sound.policy
  put := fun h hj offset bytes => h.put hj offset bytes
  free := fun h hj => h.free hj
  setRefcount := fun h hrow count => h.setRefcount hrow count
  tableAlloc := fun h htag size => h.tableAlloc htag size
  firstFit := fun h htag size => h.firstFit htag size
  collect := fun h hroots => h.collect hroots
  copy := fun h hj h0 hrow hmark source count hfit => h.copy hj h0 hrow hmark source count hfit
  registered := by
    intro m policy h honest collector
    have hidle : Idle m { m with policy, collector } := ⟨rfl, rfl, rfl, honest, fun _ => rfl⟩
    have hn := h.toSettled.moves (A := fun _ => True) (.of_change (.idle hidle)) ⟨rfl, fun _ _ h => h⟩
      (sustains_orderly.registered h.orderly honest collector)
    exact ⟨hn, h.live, h.persists⟩
  opened := by
    intro m h _ handle
    have hn := h.toSettled.moves (A := fun _ => True) (.of_change (.opened handle)) ⟨rfl, fun _ _ h => h⟩
      (sustains_orderly.opened h.orderly trivial handle).1
    exact ⟨⟨hn, h.live, h.persists⟩, fun j hj => hj⟩
  word := by
    intro m j h hj hlt
    rw [UInt32.toNat_ofNat_of_lt' (Nat.lt_of_lt_of_le hlt h.bound)]
    exact hj
  tag := fun hlive _ => hlive
  fileTag := fun _ => show (Tag.ofKind .file).kind ≠ .free by decide

end Memory

/-! ## Writing into the entity -/

/-- The operation writes into the entity. -/
def MemoryOp.Writes (id : Nat) : MemoryOp → Prop
  | put j .. | writeObject j .. => j = id
  | arrayPut array .. => Memory.expectType array .array = .ok id
  | dictPut dict .. => Memory.expectType dict .dict = .ok id
  | _ => False

/-- The operation runs a collection that does not reach the entity. -/
def MemoryOp.Drops (id : Nat) (m : Memory) (op : MemoryOp) : Prop :=
  ∃ roots, op.collection? m = some (roots, true, false) ∧ Memory.Garbage m roots id

/-- An operation that does not drop the entity leaves it sheltered, and whether it may write it is up to the
terms. -/
lemma MemoryOp.Confined.meets {m : Memory} {id : Nat} {written : Prop} {op : MemoryOp}
    (h : op.Confined (Memory.shelterTerms id True) m) (hkept : ¬ op.Drops id m)
    (hwrites : op.Writes id → written) : op.Meets (Memory.shelterTerms id written) m := by
  have hconfined : op.Confined (Memory.shelterTerms id written) m := by
    cases op with
    | put j offset bytes => exact ⟨h.1, hwrites⟩
    | writeObject j offset obj => exact ⟨h.1, hwrites⟩
    | arrayPut array index value => exact fun j hj => ⟨(h j hj).1, fun he => hwrites (he ▸ hj)⟩
    | dictPut dict key value => exact fun j hj => ⟨(h j hj).1, fun he => hwrites (he ▸ hj)⟩
    | _ => exact h
  refine ⟨hconfined, fun roots sweeping markAll hcollects hs hm hgarbage => ?_⟩
  subst hs hm
  exact hkept ⟨roots, hcollects, hgarbage⟩

/-- What an operation answers has the property that it is known to end with. -/
lemma Ends.of_answer? {α : Type} {x : MemoryM α} {m : Memory} {ok : α → Memory → Prop}
    {err : Fault → Memory → Prop} (h : Ends x m ok err) {a : α} (ha : answer? x m = some a) :
    ∃ n, ok a n := by
  rw [Ends] at h
  rw [answer?] at ha
  split at ha
  · next hrun =>
    obtain rfl := Option.some.inj ha
    rw [hrun] at h
    exact ⟨_, h⟩
  · contradiction

namespace Memory

variable {b m : Memory} {id : Nat} {written : Prop}

/-- **An allocation never hands out a live entity.** -/
lemma Sheltered.not_handed_out (h : Sheltered b id written m) {op : MemoryOp}
    (hop : op.Meets (shelterTerms id True) m) : op.allocation? m ≠ some id := by
  obtain ⟨cell, hcell, hlive⟩ := h.cell
  have hm : Sheltered m id False m := h.toSettled.sheltered hcell hlive
  -- what is handed out may be written, and these terms do not let the entity be written
  have hother : ∀ {size : Nat} {tag : Tag} {x : MemoryM Nat}, tag.kind ≠ .free →
      Keeps (Sheltered m id False) x m (fun j n => (shelterTerms id False).Hands size tag j n) →
      answer? x m ≠ some id := by
    intro size tag x htag hx hanswer
    obtain ⟨n, -, hhands⟩ := Ends.of_answer? hx hanswer
    exact (hhands.2 htag).2 rfl
  have hsized : ∀ {size : Nat} {kind : Kind} {roots : List Object}, (Tag.ofKind kind).kind ≠ .free →
      (size < wordBound → (shelterTerms id False).Admits m (.allocate size (Tag.ofKind kind) roots)) →
      MemoryOp.allocation?.sized m size kind roots ≠ some id := by
    intro size kind roots hkind hroots
    rw [MemoryOp.allocation?.sized]
    split
    · next hlt => exact hother hkind (sustains_sheltered.allocate hm hkind (hroots hlt))
    · exact (Option.some_ne_none id).symm
  have hadmits : (shelterTerms id False).Admits m op := hop.admitted
  have hop := hop.confined
  cases op with
  | tableAlloc size tag => exact hother hop (sustains_sheltered.tableAlloc hm hop size)
  | allocate size tag roots => exact hother hop (sustains_sheltered.allocate hm hop hadmits)
  | allocateWithoutGc size tag => exact hother hop (sustains_sheltered.allocateWithoutGc hm hop size)
  | firstFit size tag =>
      rw [MemoryOp.allocation?]
      split
      · next j hanswer =>
        intro he
        obtain rfl := Option.some.inj he
        obtain ⟨n, -, hhands, -⟩ := Ends.of_answer? (sustains_sheltered.firstFit hm hop size) hanswer
        exact ((hhands j rfl).2 hop).2 rfl
      · exact (Option.some_ne_none id).symm
  | realloc j size roots =>
      rw [MemoryOp.allocation?]
      split
      · next row hrow =>
        have htag := kind_of_movable hrow
        have hrequest : (MemoryOp.realloc j size roots).request? m = some (size, row.tag, roots) := by
          rw [MemoryOp.request?, hrow]
        exact hother htag (sustains_sheltered.allocate hm htag (hadmits.allocate hrequest))
      · exact (Option.some_ne_none id).symm
  | reallocWithoutGc j size =>
      rw [MemoryOp.allocation?]
      split
      · next row hrow =>
        have htag := kind_of_movable hrow
        exact hother htag (sustains_sheltered.allocateWithoutGc hm htag size)
      · exact (Option.some_ne_none id).symm
  | newString bytes roots => exact hsized (by decide) fun hlt => hadmits.allocate (if_pos hlt)
  | newArray length roots => exact hsized (by decide) fun hlt => hadmits.allocate (if_pos hlt)
  | newProc elements roots => exact hsized (by decide) fun hlt => hadmits.allocate (if_pos hlt)
  | newDict capacity roots => exact hsized (by decide) fun hlt => hadmits.allocate (if_pos hlt)
  | newFile handle writable roots =>
      have htag : (Tag.ofKind .file).kind ≠ .free := by decide
      exact hother htag (sustains_sheltered.allocate hm htag (hadmits.allocate rfl))
  | _ => exact (Option.some_ne_none id).symm

/-- A live entity that is what it was has its tag, -/
lemma Sheltered.holds (h : Sheltered b id written m) : ∃ tag, b.Holds id tag ∧ m.Holds id tag := by
  obtain ⟨old, hold, hlive⟩ := h.live
  obtain ⟨cell, hcell, hshape, -⟩ := h.persists old hold
  have htag : cell.tag = old.tag := congrArg Prod.fst hshape
  have hholds : ∀ {k : Memory} {cell : Cell}, k.cell? id = some cell → cell.isFree = false →
      k.Holds id cell.tag := by
    intro k cell hcell hlive
    obtain ⟨row, -, hrow, hrowTag, -⟩ := row_of_cell hcell
    exact ⟨row, hrow, by rw [Row.isFree, hrowTag]; exact hlive, hrowTag⟩
  exact ⟨old.tag, hholds hold hlive, htag ▸ hholds hcell (by rw [Cell.isFree, htag]; exact hlive)⟩

/-- and its bytes, unless it was written. -/
lemma Sheltered.bytes (h : Sheltered b id written m) (hb : Sound b) (hnot : ¬ written) :
    m.bytes id = b.bytes id := by
  obtain ⟨old, hold, -⟩ := h.live
  obtain ⟨cell, hcell, -, hsame⟩ := h.persists old hold
  rw [bytes_cell h.sound hcell, bytes_cell hb hold, hsame hnot]

end Memory

end PostScriptCore
