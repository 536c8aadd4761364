import PostScriptCore.Proofs.Memory.Moves

/-!
# Every operation moves

Each operation that neither opens nor closes a level is a sequence of moves, also when it fails
half-way.  It hands out nothing but what its own allocation answers, and that belongs to the
current level.

* `Memory.Performs` — the operation makes moves, and its answer has a property.
* `Memory.Owned` — what an allocation hands out.
* `Memory.performs_allocate`, `Memory.performs_put`, … — the operations.
-/

namespace PostScriptCore.Memory

/-- The operation makes moves that hand out entities in `A` only, and if it succeeds its answer and
the memory have a property. -/
def Performs (A : Nat → Prop) {α : Type} (x : MemoryM α) (m : Memory)
    (P : α → Memory → Prop) : Prop :=
  Ends x m (fun a n => Moves A m n ∧ P a n) (fun _ n => Moves A m n)

variable {A : Nat → Prop}

namespace Performs

variable {α β : Type} {m : Memory} {P : α → Memory → Prop} {Q : β → Memory → Prop}

lemma bind {x : MemoryM α} {f : α → MemoryM β} (hs : Sound m) (hx : Performs A x m P)
    (hf : ∀ a n, Sound n → Moves A m n → P a n → Performs A (f a) n Q) : Performs A (x >>= f) m Q := by
  refine Ends.bind (Ends.mono hx (fun a n hn => ?_) fun _ _ hn => hn)
  exact Ends.mono (hf a n (hn.1.sound hs) hn.1 hn.2) (fun _ _ hk => ⟨hn.1.trans hk.1, hk.2⟩)
    fun _ _ hk => hn.1.trans hk

lemma pure {a : α} (h : P a m) : Performs A (Pure.pure a : MemoryM α) m P := ⟨.refl, h⟩

lemma throw {fault : Fault} : Performs A (MonadExcept.throw fault : MemoryM α) m P :=
  Relation.ReflTransGen.refl

lemma throw_bind {fault : Fault} {f : α → MemoryM β} :
    Performs A ((MonadExcept.throw fault : MemoryM α) >>= f) m Q :=
  Relation.ReflTransGen.refl

lemma query {f : Memory → Except Fault α} :
    Performs A (PostScriptCore.query f) m fun a n => n = m ∧ f m = .ok a :=
  Ends.query (fun _ ha => ⟨.refl, rfl, ha⟩) fun _ _ => .refl

lemma mono {P' : α → Memory → Prop} {x : MemoryM α} (h : Performs A x m P)
    (himp : ∀ a n, Moves A m n → P a n → P' a n) : Performs A x m P' :=
  Ends.mono h (fun a n hn => ⟨hn.1, himp a n hn.1 hn.2⟩) fun _ _ hn => hn

lemma of_ok {x : MemoryM α} {a : α} {n : Memory} (hrun : x m = .ok a n) (hmoves : Moves A m n)
    (h : P a n) : Performs A x m P :=
  Ends.of_ok hrun ⟨hmoves, h⟩

lemma of_error {x : MemoryM α} {e : Fault} {n : Memory} (hrun : x m = .error e n)
    (hmoves : Moves A m n) : Performs A x m P :=
  Ends.of_error hrun hmoves

lemma with_run {x : MemoryM α} (h : Performs A x m P) :
    Performs A x m fun a n => P a n ∧ x m = .ok a n := by
  rw [Performs, Ends] at h
  split at h
  · next hx => exact .of_ok hx h.1 ⟨h.2, hx⟩
  · next hx => exact .of_error hx h

end Performs

/-! ## Single steps -/

lemma performs_free (id : Nat) {m : Memory} (hs : Sound m) :
    Performs A (free id) m fun _ _ => True := by
  rcases free_cases id hs with ⟨fault, hrun⟩ | ⟨row, head, h0, hrow, hsize, hlive, -, hrun⟩
  · exact .of_error hrun .refl
  · exact .of_ok hrun
      ((Moves.of_change (.freed _ h0 hrow hsize hlive)).tail (.change (.relinked id))) trivial

/-- Row 0 has no storage, so that nothing is ever written there; but the attempt remembers it. -/
lemma performs_put (id offset : Nat) (bytes : List UInt8) {m : Memory} (hs : Sound m) :
    Performs A (put id offset bytes) m fun _ _ => True := by
  cases hcheck : m.checkedAddress id offset bytes.length with
  | error fault => exact .of_error (bind_error (query_error (s := m) hcheck)) .refl
  | ok address =>
      obtain ⟨row, hrow, hfit, rfl⟩ := checkedAddress_eq_ok hcheck
      have hrun : put id offset bytes m =
          onArena (Arena.write (row.address + offset) bytes) (m.touched id) :=
        (bind_ok (query_ok (s := m) hcheck)).trans (bind_ok (touch_run hs (row_lt hrow)))
      cases hobstacle : m.arena.obstacle? (row.address + offset) bytes.length with
      | none =>
          have hwrite : Arena.write (row.address + offset) bytes (m.touched id).arena =
              .ok () { m.arena with
                image := m.arena.image.write (row.address + offset) bytes } := by
            rw [arena_touched, Arena.write, hobstacle]
          refine .of_ok (hrun.trans (onArena_ok hwrite)) (.of_change ?_) trivial
          have hchange := Change.wrote offset bytes hrow hfit
          rw [overwritten, amended, edited_id, arena_touched] at hchange
          exact hchange
      | some fault =>
          have hwrite : Arena.write (row.address + offset) bytes (m.touched id).arena =
              .error fault (m.touched id).arena := by
            rw [Arena.write, arena_touched, hobstacle]
          exact .of_error (hrun.trans (onArena_error hwrite)) (.of_change (.remembered (row_lt hrow)))

/-- Setting the pins of an entity is no change that a level remembers. -/
lemma idle_setMark {m : Memory} (hs : Sound m) {id : Nat} {row : Row}
    (hrow : m.rows[id]? = some row) (count : Nat) :
    Idle m (m.edited id (fun r => { r with mark := row.mark.withRefcount count })
      m.arena.image) := by
  refine ⟨rfl, rfl, rfl, hs.policy, fun j => ?_⟩
  rw [edited, Array.getElem?_modify]
  split
  · next he =>
    subst he
    rw [hrow]
    rfl
  · rfl

lemma performs_setRefcount {m : Memory} (hs : Sound m) {id : Nat} {row : Row}
    (hrow : m.rows[id]? = some row) (count : Nat) :
    Performs A (setMark id (row.mark.withRefcount count)) m fun _ _ => True :=
  .of_ok (setMark_run hrow _) (.of_change (.idle (idle_setMark hs hrow count))) trivial

lemma performs_retain (id : Nat) {m : Memory} (hs : Sound m) :
    Performs A (retain id) m fun _ _ => True := by
  refine .bind hs .query fun row n hn _ hrow => ?_
  obtain ⟨rfl, hrow⟩ := hrow
  split
  · exact .throw_bind
  · exact performs_setRefcount hn (row_eq_ok_iff.mp hrow) _

lemma performs_release (id : Nat) {m : Memory} (hs : Sound m) :
    Performs A (release id) m fun _ _ => True := by
  refine .bind hs .query fun row n hn _ hrow => ?_
  obtain ⟨rfl, hrow⟩ := hrow
  split
  · exact .throw_bind
  · exact performs_setRefcount hn (row_eq_ok_iff.mp hrow) _

lemma performs_collect (roots : List Object) (sweeping markAll : Bool) (m : Memory) :
    Performs A (collect roots sweeping markAll) m fun _ _ => True := by
  have hmove : Move A m _ := .collected roots sweeping markAll
  cases hrun : collect roots sweeping markAll m with
  | ok a n =>
      rw [finalState_of_ok hrun] at hmove
      exact .of_ok hrun (.single hmove) trivial
  | error fault n =>
      rw [finalState_of_error hrun] at hmove
      exact .of_error hrun (.single hmove)

/-! ## Recycled storage -/

/-- What an allocation hands out: an entity of the current level with room for the request. -/
def Owned (m : Memory) (id size : Nat) (tag : Tag) : Prop :=
  ∃ row, id ≠ 0 ∧ m.rows[id]? = some row ∧ size ≤ row.size ∧ row.tag = tag ∧
    row.mark = Mark.createdAt m.level

/-- A listed entity with a readable link. -/
def Linkable (m : Memory) (id : Nat) : Prop :=
  ∃ row, id ≠ 0 ∧ m.rows[id]? = some row ∧ linkSize ≤ row.size

lemma linkable_of_readLink {m : Memory} {id next : Nat} (h0 : id ≠ 0)
    (h : m.readLink id = .ok next) : Linkable m id := by
  rw [readLink, readWord, bytesAt] at h
  split at h
  · next bytes hbytes =>
    split at hbytes
    · next address hcheck =>
      obtain ⟨row, hrow, hfit, -⟩ := checkedAddress_eq_ok hcheck
      exact ⟨row, h0, hrow, by simpa using hfit⟩
    · contradiction
  · contradiction

/-- The search ends at an entity that is large enough, and what stands before it on the list is row 0
or has a link of its own. -/
lemma findCandidate_spec {m : Memory} {wanted : Nat} {found : Candidate} (steps previous cursor : Nat)
    (hprevious : previous = 0 ∨ Linkable m previous)
    (h : m.findCandidate wanted steps previous cursor = .ok (some found)) :
    (found.previous = 0 ∨ Linkable m found.previous) ∧
      ∃ row, found.id ≠ 0 ∧ m.rows[found.id]? = some row ∧ wanted ≤ row.size := by
  induction steps generalizing previous cursor with
  | zero =>
      rw [findCandidate] at h
      split at h <;> cases h
  | succ steps ih =>
      rw [findCandidate] at h
      split at h
      · cases h
      · next h0 =>
        split at h
        · contradiction
        · contradiction
        · next row next hrow hlink =>
          split at h
          · next hfit =>
            injection h with h
            injection h with h
            subst h
            exact ⟨hprevious, row, h0, row_eq_ok_iff.mp hrow, hfit⟩
          · exact ih cursor next (.inr (linkable_of_readLink h0 hlink)) h

/-- Relinking goes through and keeps every size. -/
lemma writeLink_cases {m : Memory} (hs : Sound m) {previous : Nat} (next : Nat)
    (h : previous = 0 ∨ Linkable m previous) :
    ∃ n, writeLink previous next m = .ok () n ∧ Change m n ∧
      ∀ (j : Nat) (row : Row), m.rows[j]? = some row →
        ∃ row', n.rows[j]? = some row' ∧ row'.size = row.size := by
  rcases h with rfl | ⟨row, h0, hrow, hsize⟩
  · obtain ⟨head, hhead, -⟩ := hs.head
    refine ⟨m.linked next, ?_, .relinked next, fun _ _ => (alters_linked hhead next).size_kept hs⟩
    rw [writeLink, if_pos rfl]
    exact changeRow_run hs hhead _
  · have hfit : 0 + (wordBytes next).length ≤ row.size := by
      simpa [length_wordBytes] using hsize
    refine ⟨_, ?_, .wrote 0 (wordBytes next) hrow hfit,
      fun _ _ => (alters_overwritten hrow hfit).size_kept hs⟩
    rw [writeLink, if_neg h0]
    exact put_run hs h0 hrow hfit

lemma change_countdown {m : Memory} (hs : Sound m) (count : Nat) :
    Change m { m with gcCountdown := count } :=
  .idle ⟨rfl, rfl, rfl, hs.policy, fun _ => rfl⟩

lemma sound_countdown {m : Memory} (hs : Sound m) (count : Nat) : Sound { m with gcCountdown := count } :=
  ((change_countdown hs count).carries hs).sound hs

/-- A recycled entity belongs to the current level. -/
lemma owned_recycled {m : Memory} (hs : Sound m) {id size : Nat} {row : Row} (hid : id ≠ 0)
    (hrow : m.rows[id]? = some row) (hsize : size ≤ row.size) (tag : Tag) :
    Owned (m.recycled id row tag) id size tag := by
  obtain ⟨snapshot, -, -, hrow'⟩ := rows_amended hs hrow
    (fun r => { r with tag, mark := Mark.createdAt m.level })
    (m.arena.image.zero row.address (row.address + row.size))
  refine ⟨_, hid, hrow', hsize, rfl, ?_⟩
  rw [recycled, level_amended]

/-- The last miss of a period asks for a collection. -/
lemma countMiss_due {m : Memory} (h : m.gcCountdown ≤ 1) :
    countMiss m = .ok .needsCollection { m with gcCountdown := m.gcPeriod } := if_pos h

lemma countMiss_between {m : Memory} (h : 1 < m.gcCountdown) :
    countMiss m = .ok .miss { m with gcCountdown := m.gcCountdown - 1 } := if_neg (Nat.not_le_of_lt h)

lemma performs_countMiss {m : Memory} (hs : Sound m) :
    Performs A countMiss m fun fit _ => ∀ id, fit ≠ .reused id := by
  rcases Nat.lt_or_ge 1 m.gcCountdown with h | h
  · exact .of_ok (countMiss_between h) (.of_change (change_countdown hs _)) fun _ => Fit.noConfusion
  · exact .of_ok (countMiss_due h) (.of_change (change_countdown hs _)) fun _ => Fit.noConfusion

/-- Every answer of the operation is in `B`. -/
def Answers {α : Type} (B : α → Prop) (x : MemoryM α) (m : Memory) : Prop :=
  ∀ a n, x m = .ok a n → B a

lemma Answers.bind {α β : Type} {B : β → Prop} {x : MemoryM α} {f : α → MemoryM β} {m n : Memory}
    {a : α} (h : Answers B (x >>= f) m) (hx : x m = .ok a n) : Answers B (f a) n :=
  fun b k hf => h b k ((bind_ok hx).trans hf)

/-- A fit in an entity that is in `A`, if in any. -/
def FitsIn (A : Nat → Prop) (fit : Fit) : Prop := ∀ id, fit = .reused id → A id

/-- What a search for recycled storage may answer. -/
def FitOwned (size : Nat) (tag : Tag) (fit : Fit) (m : Memory) : Prop :=
  ∀ id, fit = .reused id → Owned m id size tag

lemma performs_firstFit (size : Nat) (tag : Tag) {m : Memory} (hs : Sound m)
    (hA : Answers (FitsIn A) (firstFit size tag) m) :
    Performs A (firstFit size tag) m (FitOwned size tag) := by
  refine .bind hs (.with_run .query) fun found n hn _ hfound => ?_
  obtain ⟨⟨rfl, hfound⟩, hquery⟩ := hfound
  cases found with
  | none => exact (performs_countMiss hn).mono fun fit k _ hne id he => absurd he (hne id)
  | some candidate =>
      obtain ⟨wanted, hsize, hprevious, row, hid, hrow, hfit⟩ :
          ∃ wanted, size ≤ wanted ∧ (candidate.previous = 0 ∨ Linkable n candidate.previous) ∧
            ∃ row, candidate.id ≠ 0 ∧ n.rows[candidate.id]? = some row ∧ wanted ≤ row.size := by
        split at hfound
        · contradiction
        · next wanted halign =>
          split at hfound
          · exact ⟨wanted, le_of_alignUp halign, findCandidate_spec _ _ _ (.inl rfl) hfound⟩
          · contradiction
      obtain ⟨n₁, hrun₁, hchange₁, hkept⟩ := writeLink_cases hn candidate.next hprevious
      have hn₁ := (hchange₁.carries hn).sound hn
      obtain ⟨row₁, hrow₁, hsize₁⟩ := hkept _ _ hrow
      have halloc := Alloc.reused tag hid hrow₁
      have hn₂ := (halloc.carries hn₁).sound hn₁
      have hreuse := reuse_run hn₁ hid hrow₁ tag
      have hin : A candidate.id := ((hA.bind hquery).bind hrun₁).bind hreuse _ _ rfl _ rfl
      refine .of_ok (a := .reused candidate.id) ((bind_ok hrun₁).trans
        ((bind_ok hreuse).trans rfl)) ?_ ?_
      · exact ((Moves.of_change hchange₁).tail (.alloc hin halloc)).tail
          (.change (change_countdown hn₂ _))
      · intro id he
        injection he with he
        subst he
        exact owned_recycled hn₁ hid hrow₁ (by omega) tag

lemma findStorage_firstFit {m : Memory} (hpolicy : m.policy = .firstFit) (size : Nat) (tag : Tag) :
    findStorage size tag m = firstFit size tag m := by rw [findStorage, hpolicy]

lemma performs_findStorage (size : Nat) (tag : Tag) {m : Memory} (hs : Sound m)
    (hA : Answers (FitsIn A) (findStorage size tag) m) :
    Performs A (findStorage size tag) m (FitOwned size tag) := by
  have hhonest := hs.policy
  cases hpolicy : m.policy with
  | firstFit =>
      have hrun := findStorage_firstFit hpolicy size tag
      rw [Performs, Ends, hrun]
      exact performs_firstFit size tag hs fun id n h => hA id n (hrun.trans h)
  | fixed answer =>
      rw [hpolicy] at hhonest
      cases answer with
      | error fault =>
          refine .of_error (e := fault) (n := m) ?_ .refl
          rw [findStorage, hpolicy]
      | ok fit =>
          refine .of_ok (a := fit) (n := m) (by rw [findStorage, hpolicy]) .refl ?_
          intro id he
          rw [he] at hhonest
          exact hhonest.elim

/-! ## Allocation -/

/-- A new entity belongs to the current level. -/
lemma owned_pushed {m : Memory} (hs : Sound m) {row : Row} {arena : Arena} {size : Nat}
    (h : Extends m row arena) (hsize : size ≤ row.size) :
    Owned (m.pushed row arena) m.entityCount size row.tag := by
  refine ⟨row, Nat.pos_iff_ne_zero.mp hs.entityCount_pos, ?_, hsize, rfl, h.mark⟩
  rw [pushed, entityCount, Array.getElem?_push, if_pos rfl]

/-- A new row is refused without any change, or it is appended over fresh bytes. -/
lemma tableAlloc_cases (size : Nat) (tag : Tag) {m : Memory} (harena : m.arena.Sound) :
    tableAlloc size tag m = .error .vmFull m ∨
    ∃ row arena, Extends m row arena ∧ row.tag = tag ∧ alignUp size arenaAlign = some row.size ∧
      tableAlloc size tag m = .ok m.entityCount (m.pushed row arena) := by
  have hzero : (if size = 0 then some 0 else alignUp size arenaAlign) =
      alignUp size arenaAlign := by
    split
    · next h0 => rw [h0]; rfl
    · rfl
  rw [tableAlloc]
  simp only [hzero]
  cases halign : alignUp size arenaAlign with
  | none => exact .inl (bind_error (query_error (s := m) rfl))
  | some rounded =>
      have hmod := Arena.mod_arenaAlign_of_alignUp halign
      by_cases hfull : m.maxEntities ≤ m.entityCount
      · exact .inl (bind_error (query_error (s := m) (if_pos hfull)))
      · rw [bind_ok (query_ok (s := m) (if_neg hfull))]
        by_cases h0 : rounded = 0
        · subst h0
          exact .inr ⟨⟨m.arena.used, 0, Mark.createdAt m.level, tag⟩, m.arena,
            ⟨harena, rfl, rfl, hmod, rfl, ⟨rfl, id⟩, fun _ => rfl⟩, rfl, rfl, rfl⟩
        · rw [if_neg h0]
          rcases Arena.alloc_cases harena hmod with
            hrun | ⟨arena, hrun, hsound, hused, hlimit, hbyte⟩
          · exact .inl (bind_error (onArena_error hrun))
          · exact .inr ⟨⟨m.arena.used, rounded, Mark.createdAt m.level, tag⟩, arena,
              ⟨hsound, hused, rfl, hmod, rfl, hlimit, hbyte⟩, rfl, rfl,
              (bind_ok (onArena_ok hrun)).trans rfl⟩

lemma performs_tableAlloc (size : Nat) (tag : Tag) {m : Memory} (hs : Sound m)
    (hA : Answers A (tableAlloc size tag) m) :
    Performs A (tableAlloc size tag) m fun id n => Owned n id size tag := by
  rcases tableAlloc_cases size tag hs.arena with hrun | ⟨row, arena, hext, rfl, halign, hrun⟩
  · exact .of_error hrun .refl
  · exact .of_ok hrun (.single (.alloc (hA _ _ hrun) (.added hext)))
      (owned_pushed hs hext (le_of_alignUp halign))

lemma performs_allocateWithoutGc (size : Nat) (tag : Tag) {m : Memory} (hs : Sound m)
    (hA : Answers A (allocateWithoutGc size tag) m) :
    Performs A (allocateWithoutGc size tag) m fun id n => Owned n id size tag := by
  have hfits : Answers (FitsIn A) (findStorage size tag) m := by
    rintro fit n hfind id rfl
    exact hA.bind hfind _ _ rfl
  refine .bind hs (performs_findStorage size tag hs hfits).with_run fun fit n hn _ hfit => ?_
  obtain ⟨hfit, hfind⟩ := hfit
  replace hA := hA.bind hfind
  cases fit with
  | reused id => exact .pure (hfit id rfl)
  | needsCollection => exact performs_tableAlloc size tag hn hA
  | miss => exact performs_tableAlloc size tag hn hA

lemma performs_allocate (size : Nat) (tag : Tag) (roots : List Object) {m : Memory} (hs : Sound m)
    (hA : Answers A (allocate size tag roots) m) :
    Performs A (allocate size tag roots) m fun id n => Owned n id size tag := by
  have hfits : Answers (FitsIn A) (findStorage size tag) m := by
    rintro fit n hfind id rfl
    exact hA.bind hfind _ _ rfl
  refine .bind hs (performs_findStorage size tag hs hfits).with_run fun fit n hn _ hfit => ?_
  obtain ⟨hfit, hfind⟩ := hfit
  replace hA := hA.bind hfind
  cases fit with
  | reused id => exact .pure (hfit id rfl)
  | miss => exact performs_tableAlloc size tag hn hA
  | needsCollection =>
      have hcollect : Performs A (attempt (collect roots true false)) n fun _ _ => True := by
        refine Ends.attempt (Ends.mono (performs_collect (A := A) roots true false n) ?_ ?_)
        · exact fun _ _ h => h
        · exact fun _ _ h => ⟨h, trivial⟩
      refine .bind hn hcollect.with_run fun _ k hk _ hattempt => ?_
      exact performs_allocateWithoutGc size tag hk (hA.bind hattempt.2)

/-- The copy writes into the new entity without remembering it first; the level knows it already,
because it was created there. -/
lemma performs_copy {m : Memory} (hs : Sound m) {source target count : Nat} {row : Row}
    (hrow : m.rows[target]? = some row) (hmark : row.mark = Mark.createdAt m.level)
    (hfit : count ≤ row.size) :
    Performs A (onArena (Arena.copyWithin source row.address count)) m fun _ _ => True := by
  have hknown : m.touched target = m := by
    refine touched_of_known hs hrow (.inr (.inl ?_))
    rw [hmark]
    exact Nat.le_of_eq hs.createdAt_level.1.symm
  by_cases hbound : ¬ m.arena.inBounds source count
  · have hcopy : Arena.copyWithin source row.address count m.arena =
        .error .rangeCheck m.arena := by rw [Arena.copyWithin, if_pos hbound]
    exact .of_error (onArena_error hcopy) .refl
  · cases hobstacle : m.arena.obstacle? row.address count with
    | some fault =>
        have hcopy : Arena.copyWithin source row.address count m.arena = .error fault m.arena := by
          rw [Arena.copyWithin, if_neg hbound, hobstacle]
        exact .of_error (onArena_error hcopy) .refl
    | none =>
        have hcopy : Arena.copyWithin source row.address count m.arena =
            .ok () { m.arena with
              image := m.arena.image.write row.address (m.arena.image.read source count) } := by
          rw [Arena.copyWithin, if_neg hbound, hobstacle]
        refine .of_ok (onArena_ok hcopy) (.of_change ?_) trivial
        have hchange := Change.wrote 0 (m.arena.image.read source count) hrow
          (by rw [Image.length_read]; omega)
        rw [overwritten, amended, edited_id, hknown] at hchange
        exact hchange

lemma performs_moveContents (id oldSize target newSize : Nat) {tag : Tag} {m : Memory}
    (hs : Sound m) (howned : Owned m target newSize tag) :
    Performs A (moveContents id oldSize target newSize) m fun _ _ => True := by
  obtain ⟨row, -, hrow, hsize, -, hmark⟩ := howned
  have hfree : ∀ n, Sound n → Performs A (do free id; return target) n fun _ _ => True :=
    fun n hn => .bind hn (performs_free id hn) fun _ _ _ _ _ => .pure trivial
  have hkeep : (if oldSize < newSize then oldSize else newSize) ≤ newSize := by split <;> omega
  rw [moveContents]
  dsimp only
  generalize (if oldSize < newSize then oldSize else newSize) = keep at hkeep ⊢
  split
  · refine .bind hs .query fun source n hn _ hsource => ?_
    obtain ⟨rfl, -⟩ := hsource
    refine .bind hn .query fun destination k hk _ hdestination => ?_
    obtain ⟨rfl, hdestination⟩ := hdestination
    rw [row_ok hrow] at hdestination
    injection hdestination with he
    subst he
    exact .bind hk (performs_copy hk hrow hmark (by omega)) fun _ n hn _ _ => hfree n hn
  · exact hfree m hs

lemma performs_realloc (id newSize : Nat) (roots : List Object) {m : Memory} (hs : Sound m)
    (hA : ∀ row, m.movable id = .ok row → Answers A (allocate newSize row.tag roots) m) :
    Performs A (realloc id newSize roots) m fun _ _ => True := by
  refine .bind hs .query fun old n hn _ hold => ?_
  obtain ⟨rfl, hold⟩ := hold
  refine .bind hn (performs_allocate newSize old.tag roots hn (hA old hold))
    fun target k hk _ howned => ?_
  exact performs_moveContents _ _ _ _ hk howned

lemma performs_reallocWithoutGc (id newSize : Nat) {m : Memory} (hs : Sound m)
    (hA : ∀ row, m.movable id = .ok row → Answers A (allocateWithoutGc newSize row.tag) m) :
    Performs A (reallocWithoutGc id newSize) m fun _ _ => True := by
  refine .bind hs .query fun old n hn _ hold => ?_
  obtain ⟨rfl, hold⟩ := hold
  refine .bind hn (performs_allocateWithoutGc newSize old.tag hn (hA old hold))
    fun target k hk _ howned => ?_
  exact performs_moveContents _ _ _ _ hk howned

/-! ## Composites -/

lemma performs_newString (bytes : List UInt8) (roots : List Object) {m : Memory} (hs : Sound m)
    (hA : bytes.length < wordBound →
      Answers A (allocate bytes.length (Tag.ofKind .string) roots) m) :
    Performs A (newString bytes roots) m fun _ _ => True := by
  rw [newString, newStringOf]
  split
  · exact .throw_bind
  · next hlength =>
    refine .bind hs (performs_allocate _ _ roots hs (hA (by omega))) fun id n hn _ _ => ?_
    exact .bind hn (performs_put id 0 bytes hn) fun _ _ _ _ _ => ⟨.refl, trivial⟩

lemma performs_newElements (kind : Kind) (ty : ObjectType) (width length : Nat)
    (roots : List Object) {m : Memory} (hs : Sound m)
    (hA : length * width < wordBound →
      Answers A (allocate (length * width) (Tag.ofKind kind) roots) m) :
    Performs A (newElements kind ty width length roots) m fun _ _ => True := by
  rw [newElements]
  split
  · exact .throw_bind
  · next hlength =>
    exact .bind hs (performs_allocate _ _ roots hs (hA (by omega))) fun _ _ _ _ _ =>
      ⟨.refl, trivial⟩

lemma performs_newFile (handle : Handle) (writable : Bool) (roots : List Object) {m : Memory}
    (hs : Sound m) (hA : Answers A (allocate 8 (Tag.ofKind .file) roots) m) :
    Performs A (newFile handle writable roots) m fun _ _ => True := by
  refine .bind hs (performs_allocate _ _ roots hs hA) fun id n hn _ _ => ?_
  have hopened : Performs A (modifyGet fun m : Memory =>
      ((m.resources.insert handle).1, { m with resources := (m.resources.insert handle).2 }))
      n fun _ _ => True := ⟨.of_change (.opened handle), trivial⟩
  refine .bind hn hopened fun slot k hk _ _ => ?_
  exact .bind hk (performs_put id 0 _ hk) fun _ _ _ _ _ => ⟨.refl, trivial⟩

lemma performs_arrayPut (array : Object) (index : Nat) (value : Object) {m : Memory}
    (hs : Sound m) : Performs A (arrayPut array index value) m fun _ _ => True := by
  refine .bind hs .query fun id n hn _ _ => ?_
  dsimp only
  split
  · exact .throw_bind
  · split
    · exact .throw_bind
    · exact .bind hn .query fun offset k hk _ _ => performs_put id offset _ hk

lemma performs_putElements (array : Object) (index : Nat) (elements : List Object) {m : Memory}
    (hs : Sound m) : Performs A (putElements array index elements) m fun _ _ => True := by
  induction elements generalizing index m with
  | nil => exact .pure trivial
  | cons obj rest ih =>
      exact .bind hs (performs_arrayPut array index obj hs) fun _ _ hn _ _ => ih _ hn

lemma performs_newProc (elements roots : List Object) {m : Memory} (hs : Sound m)
    (hA : elements.length * objectSize < wordBound →
      Answers A (allocate (elements.length * objectSize) (Tag.ofKind .array) roots) m) :
    Performs A (newProc elements roots) m fun _ _ => True := by
  rw [newProc]
  split
  · exact .throw_bind
  · refine .bind hs (performs_newElements _ _ _ _ roots hs hA) fun array n hn _ _ => ?_
    exact .bind hn (performs_putElements array 0 elements hn) fun _ _ _ _ _ => .pure trivial

lemma performs_dictPut (dict key value : Object) {m : Memory} (hs : Sound m) :
    Performs A (dictPut dict key value) m fun _ _ => True := by
  have hstore : ∀ (id entry : Nat) (n : Memory), Sound n →
      Performs A (do
        writeObject id (entry * dictEntrySize) key
        writeObject id (entry * dictEntrySize + objectSize) value) n fun _ _ => True :=
    fun id entry n hn => .bind hn (performs_put _ _ _ hn) fun _ _ hk _ _ => performs_put _ _ _ hk
  refine .bind hs .query fun id n hn _ _ => ?_
  dsimp only
  split
  · exact .throw_bind
  · split
    · exact .throw_bind
    · refine .bind hn .query fun slot k hk _ _ => ?_
      cases slot with
      | full => exact .throw
      | occupied entry => exact hstore id entry k hk
      | unused entry => exact hstore id entry k hk

end PostScriptCore.Memory
