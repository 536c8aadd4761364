import PostScriptCore.Proofs.Arena.Extents
import PostScriptCore.Proofs.Memory.Capacity
import PostScriptCore.Proofs.Memory.Emptied
import PostScriptCore.Proofs.Memory.Invariants

/-!
# What an exited memory still answers

Exiting gives the storage back and cuts the table down to its first row.  That row is not reset: it keeps the
head of the free list, although the entity named there is gone.  From then on every access fails, but not every
failure says that the memory was exited, and entities without storage can still be added.

**Arenas.**  A released arena answers nothing and stays as it is (`Arena.perform_exit`).  What it reports depends
on which check comes first.

**Memories.**  `Memory.Exited` holds right after the exit and is kept by every operation, levels included
(`Memory.Exited.afterAll`).  It is what an allocation depends on: `Memory.searchFault?` is how the search along
the free list ends, `Memory.tableFault?` how adding a row ends, and `Memory.Exited.obeys` says that a request is
answered accordingly.
-/

namespace PostScriptCore

/-! ## Arenas -/

namespace Arena

lemma alloc_exit (a : Arena) (size : Nat) : alloc size a.exit = .error .uninitialized a.exit := rfl

/-- Growth beyond the limit is refused before the release is noticed. -/
lemma grow_exit (a : Arena) (extra : Nat) :
    grow extra a.exit =
      .error (if (pages extra a.pageSize).any (· ≤ a.limit) then .uninitialized else .vmFull) a.exit := by
  have hpages : pages extra a.exit.pageSize = pages extra a.pageSize := rfl
  rw [grow, hpages]
  cases hmore : pages extra a.pageSize with
  | none => rfl
  | some more =>
      have hword : more < wordBound := lt_wordBound_of_alignUp hmore
      have hmax : a.exit.max + more = more := Nat.zero_add more
      have hlimit : a.exit.limit = a.limit := rfl
      dsimp only
      rw [hmax, hlimit, Option.any_some]
      by_cases hle : more ≤ a.limit
      · rw [if_neg (by omega), if_pos (decide_eq_true hle)]
        rfl
      · rw [if_pos (by omega), if_neg (by simpa using hle)]

lemma inBounds_exit (a : Arena) (offset count : Nat) : a.exit.inBounds offset count ↔ offset = 0 ∧ count = 0 := by
  simp only [inBounds, exit, wordBound]
  omega

/-- A range is checked before the release is noticed, and only the empty one at the start is in bounds. -/
lemma obstacle?_exit (a : Arena) (offset count : Nat) :
    a.exit.obstacle? offset count = some (if offset = 0 ∧ count = 0 then .uninitialized else .rangeCheck) := by
  rw [obstacle?]
  by_cases h : a.exit.inBounds offset count
  · rw [if_neg (not_not_intro h), if_pos ((inBounds_exit a offset count).mp h)]
    rfl
  · rw [if_pos h, if_neg (mt (inBounds_exit a offset count).mpr h)]

lemma read_exit (a : Arena) (offset count : Nat) :
    a.exit.read offset count = .error (if offset = 0 ∧ count = 0 then .uninitialized else .rangeCheck) := by
  rw [read, obstacle?_exit]

lemma write_exit (a : Arena) (offset : Nat) (bytes : List UInt8) :
    write offset bytes a.exit =
      .error (if offset = 0 ∧ bytes.length = 0 then .uninitialized else .rangeCheck) a.exit := by
  rw [write, obstacle?_exit]

lemma copyWithin_exit (a : Arena) (source target count : Nat) :
    copyWithin source target count a.exit =
      .error (if source = 0 ∧ target = 0 ∧ count = 0 then .uninitialized else .rangeCheck) a.exit := by
  rw [copyWithin, obstacle?_exit]
  by_cases hsource : a.exit.inBounds source count
  · obtain ⟨rfl, rfl⟩ := (inBounds_exit a source count).mp hsource
    rw [if_neg (not_not_intro hsource)]
    simp
  · rw [if_pos hsource, if_neg]
    rintro ⟨hzero, -, hcount⟩
    exact hsource ((inBounds_exit a source count).mpr ⟨hzero, hcount⟩)

lemma backedBy_of_error {α : Type} {mapping : Mapping} {x : EStateM Fault Arena α} {a b : Arena} {fault : Fault}
    (h : x a = .error fault b) : backedBy mapping x a = .error fault b := by
  rw [backedBy, h]

/-- **A released arena does nothing**, whatever it is asked for. -/
lemma perform_exit (a : Arena) (op : ArenaOp) : ∃ fault, op.perform a.exit = .error fault a.exit := by
  cases op with
  | alloc mapping size =>
      exact ⟨.uninitialized, map_error (backedBy_of_error (alloc_exit a size))⟩
  | grow mapping extra =>
      exact ⟨_, map_error (backedBy_of_error (grow_exit a extra))⟩
  | write offset bytes => exact ⟨_, map_error (write_exit a offset bytes)⟩
  | copyWithin source target count => exact ⟨_, map_error (copyWithin_exit a source target count)⟩

lemma afterAll_exit (a : Arena) (ops : List ArenaOp) : a.exit.afterAll ops = a.exit := by
  induction ops with
  | nil => rfl
  | cons op rest ih =>
      obtain ⟨fault, hop⟩ := perform_exit a op
      have hstep : a.exit.after op = a.exit := finalState_of_error hop
      rw [afterAll, List.foldl_cons, hstep]
      exact ih

end Arena

namespace Memory

variable {head : Nat} {m n : Memory}

/-! ## What the exit leaves behind -/

/-- No entity has storage, and the reserved row names the head of a list. -/
def Bare (head id : Nat) (row : Row) : Prop := row.size = 0 ∧ (id = 0 → row.address = head)

/-- The memory was exited while its free list began with `head`. -/
structure Exited (head : Nat) (m : Memory) : Prop where
  unmapped : m.arena.mapped = false
  unused : m.arena.used = 0
  policy : m.policy.Honest
  table : 0 < m.entityCount
  rows : ∀ (id : Nat) (row : Row), m.rows[id]? = some row → Bare head id row
  saves : ∀ record ∈ m.saves, 0 < record.entityCount ∧ ∀ s ∈ record.snapshots, Bare head s.id s.row

/-- Nothing is beyond what may be asked of an exited memory. -/
def exitedTerms : Terms where
  tag := fun _ => True
  write := fun _ _ => True
  free := fun _ => True
  collect := fun _ _ _ _ => True
  files := True

namespace Exited

lemma freeHead (h : Exited head m) : m.freeHead = .ok head := by
  obtain ⟨row, hrow⟩ := exists_row h.table
  rw [Memory.freeHead, row_ok hrow]
  exact congrArg Except.ok ((h.rows 0 row hrow).2 rfl)

/-- What happens to marks, tags and bookkeeping does not matter. -/
lemma of_rows (h : Exited head m) (harena : n.arena = m.arena) (hpolicy : n.policy.Honest)
    (hsaves : n.saves = m.saves) {f : Row → Row}
    (hf : ∀ row, (f row).size = row.size ∧ (f row).address = row.address)
    (hrows : ∀ id : Nat, n.rows[id]?.map f = m.rows[id]?.map f) : Exited head n where
  unmapped := harena ▸ h.unmapped
  unused := harena ▸ h.unused
  policy := hpolicy
  table := by
    obtain ⟨row, hrow⟩ := exists_row h.table
    have h0 := hrows 0
    rw [hrow] at h0
    obtain ⟨row', hrow', -⟩ := Option.map_eq_some_iff.mp h0
    exact row_lt hrow'
  rows := by
    intro id row hrow
    have hid := hrows id
    rw [hrow] at hid
    obtain ⟨row', hrow', hsame⟩ := Option.map_eq_some_iff.mp hid.symm
    obtain ⟨hsize, haddress⟩ := h.rows id row' hrow'
    rw [← (hf row').1, hsame, (hf row).1] at hsize
    rw [← (hf row').2, hsame, (hf row).2] at haddress
    exact ⟨hsize, haddress⟩
  saves := hsaves ▸ h.saves

lemma marks (h : Exited head m) (hn : Marks m n) : Exited head n :=
  h.of_rows (by rw [hn.frame]) (by rw [hn.frame]; exact h.policy) (by rw [hn.frame])
    (f := Row.unmarked) (fun _ => ⟨rfl, rfl⟩) hn.rows

/-- One row may be replaced by another one without storage. -/
lemma modify (h : Exited head m) (id : Nat) {f : Row → Row} (hf : ∀ row, Bare head id row → Bare head id (f row)) :
    Exited head { m with rows := m.rows.modify id f } where
  unmapped := h.unmapped
  unused := h.unused
  policy := h.policy
  table := Nat.lt_of_lt_of_eq h.table Array.size_modify.symm
  rows := by
    intro j row hrow
    rw [Array.getElem?_modify] at hrow
    split at hrow
    · next he =>
      subst he
      obtain ⟨old, hold, rfl⟩ := Option.map_eq_some_iff.mp hrow
      exact hf old (h.rows _ old hold)
    · exact h.rows j row hrow
  saves := h.saves

/-- A snapshot remembers the row as it is. -/
lemma remember (h : Exited head m) {id : Nat} {snapshot : Snapshot}
    (hpending : m.pendingSnapshot id = .ok (some snapshot)) :
    Exited head { m with saves := addSnapshot snapshot m.saves } := by
  have hbare : Bare head snapshot.id snapshot.row := by
    rw [pendingSnapshot] at hpending
    split at hpending
    · cases hpending
    · split at hpending
      · cases hpending
      · next row hrow =>
        have hrow' := h.rows id row (row_eq_ok_iff.mp hrow)
        split at hpending
        · cases hpending
        · rw [if_pos hrow'.1] at hpending
          obtain rfl := Option.some.inj (Except.ok.inj hpending)
          exact hrow'
  refine ⟨h.unmapped, h.unused, h.policy, h.table, h.rows, fun record hrecord => ?_⟩
  have hsaves := h.saves
  cases hm : m.saves with
  | nil =>
      rw [hm] at hrecord
      contradiction
  | cons innermost outer =>
      rw [hm] at hrecord hsaves
      obtain ⟨hinnermost, houter⟩ := List.forall_mem_cons.mp hsaves
      rcases List.mem_cons.mp hrecord with rfl | hrecord
      · exact ⟨hinnermost.1, List.forall_mem_cons.mpr ⟨hbare, hinnermost.2⟩⟩
      · exact houter record hrecord

/-! ## Single steps -/

lemma touch (h : Exited head m) (id : Nat) : Keeps (Exited head) (Memory.touch id) m fun _ _ => True := by
  refine .bind (.query h) fun pending n hn hpending => ?_
  obtain ⟨rfl, hpending⟩ := hpending
  cases pending with
  | none => exact .pure hn trivial
  | some snapshot => exact ⟨(hn.remember hpending).modify id fun _ hrow => hrow, trivial⟩

lemma changeRow (h : Exited head m) (id : Nat) {f : Row → Row}
    (hf : ∀ row, Bare head id row → Bare head id (f row)) :
    Keeps (Exited head) (Memory.changeRow id f) m fun _ _ => True := by
  refine .bind (h.touch id) fun _ n hn _ => ?_
  have hfound : Keeps (Exited head) (discard (query fun m : Memory => m.row id)) n fun _ _ => True :=
    Ends.map (Ends.query (fun _ _ => ⟨hn, trivial⟩) fun _ _ => hn)
  exact .bind hfound fun _ k hk _ => ⟨hk.modify id hf, trivial⟩

lemma obstacle (h : Exited head m) (offset count : Nat) : ∃ fault, m.arena.obstacle? offset count = some fault := by
  rw [Arena.obstacle?, h.unmapped]
  by_cases hbound : m.arena.inBounds offset count
  · exact ⟨_, by rw [if_neg (not_not_intro hbound), if_neg Bool.false_ne_true]⟩
  · exact ⟨_, if_pos hbound⟩

/-- There are no bytes that could be written, -/
lemma put (h : Exited head m) (id offset : Nat) (bytes : List UInt8) :
    Keeps (Exited head) (Memory.put id offset bytes) m fun _ _ => False := by
  refine .bind (.query h) fun address n hn _ => .bind (hn.touch id) fun _ k hk _ => ?_
  obtain ⟨fault, hfault⟩ := hk.obstacle address bytes.length
  have hwrite : Arena.write address bytes k.arena = .error fault k.arena := by
    rw [Arena.write, hfault]
  exact .of_error (onArena_error hwrite) hk

/-- copied, -/
lemma copyWithin (h : Exited head m) (source target count : Nat) :
    Keeps (Exited head) (onArena (Arena.copyWithin source target count)) m fun _ _ => False := by
  obtain ⟨fault, hfault⟩ := h.obstacle target count
  have hcopy : ∃ fault, Arena.copyWithin source target count m.arena = .error fault m.arena := by
    rw [Arena.copyWithin, hfault]
    split <;> exact ⟨_, rfl⟩
  obtain ⟨fault, hcopy⟩ := hcopy
  exact .of_error (onArena_error hcopy) h

/-- read, -/
lemma bytesAt (h : Exited head m) (id offset count : Nat) : ∃ fault, m.bytesAt id offset count = .error fault := by
  rw [Memory.bytesAt]
  cases m.checkedAddress id offset count with
  | error fault => exact ⟨fault, rfl⟩
  | ok address =>
      obtain ⟨fault, hfault⟩ := h.obstacle address count
      exact ⟨fault, by simp only [Arena.read, hfault]⟩

/-- or freed. -/
lemma free (h : Exited head m) (id : Nat) : Keeps (Exited head) (Memory.free id) m fun _ _ => False := by
  refine .bind (.query h) fun row n hn hrow => ?_
  obtain ⟨rfl, hrow⟩ := hrow
  have hguard : id = 0 ∨ row.size < linkSize ∨ row.isFree = true :=
    .inr (.inl (by rw [(hn.rows id row (row_eq_ok_iff.mp hrow)).1]; decide))
  rw [if_pos hguard]
  exact .throw_bind hn

end Exited

/-! ## Searching and adding -/

/-- What following the free list of an exited memory fails with, if it fails. -/
def listFault? (m : Memory) (size : Nat) : Option Fault :=
  match alignUp size arenaAlign, m.freeHead with
  | none, _ => some .vmFull
  | some _, .error fault => some fault
  | some _, .ok head =>
    if head = 0 then none else some (if head < m.entityCount then .rangeCheck else .invalidEntity head)

/-- What the search for recycled storage fails with in an exited memory, if it fails. -/
def searchFault? (m : Memory) (size : Nat) : Option Fault :=
  match m.policy with
  | .firstFit => m.listFault? size
  | .fixed (.ok _) => none
  | .fixed (.error fault) => some fault

/-- What adding a row fails with in an exited memory, if it fails. -/
def tableFault? (m : Memory) (size : Nat) : Option Fault :=
  if alignUp size arenaAlign = none ∨ m.maxEntities ≤ m.entityCount then some .vmFull
  else if size = 0 then none
  else some .uninitialized

/-- How storage may be asked for. -/
inductive Request
  | table
  | withoutGc
  | collecting (roots : List Object)

namespace Request

/-- Makes the request. -/
def run (size : Nat) (tag : Tag) : Request → MemoryM Nat
  | table => tableAlloc size tag
  | withoutGc => allocateWithoutGc size tag
  | collecting roots => allocate size tag roots

/-- What the request fails with in an exited memory, if it fails. -/
def fault? (m : Memory) (size : Nat) : Request → Option Fault
  | table => m.tableFault? size
  | _ => (m.searchFault? size).or (m.tableFault? size)

end Request

/-- The step fails with the given fault, or hands out a new entity if there is none. -/
def Obeys (m : Memory) (x : MemoryM Nat) : Option Fault → Prop
  | some fault => ∃ n, x m = .error fault n ∧ n.entityCount = m.entityCount
  | none => ∃ n, x m = .ok m.entityCount n ∧ n.entityCount = m.entityCount + 1

lemma Standing.tableFault? (h : Standing m n) (size : Nat) : n.tableFault? size = m.tableFault? size := by
  rw [Memory.tableFault?, Memory.tableFault?, h.limit, h.count]

namespace Exited

lemma searchFault?_congr (hm : Exited head m) (hn : Exited head n) (h : Standing m n) (size : Nat) :
    n.searchFault? size = m.searchFault? size := by
  simp only [searchFault?, listFault?, h.policy, h.count, hm.freeHead, hn.freeHead]

lemma countMiss (h : Exited head m) :
    Keeps (Exited head) Memory.countMiss m fun fit _ => ∀ id, fit ≠ .reused id := by
  have hcount : ∀ count, Exited head { m with gcCountdown := count } := fun _ =>
    ⟨h.unmapped, h.unused, h.policy, h.table, h.rows, h.saves⟩
  by_cases hcountdown : m.gcCountdown ≤ 1
  · exact .of_ok (if_pos hcountdown) (hcount _) nofun
  · exact .of_ok (if_neg hcountdown) (hcount _) nofun

/-- A list that is not empty begins with an entity that has no link to read. -/
lemma findCandidate (h : Exited head m) (wanted : Nat) :
    m.findCandidate wanted m.entityCount 0 head =
      if head = 0 then .ok none
      else .error (if head < m.entityCount then .rangeCheck else .invalidEntity head) := by
  obtain ⟨steps, hsteps⟩ := Nat.exists_eq_succ_of_ne_zero (Nat.pos_iff_ne_zero.mp h.table)
  rw [hsteps, Memory.findCandidate]
  by_cases hzero : head = 0
  · rw [if_pos hzero, if_pos hzero]
  · rw [if_neg hzero, if_neg hzero, ← hsteps]
    by_cases hlt : head < m.entityCount
    · obtain ⟨row, hrow⟩ := exists_row hlt
      have hlink : m.readLink head = .error .rangeCheck := by
        have hshort : row.size < 0 + 4 := by rw [(h.rows head row hrow).1]; decide
        rw [readLink, readWord, Memory.bytesAt, checkedAddress, row_ok hrow]
        simp only [if_pos hshort]
      rw [row_ok hrow, hlink, if_pos hlt]
    · rw [row_error (Nat.le_of_not_lt hlt), if_neg hlt]

lemma firstFit (h : Exited head m) (size : Nat) (tag : Tag) :
    match m.listFault? size with
    | some fault => Memory.firstFit size tag m = .error fault m
    | none => Memory.firstFit size tag m = Memory.countMiss m := by
  rw [listFault?, h.freeHead]
  cases halign : alignUp size arenaAlign with
  | none => exact bind_error (query_error (by simp only [halign]))
  | some wanted =>
      have hfound := h.findCandidate wanted
      dsimp only
      by_cases hzero : head = 0
      · rw [if_pos hzero] at hfound ⊢
        exact bind_ok (query_ok (s := m) (a := none) (by simp only [halign, h.freeHead, hfound]))
      · rw [if_neg hzero] at hfound ⊢
        exact bind_error (query_error (by simp only [halign, h.freeHead, hfound]))

/-- The search fails as predicted, or finds nothing. -/
lemma findStorage (h : Exited head m) (size : Nat) (tag : Tag) :
    match m.searchFault? size with
    | some fault => Memory.findStorage size tag m = .error fault m
    | none => ∃ fit n, Memory.findStorage size tag m = .ok fit n ∧ Exited head n ∧ ∀ id, fit ≠ .reused id := by
  have hhonest := h.policy
  rcases hpolicy : m.policy with _ | (fault | fit)
  · have hrun : Memory.findStorage size tag m = Memory.firstFit size tag m := by
      rw [Memory.findStorage, hpolicy]
    have hsearch := h.firstFit size tag
    rw [hrun, searchFault?, hpolicy]
    dsimp only
    split at hsearch
    · exact hsearch
    · have hcount := h.countMiss
      cases hmiss : Memory.countMiss m with
      | ok fit n =>
          rw [hmiss] at hsearch
          exact ⟨fit, n, hsearch, hcount.ok_of hmiss⟩
      | error fault n =>
          rw [Memory.countMiss] at hmiss
          split at hmiss <;> contradiction
  · rw [searchFault?, hpolicy, Memory.findStorage, hpolicy]
  · rw [searchFault?, hpolicy, Memory.findStorage, hpolicy]
    refine ⟨fit, m, rfl, h, ?_⟩
    rintro id rfl
    rw [hpolicy] at hhonest
    exact hhonest.elim

end Exited

/-! ## Adding rows -/

namespace Exited

/-- The row of an entity without storage. -/
def bareRow (m : Memory) (tag : Tag) : Row := ⟨m.arena.used, 0, Mark.createdAt m.level, tag⟩

lemma pushed (h : Exited head m) (tag : Tag) : Exited head (m.pushed (bareRow m tag) m.arena) where
  unmapped := h.unmapped
  unused := h.unused
  policy := h.policy
  table := Nat.lt_of_lt_of_eq (Nat.succ_pos _) (Array.size_push _).symm
  rows := by
    intro id row hrow
    rw [Memory.pushed, Array.getElem?_push] at hrow
    split at hrow
    · next he =>
      obtain rfl := Option.some.inj hrow
      exact ⟨rfl, fun hzero => absurd (he.symm.trans hzero) (Nat.pos_iff_ne_zero.mp h.table)⟩
    · exact h.rows id row hrow
  saves := h.saves

/-- **Only an entity without storage is added.** -/
lemma tableAlloc (h : Exited head m) (size : Nat) (tag : Tag) :
    (∀ fault, m.tableFault? size = some fault → Memory.tableAlloc size tag m = .error fault m) ∧
    (m.tableFault? size = none → size = 0 ∧
      Memory.tableAlloc size tag m = .ok m.entityCount (m.pushed (bareRow m tag) m.arena)) := by
  have hzero : alignUp 0 arenaAlign = some 0 := rfl
  have hround : ∀ size, (if size = 0 then some 0 else alignUp size arenaAlign) = alignUp size arenaAlign := by
    intro size
    split
    · next h0 => rw [h0, hzero]
    · rfl
  rw [tableFault?]
  by_cases hfull : alignUp size arenaAlign = none ∨ m.maxEntities ≤ m.entityCount
  · rw [if_pos hfull]
    refine ⟨fun fault hfault => ?_, fun hnone => absurd hnone (Option.some_ne_none _)⟩
    obtain rfl := Option.some.inj hfault
    refine bind_error (query_error ?_)
    rw [hround]
    obtain halign | hrows := hfull
    · rw [halign]
    · cases alignUp size arenaAlign with
      | none => rfl
      | some rounded => exact if_pos hrows
  · rw [if_neg hfull]
    obtain ⟨halign, hrows⟩ := not_or.mp hfull
    obtain ⟨rounded, halign⟩ := Option.ne_none_iff_exists'.mp halign
    by_cases h0 : size = 0
    · subst h0
      obtain rfl : 0 = rounded := Option.some.inj (hzero.symm.trans halign)
      rw [if_pos rfl]
      refine ⟨fun fault hfault => absurd hfault.symm (Option.some_ne_none _), fun _ => ⟨rfl, ?_⟩⟩
      refine (bind_ok (query_ok (a := 0) ?_)).trans rfl
      rw [hround, halign]
      exact if_neg hrows
    · rw [if_neg h0]
      refine ⟨fun fault hfault => ?_, fun hnone => absurd hnone (Option.some_ne_none _)⟩
      obtain rfl := Option.some.inj hfault
      have hne : rounded ≠ 0 :=
        Nat.pos_iff_ne_zero.mp (Nat.lt_of_lt_of_le (Nat.pos_of_ne_zero h0) (le_of_alignUp halign))
      have halloc : Arena.alloc rounded m.arena = .error .uninitialized m.arena := by
        rw [Arena.alloc, h.unmapped]
        rfl
      refine (bind_ok (query_ok (a := rounded) ?_)).trans ?_
      · rw [hround, halign]
        exact if_neg hrows
      · rw [if_neg hne]
        exact bind_error (onArena_error halloc)

lemma hands (h : Exited head m) (tag : Tag) :
    exitedTerms.Hands 0 tag m.entityCount (m.pushed (bareRow m tag) m.arena) :=
  ⟨⟨bareRow m tag, Nat.pos_iff_ne_zero.mp h.table, Array.getElem?_push_size, Nat.le_refl _, rfl, rfl⟩,
    fun _ => trivial⟩

end Exited

/-! ## Runs -/

/-- **The single steps of operations** lead from exited memories to exited memories. -/
lemma sustains_exited (head : Nat) : Sustains (Exited head) exitedTerms where
  honest := fun h => h.policy
  put := fun h _ offset bytes => (h.put _ offset bytes).mono fun _ _ => False.elim
  free := fun h _ => (h.free _).mono fun _ _ => False.elim
  setRefcount := fun h hrow _ => .of_ok (setMark_run hrow _) (h.modify _ fun _ hbare => hbare) trivial
  tableAlloc := by
    intro m tag h _ size
    obtain ⟨hfails, hadds⟩ := h.tableAlloc size tag
    cases hfault : m.tableFault? size with
    | some fault => exact .of_error (hfails fault hfault) h
    | none =>
        obtain ⟨rfl, hrun⟩ := hadds hfault
        exact .of_ok hrun (h.pushed tag) (h.hands tag)
  firstFit := by
    intro m tag h _ size
    have hfound : Keeps (Exited head) (firstFit size tag) m fun fit _ => ∀ id, fit ≠ .reused id := by
      have hrun := h.firstFit size tag
      split at hrun
      · exact .of_error hrun h
      · rw [Keeps, Ends, hrun]
        exact h.countMiss
    exact hfound.mono fun _ _ hne => ⟨fun id he => absurd he (hne id), fun _ _ _ => trivial⟩
  collect := fun h _ => keeps_collect Exited.marks (fun h _ _ => (h.free _).mono fun _ _ _ => trivial) h _ _ _
  copy := fun h _ _ _ _ source count _ => (h.copyWithin source _ count).mono fun _ _ => False.elim
  registered := fun h honest _ => ⟨h.unmapped, h.unused, honest, h.table, h.rows, h.saves⟩
  opened := fun h _ _ => ⟨⟨h.unmapped, h.unused, h.policy, h.table, h.rows, h.saves⟩, fun _ _ => trivial⟩
  word := fun _ _ _ => trivial
  tag := fun _ _ => trivial
  fileTag := fun _ => trivial

namespace Exited

/-- Cutting the table keeps its first row. -/
lemma cut (h : Exited head m) {count : Nat} (hcount : 0 < count) :
    Exited head { m with rows := m.rows.take count } where
  unmapped := h.unmapped
  unused := h.unused
  policy := h.policy
  table := by
    have hsize : (m.rows.take count).size = min count m.rows.size := by simp
    have htable : 0 < m.rows.size := h.table
    show 0 < (m.rows.take count).size
    omega
  rows := by
    intro id row hrow
    have hcut : (m.rows.extract 0 count)[id]? = some row := hrow
    rw [Array.getElem?_extract] at hcut
    split at hcut
    · rw [Nat.zero_add] at hcut
      exact h.rows id row hcut
    · contradiction
  saves := h.saves

/-- Putting rows back that had no storage writes nothing. -/
lemma replay (h : Exited head m) {snapshots : List Snapshot} (hs : ∀ s ∈ snapshots, Bare head s.id s.row) :
    Keeps (Exited head) (Memory.replay snapshots) m fun _ _ => True := by
  induction snapshots generalizing m with
  | nil => exact .pure h trivial
  | cons s rest ih =>
      obtain ⟨hbare, hrest⟩ := List.forall_mem_cons.mp hs
      have hempty : ¬ 0 < s.row.size := by rw [hbare.1]; exact Nat.lt_irrefl 0
      rw [Memory.replay, if_neg hempty]
      exact Ends.bind (Ends.modify (ih (h.modify s.id fun _ _ => hbare) hrest))

/-- Rolling back stops at the arena, when the rows have been put back. -/
lemma rollBack (h : Exited head m) {record : SaveRecord} (hcount : 0 < record.entityCount)
    (hs : ∀ s ∈ record.snapshots, Bare head s.id s.row) :
    Keeps (Exited head) (Memory.rollBack record) m fun _ _ => True := by
  refine .bind (h.replay hs) fun _ n hn _ => ?_
  have hreleased := hn.of_rows (n := n.releaseResources record.entityCount (n.entityCount - record.entityCount))
    (by rw [releaseResources_eq]) (by rw [releaseResources_eq]; exact hn.policy) (by rw [releaseResources_eq])
    (f := id) (fun _ => ⟨rfl, rfl⟩) fun id => by rw [releaseResources_eq]
  refine Keeps.bind (P := fun _ _ => True) ⟨hreleased.cut hcount, trivial⟩ fun _ k hk _ => ?_
  have htruncate : ∃ fault, Arena.truncate record.used k.arena = .error fault k.arena := by
    rw [Arena.truncate, hk.unmapped]
    split <;> exact ⟨_, rfl⟩
  obtain ⟨fault, htruncate⟩ := htruncate
  exact .of_error (onArena_error htruncate) hk

lemma closeLevels (h : Exited head m) (count : Nat) :
    Keeps (Exited head) (Memory.closeLevels count) m fun _ _ => True := by
  induction count generalizing m with
  | zero => exact .pure h trivial
  | succ count ih =>
      refine Ends.bind (Ends.get ?_)
      have hsaves := h.saves
      cases hm : m.saves with
      | nil => exact Keeps.pure h trivial
      | cons record outer =>
          rw [hm] at hsaves
          obtain ⟨⟨hcount, hs⟩, houter⟩ := List.forall_mem_cons.mp hsaves
          have hopen : Exited head { m with saves := outer } :=
            ⟨h.unmapped, h.unused, h.policy, h.table, h.rows, houter⟩
          refine Ends.bind (Ends.modify ?_)
          exact Keeps.bind (hopen.rollBack hcount hs) fun _ _ hn _ => ih hn

/-- **What was exited stays exited.** -/
lemma after (h : Exited head m) (op : MemoryOp) : Exited head (m.after op) := by
  cases op with
  | setTag id tag =>
      have htagged := h.changeRow id (f := fun row => { row with tag }) fun _ hbare => hbare
      exact htagged.finalState
  | save =>
      rw [after_save]
      split
      · refine ⟨h.unmapped, h.unused, h.policy, h.table, h.rows, ?_⟩
        exact List.forall_mem_cons.mpr ⟨⟨h.table, nofun⟩, h.saves⟩
      · exact h
  | restore level =>
      have hrestore : Keeps (Exited head) (Memory.restore level) m fun _ _ => True := by
        refine Ends.bind (Ends.get ?_)
        split
        · exact Keeps.throw_bind h
        · exact h.closeLevels _
      exact hrestore.finalState
  | arrayPut | dictPut => exact (sustains_exited head).after h ⟨fun _ _ => trivial, fun _ _ _ _ => trivial⟩
  | _ => exact (sustains_exited head).after h ⟨trivial, fun _ _ _ _ => trivial⟩

lemma afterAll (h : Exited head m) (ops : List MemoryOp) : Exited head (m.afterAll ops) := by
  induction ops generalizing m with
  | nil => exact h
  | cons op rest ih => exact ih (h.after op)

end Exited

/-- **The exit keeps the head of the free list** and nothing else. -/
lemma Sound.exited (hs : Sound m) : ∃ head, m.freeHead = .ok head ∧ Exited head m.exit := by
  obtain ⟨row, hrow, hsize⟩ := hs.head
  refine ⟨row.address, by rw [freeHead, row_ok hrow], rfl, rfl, ?_, ?_, ?_, ?_⟩
  · rw [Memory.exit, releaseResources_eq]
    exact hs.policy
  · have hfirst : m.exit.rows[0]? = some row := (rows_exit m 0).trans ((if_pos rfl).trans hrow)
    exact row_lt hfirst
  · intro id other hother
    rw [rows_exit] at hother
    split at hother
    · obtain rfl := Option.some.inj (hrow.symm.trans hother)
      exact ⟨hsize, fun _ => rfl⟩
    · contradiction
  · exact fun _ hlevel => absurd hlevel List.not_mem_nil

/-! ## Requests -/

namespace Exited

lemma obeys_tableAlloc (h : Exited head m) (size : Nat) (tag : Tag) :
    Obeys m (Memory.tableAlloc size tag) (m.tableFault? size) := by
  obtain ⟨hfails, hadds⟩ := h.tableAlloc size tag
  cases hfault : m.tableFault? size with
  | some fault => exact ⟨m, hfails fault hfault, rfl⟩
  | none => exact ⟨_, (hadds hfault).2, Array.size_push _⟩

/-- Adding a row later, from a memory of the same extent. -/
lemma obeys_of_standing (h : Exited head n) (hstands : Standing m n) {x : MemoryM Nat} {size : Nat} (tag : Tag)
    (hrun : x m = Memory.tableAlloc size tag n) : Obeys m x (m.tableFault? size) := by
  have hobeys := h.obeys_tableAlloc size tag
  rw [hstands.tableFault?] at hobeys
  cases hfault : m.tableFault? size with
  | none =>
      rw [hfault] at hobeys
      obtain ⟨k, hk, hcount⟩ := hobeys
      exact ⟨k, by rw [hrun, hk, hstands.count], by rw [hcount, hstands.count]⟩
  | some fault =>
      rw [hfault] at hobeys
      obtain ⟨k, hk, hcount⟩ := hobeys
      exact ⟨k, by rw [hrun, hk], by rw [hcount, hstands.count]⟩

/-- A search that does not fail finds nothing and uses up nothing. -/
lemma search_of_none (h : Exited head m) {size : Nat} (tag : Tag) (hnone : m.searchFault? size = none) :
    ∃ fit n, Memory.findStorage size tag m = .ok fit n ∧ Exited head n ∧ Standing m n ∧ ∀ id, fit ≠ .reused id := by
  have hsearch := h.findStorage size tag
  rw [hnone] at hsearch
  obtain ⟨fit, n, hrun, hn, hfit⟩ := hsearch
  exact ⟨fit, n, hrun, hn, (follows_findStorage size tag m).ok_of hrun, hfit⟩

lemma search_of_some (h : Exited head m) {size : Nat} (tag : Tag) {fault : Fault}
    (hfault : m.searchFault? size = some fault) : Memory.findStorage size tag m = .error fault m := by
  have hsearch := h.findStorage size tag
  rwa [hfault] at hsearch

lemma obeys_allocateWithoutGc (h : Exited head m) (size : Nat) (tag : Tag) :
    Obeys m (Memory.allocateWithoutGc size tag) ((m.searchFault? size).or (m.tableFault? size)) := by
  cases hsearch : m.searchFault? size with
  | some fault => exact ⟨m, bind_error (h.search_of_some tag hsearch), rfl⟩
  | none =>
      obtain ⟨fit, n, hrun, hn, hstands, hfit⟩ := h.search_of_none tag hsearch
      refine hn.obeys_of_standing hstands tag ((bind_ok hrun).trans ?_)
      cases fit with
      | reused id => exact absurd rfl (hfit id)
      | needsCollection | miss => rfl

/-- Trying to collect changes nothing that a request depends on. -/
lemma collected (h : Exited head m) (roots : List Object) :
    ∃ n, attempt (Memory.collect roots true false) m = .ok () n ∧ Exited head n ∧ Standing m n := by
  have hkeeps : Keeps (Exited head) (Memory.collect roots true false) m fun _ _ => True :=
    (sustains_exited head).collect h trivial
  have hstands := follows_collect (R := Standing) roots true false m
  rw [attempt]
  cases hrun : Memory.collect roots true false m with
  | ok size n => exact ⟨n, rfl, (hkeeps.ok_of hrun).1, hstands.ok_of hrun⟩
  | error fault n => exact ⟨n, rfl, hkeeps.error_of hrun, hstands.error_of hrun⟩

lemma obeys_allocate (h : Exited head m) (size : Nat) (tag : Tag) (roots : List Object) :
    Obeys m (Memory.allocate size tag roots) ((m.searchFault? size).or (m.tableFault? size)) := by
  cases hsearch : m.searchFault? size with
  | some fault => exact ⟨m, bind_error (h.search_of_some tag hsearch), rfl⟩
  | none =>
      obtain ⟨fit, n, hrun, hn, hstands, hfit⟩ := h.search_of_none tag hsearch
      cases fit with
      | reused id => exact absurd rfl (hfit id)
      | miss => exact hn.obeys_of_standing hstands tag ((bind_ok hrun).trans rfl)
      | needsCollection =>
          obtain ⟨k, hcollect, hk, hstands'⟩ := hn.collected roots
          have hstill : k.searchFault? size = none := by
            rw [searchFault?_congr hn hk hstands', searchFault?_congr h hn hstands, hsearch]
          obtain ⟨fit', l, hrun', hl, hstands'', hfit'⟩ := hk.search_of_none tag hstill
          have hall : Standing m l := IsTrans.trans _ _ _ (IsTrans.trans _ _ _ hstands hstands') hstands''
          refine hl.obeys_of_standing hall tag ?_
          refine (bind_ok hrun).trans ((bind_ok hcollect).trans ((bind_ok hrun').trans ?_))
          cases fit' with
          | reused id => exact absurd rfl (hfit' id)
          | needsCollection | miss => rfl

/-- **Every request is answered as predicted.** -/
lemma obeys (h : Exited head m) (request : Request) (size : Nat) (tag : Tag) :
    Obeys m (request.run size tag) (request.fault? m size) := by
  cases request with
  | table => exact h.obeys_tableAlloc size tag
  | withoutGc => exact h.obeys_allocateWithoutGc size tag
  | collecting roots => exact h.obeys_allocate size tag roots

end Exited

/-! ## The theorem -/

lemma Obeys.error_iff {x : MemoryM Nat} {fault? : Option Fault} (h : Obeys m x fault?) (fault : Fault) :
    (∃ n, x m = .error fault n) ↔ fault? = some fault := by
  cases fault? with
  | none =>
      obtain ⟨n, hrun, -⟩ := h
      rw [hrun]
      refine ⟨?_, nofun⟩
      rintro ⟨k, hfailed⟩
      contradiction
  | some actual =>
      obtain ⟨n, hrun, -⟩ := h
      rw [hrun]
      constructor
      · rintro ⟨k, hfailed⟩
        injection hfailed with hfault
        rw [hfault]
      · intro hfault
        exact ⟨n, by rw [Option.some.inj hfault]⟩

lemma Obeys.ok_iff {x : MemoryM Nat} {fault? : Option Fault} (h : Obeys m x fault?) :
    (∃ id n, x m = .ok id n) ↔ fault? = none := by
  cases fault? with
  | none =>
      obtain ⟨n, hrun, -⟩ := h
      exact ⟨fun _ => rfl, fun _ => ⟨_, n, hrun⟩⟩
  | some actual =>
      obtain ⟨n, hrun, -⟩ := h
      rw [hrun]
      refine ⟨?_, nofun⟩
      rintro ⟨id, k, hgranted⟩
      contradiction

/-- Nothing that has storage is ever handed out. -/
lemma fault?_of_pos (m : Memory) (request : Request) {size : Nat} (h : 0 < size) :
    request.fault? m size ≠ none := by
  have htable : m.tableFault? size ≠ none := by
    rw [tableFault?]
    split
    · exact nofun
    · rw [if_neg (Nat.pos_iff_ne_zero.mp h)]
      exact nofun
  cases request with
  | table => exact htable
  | withoutGc | collecting roots =>
      cases hsearch : m.searchFault? size <;> simp [Request.fault?, hsearch, htable]

/-- **What an exited arena and an exited memory answer.**  A released arena stays as it is and does nothing; it
says so for every allocation, for growth within the limit and for the empty range at its start, and otherwise
reports what it checks first.  In a memory that was exited, whatever was done before and is done after, no byte
can be read or written and nothing with storage can be handed out.  A request says that the memory was exited if
and only if neither the search along what is left of the free list nor the table fails first and it asks for
storage; if it asks for none, it is granted. -/
theorem exited_is_unusable_iff {bank : Bank} {backing : Backing} {settings : Settings} {start : Memory}
    (hstart : withBacking bank backing settings = .ok start) (before later : List MemoryOp) (a : Arena)
    (ops : List ArenaOp) :
    let x := a.exit.afterAll ops
    let n := (start.afterAll before).exit.afterAll later
    ((∀ op : ArenaOp, ∃ fault, op.perform x = .error fault x) ∧
      (∀ size, Arena.alloc size x = .error .uninitialized x) ∧
      (∀ extra, Arena.grow extra x = .error .uninitialized x ↔
        ∃ more, Arena.pages extra a.pageSize = some more ∧ more ≤ a.limit) ∧
      (∀ offset count, x.read offset count = .error .uninitialized ↔ offset = 0 ∧ count = 0) ∧
      (∀ offset bytes, Arena.write offset bytes x = .error .uninitialized x ↔ offset = 0 ∧ bytes.length = 0) ∧
      ∀ source target count, Arena.copyWithin source target count x = .error .uninitialized x ↔
        source = 0 ∧ target = 0 ∧ count = 0) ∧
    (∀ (request : Request) (size : Nat) (tag : Tag),
      ((∃ k, request.run size tag n = .error .uninitialized k) ↔ request.fault? n size = some .uninitialized) ∧
      ((∃ id k, request.run size tag n = .ok id k) ↔ request.fault? n size = none) ∧
      (0 < size → ¬ ∃ id k, request.run size tag n = .ok id k)) ∧
    n.freeHead = (start.afterAll before).freeHead ∧
    (∀ id offset count, ∃ fault, n.bytesAt id offset count = .error fault) ∧
    ∀ id offset bytes, ∃ fault k, put id offset bytes n = .error fault k := by
  intro x n
  have hx : x = a.exit := Arena.afterAll_exit a ops
  obtain ⟨head, hhead, hexited⟩ := (sound_afterAll (sound_of_withBacking hstart) before).exited
  have hn : Exited head n := hexited.afterAll later
  refine ⟨?_, fun request size tag => ⟨?_, ?_, ?_⟩, ?_, hn.bytesAt, fun id offset bytes => ?_⟩
  · rw [hx]
    refine ⟨Arena.perform_exit a, Arena.alloc_exit a, fun extra => ?_, fun offset count => ?_,
      fun offset bytes => ?_, fun source target count => ?_⟩
    · rw [Arena.grow_exit]
      cases Arena.pages extra a.pageSize <;> simp
    · rw [Arena.read_exit]
      split <;> simp_all
    · rw [Arena.write_exit]
      split <;> simp_all
    · rw [Arena.copyWithin_exit]
      split <;> simp_all
  · exact (hn.obeys request size tag).error_iff _
  · exact (hn.obeys request size tag).ok_iff
  · intro hpos
    rw [(hn.obeys request size tag).ok_iff]
    exact fault?_of_pos n request hpos
  · rw [hn.freeHead, hhead]
  · have hput := hn.put id offset bytes
    cases hrun : put id offset bytes n with
    | ok _ k => exact (hput.ok_of hrun).2.elim
    | error fault k => exact ⟨fault, k, rfl⟩

/-- A string is made and freed. -/
def discardedRun : List MemoryOp := [.newString (List.replicate 8 7) [], .free 1]

/-- Levels and entities without storage are still had afterwards, and a string still is not. -/
theorem exited_is_unusable_iff_recycled :
    let n := (freshLocal.afterAll discardedRun).exit.afterAll [.save, .newArray 0 [], .tableAlloc 0 (.ofKind .file)]
    withBacking .localVM .anonymous Settings.standard = .ok freshLocal ∧
    n.entityCount = 2 ∧ n.freeHead = .ok 1 ∧
    (∃ k, tableAlloc 8 (.ofKind .string) n = .error .uninitialized k) ∧
    (¬ ∃ k, allocateWithoutGc 8 (.ofKind .string) n = .error .uninitialized k) ∧
    (¬ ∃ id k, allocate 8 (.ofKind .string) [] n = .ok id k) ∧
    ∃ fault, n.bytesAt 1 0 8 = .error fault := by
  intro n
  obtain ⟨-, hrequests, hfree, hread, -⟩ := exited_is_unusable_iff withBacking_freshLocal discardedRun
    [.save, .newArray 0 [], .tableAlloc 0 (.ofKind .file)] freshLocal.arena []
  have htable := (hrequests .table 8 (.ofKind .string)).1.mpr (by decide +kernel)
  have hsearch := mt (hrequests .withoutGc 8 (.ofKind .string)).1.mp (by decide +kernel)
  have hgrant := (hrequests (.collecting []) 8 (.ofKind .string)).2.2 (by decide)
  exact ⟨withBacking_freshLocal, by decide +kernel, hfree.trans (by decide +kernel), htable, hsearch, hgrant,
    hread 1 0 8⟩

/-- **Not every call says that the memory was exited.**  After a string was freed and the memory exited, an
allocation follows the head of the free list to an entity that is gone, and an entity without storage can be
added.  A released arena reports a range that is not there, and growth beyond the limit, as ever. -/
theorem exited_is_usable :
    let m := (freshLocal.afterAll discardedRun).exit
    (∃ k, allocate 8 (.ofKind .string) [] m = .error (.invalidEntity 1) k) ∧
    (∃ k, tableAlloc 0 (.ofKind .array) m = .ok 1 k ∧ k.entityCount = 2) ∧
    m.arena.read 0 8 = .error .rangeCheck ∧
    Arena.grow (m.arena.limit + 1) m.arena = .error .vmFull m.arena := by
  intro m
  obtain ⟨head, -, hexited⟩ := (sound_afterAll (sound_of_withBacking withBacking_freshLocal) discardedRun).exited
  have hadded := hexited.obeys .table 0 (.ofKind .array)
  have hadds : Request.table.fault? m 0 = none := by decide +kernel
  rw [hadds] at hadded
  refine ⟨((hexited.obeys (.collecting []) 8 (.ofKind .string)).error_iff _).mpr (by decide +kernel), hadded,
    Arena.read_exit _ 0 8, (Arena.grow_exit _ _).trans ?_⟩
  exact congrArg (EStateM.Result.error · m.arena) (by decide +kernel)

end Memory

end PostScriptCore
