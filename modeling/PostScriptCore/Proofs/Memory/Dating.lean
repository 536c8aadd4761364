import PostScriptCore.Proofs.Memory.Pins
import PostScriptCore.Proofs.Memory.Setup

/-!
# The dates in marks

A mark says in which save level an entity was created and which level remembers it last.  Both are dates, and no
date lies in the future: the levels in a mark are at most the current one.  Closing a level brings old marks back at
a lower level, so that the marks in the snapshots have to be dated as well.  This holds whatever is written, moved,
resized, retagged, freed or recycled, because an entity is remembered before its mark is dated anew.

**Levels.**  `Memory.Dated` says of each entity what its mark will be once some of the open levels are closed, and
that each level can be closed after those inside it.  Opening and closing levels keeps it (`Memory.Dated.opened`,
`Memory.Dated.closed`).

**Inside a level.**  `Memory.Dated.framed` is for changes that keep the levels as they are, and
`Memory.Dated.withSnapshot` is for the snapshot that goes before them.  `Memory.KeepsDates` is the relation which all
operations inside a level follow.
-/

namespace PostScriptCore

/-- No date in the mark is later than the level. -/
structure Mark.UpTo (mark : Mark) (level : Nat) : Prop where
  created : mark.created.val ≤ level
  snapshot : mark.snapshot.val ≤ level

lemma Mark.UpTo.mono {mark : Mark} {level level' : Nat} (h : mark.UpTo level) (hle : level ≤ level') :
    mark.UpTo level' :=
  ⟨Nat.le_trans h.created hle, Nat.le_trans h.snapshot hle⟩

lemma Mark.upTo_createdAt (level : Nat) : (Mark.createdAt level).UpTo level :=
  ⟨Nat.mod_le _ _, Nat.mod_le _ _⟩

lemma Mark.UpTo.withSnapshot {mark : Mark} {level : Nat} (h : mark.UpTo level) :
    (mark.withSnapshot level).UpTo level :=
  ⟨h.created, Nat.mod_le _ _⟩

/-- The dates of a row are all that matters. -/
lemma Row.upTo_of_dates {row row' : Row} {level : Nat} (hdates : row'.dates = row.dates)
    (h : row.mark.UpTo level) : row'.mark.UpTo level := by
  obtain ⟨hcreated, hsnapshot⟩ := Prod.mk.inj hdates
  exact ⟨hcreated ▸ h.created, hsnapshot ▸ h.snapshot⟩

/-- When the inner level was opened, the table and the cursor were no further back than when the outer one was, and
what the outer one remembers lay below the cursor. -/
structure SaveRecord.Inside (inner outer : SaveRecord) : Prop where
  count : outer.entityCount ≤ inner.entityCount
  used : outer.used ≤ inner.used
  fits : ∀ s ∈ outer.snapshots, s.Fits inner.used

lemma Snapshot.Fits.mono {s : Snapshot} {used used' : Nat} (h : s.Fits used) (hle : used ≤ used') : s.Fits used' :=
  ⟨h.1, fun hpos => Nat.le_trans (h.2 hpos) hle⟩

lemma SaveRecord.Inside.mono {inner inner' outer : SaveRecord} (h : inner.Inside outer)
    (hcount : inner.entityCount ≤ inner'.entityCount) (hused : inner.used ≤ inner'.used) : inner'.Inside outer :=
  ⟨Nat.le_trans h.count hcount, Nat.le_trans h.used hused, fun s hs => (h.fits s hs).mono hused⟩

namespace Memory

variable {m n : Memory} {id : Nat} {row : Row}

/-! ## Dated memories -/

/-- A level that is opened now. -/
def present (m : Memory) : SaveRecord := ⟨m.entityCount, m.arena.used, []⟩

/-- No mark is dated later than the current level, and none will be when levels are closed. -/
structure Dated (m : Memory) : Prop where
  arena : m.arena.Sound
  level_le : m.level ≤ Mark.maxLevel
  nested : (m.present :: m.saves).Pairwise SaveRecord.Inside
  /-- The rows that are left when the innermost `count` levels are closed. -/
  marks : ∀ (count id : Nat) (row : Row), m.rows[id]? = some row →
    (∀ record ∈ m.saves.take count, id < record.entityCount) →
      (rowBack (m.remembered? count id) row).mark.UpTo (m.level - count)

lemma Dated.within (h : Dated m) (hrow : m.rows[id]? = some row) : row.mark.UpTo m.level :=
  h.marks 0 id row hrow fun _ hmem => absurd hmem List.not_mem_nil

lemma Dated.closable (h : Dated m) {record : SaveRecord} {outer : List SaveRecord}
    (hsaves : m.saves = record :: outer) : Closable m record := by
  have hnested := h.nested
  rw [hsaves] at hnested
  have hinside := List.rel_of_pairwise_cons hnested (List.mem_cons_self ..)
  exact ⟨h.arena, hinside.count, hinside.used, hinside.fits⟩

/-! ## What the innermost level covers -/

lemma mem_of_oldest? {snapshots : List Snapshot} {s : Snapshot} (h : oldest? snapshots id = some s) :
    s ∈ snapshots ∧ s.id = id := by
  rw [oldest?] at h
  have hid : (s.id == id) = true := List.find?_some (p := fun t : Snapshot => t.id == id) h
  exact ⟨List.mem_reverse.mp (List.mem_of_find?_eq_some h), beq_iff_eq.mp hid⟩

lemma exists_oldest? {snapshots : List Snapshot} {s : Snapshot} (hmem : s ∈ snapshots) (hid : s.id = id) :
    ∃ t, oldest? snapshots id = some t := by
  rw [oldest?, ← Option.isSome_iff_exists, List.find?_isSome]
  exact ⟨s, List.mem_reverse.mpr hmem, beq_iff_eq.mpr hid⟩

/-- What a level remembers is remembered when more levels are looked at. -/
lemma exists_remembered? {record : SaveRecord} {outer : List SaveRecord} (hsaves : m.saves = record :: outer)
    {s : Snapshot} (hmem : s ∈ record.snapshots) (hid : s.id = id) (count : Nat) :
    ∃ t, m.remembered? (count + 1) id = some t := by
  rw [remembered?, hsaves, List.take_succ_cons, List.flatMap_cons]
  exact exists_oldest? (List.mem_append_left _ hmem) hid

/-- **A mark that knows the current level** belongs to an entity that the level covers: otherwise closing the level
would leave the mark as it is. -/
lemma Dated.covered_of_known (h : Dated m) (hrow : m.rows[id]? = some row) (hknown : m.Known row.mark) :
    Covered m id := by
  intro record outer hsaves
  by_cases hnew : record.entityCount ≤ id
  · exact .inl hnew
  · right
    have hmarks := h.marks 1 id row hrow
    rw [hsaves, List.take_succ_cons, List.take_zero, List.forall_mem_singleton] at hmarks
    have hback := hmarks (Nat.lt_of_not_le hnew)
    have hlevel : m.level = outer.length + 1 := by rw [Memory.level, hsaves, List.length_cons]
    cases hold : m.remembered? 1 id with
    | none =>
        rw [hold] at hback
        have hcreated := hback.created
        have hsnapshot := hback.snapshot
        rw [Known] at hknown
        simp only [rowBack, Option.elim_none] at hcreated hsnapshot
        omega
    | some s =>
        rw [remembered?, hsaves, List.take_succ_cons, List.take_zero, List.flatMap_singleton] at hold
        exact ⟨s, mem_of_oldest? hold⟩

/-! ## Opening and closing levels -/

lemma Dated.opened (h : Dated m) (hlevel : m.level < Mark.maxLevel) : Dated m.opened where
  arena := h.arena
  level_le := hlevel
  nested := by
    have hself : m.present.Inside m.present :=
      ⟨Nat.le_refl _, Nat.le_refl _, fun _ hmem => absurd hmem List.not_mem_nil⟩
    refine List.pairwise_cons.mpr ⟨fun record hmem => ?_, h.nested⟩
    rcases List.mem_cons.mp hmem with rfl | hmem
    · exact hself
    · exact List.rel_of_pairwise_cons h.nested hmem
  marks := by
    intro count id row hrow hrecords
    cases count with
    | zero => exact (h.within hrow).mono (Nat.le_succ _)
    | succ count =>
        have hmarks := h.marks count id row hrow fun record hmem => hrecords record (List.mem_cons_of_mem _ hmem)
        rw [level_opened, Nat.add_sub_add_right]
        exact hmarks

/-- **Closing a level** puts back marks that were dated then. -/
lemma Dated.closed (h : Dated m) : Dated m.closed := by
  cases hsaves : m.saves with
  | nil =>
      rw [Memory.closed, hsaves]
      exact h
  | cons record outer =>
      have hclosable := h.closable hsaves
      obtain ⟨rows, image, hundone⟩ := undone_eq hsaves
      have harena : m.closed.arena = { m.arena with image, used := record.used } := by rw [closed_eq, hundone]
      have hnested := h.nested
      rw [hsaves] at hnested
      refine ⟨?_, ?_, ?_, fun count id row' hrow' hrecords => ?_⟩
      · rw [harena]
        exact ⟨h.arena.mapped, Nat.le_trans hclosable.used h.arena.used_le_max, h.arena.max_lt⟩
      · rw [level_closed]
        exact Nat.le_trans (Nat.sub_le _ _) h.level_le
      · have hinner := (List.pairwise_cons.mp hnested).2
        have hcount := entityCount_closed hclosable hsaves
        rw [saves_closed hsaves]
        refine List.pairwise_cons.mpr ⟨fun later hmem => ?_, (List.pairwise_cons.mp hinner).2⟩
        refine (List.rel_of_pairwise_cons hinner hmem).mono (Nat.le_of_eq hcount.symm) ?_
        rw [present, harena]
      · obtain ⟨hlt, row, hrow, rfl⟩ := row_closed hrow'
        rw [saves_closed hsaves] at hrecords
        rw [hsaves, List.take_succ_cons, List.take_zero, List.forall_mem_singleton] at hlt
        have hmarks := h.marks (count + 1) id row hrow
        rw [hsaves, List.take_succ_cons, List.forall_mem_cons] at hmarks
        rw [rowBack_or, ← remembered?_succ, level_closed, Nat.sub_sub, Nat.add_comm 1]
        exact hmarks ⟨hlt, hrecords⟩

lemma closes_dated : Closes Dated := ⟨fun h hsaves => h.closable hsaves, fun h => h.closed⟩

/-! ## Changes inside a level -/

/-- The memory `n` is dated as well, at the level of `m`, and what was covered still is. -/
structure Redates (m n : Memory) : Prop where
  dated : Dated n
  level : n.level = m.level
  covered : ∀ id, Covered m id → Covered n id

lemma Redates.refl (h : Dated m) : Redates m m := ⟨h, rfl, fun _ hcovered => hcovered⟩

lemma Redates.trans {k : Memory} (h : Redates m n) (h' : Redates n k) : Redates m k :=
  ⟨h'.dated, h'.level.trans h.level, fun id hcovered => h'.covered id (h.covered id hcovered)⟩

lemma remembered?_of_closed (hsaves : m.saves = []) (count id : Nat) : m.remembered? count id = none := by
  rw [remembered?, hsaves, List.take_nil]
  rfl

/-- Whatever is in the row of a covered entity, if levels are closed its snapshot is put in its place. -/
lemma Dated.mark_of_covered (h : Dated m) (hcovered : Covered m id) (hupto : row.mark.UpTo m.level) {count : Nat}
    (hrecords : ∀ record ∈ m.saves.take count, id < record.entityCount) :
    (rowBack (m.remembered? count id) row).mark.UpTo (m.level - count) := by
  cases count with
  | zero => exact hupto
  | succ count =>
      cases hsaves : m.saves with
      | nil =>
          have hlevel : m.level = 0 := congrArg List.length hsaves
          rw [remembered?_of_closed hsaves]
          rw [hlevel] at hupto ⊢
          exact hupto.mono (Nat.zero_le _)
      | cons record outer =>
          have hlt : id < record.entityCount := by
            rw [hsaves, List.take_succ_cons] at hrecords
            exact hrecords record (List.mem_cons_self ..)
          obtain ⟨s, hmem, hid⟩ := (hcovered record outer hsaves).resolve_left (Nat.not_le_of_lt hlt)
          obtain ⟨t, hold⟩ := exists_remembered? hsaves hmem hid count
          -- The snapshot is dated because the row that was there is.
          obtain ⟨old, hrow⟩ := exists_row (Nat.lt_of_lt_of_le hlt (h.closable hsaves).count)
          have hmarks := h.marks (count + 1) id old hrow hrecords
          rw [hold] at hmarks ⊢
          exact hmarks

/-- A row that has the dates of another one is dated as well as that one, also when levels are closed. -/
lemma upTo_rowBack {row row' : Row} {level : Nat} (hdates : row'.dates = row.dates) {oldest : Option Snapshot}
    (h : (rowBack oldest row).mark.UpTo level) : (rowBack oldest row').mark.UpTo level := by
  cases oldest with
  | none => exact Row.upTo_of_dates hdates h
  | some s => exact h

/-- **What a level covers may be dated anew**, up to the current level; any other row keeps its dates. -/
lemma Dated.framed (h : Dated m) (hsaves : n.saves = m.saves) (harena : n.arena.Sound)
    (hused : m.arena.used ≤ n.arena.used) (hcount : m.entityCount ≤ n.entityCount)
    (hrows : ∀ (id : Nat) (row' : Row), n.rows[id]? = some row' →
      (∃ row, m.rows[id]? = some row ∧ row'.dates = row.dates) ∨ Covered m id ∧ row'.mark.UpTo m.level) :
    Redates m n := by
  have hlevel : n.level = m.level := congrArg List.length hsaves
  refine ⟨⟨harena, hlevel ▸ h.level_le, ?_, fun count id row' hrow' hrecords => ?_⟩, hlevel, ?_⟩
  · rw [hsaves]
    obtain ⟨hinside, hnested⟩ := List.pairwise_cons.mp h.nested
    exact List.pairwise_cons.mpr ⟨fun record hmem => (hinside record hmem).mono hcount hused, hnested⟩
  · have hremembered : n.remembered? count id = m.remembered? count id := by
      rw [remembered?, remembered?, hsaves]
    rw [hsaves] at hrecords
    rw [hremembered, hlevel]
    rcases hrows id row' hrow' with ⟨row, hrow, hdates⟩ | ⟨hcovered, hupto⟩
    · exact upTo_rowBack hdates (h.marks count id row hrow hrecords)
    · exact h.mark_of_covered hcovered hupto hrecords
  · intro id hcovered record outer hn
    exact hcovered record outer (hsaves ▸ hn)

/-! ## Remembering -/

/-- Only bytes below the cursor can be read. -/
lemma fits_of_read_ok {a : Arena} {offset count : Nat} {bytes : List UInt8} (h : a.read offset count = .ok bytes) :
    bytes.length = count ∧ offset + count ≤ a.used := by
  rw [Arena.read] at h
  split at h
  · contradiction
  · next hnone =>
    obtain rfl := Except.ok.inj h
    exact ⟨Image.length_read _ _ _, Arena.le_used_of_obstacle hnone⟩

/-- What is remembered of an entity: its row, which exists, and its bytes, which lie below the cursor. -/
lemma pendingSnapshot_some {s : Snapshot} (h : m.pendingSnapshot id = .ok (some s)) :
    0 < m.level ∧ s.id = id ∧ m.rows[id]? = some s.row ∧ s.Fits m.arena.used := by
  rw [pendingSnapshot] at h
  split at h
  · cases h
  · next hopen =>
    refine ⟨Nat.pos_of_ne_zero hopen, ?_⟩
    split at h
    · cases h
    · next row hrow =>
      have hrow' := row_eq_ok_iff.mp hrow
      split at h
      · cases h
      · split at h
        · next hempty =>
          obtain rfl := Option.some.inj (Except.ok.inj h)
          exact ⟨rfl, hrow', hempty.symm, fun hpos => absurd hempty (Nat.ne_of_gt hpos)⟩
        · split at h
          · next bytes hbytes =>
            obtain rfl := Option.some.inj (Except.ok.inj h)
            obtain ⟨hlength, hle⟩ := fits_of_read_ok hbytes
            exact ⟨rfl, hrow', hlength, fun _ => hle⟩
          · contradiction

/-- An entity that has no snapshot to come is known to the current level. -/
lemma known_of_pendingSnapshot (h : m.pendingSnapshot id = .ok none) (hrow : m.rows[id]? = some row) :
    m.Known row.mark := by
  by_contra hunknown
  obtain ⟨hopen, hdates⟩ := not_or.mp hunknown
  rw [pendingSnapshot, if_neg hopen, row_ok hrow] at h
  dsimp only at h
  rw [if_neg hdates] at h
  split at h
  · cases h
  · split at h <;> cases h

/-- The memory with one more snapshot, which is dated now. -/
def withSnapshot (m : Memory) (s : Snapshot) : Memory :=
  { m with
    saves := addSnapshot s m.saves
    rows := m.rows.modify s.id fun row => { row with mark := row.mark.withSnapshot m.level } }

section WithSnapshot

variable {s : Snapshot} {record : SaveRecord} {outer : List SaveRecord}

lemma saves_withSnapshot (hsaves : m.saves = record :: outer) :
    (m.withSnapshot s).saves = { record with snapshots := s :: record.snapshots } :: outer := by
  rw [withSnapshot, hsaves]
  rfl

lemma level_withSnapshot (m : Memory) (s : Snapshot) : (m.withSnapshot s).level = m.level := level_addSnapshot s _

/-- A new snapshot is put back before those that were there. -/
lemma remembered?_withSnapshot (hsaves : m.saves = record :: outer) (count id : Nat) :
    (m.withSnapshot s).remembered? (count + 1) id =
      (m.remembered? (count + 1) id).or (if s.id = id then some s else none) := by
  rw [remembered?, remembered?, saves_withSnapshot hsaves, hsaves, List.take_succ_cons, List.take_succ_cons,
    List.flatMap_cons, List.flatMap_cons, List.cons_append, oldest?_cons]

/-- **Closing levels puts back the same rows** as without the snapshot. -/
lemma rowBack_withSnapshot (hsaves : m.saves = record :: outer) (hrow : m.rows[s.id]? = some s.row)
    {row' : Row} (hrow' : (m.withSnapshot s).rows[id]? = some row') (count : Nat) :
    ∃ row, m.rows[id]? = some row ∧
      rowBack ((m.withSnapshot s).remembered? (count + 1) id) row' = rowBack (m.remembered? (count + 1) id) row := by
  rw [remembered?_withSnapshot hsaves]
  rw [withSnapshot, Array.getElem?_modify] at hrow'
  split at hrow'
  · next he =>
    subst he
    refine ⟨s.row, hrow, ?_⟩
    rw [← rowBack_or, if_pos rfl]
    rfl
  · next hother => exact ⟨row', hrow', by rw [if_neg hother, Option.or_none]⟩

/-- The levels are nested as before. -/
lemma Dated.nested_withSnapshot (h : Dated m) (hsaves : m.saves = record :: outer) (hfits : s.Fits m.arena.used) :
    ((m.withSnapshot s).present :: (m.withSnapshot s).saves).Pairwise SaveRecord.Inside := by
  have hpresent : (m.withSnapshot s).present = m.present := by
    rw [present, present, entityCount, entityCount, withSnapshot, Array.size_modify]
  have hnested := h.nested
  rw [hsaves] at hnested
  obtain ⟨hinside, hinner⟩ := List.pairwise_cons.mp hnested
  have hfirst := hinside record (List.mem_cons_self ..)
  rw [hpresent, saves_withSnapshot hsaves]
  refine List.pairwise_cons.mpr ⟨fun later hmem => ?_, List.pairwise_cons.mpr ⟨fun later hmem => ?_, ?_⟩⟩
  · rcases List.mem_cons.mp hmem with rfl | hmem
    · exact ⟨hfirst.count, hfirst.used, List.forall_mem_cons.mpr ⟨hfits, hfirst.fits⟩⟩
    · exact hinside later (List.mem_cons_of_mem _ hmem)
  · exact (List.rel_of_pairwise_cons hinner hmem).mono (Nat.le_refl _) (Nat.le_refl _)
  · exact (List.pairwise_cons.mp hinner).2

/-- **Remembering an entity** dates its mark anew, and the snapshot has the mark as it was. -/
lemma Dated.withSnapshot (h : Dated m) (hpending : m.pendingSnapshot id = .ok (some s)) :
    Redates m (m.withSnapshot s) ∧ Covered (m.withSnapshot s) id := by
  obtain ⟨hopen, rfl, hrow, hfits⟩ := pendingSnapshot_some hpending
  obtain ⟨record, outer, hsaves⟩ := List.exists_cons_of_length_pos hopen
  have hlevel := level_withSnapshot m s
  have hself : Covered (m.withSnapshot s) s.id := by
    intro r o hr
    obtain ⟨rfl, -⟩ := List.cons.inj ((saves_withSnapshot hsaves).symm.trans hr)
    exact .inr ⟨s, List.mem_cons_self .., rfl⟩
  refine ⟨⟨⟨h.arena, ?_, h.nested_withSnapshot hsaves hfits, ?_⟩, hlevel, ?_⟩, hself⟩
  · rw [hlevel]
    exact h.level_le
  · intro count id row' hrow' hrecords
    rw [hlevel]
    cases count with
    | zero =>
        rw [Memory.withSnapshot, Array.getElem?_modify] at hrow'
        split at hrow'
        · next he =>
          subst he
          rw [hrow] at hrow'
          obtain rfl := Option.some.inj hrow'
          exact (h.within hrow).withSnapshot
        · exact h.within hrow'
    | succ count =>
        obtain ⟨row, hold, hback⟩ := rowBack_withSnapshot hsaves hrow hrow' count
        rw [hback]
        refine h.marks (count + 1) id row hold ?_
        rw [saves_withSnapshot hsaves, List.take_succ_cons, List.forall_mem_cons] at hrecords
        rw [hsaves, List.take_succ_cons, List.forall_mem_cons]
        exact hrecords
  · intro id hcovered r o hr
    obtain ⟨rfl, rfl⟩ := List.cons.inj ((saves_withSnapshot hsaves).symm.trans hr)
    rcases hcovered record outer hsaves with hnew | ⟨t, hmem, hid⟩
    · exact .inl hnew
    · exact .inr ⟨t, List.mem_cons_of_mem _ hmem, hid⟩

end WithSnapshot

/-! ## Operations inside a level -/

/-- If the one memory is dated, so is the other, at the same level. -/
def KeepsDates (m n : Memory) : Prop := Dated m → Redates m n

lemma follows_of_dated {α : Type} {x : MemoryM α}
    (h : ∀ m, Dated m → Keeps (Redates m) x m fun _ _ => True) : Follows KeepsDates x := by
  intro m
  by_cases hm : Dated m
  · exact Ends.mono (h m hm) (fun _ _ hn _ => hn.1) fun _ _ hn _ => hn
  · exact Ends.always (fun _ _ hdated => absurd hdated hm) fun _ _ hdated => absurd hdated hm

/-- What is followed from the start on is followed later, and what was covered by then stays so. -/
lemma Redates.keeps {α : Type} {x : MemoryM α} (hn : Redates m n) (hx : Follows KeepsDates x) :
    Keeps (Redates m) x n fun _ k => ∀ id, Covered n id → Covered k id :=
  Ends.mono (hx n) (fun _ _ hk => ⟨hn.trans (hk hn.dated), (hk hn.dated).covered⟩)
    fun _ _ hk => hn.trans (hk hn.dated)

lemma touched_of_pendingSnapshot {s : Snapshot} (hpending : m.pendingSnapshot id = .ok (some s)) :
    m.touched id = m.withSnapshot s := by
  obtain ⟨-, rfl, -⟩ := pendingSnapshot_some hpending
  rw [touched, hpending]
  rfl

/-- **Remembering** covers an entity. -/
lemma Dated.touch (h : Dated m) (id : Nat) :
    Keeps (Redates m) (Memory.touch id) m fun _ n => ∀ row, n.rows[id]? = some row → Covered n id := by
  cases hpending : m.pendingSnapshot id with
  | error fault => exact .of_error (bind_error (query_error (s := m) hpending)) (.refl h)
  | ok pending =>
      have hrun := touch_of_pendingSnapshot hpending
      cases pending with
      | none =>
          rw [touched, hpending] at hrun
          exact .of_ok hrun (.refl h) fun row hrow => h.covered_of_known hrow (known_of_pendingSnapshot hpending hrow)
      | some s =>
          rw [touched_of_pendingSnapshot hpending] at hrun
          obtain ⟨hredates, hcovered⟩ := h.withSnapshot hpending
          exact .of_ok hrun hredates fun _ _ => hcovered

/-- Other bytes, other files and rows with the same dates. -/
lemma Dated.contents (h : Dated m) {rows : Array Row} (image : Image) (resources : ResourceTable)
    (hdates : ∀ id : Nat, rows[id]?.map Row.dates = m.rows[id]?.map Row.dates) :
    Redates m { m with rows, arena := { m.arena with image }, resources } := by
  refine h.framed rfl ⟨h.arena.mapped, h.arena.used_le_max, h.arena.max_lt⟩ (Nat.le_refl _)
    (Nat.le_of_eq (size_eq_of_dates hdates).symm) fun id row' hrow' => .inl ?_
  have hid := hdates id
  rw [hrow'] at hid
  obtain ⟨row, hrow, hsame⟩ := Option.map_eq_some_iff.mp hid.symm
  exact ⟨row, hrow, hsame.symm⟩

instance : IgnoresContents KeepsDates where
  refl _ h := .refl h
  trans _ _ _ h h' hm := (h hm).trans (h' (h hm).dated)
  contents _ _ image resources hdates h := h.contents image resources hdates
  touch id := follows_of_dated fun _ h => (h.touch id).mono fun _ _ _ => trivial

instance : IgnoresCountdown KeepsDates where
  countdown _ _ h := h.framed rfl h.arena (Nat.le_refl _) (Nat.le_refl _) fun _ row' hrow' => .inl ⟨row', hrow', rfl⟩

lemma Redates.lift {α : Type} {x : MemoryM α} {P : α → Memory → Prop} (hn : Redates m n)
    (hx : Keeps (Redates n) x n P) : Keeps (Redates m) x n P :=
  Ends.mono hx (fun _ _ hk => ⟨hn.trans hk.1, hk.2⟩) fun _ _ hk => hn.trans hk

/-- A row that is changed is remembered first. -/
lemma Redates.changeRow (hn : Redates m n) (id : Nat) {f : Row → Row} (hf : ∀ row, (f row).dates = row.dates) :
    Keeps (Redates m) (Memory.changeRow id f) n fun _ k => Covered k id := by
  refine .bind (hn.lift (hn.dated.touch id)) fun _ k hk hcovers => ?_
  have hfound : Keeps (Redates m) (discard (query fun m : Memory => m.row id)) k
      fun _ l => l = k ∧ Covered k id :=
    Ends.map (Ends.query (fun row hrow => ⟨hk, rfl, hcovers row (row_eq_ok_iff.mp hrow)⟩) fun _ _ => hk)
  refine .bind hfound fun _ l hl hsame => ?_
  obtain ⟨rfl, hcovered⟩ := hsame
  have hmodified : Redates l { l with rows := l.rows.modify id f } :=
    related_modify (R := KeepsDates) l id (fun row _ => hf row) hl.dated
  exact ⟨hl.trans hmodified, hmodified.covered id hcovered⟩

/-- **The mark of a covered entity may be set** to one that is dated up to the current level. -/
lemma Redates.setMark (hn : Redates m n) (hcovered : Covered n id) {mark : Mark} (hupto : mark.UpTo m.level) :
    Keeps (Redates m) (Memory.setMark id mark) n fun _ k => k.rows[id]?.map Row.mark = some mark := by
  have hmarked : Redates n { n with rows := n.rows.modify id fun row => { row with mark } } := by
    refine hn.dated.framed rfl hn.dated.arena (Nat.le_refl _) (Nat.le_of_eq Array.size_modify.symm)
      fun j row' hrow' => ?_
    rw [Array.getElem?_modify] at hrow'
    split at hrow'
    · next he =>
      subst he
      obtain ⟨row, -, rfl⟩ := Option.map_eq_some_iff.mp hrow'
      exact .inr ⟨hcovered, hn.level.symm ▸ hupto⟩
    · exact .inl ⟨row', hrow', rfl⟩
  have hfound : Keeps (Redates m) (discard (query fun m : Memory => m.row id)) n
      fun _ k => k = n ∧ ∃ row, n.rows[id]? = some row :=
    Ends.map (Ends.query (fun row hrow => ⟨hn, rfl, row, row_eq_ok_iff.mp hrow⟩) fun _ _ => hn)
  refine .bind hfound fun _ k hk hsame => ?_
  obtain ⟨rfl, row, hrow⟩ := hsame
  refine ⟨hk.trans hmarked, ?_⟩
  show (k.rows.modify id fun row => { row with mark })[id]?.map Row.mark = some mark
  rw [Array.getElem?_modify, if_pos rfl, hrow]
  rfl

/-- Freeing gives the entity the mark back that it had at first, but for the collector bit and the pins. -/
lemma Dated.free (h : Dated m) (id : Nat) : Keeps (Redates m) (Memory.free id) m fun _ _ => True := by
  refine .bind (.query (.refl h)) fun row n hn hrow => ?_
  obtain ⟨rfl, hrow⟩ := hrow
  have hupto := h.within (row_eq_ok_iff.mp hrow)
  split
  · exact .throw_bind hn
  · refine .bind (hn.keeps (follows_releaseResourceOf id)) fun _ k hk _ => ?_
    refine .bind (.query hk) fun head l hl hhead => ?_
    obtain ⟨rfl, -⟩ := hhead
    refine .bind (hl.changeRow id fun _ => rfl) fun _ k hk hcovered => ?_
    refine .bind (hk.keeps (follows_put id 0 _)) fun _ l hl hmore => ?_
    refine .bind (hl.setMark (hmore id hcovered) ⟨hupto.created, hupto.snapshot⟩) fun _ k hk _ => ?_
    have hlinked : Follows KeepsDates (setAddress 0 id) := follows_changeRow 0 fun _ => rfl
    exact (hk.keeps hlinked).mono fun _ _ _ => trivial

/-- A recycled entity is dated now. -/
lemma Dated.reuse (h : Dated m) (id : Nat) (tag : Tag) :
    Keeps (Redates m) (Memory.reuse id tag) m fun _ n =>
      n.rows[id]?.map Row.mark = some (Mark.createdAt m.level) := by
  refine .bind ((Redates.refl h).changeRow id fun _ => rfl) fun _ n hn hcovered => ?_
  refine .bind (hn.keeps (follows_putZeros id)) fun _ k hk hmore => ?_
  have hget : Keeps (Redates m) (get : MemoryM Memory) k fun l t => l = k ∧ t = k := ⟨hk, rfl, rfl⟩
  refine .bind hget fun _ l hl hsame => ?_
  obtain ⟨rfl, rfl⟩ := hsame
  rw [hl.level]
  exact hl.setMark (hmore id hcovered) (Mark.upTo_createdAt _)

/-- A row that is added is newer than every level. -/
lemma Dated.pushed (h : Dated m) {arena : Arena} (hext : Extends m row arena) : Redates m (m.pushed row arena) := by
  have hcount : m.entityCount ≤ (m.pushed row arena).entityCount :=
    Nat.le_of_lt (Nat.lt_of_lt_of_eq (Nat.lt_succ_self _) (Array.size_push _).symm)
  refine h.framed rfl hext.sound (hext.used ▸ Nat.le_add_right _ _) hcount fun id row' hrow' => ?_
  rw [Memory.pushed, Array.getElem?_push] at hrow'
  split at hrow'
  · next he =>
    obtain rfl := Option.some.inj hrow'
    refine .inr ⟨fun record outer hsaves => .inl ?_, hext.mark ▸ Mark.upTo_createdAt _⟩
    rw [he]
    exact (h.closable hsaves).count
  · exact .inl ⟨row', hrow', rfl⟩

/-- A new entity is dated now. -/
lemma Dated.tableAlloc (h : Dated m) (size : Nat) (tag : Tag) :
    Keeps (Redates m) (Memory.tableAlloc size tag) m fun id n =>
      n.rows[id]?.map Row.mark = some (Mark.createdAt m.level) := by
  rcases tableAlloc_cases size tag h.arena with hrun | ⟨row, arena, hext, -, -, hrun⟩
  · exact .of_error hrun (.refl h)
  · refine .of_ok hrun (h.pushed hext) ?_
    rw [Memory.pushed, entityCount, Array.getElem?_push, if_pos rfl, ← hext.mark]
    rfl

instance : IgnoresAllocation KeepsDates where
  free id := follows_of_dated fun _ h => h.free id
  reuse id tag := follows_of_dated fun _ h => (h.reuse id tag).mono fun _ _ _ => trivial
  tableAlloc size tag := follows_of_dated fun _ h => (h.tableAlloc size tag).mono fun _ _ _ => trivial

end Memory

end PostScriptCore
