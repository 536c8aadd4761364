import PostScriptCore.Proofs.Memory.Collection
import PostScriptCore.Proofs.Memory.Rollback

/-!
# Pins and save levels

Marks are the collector's and no part of what a save level remembers; but a snapshot holds the whole row, pins
included, and closing a level puts the whole row back.  So an entity comes out of a `restore` with the pins that
it had when it was first changed in the levels that are closed, and with its present ones if it was not changed.

* `Memory.remembered?` — the oldest snapshot of an entity in the innermost levels.
* `Memory.row_iterate_closed` — closing levels puts the oldest snapshot back, and nothing else.
* `Memory.Secured` — what pins are for: they can be taken back, and until then no collection frees the entity.
* `Memory.KeepsPins`, `Memory.restore_keeps_pins_iff` — when pins survive.
-/

namespace PostScriptCore

namespace Memory

variable {m n : Memory} {id : Nat}

/-! ## The oldest snapshot -/

/-- The oldest of some snapshots of an entity.  The latest one comes first. -/
def oldest? (snapshots : List Snapshot) (id : Nat) : Option Snapshot :=
  snapshots.reverse.find? fun s => s.id == id

/-- What the innermost `count` levels remember of an entity. -/
def remembered? (m : Memory) (count id : Nat) : Option Snapshot :=
  oldest? ((m.saves.take count).flatMap SaveRecord.snapshots) id

/-- The row of an entity once the oldest snapshot of it, if there is one, has been put back. -/
def rowBack (oldest : Option Snapshot) (row : Row) : Row := oldest.elim row Snapshot.row

lemma oldest?_append (latest earliest : List Snapshot) (id : Nat) :
    oldest? (latest ++ earliest) id = (oldest? earliest id).or (oldest? latest id) := by
  rw [oldest?, List.reverse_append, List.find?_append]
  rfl

lemma oldest?_cons (s : Snapshot) (rest : List Snapshot) (id : Nat) :
    oldest? (s :: rest) id = (oldest? rest id).or (if s.id = id then some s else none) := by
  rw [← List.singleton_append, oldest?_append, oldest?, oldest?, List.reverse_singleton,
    List.find?_singleton]
  simp only [beq_iff_eq]

lemma rowBack_or (outer inner : Option Snapshot) (row : Row) :
    rowBack outer (rowBack inner row) = rowBack (outer.or inner) row := by
  cases outer <;> rfl

/-- **Of several snapshots of an entity the oldest one is put back last.** -/
lemma row_putBackAll (snapshots : List Snapshot) (m : Memory) (id : Nat) :
    (m.putBackAll snapshots).rows[id]? = m.rows[id]?.map (rowBack (oldest? snapshots id)) := by
  induction snapshots generalizing m with
  | nil => exact (Option.map_id' (x := m.rows[id]?)).symm
  | cons s rest ih =>
      rw [putBackAll_cons, ih, putBack, Array.getElem?_modify, oldest?_cons]
      split
      · rw [Option.map_map]
        refine congrArg (Option.map · m.rows[id]?) (funext fun row => ?_)
        exact rowBack_or _ (some s) row
      · rw [Option.or_none]

/-- A row that is still there after a level was closed. -/
lemma row_closed {row' : Row} (hrow' : m.closed.rows[id]? = some row') :
    (∀ record ∈ m.saves.take 1, id < record.entityCount) ∧
      ∃ row, m.rows[id]? = some row ∧ row' = rowBack (m.remembered? 1 id) row := by
  cases hsaves : m.saves with
  | nil =>
      rw [closed, hsaves] at hrow'
      refine ⟨fun _ hmem => absurd hmem List.not_mem_nil, row', hrow', ?_⟩
      rw [remembered?, hsaves]
      rfl
  | cons record outer =>
      rw [closed_eq, undone_of_saves hsaves] at hrow'
      simp only [cutBack, Array.take_eq_extract, Array.getElem?_extract, Nat.sub_zero, Nat.zero_add] at hrow'
      split at hrow'
      · next hlt =>
        rw [row_putBackAll] at hrow'
        obtain ⟨row, hrow, rfl⟩ := Option.map_eq_some_iff.mp hrow'
        rw [List.take_succ_cons, List.take_zero, List.forall_mem_singleton]
        refine ⟨by omega, row, hrow, ?_⟩
        rw [remembered?, hsaves, List.take_succ_cons, List.take_zero, List.flatMap_singleton]
      · contradiction

/-- The levels outside the innermost one are older. -/
lemma remembered?_succ (m : Memory) (count id : Nat) :
    m.remembered? (count + 1) id = (m.closed.remembered? count id).or (m.remembered? 1 id) := by
  cases hsaves : m.saves with
  | nil =>
      rw [closed, hsaves, remembered?, remembered?, remembered?, hsaves]
      simp only [List.take_nil, List.flatMap_nil]
      rfl
  | cons record outer =>
      rw [remembered?, remembered?, remembered?, saves_closed hsaves, hsaves, List.take_succ_cons,
        List.flatMap_cons, oldest?_append, List.take_succ_cons, List.take_zero, List.flatMap_singleton]

/-- **Closing levels puts the oldest snapshot of an entity back.** -/
lemma row_iterate_closed (count : Nat) {row' : Row} (hrow' : (closed^[count] m).rows[id]? = some row') :
    ∃ row, m.rows[id]? = some row ∧ row' = rowBack (m.remembered? count id) row := by
  induction count generalizing m with
  | zero => exact ⟨row', hrow', rfl⟩
  | succ count ih =>
      obtain ⟨between, hbetween, rfl⟩ := ih hrow'
      obtain ⟨-, row, hrow, rfl⟩ := row_closed hbetween
      exact ⟨row, hrow, by rw [rowBack_or, ← remembered?_succ]⟩

/-! ## What pins are for -/

/-- The pins of an entity can be taken back, and as long as it is pinned no collection frees it. -/
structure Secured (m : Memory) (id : Nat) : Prop where
  release : ∃ n, release id m = .ok () n
  kept : ∀ roots sweeping markAll, Live (finalState (collect roots sweeping markAll) m) id

lemma release_run {row : Row} (hrow : m.rows[id]? = some row) (hpin : 0 < row.mark.refcount.val) :
    release id m = .ok () (m.edited id
      (fun r => { r with mark := row.mark.withRefcount (row.mark.refcount.val - 1) }) m.arena.image) := by
  rw [release, bind_ok (query_ok (s := m) (row_ok hrow)), if_neg (Nat.ne_of_gt hpin)]
  exact setMark_run hrow _

/-- A live entity that is pinned is secured. -/
lemma secured_of_pinned (hs : Sound m) (ht : Tidy m) (hid : id ≠ 0) {row : Row}
    (hrow : m.rows[id]? = some row) (hlive : row.isFree = false) (hpin : 0 < row.mark.refcount.val) :
    Secured m id where
  release := ⟨_, release_run hrow hpin⟩
  kept := by
    have hstill {garbage : Nat → Prop} (hnot : ¬ garbage id) {n : Memory}
        (h : Collected m garbage n) : Live n id := ⟨row, (h.kept id row hid hrow hnot).1, hlive⟩
    intro roots sweeping markAll
    cases hc : m.collector with
    | none => exact ⟨row, by rw [finalState_of_ok (a := 0) (t := m) (by rw [collect, hc])]; exact hrow, hlive⟩
    | some collector =>
        cases collector with
        | failing fault =>
            refine ⟨row, ?_, hlive⟩
            rw [finalState_of_error (e := fault) (t := m) (by rw [collect, hc])]
            exact hrow
        | markSweep =>
            by_cases hidle : sweeping = false ∨ markAll = true
            · obtain ⟨n, hrun, hcollected⟩ := collect_run_idle hs ht hc roots hidle
              rw [finalState_of_ok hrun]
              exact hstill not_false hcollected
            · simp only [not_or, Bool.not_eq_false, Bool.not_eq_true] at hidle
              obtain ⟨rfl, rfl⟩ := hidle
              obtain ⟨n, hrun, hcollected⟩ := collect_run hs ht hc roots
              rw [finalState_of_ok hrun]
              refine hstill ?_ hcollected
              rintro ⟨_, _, _, _, hreach⟩
              exact hreach (.pin hrow hpin)

/-! ## Restoring a level -/

/-- The pin count of an entity. -/
def refcount (m : Memory) (id : Nat) : Except Fault (Fin 128) := (m.row id).map fun row => row.mark.refcount

/-- An entity has as many pins after as before, and if it was pinned and is live, its pins do what pins are
for. -/
structure KeepsPins (m n : Memory) (id : Nat) : Prop where
  refcount : n.refcount id = m.refcount id
  secured : ∀ row, m.row id = .ok row → 0 < row.mark.refcount.val → Live n id → Secured n id

/-- **When pins survive a restore.**  An entity that was there when a level was opened keeps its pins in the
restore of the level if and only if the oldest snapshot that the closed levels have of it, if there is one,
has as many. -/
theorem restore_keeps_pins_iff {bank : Bank} {backing : Backing} {settings : Settings} {start : Memory}
    (hstart : withBacking bank backing settings = .ok start) (before during : List MemoryOp)
    (hbefore : ∀ op ∈ before, op.keepsTags = true) {level : Nat} {m : Memory}
    (hsave : save (start.afterAll before) = .ok level m)
    (hduring : ∀ op ∈ during, op.keepsTags = true ∧ op.staysAbove level = true) :
    ∃ n, restore level (m.afterAll during) = .ok () n ∧
      ∀ id, id ≠ 0 → id < m.entityCount →
        (KeepsPins (m.afterAll during) n id ↔
          ∀ s ∈ (m.afterAll during).remembered? ((m.afterAll during).level + 1 - level) id,
            (m.afterAll during).refcount id = .ok s.row.mark.refcount) := by
  have hs₀ := sound_of_withBacking hstart
  have hs := sound_afterAll hs₀ before
  have hdepth : (start.afterAll before).level < Mark.maxLevel := by
    by_contra hfull
    rw [save_error hfull] at hsave
    contradiction
  rw [save_run hdepth] at hsave
  injection hsave with hlevel hm
  subst hlevel hm
  have hleads := (leads_opened hs hdepth).afterAll fun op hop => (hduring op hop).2
  set base := start.afterAll before
  set k := base.opened.afterAll during
  have hk : Tidy k := ((tidy_of_withBacking hstart).afterAll hs₀ hbefore).opened.afterAll
    (sound_opened hs hdepth) fun op hop => (hduring op hop).1
  have habove := hleads.above
  have hcount : k.level - (base.level + 1) + 1 = k.level - base.level := by omega
  refine ⟨_, restore_run hleads.sound (Nat.succ_ne_zero _) habove, fun id hid hlt => ?_⟩
  rw [hcount, Nat.add_sub_add_right]
  have hthere : id < (closed^[k.level - base.level] k).entityCount := by
    rw [← hleads.alike.count]
    exact hlt
  obtain ⟨row', hrow'⟩ := exists_row hthere
  obtain ⟨row, hrow, hback⟩ := row_iterate_closed _ hrow'
  have hbefore : k.refcount id = .ok row.mark.refcount := by
    rw [refcount, row_ok hrow]
    rfl
  have hafter : (closed^[k.level - base.level] k).refcount id =
      .ok (rowBack (k.remembered? (k.level - base.level) id) row).mark.refcount := by
    rw [refcount, row_ok hrow', hback]
    rfl
  constructor
  · rintro ⟨hsame, -⟩ s hold
    rw [← hsame, hafter, hold]
    rfl
  · intro hsame
    have hpins : (closed^[k.level - base.level] k).refcount id = k.refcount id := by
      rw [hafter]
      cases hold : k.remembered? (k.level - base.level) id with
      | none => exact hbefore.symm
      | some s => exact (hsame s hold).symm
    refine ⟨hpins, fun r hr hpin ⟨r', hr', hlive⟩ => ?_⟩
    obtain rfl := Option.some.inj (hrow'.symm.trans hr')
    obtain rfl := Except.ok.inj ((row_ok hrow).symm.trans hr)
    rw [hbefore, refcount, row_ok hrow'] at hpins
    have hcount : row'.mark.refcount = row.mark.refcount := Except.ok.inj hpins
    exact secured_of_pinned (sound_iterate_closed _ hleads.sound) (hk.iterate_closed _) hid hrow' hlive
      (by rw [hcount]; exact hpin)

/-- There is a string. -/
def stringRun : List MemoryOp := [.useCollector .markSweep, .newString [1, 2, 3] []]

/-- A string that is pinned first keeps the pin, although it is written afterwards, in two levels. -/
theorem restore_keeps_pins_iff_pinned_first :
    ∃ m n, save (freshLocal.afterAll stringRun) = .ok 1 m ∧
      restore 1 (m.afterAll [.retain 1, .put 1 0 [7], .save, .put 1 1 [8]]) = .ok () n ∧
      KeepsPins (m.afterAll [.retain 1, .put 1 0 [7], .save, .put 1 1 [8]]) n 1 := by
  have hlevel : (freshLocal.afterAll stringRun).level = 0 := by decide +kernel
  have hsave := save_run (m := freshLocal.afterAll stringRun) (by rw [hlevel]; decide)
  rw [hlevel] at hsave
  obtain ⟨n, hrun, hkeeps⟩ := restore_keeps_pins_iff withBacking_freshLocal stringRun
    [.retain 1, .put 1 0 [7], .save, .put 1 1 [8]] (by decide) hsave (by decide)
  exact ⟨_, n, hsave, hrun, (hkeeps 1 (by decide) (by decide +kernel)).mpr (by decide +kernel)⟩

/-- Inside a level, a string is written and then pinned. -/
def pinnedString : Memory :=
  (freshLocal.afterAll stringRun).opened.afterAll [.put 1 0 [7], .retain 1]

/-- The pin is lost, because the snapshot of the write does not have it.  Then it cannot be taken back, and a
collection frees the string. -/
theorem restore_drops_pin :
    ∃ m n, save (freshLocal.afterAll stringRun) = .ok 1 m ∧
      (m.afterAll [.put 1 0 [7], .retain 1]).isPinned 1 = true ∧
      restore 1 (m.afterAll [.put 1 0 [7], .retain 1]) = .ok () n ∧
      n.isPinned 1 = false ∧ answer? (release 1) n = none ∧
      ((finalState (collect [] true false) n).row 1).map Row.isFree = .ok true ∧
      ¬ KeepsPins (m.afterAll [.put 1 0 [7], .retain 1]) n 1 := by
  have hlevel : (freshLocal.afterAll stringRun).level = 0 := by decide +kernel
  have hdepth : (freshLocal.afterAll stringRun).level < Mark.maxLevel := by
    rw [hlevel]
    decide
  have hsave := save_run hdepth
  rw [hlevel] at hsave
  have hs : pinnedString.Sound := sound_afterAll (sound_opened (sound_freshLocal stringRun) hdepth) _
  have hinside : pinnedString.level = 1 := by decide +kernel
  have hrestore := restore_run hs Nat.one_ne_zero hinside.ge
  rw [hinside] at hrestore
  have hpinned : pinnedString.isPinned 1 = true := by decide +kernel
  have hswept : ((finalState (collect [] true false) pinnedString.closed).row 1).map Row.isFree =
      .ok true := by decide +kernel
  refine ⟨_, _, hsave, hpinned, hrestore, by decide +kernel, by decide +kernel, hswept, fun h => ?_⟩
  have hlost : pinnedString.closed.refcount 1 ≠ pinnedString.refcount 1 := by decide +kernel
  exact hlost h.refcount

end Memory

end PostScriptCore
