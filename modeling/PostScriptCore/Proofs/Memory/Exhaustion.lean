import PostScriptCore.Proofs.Memory.Pacing
import PostScriptCore.Proofs.Memory.Recollection

/-!
# Full memories

An allocation fails for want of storage if the free list has nothing for it and no row can be added.  It
collects on the way only if its search was the last miss of a period, so that only then a failure means that
a collection would not have helped.

* `Memory.Exhausts` — the allocation fails for want of storage.
* `Memory.Full` — no row can be added.
* `Memory.exhausts_between`, `Memory.exhausts_due` — what a failure means between two requests, and at one.
* `Memory.allocate_of_exhausts` — between two requests a failure collects nothing.
* `Memory.exhausts_again` — after a collection that an allocation asked for nothing is gained by another one.
* `Memory.exhausts_after_iff` — between two requests it depends on the garbage.
* `Memory.exhausts_after_collection` — the theorem.
-/

namespace PostScriptCore

namespace Arena

/-! ## Limits of an arena -/

/-- Growing fails in the same way whatever the bytes are. -/
lemma grow_repainted {a b : Arena} {extra : Nat} {fault : Fault} (image : Image)
    (hrun : grow extra a = .error fault b) :
    grow extra { a with image } = .error fault { a with image } := by
  rw [grow] at hrun ⊢
  split at hrun
  · next hpages =>
    injection hrun with he
    rw [hpages, he]
  · next rounded hpages =>
    rw [hpages]
    dsimp only
    split at hrun
    · next hlimit =>
      injection hrun with he
      rw [if_pos hlimit, he]
    · next hlimit =>
      rw [if_neg hlimit]
      split at hrun
      · contradiction
      · next hmapped =>
        injection hrun with he
        rw [if_neg hmapped, he]

/-- Allocating fails in the same way whatever the bytes are. -/
lemma alloc_repainted {a b : Arena} {size : Nat} {fault : Fault} (image : Image)
    (hrun : alloc size a = .error fault b) :
    alloc size { a with image } = .error fault { a with image } := by
  rw [alloc] at hrun ⊢
  dsimp only
  by_cases hmapped : a.mapped = true
  · rw [if_pos hmapped] at hrun ⊢
    cases halign : alignUp size arenaAlign with
    | none =>
        rw [halign] at hrun
        injection hrun with he
        rw [← he]
    | some rounded =>
        rw [halign] at hrun
        dsimp only at hrun ⊢
        split at hrun
        · next hword =>
          injection hrun with he
          rw [if_pos hword, he]
        · next hword =>
          rw [if_neg hword]
          split at hrun
          · next hmax =>
            rw [if_pos hmax]
            split at hrun
            · contradiction
            · next hgrow =>
              injection hrun with he
              rw [grow_repainted image hgrow, he]
          · contradiction
  · rw [if_neg hmapped] at hrun ⊢
    injection hrun with he
    rw [he]

end Arena

namespace Memory

variable {m n : Memory} {ids : List Nat} {size wanted : Nat} {tag : Tag}

/-! ## Full memories -/

/-- No row can be added. -/
def Full (m : Memory) (size : Nat) (tag : Tag) : Prop := ∃ n, tableAlloc size tag m = .error .vmFull n

/-- The allocation fails for want of storage. -/
def Exhausts (m : Memory) (size : Nat) (tag : Tag) (roots : List Object) : Prop :=
  ∃ n, allocate size tag roots m = .error .vmFull n

instance (m : Memory) (size : Nat) (tag : Tag) (roots : List Object) :
    Decidable (m.Exhausts size tag roots) :=
  match h : allocate size tag roots m with
  | .ok _ _ => isFalse (by simp [Exhausts, h])
  | .error fault _ => decidable_of_iff (fault = .vmFull) (by simp [Exhausts, h])

/-- Where no storage is used up, a row is refused in the same way. -/
lemma Standing.tableAlloc_error {k : Memory} {fault : Fault} (h : Standing m n)
    (hrun : tableAlloc size tag m = .error fault k) : tableAlloc size tag n = .error fault n := by
  cases hround : (if size = 0 then some 0 else alignUp size arenaAlign) with
  | none =>
      have hrefused (m : Memory) : tableAlloc size tag m = .error .vmFull m :=
        bind_error (query_error (s := m) (by simp only [hround]))
      rw [hrefused m] at hrun
      injection hrun with he
      rw [← he]
      exact hrefused n
  | some rounded =>
      by_cases hlimit : m.maxEntities ≤ m.entityCount
      · have hrefused {m : Memory} (hlimit : m.maxEntities ≤ m.entityCount) :
            tableAlloc size tag m = .error .vmFull m :=
          bind_error (query_error (s := m) (by simp only [hround, if_pos hlimit]))
        rw [hrefused hlimit] at hrun
        injection hrun with he
        rw [← he]
        exact hrefused (by rwa [h.limit, h.count])
      · have hlimit' : ¬ n.maxEntities ≤ n.entityCount := by rwa [h.limit, h.count]
        refine (bind_ok (query_ok (s := n) (a := rounded) (by simp only [hround, if_neg hlimit']))).trans ?_
        replace hrun := (bind_ok (query_ok (s := m) (a := rounded)
          (by simp only [hround, if_neg hlimit]))).symm.trans hrun
        by_cases h0 : rounded = 0
        · rw [if_pos h0] at hrun
          contradiction
        · rw [if_neg h0] at hrun ⊢
          cases halloc : Arena.alloc rounded m.arena with
          | ok address arena =>
              rw [bind_ok (onArena_ok halloc)] at hrun
              contradiction
          | error fault arena =>
              rw [bind_error (onArena_error halloc)] at hrun
              injection hrun with he
              obtain ⟨image, harena⟩ := h.arena
              have hsame := Arena.alloc_repainted image halloc
              rw [← harena] at hsame
              rw [bind_error (onArena_error hsame), he]

lemma Full.standing (hfull : m.Full size tag) (h : Standing m n) : n.Full size tag := by
  obtain ⟨k, hrun⟩ := hfull
  exact ⟨n, h.tableAlloc_error hrun⟩

lemma full_countdown {count : Nat} : ({ m with gcCountdown := count }).Full size tag ↔ m.Full size tag :=
  ⟨fun h => h.standing ⟨⟨_, rfl⟩, rfl, rfl, rfl⟩, fun h => h.standing ⟨⟨_, rfl⟩, rfl, rfl, rfl⟩⟩

/-! ## Searches that find nothing -/

lemma Unserved.congr (h : m.Unserved wanted) (hs : Sound m) (hn : Sound n)
    (hcount : n.entityCount = m.entityCount) (hhead : n.head? = m.head?)
    (hcells : ∀ id, n.cell? id = m.cell? id) : n.Unserved wanted := by
  obtain ⟨head, ids, hhead', hlinks, hlength, hnone⟩ := h
  refine ⟨head, ids, hhead.trans hhead', hlinks.congr hs hn fun id _ => hcells id, hcount ▸ hlength, ?_⟩
  intro id hid hroom
  obtain ⟨cell, hcell, -⟩ := hlinks.cell hs hid
  rw [hasRoom_iff ((hcells id).trans hcell), ← hasRoom_iff hcell] at hroom
  exact hnone id hid hroom

lemma unserved_countdown (hs : Sound m) {count : Nat} :
    ({ m with gcCountdown := count }).Unserved wanted ↔ m.Unserved wanted :=
  ⟨fun h => h.congr (sound_countdown hs count) hs rfl rfl fun _ => rfl,
    fun h => h.congr hs (sound_countdown hs count) rfl rfl fun _ => rfl⟩

lemma Unserved.marks (h : m.Unserved wanted) (hs : Sound m) (hmarks : Marks m n) : n.Unserved wanted :=
  h.congr hs ((hmarks.carries hs).sound hs) hmarks.alike.count.symm hmarks.alike.head?
    (hmarks.alike.cell? hs)

lemma Links.unique {cursor : Nat} {others : List Nat} (h : Links m cursor ids)
    (h' : Links m cursor others) : ids = others := by
  induction h generalizing others with
  | stop =>
      cases h' with
      | stop => rfl
      | next h0 => contradiction
  | next h0 hlink _ ih =>
      cases h' with
      | stop => contradiction
      | next _ hlink' hrest =>
          obtain rfl := Except.ok.inj (hlink.symm.trans hlink')
          rw [ih hrest]

/-- **A miss means that no free entity is large enough**, if the free list is in order. -/
lemma FreeList.unserved_iff (h : FreeList m ids) (hs : Sound m) :
    m.Unserved wanted ↔ ∀ id, m.isSpare id = true → ¬ m.HasRoom wanted id := by
  constructor
  · rintro ⟨head, others, hhead, hlinks, -, hnone⟩ id hspare
    rw [isSpare, Option.any_eq_true] at hspare
    obtain ⟨cell, hcell, hfree⟩ := hspare
    obtain ⟨head', hhead', hlinks'⟩ := (h.threads.lists hs).links
    obtain rfl := Option.some.inj (hhead.symm.trans hhead')
    rw [hlinks.unique hlinks'] at hnone
    exact hnone id (h.complete id cell hcell hfree)
  · intro hnone
    refine (h.threads.lists hs).unserved hs fun id hid => hnone id ?_
    obtain ⟨cell, hcell, hfree, -⟩ := h.threads.cell hid
    rw [isSpare, hcell]
    exact hfree

/-! ## Failing allocations -/

lemma allocate_of_miss (h : findStorage size tag m = .ok .miss n) (roots : List Object) :
    allocate size tag roots m = tableAlloc size tag n := (bind_ok h).trans rfl

/-- A request is answered by a collection, after which the allocation does not collect any more. -/
lemma allocate_of_request (h : findStorage size tag m = .ok .needsCollection n) (roots : List Object) :
    allocate size tag roots m = allocateWithoutGc size tag (n.after (.collect roots true false)) :=
  (bind_ok h).trans (bind_ok (attempt_collect roots n))

section Failing

variable (hs : Sound m) (hpolicy : m.policy = .firstFit) (halign : alignUp size arenaAlign = some wanted)

include hs hpolicy halign

/-- A search that does not come to the end of the list does not end in a full memory. -/
lemma not_exhausts_of_served (h : ¬ m.Unserved wanted) (tag : Tag) :
    (¬ ∃ n, allocateWithoutGc size tag m = .error .vmFull n) ∧ ∀ roots, ¬ m.Exhausts size tag roots := by
  rcases firstFit_outcomes hs size tag with
    ⟨fault, hrun, hfault⟩ | ⟨wanted', halign', hunserved, -⟩ | ⟨id, n, hrun⟩
  · have hfind := (findStorage_firstFit hpolicy size tag).trans hrun
    have hne : fault ≠ .vmFull := by
      intro he
      rw [hfault he] at halign
      contradiction
    refine ⟨?_, fun roots => ?_⟩
    · rintro ⟨n, hn⟩
      rw [allocateWithoutGc, bind_error hfind] at hn
      injection hn with he
      exact hne he
    · rintro ⟨n, hn⟩
      rw [allocate, bind_error hfind] at hn
      injection hn with he
      exact hne he
  · obtain rfl := Option.some.inj (halign'.symm.trans halign)
    contradiction
  · obtain ⟨hwithout, hwith⟩ := allocate_hit hpolicy hrun
    refine ⟨?_, fun roots => ?_⟩
    · rintro ⟨k, hk⟩
      rw [hwithout] at hk
      contradiction
    · rintro ⟨k, hk⟩
      rw [hwith roots] at hk
      contradiction

lemma allocateWithoutGc_full_iff :
    (∃ n, allocateWithoutGc size tag m = .error .vmFull n) ↔ m.Unserved wanted ∧ m.Full size tag := by
  by_cases hunserved : m.Unserved wanted
  · rw [and_iff_right hunserved]
    have hfind := (findStorage_firstFit hpolicy size tag).trans (hunserved.firstFit_run hs halign tag)
    rcases Nat.lt_or_ge 1 m.gcCountdown with hcount | hcount
    · rw [allocateWithoutGc, bind_ok (hfind.trans (countMiss_between hcount))]
      exact full_countdown
    · rw [allocateWithoutGc, bind_ok (hfind.trans (countMiss_due hcount))]
      exact full_countdown
  · exact iff_of_false (not_exhausts_of_served hs hpolicy halign hunserved tag).1 fun h => hunserved h.1

/-- Between two requests an allocation fails without a collection. -/
lemma exhausts_between (hcount : 1 < m.gcCountdown) (roots : List Object) :
    m.Exhausts size tag roots ↔ m.Unserved wanted ∧ m.Full size tag := by
  by_cases hunserved : m.Unserved wanted
  · rw [and_iff_right hunserved, Exhausts, allocate_of_miss ((findStorage_firstFit hpolicy size tag).trans
      ((hunserved.firstFit_run hs halign tag).trans (countMiss_between hcount)))]
    exact full_countdown
  · exact iff_of_false ((not_exhausts_of_served hs hpolicy halign hunserved tag).2 roots)
      fun h => hunserved h.1

/-- A failure at a request means that the collection did not help. -/
lemma exhausts_due (hcount : m.gcCountdown ≤ 1) (roots : List Object) :
    m.Exhausts size tag roots ↔
      m.Unserved wanted ∧ (m.after (.collect roots true false)).Unserved wanted ∧
        (m.after (.collect roots true false)).Full size tag := by
  by_cases hunserved : m.Unserved wanted
  · have hn := sound_after hs (.collect roots true false)
    have hsetup : SameSetup m (m.after (.collect roots true false)) := follows_after_collect roots m
    rw [and_iff_right hunserved, Exhausts, allocate_of_request ((findStorage_firstFit hpolicy size tag).trans
      ((hunserved.firstFit_run hs halign tag).trans (countMiss_due hcount))), after_collect_countdown]
    refine (allocateWithoutGc_full_iff (sound_countdown hn m.gcPeriod) (hsetup.policy.trans hpolicy)
      halign).trans ?_
    rw [unserved_countdown hn, full_countdown]
  · exact iff_of_false ((not_exhausts_of_served hs hpolicy halign hunserved tag).2 roots)
      fun h => hunserved h.1

end Failing

/-- A size that cannot be rounded never fits. -/
lemma allocate_of_unaligned (hpolicy : m.policy = .firstFit) (halign : alignUp size arenaAlign = none)
    (tag : Tag) (roots : List Object) : allocate size tag roots m = .error .vmFull m := by
  refine bind_error ((findStorage_firstFit hpolicy size tag).trans (bind_error (query_error (s := m) ?_)))
  simp only [halign]

lemma Full.tableAlloc_eq (h : m.Full size tag) : tableAlloc size tag m = .error .vmFull m := by
  obtain ⟨n, hrun⟩ := h
  exact (refl_of Standing m).tableAlloc_error hrun

/-- **Between two requests nothing is collected** on the way to a failure: the miss is counted, and that is
all. -/
lemma allocate_of_exhausts (hs : Sound m) (hpolicy : m.policy = .firstFit) (hcount : 1 < m.gcCountdown)
    {roots : List Object} (h : m.Exhausts size tag roots) :
    ∃ count, allocate size tag roots m = .error .vmFull { m with gcCountdown := count } := by
  cases halign : alignUp size arenaAlign with
  | none => exact ⟨m.gcCountdown, allocate_of_unaligned hpolicy halign tag roots⟩
  | some wanted =>
      obtain ⟨hunserved, hfull⟩ := (exhausts_between hs hpolicy halign hcount roots).mp h
      have hmiss := (findStorage_firstFit hpolicy size tag).trans
        ((hunserved.firstFit_run hs halign tag).trans (countMiss_between hcount))
      exact ⟨_, (allocate_of_miss hmiss roots).trans (full_countdown.mpr hfull).tableAlloc_eq⟩

/-! ## Collecting and trying again -/

lemma standing_after_collect (roots : List Object) (m : Memory) :
    Standing m (m.after (.collect roots true false)) := by
  rw [after, MemoryOp.perform, finalState_discard]
  exact Ends.finalState (follows_collect roots true false m)

lemma hasRoom_congr {id : Nat} {row row' : Row} (hrow : m.rows[id]? = some row)
    (hrow' : n.rows[id]? = some row') (hsize : row'.size = row.size) :
    n.HasRoom wanted id ↔ m.HasRoom wanted id := by
  rw [HasRoom, HasRoom, row_ok hrow, row_ok hrow']
  simp only [Except.ok.injEq, exists_eq_left', hsize]

/-- What is free after a collection was free before or was garbage, and kept its size. -/
lemma Collected.spare_iff {garbage : Nat → Prop} (h : Collected m garbage n) {id : Nat} {row : Row}
    (hid : id ≠ 0) (hrow : m.rows[id]? = some row) :
    (n.isSpare id = true ↔ m.isSpare id = true ∨ garbage id) ∧
      (n.HasRoom wanted id ↔ m.HasRoom wanted id) := by
  by_cases hgarbage : garbage id
  · have hrow' := h.gone id row hid hrow hgarbage
    refine ⟨iff_of_true ?_ (.inr hgarbage), hasRoom_congr hrow hrow' rfl⟩
    rw [isSpare, cell?_of_row hid hrow']
    rfl
  · obtain ⟨hrow', -⟩ := h.kept id row hid hrow hgarbage
    refine ⟨?_, hasRoom_congr hrow hrow' rfl⟩
    rw [or_iff_left hgarbage, isSpare, isSpare, cell?_of_row hid hrow', cell?_of_row hid hrow]
    rfl

section Retrying

variable (hs : Sound m) (ht : Tidy m) (hpolicy : m.policy = .firstFit)
  (hcollector : m.collector = some .markSweep) {roots : List Object}

include hs ht hpolicy hcollector

/-- **After a collection that an allocation asked for nothing is gained by another one.** -/
lemma exhausts_again (hcount : m.gcCountdown ≤ 1) (h : m.Exhausts size tag roots) :
    (m.after (.collect roots true false)).Exhausts size tag roots := by
  have hsetup : SameSetup m (m.after (.collect roots true false)) := follows_after_collect roots m
  obtain ⟨n, hrun, hcollected⟩ := collect_run hs ht hcollector roots
  obtain rfl : m.after (.collect roots true false) = n := after_of_ok rfl hrun
  have hn := hcollected.sound
  cases halign : alignUp size arenaAlign with
  | none => exact ⟨_, allocate_of_unaligned (hsetup.policy.trans hpolicy) halign tag roots⟩
  | some wanted =>
      obtain ⟨-, hunserved, hfull⟩ := (exhausts_due hs hpolicy halign hcount roots).mp h
      have hmarks := marks_after_collect hn hcollected.tidy (hsetup.collector.trans hcollector)
        (hcollected.no_garbage hs ht hsetup.bank)
      refine (exhausts_due hn (hsetup.policy.trans hpolicy) halign (hsetup.countdown ▸ hcount) roots).mpr ?_
      exact ⟨hunserved, hunserved.marks hn hmarks, hfull.standing (standing_after_collect roots _)⟩

/-- **Between two requests another collection helps if some garbage is large enough.** -/
lemma exhausts_after_iff {others : List Nat} (hids : FreeList m ids)
    (hothers : FreeList (m.after (.collect roots true false)) others) (hcount : 1 < m.gcCountdown)
    (halign : alignUp size arenaAlign = some wanted) (h : m.Exhausts size tag roots) :
    (m.after (.collect roots true false)).Exhausts size tag roots ↔
      ∀ id, Garbage m roots id → ¬ m.HasRoom wanted id := by
  have hsetup : SameSetup m (m.after (.collect roots true false)) := follows_after_collect roots m
  obtain ⟨hunserved, hfull⟩ := (exhausts_between hs hpolicy halign hcount roots).mp h
  rw [hids.unserved_iff hs] at hunserved
  obtain ⟨n, hrun, hcollected⟩ := collect_run hs ht hcollector roots
  obtain rfl : m.after (.collect roots true false) = n := after_of_ok rfl hrun
  have hn := hcollected.sound
  rw [exhausts_between hn (hsetup.policy.trans hpolicy) halign (hsetup.countdown ▸ hcount) roots,
    and_iff_left (hfull.standing (standing_after_collect roots m)), hothers.unserved_iff hn]
  constructor
  · intro hnone id hgarbage hroom
    have ⟨row, hrow, _⟩ := hgarbage
    obtain ⟨hspare, hsize⟩ := hcollected.spare_iff (ne_zero_of_garbage hs hgarbage) hrow
    exact hnone id (hspare.mpr (.inr hgarbage)) (hsize.mpr hroom)
  · intro hnone id hspare' hroom
    obtain ⟨cell, hcell, -⟩ := (Option.any_eq_true ..).mp hspare'
    obtain ⟨row, hrow⟩ := exists_row (m := m) (hcollected.count ▸ cell_lt hcell : id < m.entityCount)
    obtain ⟨hspare, hsize⟩ := hcollected.spare_iff (ne_zero_of_cell hcell) hrow
    rcases hspare.mp hspare' with hfree | hgarbage
    · exact hunserved id hfree (hsize.mp hroom)
    · exact hnone id hgarbage (hsize.mp hroom)

end Retrying

/-- **A full memory after a collection.**  If an allocation fails for want of storage although its search was
the last miss of a period, it fails again after another collection.  If it was not, the failure changed nothing
but the countdown, so that nothing was collected, and with the free list in order it fails again exactly if no
garbage is large enough. -/
theorem exhausts_after_collection {bank : Bank} {backing : Backing} {settings : Settings} {start : Memory}
    (hstart : withBacking bank backing settings = .ok start) (ops : List MemoryOp)
    (hops : ∀ op ∈ ops, op.keepsHead = true) (hpolicy : (start.afterAll ops).policy = .firstFit)
    (hcollector : (start.afterAll ops).collector = some .markSweep) {size : Nat} {tag : Tag}
    {roots : List Object} (hfull : (start.afterAll ops).Exhausts size tag roots) :
    ∃ total n, collect roots true false (start.afterAll ops) = .ok total n ∧
      (settings.gcPeriod ≤ (start.lookupsAll ops).foldl tally 0 + 1 → n.Exhausts size tag roots) ∧
      ((start.lookupsAll ops).foldl tally 0 + 1 < settings.gcPeriod →
        (∃ count, allocate size tag roots (start.afterAll ops) =
          .error .vmFull { start.afterAll ops with gcCountdown := count }) ∧
        (start.respectsAll ops = true → (start.afterAll ops).entityCount ≤ wordBound →
          (n.Exhausts size tag roots ↔ ∀ wanted, alignUp size arenaAlign = some wanted →
            ∀ id, Garbage (start.afterAll ops) roots id → ¬ (start.afterAll ops).HasRoom wanted id))) := by
  have hs := sound_afterAll (sound_of_withBacking hstart) ops
  have ht := (tidy_of_withBacking hstart).afterAll_of_keepsHead (sound_of_withBacking hstart) hops
  obtain ⟨hperiod, hfresh⟩ := paced_of_withBacking hstart
  have hpaces := paces_afterAll start ops
  have hsum := (hpaces.paced 0 hfresh).sum
  rw [hpaces.period, hperiod] at hsum
  obtain ⟨n, hrun, hcollected⟩ := collect_run hs ht hcollector roots
  refine ⟨_, n, hrun, ?_⟩
  obtain rfl : (start.afterAll ops).after (.collect roots true false) = n := after_of_ok rfl hrun
  refine ⟨fun hlast => exhausts_again hs ht hpolicy hcollector (by omega) hfull, ?_⟩
  intro hearly
  refine ⟨allocate_of_exhausts hs hpolicy (by omega) hfull, fun hrespects hwords => ?_⟩
  have hlayered := (layered_of_withBacking hstart).afterAll hrespects
  obtain ⟨ids, hids⟩ := hlayered.orderly.listed hwords
  have hcollect : MemoryOp.respects (start.afterAll ops) (.collect roots true false) = true := rfl
  obtain ⟨others, hothers⟩ := (hlayered.after hcollect).orderly.listed (hcollected.count ▸ hwords)
  cases halign : alignUp size arenaAlign with
  | none =>
      have hsetup : SameSetup _ _ := follows_after_collect roots (start.afterAll ops)
      exact iff_of_true ⟨_, allocate_of_unaligned (hsetup.policy.trans hpolicy) halign tag roots⟩
        fun wanted he => absurd he (by simp)
  | some wanted =>
      simp only [Option.some.injEq, forall_eq']
      exact exhausts_after_iff hs ht hpolicy hcollector hids hothers (by omega) halign hfull

/-- A fresh local memory with the given settings. -/
def freshWith (settings : Settings) : Memory :=
  match withBacking .localVM .anonymous settings with
  | .ok m => m
  | .error _ => vacant

/-- Settings under which an arena is one page. -/
def onePage (gcPeriod : Nat) : Settings :=
  { Settings.standard with initialArenaSize := 4096, maxArenaSize := 4096, gcPeriod }

/-- The arena is filled with one string. -/
def fillingRun : List MemoryOp :=
  [.useCollector .markSweep, .allocate 4096 (Tag.ofKind .string) []]

/-- The string is still needed, so that the memory is as full after a collection.  Where only every
sixty-fourth miss asks for one, the failure leaves the string that nobody needs, and it would have served. -/
theorem exhausts_after_collection_filled :
    (withBacking .localVM .anonymous (onePage 1) = .ok (freshWith (onePage 1)) ∧
      ((freshWith (onePage 1)).afterAll fillingRun).Exhausts 8 (Tag.ofKind .string)
        [.composite .string .localVM 1 0 4096] ∧
      ∃ total n, collect [.composite .string .localVM 1 0 4096] true false
          ((freshWith (onePage 1)).afterAll fillingRun) = .ok total n ∧
        n.Exhausts 8 (Tag.ofKind .string) [.composite .string .localVM 1 0 4096]) ∧
    withBacking .localVM .anonymous (onePage 64) = .ok (freshWith (onePage 64)) ∧
      (∃ count, allocate 8 (Tag.ofKind .string) [] ((freshWith (onePage 64)).afterAll fillingRun) =
        .error .vmFull { (freshWith (onePage 64)).afterAll fillingRun with gcCountdown := count }) ∧
      ∃ total n, collect [] true false ((freshWith (onePage 64)).afterAll fillingRun) = .ok total n ∧
        (n.Exhausts 8 (Tag.ofKind .string) [] ↔ ∀ wanted, alignUp 8 arenaAlign = some wanted →
          ∀ id, Garbage ((freshWith (onePage 64)).afterAll fillingRun) [] id →
            ¬ ((freshWith (onePage 64)).afterAll fillingRun).HasRoom wanted id) := by
  have hneeded : ((freshWith (onePage 1)).afterAll fillingRun).Exhausts 8 (Tag.ofKind .string)
      [.composite .string .localVM 1 0 4096] := by decide +kernel
  have hgarbage : ((freshWith (onePage 64)).afterAll fillingRun).Exhausts 8 (Tag.ofKind .string) [] := by
    decide +kernel
  have hstart : withBacking .localVM .anonymous (onePage 1) = .ok (freshWith (onePage 1)) := rfl
  have hstart' : withBacking .localVM .anonymous (onePage 64) = .ok (freshWith (onePage 64)) := rfl
  obtain ⟨total, n, hrun, hagain, -⟩ := exhausts_after_collection hstart fillingRun (by decide) rfl rfl
    hneeded
  obtain ⟨total', n', hrun', -, hearly⟩ := exhausts_after_collection hstart' fillingRun (by decide) rfl rfl
    hgarbage
  obtain ⟨hunchanged, hiff⟩ := hearly (by decide +kernel)
  exact ⟨⟨hstart, hneeded, total, n, hrun, hagain (by decide +kernel)⟩, hstart', hunchanged, total', n', hrun',
    hiff (by decide +kernel) (by decide +kernel)⟩

/-- Settings for a table of few entities in which every miss asks for a collection. -/
def crowded : Settings :=
  { Settings.standard with gcPeriod := 1, initialEntities := 2, maxEntities := 26 }

/-- The table is filled, its last entity is freed, and row 0 is made to look like an array. -/
def crowdingRun : List MemoryOp :=
  .useCollector .markSweep :: List.replicate 23 (.tableAlloc 0 (Tag.ofKind .string)) ++
    [.tableAlloc 16 (Tag.ofKind .string), .tableAlloc 8 (Tag.ofKind .string), .free 25,
      .setTag 0 (Tag.ofKind .array)]

/-- **An allocation can fail over garbage.**  The string that fills the arena is garbage, but the search was the
second miss of sixty-four, and nothing was collected.  Where row 0 was made an array by hand, the first
collection fails at it and the second one does not. -/
theorem exhausts_over_garbage :
    (withBacking .localVM .anonymous (onePage 64) = .ok (freshWith (onePage 64)) ∧
      ((freshWith (onePage 64)).afterAll fillingRun).Exhausts 8 (Tag.ofKind .string) [] ∧
      ¬ (((freshWith (onePage 64)).afterAll fillingRun).after (.collect [] true false)).Exhausts 8
        (Tag.ofKind .string) []) ∧
    withBacking .localVM .anonymous crowded = .ok (freshWith crowded) ∧
      ((freshWith crowded).afterAll crowdingRun).Exhausts 16 (Tag.ofKind .string)
        [.composite .array .localVM 0 0 0] ∧
      ¬ (((freshWith crowded).afterAll crowdingRun).after
        (.collect [.composite .array .localVM 0 0 0] true false)).Exhausts 16 (Tag.ofKind .string)
          [.composite .array .localVM 0 0 0] :=
  ⟨⟨rfl, by decide +kernel, by decide +kernel⟩, rfl, by decide +kernel, by decide +kernel⟩

end Memory

end PostScriptCore
