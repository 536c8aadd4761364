import PostScriptCore.Proofs.Memory.FirstFit
import PostScriptCore.Proofs.Memory.Setup

/-!
# First fit, and the pace of collections

A search takes the first listed entity that is large enough.  If there is none it counts a miss, and the
countdown of the memory is nothing but the number of misses since the last hit or request.

* `Memory.lookups`, `MemoryOp.lookups`, `Memory.lookupsAll` — what the searches of an allocation, of an
  operation and of a run answer.
* `tally` — the misses since the last hit or request.
* `Memory.Paced`, `Memory.Paces` — the countdown agrees with the misses; answers move both on.
* `Memory.paces_after`, `Memory.paces_afterAll` — a step and a run.
* `Memory.first_fit_exact` — the theorem.
-/

namespace PostScriptCore

/-- The misses since the last hit or request, after one more answer. -/
def tally (misses : Nat) : Fit → Nat
  | .miss => misses + 1
  | .reused _ | .needsCollection => 0

namespace Memory

/-- What a search along the free list answers, if the memory searches it at all. -/
def lookup? (m : Memory) (size : Nat) (tag : Tag) : Option Fit :=
  match m.policy with
  | .firstFit => answer? (firstFit size tag) m
  | .fixed _ => none

/-- What the searches of an allocation answer.  A request for a collection is followed by the collection
and a second search. -/
def lookups (m : Memory) (size : Nat) (tag : Tag) (roots : List Object) : List Fit :=
  (m.lookup? size tag).toList ++
    if answer? (findStorage size tag) m = some .needsCollection then
      (((finalState (findStorage size tag) m).after (.collect roots true false)).lookup? size tag).toList
    else []

end Memory

/-- What the searches along the free list answer that an operation makes. -/
def MemoryOp.lookups (m : Memory) : MemoryOp → List Fit
  | firstFit size tag => (answer? (Memory.firstFit size tag) m).toList
  | allocate size tag roots => m.lookups size tag roots
  | allocateWithoutGc size tag => (m.lookup? size tag).toList
  | realloc id size roots =>
    match m.movable id with
    | .ok row => m.lookups size row.tag roots
    | .error _ => []
  | reallocWithoutGc id size =>
    match m.movable id with
    | .ok row => (m.lookup? size row.tag).toList
    | .error _ => []
  | newString bytes roots => sized bytes.length .string roots
  | newArray length roots => sized (length * objectSize) .array roots
  | newProc elements roots => sized (elements.length * objectSize) .array roots
  | newDict capacity roots => sized (capacity * Memory.dictEntrySize) .dict roots
  | newFile _ _ roots => m.lookups 8 (Tag.ofKind .file) roots
  | _ => []
where
  /-- Sizes beyond a word are refused before anything is searched. -/
  sized (size : Nat) (kind : Kind) (roots : List Object) : List Fit :=
    if size < wordBound then m.lookups size (Tag.ofKind kind) roots else []

namespace Memory

variable {m n : Memory} {fits : List Fit}

/-- What all searches along the free list answer in a run, the first one first. -/
def lookupsAll : Memory → List MemoryOp → List Fit
  | _, [] => []
  | m, op :: rest => op.lookups m ++ (m.after op).lookupsAll rest

/-! ## The countdown -/

/-- The countdown and the misses make up the period, and a request is never overdue. -/
structure Paced (m : Memory) (misses : Nat) : Prop where
  sum : m.gcCountdown + misses = m.gcPeriod
  left : 0 < m.gcPeriod → 0 < m.gcCountdown

/-- Between the two memories the searches answered what is listed, and nothing else was counted. -/
structure Paces (fits : List Fit) (m n : Memory) : Prop where
  period : n.gcPeriod = m.gcPeriod
  paced : ∀ misses, m.Paced misses → n.Paced (fits.foldl tally misses)

lemma Paces.append {k : Memory} {others : List Fit} (h : Paces fits m n) (h' : Paces others n k) :
    Paces (fits ++ others) m k where
  period := h'.period.trans h.period
  paced := by
    intro misses hm
    rw [List.foldl_append]
    exact h'.paced _ (h.paced misses hm)

lemma Paces.tail {k : Memory} (h : Paces fits m n) (h' : Paces [] n k) : Paces fits m k :=
  List.append_nil fits ▸ h.append h'

instance : IgnoresStorage (Paces []) where
  refl _ := ⟨rfl, fun _ h => h⟩
  trans _ _ _ h h' := h.tail h'
  storage _ _ _ _ _ := ⟨rfl, fun _ h => ⟨h.sum, h.left⟩⟩

lemma paces_refl (m : Memory) : Paces [] m m := ⟨rfl, fun _ h => h⟩

/-- A miss is counted, and the countdown starts again with a request. -/
lemma ends_countMiss (m : Memory) :
    Ends countMiss m (fun fit n => Paces [fit] m n) fun _ n => Paces [] m n := by
  rcases Nat.lt_or_ge 1 m.gcCountdown with hcount | hcount
  · refine Ends.of_ok (countMiss_between hcount) ⟨rfl, fun misses h => ⟨?_, fun _ => ?_⟩⟩
    · have hsum := h.sum
      show m.gcCountdown - 1 + (misses + 1) = m.gcPeriod
      omega
    · show 0 < m.gcCountdown - 1
      omega
  · exact Ends.of_ok (countMiss_due hcount) ⟨rfl, fun misses _ => ⟨Nat.add_zero _, id⟩⟩

lemma ends_firstFit (size : Nat) (tag : Tag) (m : Memory) :
    Ends (firstFit size tag) m (fun fit n => Paces [fit] m n) fun _ n => Paces [] m n := by
  refine Ends.bind (Ends.query (fun found _ => ?_) fun _ _ => paces_refl m)
  cases found with
  | none => exact ends_countMiss m
  | some candidate =>
      refine Ends.bind (Ends.mono (follows_writeLink (R := Paces []) candidate.previous candidate.next m)
        (fun _ k hk => ?_) fun _ _ hk => hk)
      refine Ends.bind (Ends.mono (IgnoresRecycling.reuse (R := Paces []) candidate.id tag k)
        (fun _ j hj => ?_) fun _ _ hj => hk.tail hj)
      exact Ends.bind (Ends.modify (Ends.pure
        ⟨hj.period.trans hk.period, fun _ _ => ⟨Nat.add_zero _, id⟩⟩))

/-! ## Operations -/

lemma paces_of_ends {x : MemoryM Fit}
    (h : Ends x m (fun fit n => Paces [fit] m n) fun _ n => Paces [] m n) :
    Paces (answer? x m).toList m (finalState x m) := by
  rw [Ends] at h
  rw [answer?, finalState]
  cases hx : x m with
  | ok fit n => rw [hx] at h; exact h
  | error fault n => rw [hx] at h; exact h

/-- What comes after the searches counts nothing. -/
lemma paces_bind {α β : Type} {x : MemoryM α} {f : α → MemoryM β}
    (hx : Paces fits m (finalState x m)) (hf : ∀ a, Follows (Paces []) (f a)) :
    Paces fits m (finalState (x >>= f) m) := by
  cases hrun : x m with
  | ok a n =>
      rw [finalState_of_ok hrun] at hx
      refine Ends.finalState (Ends.bind (Ends.of_ok hrun ?_))
      exact Ends.mono (hf a n) (fun _ _ hk => hx.tail hk) fun _ _ hk => hx.tail hk
  | error fault n =>
      rw [finalState_of_error hrun] at hx
      rwa [finalState_of_error (bind_error hrun)]

lemma paces_findStorage (size : Nat) (tag : Tag) (m : Memory) :
    Paces (m.lookup? size tag).toList m (finalState (findStorage size tag) m) := by
  rw [lookup?, finalState, findStorage]
  cases m.policy with
  | firstFit => exact paces_of_ends (ends_firstFit size tag m)
  | fixed answer => cases answer <;> exact paces_refl m

lemma paces_allocateWithoutGc (size : Nat) (tag : Tag) (m : Memory) :
    Paces (m.lookup? size tag).toList m (finalState (allocateWithoutGc size tag) m) := by
  refine paces_bind (paces_findStorage size tag m) fun fit => ?_
  cases fit with
  | reused id => exact .pure _
  | needsCollection | miss => exact follows_tableAlloc size tag

/-- The collection that an allocation runs may fail without anybody noticing. -/
lemma attempt_collect (roots : List Object) (m : Memory) :
    attempt (collect roots true false) m = .ok () (m.after (.collect roots true false)) := by
  rw [after, MemoryOp.perform, finalState_discard, finalState, attempt]
  cases collect roots true false m <;> rfl

lemma follows_after_collect {R : Memory → Memory → Prop} [IgnoresStorage R] (roots : List Object)
    (m : Memory) : R m (m.after (.collect roots true false)) :=
  Ends.finalState (follows_steady (show (MemoryOp.collect roots true false).isSteady = true from rfl) m)

/-- A request for a collection is the only case in which an allocation searches twice. -/
lemma paces_allocate (size : Nat) (tag : Tag) (roots : List Object) (m : Memory) :
    Paces (m.lookups size tag roots) m (finalState (allocate size tag roots) m) := by
  have hfind := paces_findStorage size tag m
  rw [lookups, answer?]
  cases hrun : findStorage size tag m with
  | error fault n =>
      rw [finalState_of_error hrun] at hfind
      rw [allocate, finalState_of_error (bind_error hrun)]
      simpa using hfind
  | ok fit n =>
      rw [finalState_of_ok hrun] at hfind ⊢
      rw [allocate, finalState_bind_ok hrun]
      cases fit with
      | reused id => exact hfind.append (paces_refl n)
      | miss => exact hfind.append (Ends.finalState (follows_tableAlloc (R := Paces []) size tag n))
      | needsCollection =>
          refine (hfind.tail (follows_after_collect roots n)).append ?_
          show Paces _ _ (finalState (attempt (collect roots true false) >>= fun _ =>
            allocateWithoutGc size tag) n)
          rw [finalState_bind_ok (attempt_collect roots n)]
          exact paces_allocateWithoutGc size tag _

lemma paces_realloc (id newSize : Nat) (roots : List Object) (m : Memory) :
    Paces (MemoryOp.lookups m (.realloc id newSize roots)) m (finalState (realloc id newSize roots) m) := by
  rw [realloc]
  cases hrow : m.movable id with
  | error fault =>
      rw [finalState_of_error (bind_error (query_error (s := m) hrow))]
      simp only [MemoryOp.lookups, hrow]
      exact paces_refl m
  | ok row =>
      rw [finalState_bind_ok (query_ok (s := m) hrow)]
      simp only [MemoryOp.lookups, hrow]
      exact paces_bind (paces_allocate newSize row.tag roots m) fun _ => follows_moveContents _ _ _ _

lemma paces_reallocWithoutGc (id newSize : Nat) (m : Memory) :
    Paces (MemoryOp.lookups m (.reallocWithoutGc id newSize)) m
      (finalState (reallocWithoutGc id newSize) m) := by
  rw [reallocWithoutGc]
  cases hrow : m.movable id with
  | error fault =>
      rw [finalState_of_error (bind_error (query_error (s := m) hrow))]
      simp only [MemoryOp.lookups, hrow]
      exact paces_refl m
  | ok row =>
      rw [finalState_bind_ok (query_ok (s := m) hrow)]
      simp only [MemoryOp.lookups, hrow]
      exact paces_bind (paces_allocateWithoutGc newSize row.tag m) fun _ => follows_moveContents _ _ _ _

/-- A sized allocation, which is refused beyond a word. -/
lemma paces_sized {α : Type} (size : Nat) (kind : Kind) (roots : List Object) {f : Nat → MemoryM α}
    (hf : ∀ id, Follows (Paces []) (f id)) (m : Memory) :
    Paces (MemoryOp.lookups.sized m size kind roots) m (finalState (do
      if wordBound ≤ size then throw .limitCheck
      let id ← allocate size (Tag.ofKind kind) roots
      f id) m) := by
  rw [MemoryOp.lookups.sized]
  split
  · next hsize =>
    rw [if_neg (Nat.not_le_of_lt hsize)]
    exact paces_bind (paces_allocate size _ roots m) hf
  · next hsize =>
    rw [if_pos (Nat.le_of_not_lt hsize)]
    exact paces_refl m

lemma paces_newElements (kind : Kind) (ty : ObjectType) (width length : Nat) (roots : List Object)
    (m : Memory) : Paces (MemoryOp.lookups.sized m (length * width) kind roots) m
      (finalState (newElements kind ty width length roots) m) :=
  paces_sized _ _ roots (fun _ => .bind .get fun _ => .pure _) m

/-- A procedure of too many elements for a word is refused before the size of its storage is. -/
lemma paces_newProc (elements roots : List Object) (m : Memory) :
    Paces (MemoryOp.lookups.sized m (elements.length * objectSize) .array roots) m
      (finalState (newProc elements roots) m) := by
  rw [newProc]
  split
  · next hlength =>
    rw [MemoryOp.lookups.sized, if_neg (by simp only [objectSize]; omega)]
    exact paces_refl m
  · exact paces_bind (paces_newElements _ _ _ _ roots m) fun _ =>
      .bind (follows_putElements _ _ _) fun _ => .pure _

/-- **What an operation counts is what its searches answer.** -/
lemma paces_after (m : Memory) (op : MemoryOp) : Paces (op.lookups m) m (m.after op) := by
  rw [after]
  cases op with
  | firstFit size tag =>
      rw [MemoryOp.perform, finalState_discard]
      exact paces_of_ends (ends_firstFit size tag m)
  | allocate size tag roots =>
      rw [MemoryOp.perform, finalState_discard]
      exact paces_allocate size tag roots m
  | allocateWithoutGc size tag =>
      rw [MemoryOp.perform, finalState_discard]
      exact paces_allocateWithoutGc size tag m
  | realloc id size roots =>
      rw [MemoryOp.perform, finalState_discard]
      exact paces_realloc id size roots m
  | reallocWithoutGc id size =>
      rw [MemoryOp.perform, finalState_discard]
      exact paces_reallocWithoutGc id size m
  | newString bytes roots =>
      rw [MemoryOp.perform, finalState_discard, newString, newStringOf]
      exact paces_sized _ _ roots (fun id => .bind (follows_put _ _ _) fun _ => .bind .get fun _ => .pure _) m
  | newArray length roots =>
      rw [MemoryOp.perform, finalState_discard]
      exact paces_newElements _ _ _ length roots m
  | newDict capacity roots =>
      rw [MemoryOp.perform, finalState_discard]
      exact paces_newElements _ _ _ capacity roots m
  | newProc elements roots =>
      rw [MemoryOp.perform, finalState_discard]
      exact paces_newProc elements roots m
  | newFile handle writable roots =>
      rw [MemoryOp.perform, finalState_discard, newFile]
      refine paces_bind (paces_allocate 8 _ roots m) fun id => .bind (fun n => ?_) fun _ => ?_
      · exact IgnoresStorage.storage n n.rows n.arena n.saves (n.resources.insert handle).2
      · exact .bind (follows_put _ _ _) fun _ => .bind .get fun _ => .pure _
  | useCollector collector => exact ⟨rfl, fun _ h => ⟨h.sum, h.left⟩⟩
  | useSearch policy honest => exact ⟨rfl, fun _ h => ⟨h.sum, h.left⟩⟩
  | _ => exact Ends.finalState (follows_steady (R := Paces []) rfl m)

lemma paces_afterAll (m : Memory) (ops : List MemoryOp) : Paces (m.lookupsAll ops) m (m.afterAll ops) := by
  induction ops generalizing m with
  | nil => exact paces_refl m
  | cons op rest ih => exact (paces_after m op).append (ih (m.after op))

/-! ## First fit -/

/-- The countdown after a miss says whether it was the last one of a period. -/
lemma countMiss_run {misses : Nat} (h : m.Paced misses) :
    ∃ n, countMiss m = .ok (if m.gcPeriod ≤ misses + 1 then .needsCollection else .miss) n ∧
      n = { m with gcCountdown := n.gcCountdown } := by
  have hsum := h.sum
  rcases Nat.lt_or_ge 1 m.gcCountdown with hcount | hcount
  · rw [if_neg (by omega)]
    exact ⟨_, countMiss_between hcount, rfl⟩
  · rw [if_pos (by omega)]
    exact ⟨_, countMiss_due hcount, rfl⟩

/-- Searches of a memory whose free list is `ids`, after as many misses since the last hit or request.  The
first entity that is large enough is handed out, and the others stay listed in their order; without one
the search is a miss, or a request if it is the last miss of a period. -/
structure FitsFirst (m : Memory) (ids : List Nat) (period misses : Nat) : Prop where
  hit : ∀ (size wanted id : Nat) (tag : Tag) (before after : List Nat),
    alignUp size arenaAlign = some wanted → ids = before ++ id :: after →
    (∀ j ∈ before, ¬ m.HasRoom wanted j) → m.HasRoom wanted id →
    ∃ n, firstFit size tag m = .ok (.reused id) n ∧ n.freeEntities = .ok (before ++ after) ∧
      Refits m n id tag ∧
      (m.policy = .firstFit → allocateWithoutGc size tag m = .ok id n ∧
        ∀ roots, allocate size tag roots m = .ok id n)
  miss : ∀ (size wanted : Nat) (tag : Tag), alignUp size arenaAlign = some wanted →
    (∀ id ∈ ids, ¬ m.HasRoom wanted id) →
    ∃ n, firstFit size tag m = .ok (if period ≤ misses + 1 then .needsCollection else .miss) n ∧
      n = { m with gcCountdown := n.gcCountdown } ∧ n.freeEntities = .ok ids

lemma Lists.fitsFirst {ids : List Nat} (h : Lists m ids) (hs : Sound m) {misses : Nat}
    (hpaced : m.Paced misses) : FitsFirst m ids m.gcPeriod misses where
  hit := by
    rintro size wanted id tag before after halign rfl hbefore hid
    obtain ⟨n, hrun, hn, hlists, hrefits⟩ := firstFit_hit hs h halign hbefore hid tag
    exact ⟨n, hrun, hlists.freeEntities hn, hrefits, fun hpolicy => allocate_hit hpolicy hrun⟩
  miss := by
    intro size wanted tag halign hnone
    obtain ⟨n, hrun, hn⟩ := countMiss_run hpaced
    refine ⟨n, ((h.unserved hs hnone).firstFit_run hs halign tag).trans hrun, hn, ?_⟩
    rw [hn]
    have hsound := sound_countdown hs n.gcCountdown
    exact (h.congr hs hsound rfl fun _ _ => rfl).freeEntities hsound

lemma paced_of_withBacking {bank : Bank} {backing : Backing} {settings : Settings}
    (h : withBacking bank backing settings = .ok m) : m.gcPeriod = settings.gcPeriod ∧ m.Paced 0 := by
  rw [withBacking] at h
  split at h
  · obtain rfl := Except.ok.inj h
    exact ⟨rfl, rfl, id⟩
  · contradiction

/-- **First fit is exact, and paces collections.**  Every run that hands out nothing as free and writes into no
free entity leaves a free list without repetitions.  Whenever a run leaves one, a search takes the first
listed entity that is large enough, and asks for a collection with exactly every last miss of a period. -/
theorem first_fit_exact {bank : Bank} {backing : Backing} {settings : Settings} {start : Memory}
    (hstart : withBacking bank backing settings = .ok start) (ops : List MemoryOp) :
    (start.respectsAll ops = true → (start.afterAll ops).entityCount ≤ wordBound →
      ∃ ids, (start.afterAll ops).freeEntities = .ok ids ∧ ids.Nodup) ∧
    (∀ ids, (start.afterAll ops).freeEntities = .ok ids → ids.Nodup →
      FitsFirst (start.afterAll ops) ids settings.gcPeriod ((start.lookupsAll ops).foldl tally 0)) ∧
    (0 < settings.gcPeriod → (start.lookupsAll ops).foldl tally 0 < settings.gcPeriod) := by
  have hs := sound_afterAll (sound_of_withBacking hstart) ops
  obtain ⟨hperiod, hfresh⟩ := paced_of_withBacking hstart
  have hpaces := paces_afterAll start ops
  have hpaced := hpaces.paced 0 hfresh
  rw [← hperiod, ← hpaces.period]
  refine ⟨fun hops hwords => ?_, fun ids hids hnodup => ?_, fun hpos => ?_⟩
  · obtain ⟨ids, hids⟩ := ((layered_of_withBacking hstart).afterAll hops).orderly.listed hwords
    exact ⟨ids, hids.threads.freeEntities hs, hids.threads.nodup⟩
  · exact (lists_of_freeEntities hs hids hnodup).fitsFirst hs hpaced
  · have hsum := hpaced.sum
    have hleft := hpaced.left hpos
    omega

/-- Three strings are freed and a level is opened.  Each string was a miss, and there is one more. -/
def searchingRun : List MemoryOp :=
  [.newString (List.replicate 24 1) [], .newString (List.replicate 16 2) [],
    .newString (List.replicate 8 3) [], .free 1, .free 2, .free 3, .save,
    .firstFit 32 (Tag.ofKind .string)]

/-- The second of the three listed entities is the first one of twelve bytes, and none has forty. -/
theorem first_fit_exact_searching :
    withBacking .localVM .anonymous Settings.standard = .ok freshLocal ∧
      (freshLocal.afterAll searchingRun).freeEntities = .ok [3, 2, 1] ∧
      (∃ n, firstFit 12 (Tag.ofKind .array) (freshLocal.afterAll searchingRun) = .ok (.reused 2) n ∧
        n.freeEntities = .ok [3, 1] ∧
        Refits (freshLocal.afterAll searchingRun) n 2 (Tag.ofKind .array)) ∧
      ∃ n, firstFit 40 (Tag.ofKind .array) (freshLocal.afterAll searchingRun) = .ok .miss n ∧
        n.freeEntities = .ok [3, 2, 1] := by
  have hlist : (freshLocal.afterAll searchingRun).freeEntities = .ok [3, 2, 1] := by decide +kernel
  have hmisses : (freshLocal.lookupsAll searchingRun).foldl tally 0 = 4 := by decide +kernel
  obtain ⟨-, hexact, -⟩ := first_fit_exact withBacking_freshLocal searchingRun
  have hfits := hexact [3, 2, 1] hlist (by decide)
  rw [hmisses] at hfits
  obtain ⟨n, hrun, hrest, hrefits, -⟩ := hfits.hit 12 16 2 (Tag.ofKind .array) [3] [1]
    (by decide) rfl (by decide +kernel) (by decide +kernel)
  obtain ⟨k, hmiss, -, hsame⟩ := hfits.miss 40 40 (Tag.ofKind .array) (by decide)
    (by decide +kernel)
  exact ⟨withBacking_freshLocal, hlist, ⟨n, hrun, hrest, hrefits⟩, k, hmiss, hsame⟩

/-- A string is freed, and its own id is written where the link to the next entity is. -/
def circularRun : List MemoryOp :=
  [.newString (List.replicate 8 1) [], .newString (List.replicate 8 2) [], .free 1, .put 1 0 (wordBytes 1)]

/-- Three strings are freed, so that the first one is listed first.  Its second half reads as a link to the
third one. -/
def nestingRun : List MemoryOp :=
  [.newString (List.replicate 8 0 ++ wordBytes 3 ++ wordBytes 0) [], .newString (List.replicate 8 2) [],
    .newString (List.replicate 8 3) [], .free 3, .free 2, .free 1]

/-- **What is written to free storage decides what stays listed.**  The entity whose link leads to itself is
handed out and is still listed.  And where an address is set by hand, so that the second entity lies in the
first one, the third one is lost when the first one is handed out. -/
theorem first_fit_relists_entity :
    ((freshLocal.afterAll circularRun).freeEntities = .ok [1, 1, 1] ∧
      answer? (firstFit 8 (Tag.ofKind .string)) (freshLocal.afterAll circularRun) = some (.reused 1) ∧
      (finalState (firstFit 8 (Tag.ofKind .string)) (freshLocal.afterAll circularRun)).freeEntities = .ok [1]) ∧
    (finalState (setAddress 2 8) (freshLocal.afterAll nestingRun)).freeEntities = .ok [1, 2, 3] ∧
    answer? (firstFit 16 (Tag.ofKind .string)) (finalState (setAddress 2 8) (freshLocal.afterAll nestingRun)) =
      some (.reused 1) ∧
    (finalState (firstFit 16 (Tag.ofKind .string))
      (finalState (setAddress 2 8) (freshLocal.afterAll nestingRun))).freeEntities = .ok [2] :=
  ⟨by decide +kernel, by decide +kernel⟩

end Memory

end PostScriptCore
