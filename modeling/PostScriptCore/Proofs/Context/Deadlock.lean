import PostScriptCore.Context.Scheduler
import Mathlib.Data.Fintype.Pigeonhole
import Mathlib.Logic.Relation
import Mathlib.Order.Monotone.Basic
import Mathlib.Tactic.Lemma

/-!
# Who is next, and when nobody can be

The scheduler looks for its next context by turning the queue round.  If the queue holds the active
contexts and nothing else, this finds the first one that can go on; there is none exactly if every
queued context waits on another active one, and then some of them wait on one another in a circle.

* `Scheduler.QueuesActive` — the queue holds the active contexts, each once.
* `Scheduler.CanGoOn`, `Scheduler.WaitsOn` — what a queued context is ready for.
* `Scheduler.rotate_of_canGoOn`, `Scheduler.rotate_of_stuck` — the two ways a search can end.
* `Scheduler.exists_circle` — contexts that all wait on one another contain a circle.
* `Scheduler.nextRunnable_picks_first` — the search decides all of this.
-/

namespace PostScriptCore.Scheduler

/-! ## What a context is ready for -/

/-- The context with a number still has something to do. -/
def IsActive (s : Scheduler) (id : Nat) : Prop :=
  ∃ c, s.find? id = some c ∧ (c.state = .run ∨ c.state = .wait)

/-- The context is blocked in a join of `target`. -/
def WaitsOn (s : Scheduler) (id target : Nat) : Prop :=
  ∃ c, s.find? id = some c ∧ c.state = .wait ∧ c.waitingOn = some target

/-- The context is not blocked, or what it waits on is gone or has finished. -/
def CanGoOn (s : Scheduler) (id : Nat) : Prop :=
  ∃ c, s.find? id = some c ∧ (c.state = .run ∨ c.state = .wait ∧
    ∀ target d, c.waitingOn = some target → s.find? target = some d →
      d.state = .zombie ∨ d.state = .free)

/-- The context waits on one that still has something to do. -/
def IsStuck (s : Scheduler) (id : Nat) : Prop := ∃ target, s.WaitsOn id target ∧ s.IsActive target

/-- The queue holds the numbers of the active contexts, each once. -/
structure QueuesActive (s : Scheduler) : Prop where
  nodup : s.queue.Nodup
  mem_iff : ∀ id, id ∈ s.queue ↔ s.IsActive id

/-- The numbers of the contexts that still have something to do. -/
def activeIds (s : Scheduler) : List Nat :=
  (s.contexts.filter fun c => c.state.isActive).map Context.id

variable {s : Scheduler} {id : Nat}

lemma find?_eq_some_iff (hids : (s.contexts.map Context.id).Nodup) {c : Context} :
    s.find? id = some c ↔ c ∈ s.contexts ∧ c.id = id := by
  rw [find?]
  constructor
  · intro hfind
    exact ⟨List.mem_of_find?_eq_some hfind, by simpa using List.find?_some hfind⟩
  · rintro ⟨hmem, rfl⟩
    cases hfind : s.contexts.find? fun d => d.id == c.id with
    | none => simpa using List.find?_eq_none.mp hfind c hmem
    | some d =>
        have hd : d.id = c.id := by simpa using List.find?_some hfind
        rw [List.inj_on_of_nodup_map hids (List.mem_of_find?_eq_some hfind) hmem hd]

lemma isActive_iff {c : Context} (h : s.find? id = some c) :
    s.IsActive id ↔ c.state.isActive = true := by
  constructor
  · rintro ⟨d, hd, hstate⟩
    obtain rfl : c = d := Option.some.inj (h.symm.trans hd)
    rcases hstate with hstate | hstate <;> rw [hstate] <;> rfl
  · intro hactive
    refine ⟨c, h, ?_⟩
    cases hstate : c.state <;> simp [hstate, ContextState.isActive] at hactive ⊢

/-- A context has settled exactly if it is not active. -/
lemma isSettled_iff : s.isSettled id = true ↔ ¬ s.IsActive id := by
  rw [isSettled]
  cases hfind : s.find? id with
  | none => simp [IsActive, hfind]
  | some c => simp [isActive_iff hfind]

lemma isReady_iff {c : Context} :
    s.isReady c = true ↔ ∀ target, c.waitingOn = some target → ¬ s.IsActive target := by
  rw [isReady]
  cases hwait : c.waitingOn with
  | none => simp
  | some target => simp [isSettled_iff]

/-- What is said of a target in a state is said of it being inactive. -/
lemma not_isActive_iff {target : Nat} : ¬ s.IsActive target ↔
    ∀ d, s.find? target = some d → d.state = .zombie ∨ d.state = .free := by
  constructor
  · intro hnot d hd
    cases hstate : d.state <;> simp_all [IsActive]
  · rintro h ⟨d, hd, hstate⟩
    rcases h d hd with hd' | hd' <;> simp [hd'] at hstate

lemma turnout_eq_runnable_iff : s.turnout id = .runnable ↔ s.CanGoOn id := by
  rw [turnout]
  cases hfind : s.find? id with
  | none => simp [CanGoOn, hfind]
  | some c =>
      have hready : s.isReady c = true ↔ ∀ target d, c.waitingOn = some target →
          s.find? target = some d → d.state = .zombie ∨ d.state = .free := by
        simp only [isReady_iff, not_isActive_iff]
        exact ⟨fun h target d hwait hd => h target hwait d hd,
          fun h target hwait d hd => h target d hwait hd⟩
      cases hstate : c.state <;> simp [CanGoOn, hfind, hstate, ← hready]

lemma turnout_eq_blocked_iff : s.turnout id = .blocked ↔ s.IsStuck id := by
  rw [turnout]
  cases hfind : s.find? id with
  | none => simp [IsStuck, WaitsOn, hfind]
  | some c =>
      have hready : s.isReady c = false ↔ ∃ target, c.waitingOn = some target ∧ s.IsActive target := by
        rw [← Bool.not_eq_true, isReady_iff]
        simp only [not_forall, not_not, exists_prop]
      cases hstate : c.state <;> simp [IsStuck, WaitsOn, hfind, hstate, hready]

lemma IsStuck.not_canGoOn (h : s.IsStuck id) : ¬ s.CanGoOn id := by
  intro hgo
  have hrun := turnout_eq_runnable_iff.mpr hgo
  rw [turnout_eq_blocked_iff.mpr h] at hrun
  contradiction

/-- An active context can go on unless it is stuck. -/
lemma IsActive.canGoOn_or_isStuck (h : s.IsActive id) : s.CanGoOn id ∨ s.IsStuck id := by
  rw [← turnout_eq_runnable_iff, ← turnout_eq_blocked_iff]
  obtain ⟨c, hfind, hstate⟩ := h
  rw [turnout, hfind]
  rcases hstate with hstate | hstate
  · simp [hstate]
  · cases hready : s.isReady c <;> simp [hstate, hready]

lemma mem_activeIds (hids : (s.contexts.map Context.id).Nodup) :
    id ∈ s.activeIds ↔ s.IsActive id := by
  simp only [activeIds, List.mem_map, List.mem_filter]
  constructor
  · rintro ⟨c, ⟨hmem, hactive⟩, hid⟩
    exact (isActive_iff ((find?_eq_some_iff hids).mpr ⟨hmem, hid⟩)).mpr hactive
  · rintro ⟨c, hfind, hstate⟩
    obtain ⟨hmem, hid⟩ := (find?_eq_some_iff hids).mp hfind
    exact ⟨c, ⟨hmem, (isActive_iff hfind).mp ⟨c, hfind, hstate⟩⟩, hid⟩

/-- The queue is the active contexts in some order. -/
lemma queuesActive_iff_perm (hids : (s.contexts.map Context.id).Nodup) :
    s.QueuesActive ↔ s.queue.Perm s.activeIds := by
  have hnodup : s.activeIds.Nodup := hids.sublist (List.filter_sublist.map _)
  constructor
  · intro h
    rw [List.perm_ext_iff_of_nodup h.nodup hnodup]
    intro id
    rw [h.mem_iff, mem_activeIds hids]
  · intro h
    refine ⟨h.nodup_iff.mpr hnodup, fun id => ?_⟩
    rw [h.mem_iff, mem_activeIds hids]

/-! ## Turning the queue -/

/-- Stuck contexts are turned to the back until one is met that can go on.  The count stays below
the length of the queue, so the search does not give up before. -/
lemma rotate_of_canGoOn (hid : s.CanGoOn id) (skipped : List Nat)
    (hskipped : ∀ other ∈ skipped, s.IsStuck other) (rest : List Nat) (blocked : Nat)
    (hblocked : blocked ≤ rest.length) :
    s.rotate (skipped ++ id :: rest) blocked = (.ok (some id), rest ++ skipped) := by
  induction skipped generalizing rest blocked with
  | nil => simp [rotate, turnout_eq_runnable_iff.mpr hid]
  | cons first skipped ih =>
      have hfirst := turnout_eq_blocked_iff.mpr (hskipped first (List.mem_cons_self ..))
      have hroom : ¬ (skipped ++ id :: rest).length < blocked := by simp; omega
      rw [List.cons_append, rotate, hfirst]
      simp only [hroom, if_false]
      rw [List.append_assoc, List.cons_append,
        ih (fun other h => hskipped other (List.mem_cons_of_mem _ h)) (rest ++ [first]) (blocked + 1)
          (by simp; omega),
        List.append_assoc, List.singleton_append]

/-- If all are stuck, the search ends one past a full turn. -/
lemma rotate_of_stuck (queue : List Nat) (hne : queue ≠ []) (h : ∀ id ∈ queue, s.IsStuck id)
    (blocked : Nat) (hblocked : blocked ≤ queue.length) :
    ∃ turned, s.rotate queue blocked = (.error .invalidContext, turned) ∧ turned.Perm queue := by
  induction hleft : queue.length - blocked generalizing queue blocked with
  | zero =>
      obtain ⟨first, rest, rfl⟩ := List.exists_cons_of_ne_nil hne
      have hfirst := turnout_eq_blocked_iff.mpr (h first (List.mem_cons_self ..))
      have hover : rest.length < blocked := by simp at hleft; omega
      exact ⟨rest ++ [first], by simp [rotate, hfirst, hover], List.perm_append_singleton ..⟩
  | succ left ih =>
      obtain ⟨first, rest, rfl⟩ := List.exists_cons_of_ne_nil hne
      have hfirst := turnout_eq_blocked_iff.mpr (h first (List.mem_cons_self ..))
      have hroom : ¬ rest.length < blocked := by simp at hleft; omega
      have hperm : (rest ++ [first]).Perm (first :: rest) := List.perm_append_singleton ..
      obtain ⟨turned, hrun, hturned⟩ := ih (rest ++ [first]) (by simp)
        (fun id hid => h id (hperm.mem_iff.mp hid)) (blocked + 1) (by simp; omega)
        (by simp at hleft ⊢; omega)
      refine ⟨turned, ?_, hturned.trans hperm⟩
      rw [rotate, hfirst]
      simp only [hroom, if_false]
      exact hrun

/-! ## Circles -/

/-- One queued context waits on another. -/
def WaitsInQueue (s : Scheduler) (id target : Nat) : Prop :=
  id ∈ s.queue ∧ target ∈ s.queue ∧ s.WaitsOn id target

/-- **Contexts that all wait on queued contexts contain a circle.**  Going from each context to the
one it waits on never leaves the queue, so some context is met twice. -/
lemma exists_circle (hne : s.queue ≠ [])
    (h : ∀ id ∈ s.queue, ∃ target ∈ s.queue, s.WaitsOn id target) :
    ∃ id, Relation.TransGen s.WaitsInQueue id id := by
  choose next hmem hwaits using h
  let step : { id // id ∈ s.queue } → { id // id ∈ s.queue } := fun x =>
    ⟨next x.1 x.2, hmem x.1 x.2⟩
  obtain ⟨first, hfirst⟩ := List.exists_mem_of_ne_nil _ hne
  let walk : Nat → { id // id ∈ s.queue } := fun n => step^[n] ⟨first, hfirst⟩
  have hstep : ∀ n, Relation.TransGen s.WaitsInQueue (walk n).1 (walk (n + 1)).1 := by
    intro n
    refine .single ⟨(walk n).2, (walk (n + 1)).2, ?_⟩
    simp only [walk, Function.iterate_succ_apply']
    exact hwaits _ _
  have hwalk : ∀ {m n : Nat}, m < n →
      Relation.TransGen s.WaitsInQueue (walk m).1 (walk n).1 := fun hlt =>
    Nat.rel_of_forall_rel_succ_of_lt (fun a b : { id // id ∈ s.queue } =>
      Relation.TransGen s.WaitsInQueue a.1 b.1) hstep hlt
  obtain ⟨m, n, hne', hmeet⟩ := Finite.exists_ne_map_eq_of_infinite walk
  rcases Nat.lt_or_gt_of_ne hne' with hlt | hlt
  · refine ⟨(walk m).1, ?_⟩
    have hround := hwalk hlt
    rwa [← hmeet] at hround
  · refine ⟨(walk n).1, ?_⟩
    have hround := hwalk hlt
    rwa [hmeet] at hround

/-! ## The whole search -/

/-- What the search for the next context answers, and what it does to the queue. -/
structure PicksFirst (s : Scheduler) : Prop where
  runnable_iff : (∃ id t, nextRunnable s = .ok (some id) t) ↔ ∃ id ∈ s.queue, s.CanGoOn id
  /-- The first that can go on is taken off, and those before it are now at the back. -/
  first : ∀ id t, nextRunnable s = .ok (some id) t →
    ∃ skipped rest, s.queue = skipped ++ id :: rest ∧ s.CanGoOn id ∧
      (∀ other ∈ skipped, ¬ s.CanGoOn other) ∧ t = { s with queue := rest ++ skipped }
  idle_iff : (∃ t, nextRunnable s = .ok none t) ↔ s.queue = []
  deadlock_iff : (∃ t, nextRunnable s = .error .invalidContext t) ↔
    s.queue ≠ [] ∧ ∀ id ∈ s.queue, s.IsStuck id
  /-- The only fault is a deadlock: some contexts wait in a circle, and all stay queued. -/
  deadlock : ∀ fault t, nextRunnable s = .error fault t → fault = .invalidContext ∧
    (∃ id, Relation.TransGen s.WaitsInQueue id id) ∧
    t.queue.Perm s.queue ∧ t = { s with queue := t.queue }

/-- A search that meets a context that can go on. -/
lemma nextRunnable_of_canGoOn {skipped rest : List Nat} (hqueue : s.queue = skipped ++ id :: rest)
    (hid : s.CanGoOn id) (hskipped : ∀ other ∈ skipped, s.IsStuck other) :
    nextRunnable s = .ok (some id) { s with queue := rest ++ skipped } := by
  rw [nextRunnable, hqueue, rotate_of_canGoOn hid skipped hskipped rest 0 (Nat.zero_le _)]

/-- A search in an empty queue. -/
lemma nextRunnable_of_nil (hqueue : s.queue = []) : nextRunnable s = .ok none s := by
  rw [nextRunnable, hqueue]
  simp only [rotate]
  rw [← hqueue]

/-- A search among stuck contexts. -/
lemma nextRunnable_of_stuck (hne : s.queue ≠ []) (h : ∀ id ∈ s.queue, s.IsStuck id) :
    ∃ turned, nextRunnable s = .error .invalidContext { s with queue := turned } ∧
      turned.Perm s.queue := by
  obtain ⟨turned, hrun, hperm⟩ := rotate_of_stuck s.queue hne h 0 (Nat.zero_le _)
  exact ⟨turned, by rw [nextRunnable, hrun], hperm⟩

/-- A queue of active contexts is empty, or has a first one that can go on, or all are stuck. -/
lemma QueuesActive.cases (h : s.QueuesActive) :
    s.queue = [] ∨
    (∃ skipped id rest, s.queue = skipped ++ id :: rest ∧ s.CanGoOn id ∧
      ∀ other ∈ skipped, s.IsStuck other) ∨
    (s.queue ≠ [] ∧ ∀ id ∈ s.queue, s.IsStuck id) := by
  have hactive : ∀ id ∈ s.queue, s.IsActive id := fun id hid => (h.mem_iff id).mp hid
  cases hfirst : s.queue.find? (fun id => s.turnout id == .runnable) with
  | some id =>
      obtain ⟨hid, skipped, rest, hqueue, hskipped⟩ := List.find?_eq_some_iff_append.mp hfirst
      refine .inr (.inl ⟨skipped, id, rest, hqueue, ?_, fun other hother => ?_⟩)
      · exact turnout_eq_runnable_iff.mp (beq_iff_eq.mp hid)
      · have hnot : ¬ s.CanGoOn other := by
          rw [← turnout_eq_runnable_iff]
          simpa using hskipped other hother
        have hmem : other ∈ s.queue := by
          rw [hqueue]
          exact List.mem_append_left _ hother
        exact (hactive other hmem).canGoOn_or_isStuck.resolve_left hnot
  | none =>
      by_cases hne : s.queue = []
      · exact .inl hne
      · refine .inr (.inr ⟨hne, fun id hid => ?_⟩)
        have hnot : ¬ s.CanGoOn id := by
          rw [← turnout_eq_runnable_iff]
          simpa using List.find?_eq_none.mp hfirst id hid
        exact (hactive id hid).canGoOn_or_isStuck.resolve_left hnot

/-- **The search for the next context is exact.**  It ends for every queue; over a queue of the active
contexts it answers the first one that can go on, nothing exactly if the queue is empty, and a
deadlock exactly if every queued context waits on an active one. -/
theorem nextRunnable_picks_first (h : s.QueuesActive) : s.PicksFirst := by
  rcases h.cases with hnil | ⟨skipped, id, rest, hqueue, hid, hskipped⟩ | ⟨hne, hstuck⟩
  · have hrun := nextRunnable_of_nil hnil
    constructor <;> simp [hrun, hnil]
  · have hrun := nextRunnable_of_canGoOn hqueue hid hskipped
    have hmem : id ∈ s.queue := by simp [hqueue]
    refine ⟨?_, ?_, ?_, ?_, ?_⟩
    · exact ⟨fun _ => ⟨id, hmem, hid⟩, fun _ => ⟨id, _, hrun⟩⟩
    · intro found t hfound
      rw [hrun] at hfound
      injection hfound with hid' ht
      obtain rfl := Option.some.inj hid'
      exact ⟨skipped, rest, hqueue, hid, fun other hother => (hskipped other hother).not_canGoOn,
        ht.symm⟩
    · simp [hrun, hqueue]
    · refine ⟨fun ⟨t, hfound⟩ => ?_, fun ⟨_, hall⟩ => absurd hid (hall id hmem).not_canGoOn⟩
      rw [hrun] at hfound
      exact nomatch hfound
    · intro fault t hfound
      rw [hrun] at hfound
      exact nomatch hfound
  · obtain ⟨turned, hrun, hperm⟩ := nextRunnable_of_stuck hne hstuck
    have hcircle : ∃ id, Relation.TransGen s.WaitsInQueue id id := by
      refine exists_circle hne fun id hid => ?_
      obtain ⟨target, hwaits, hactive⟩ := hstuck id hid
      exact ⟨target, (h.mem_iff target).mpr hactive, hwaits⟩
    refine ⟨?_, ?_, ?_, ?_, ?_⟩
    · refine ⟨fun ⟨id, t, hfound⟩ => ?_, fun ⟨id, hid, hgo⟩ => absurd hgo (hstuck id hid).not_canGoOn⟩
      rw [hrun] at hfound
      exact nomatch hfound
    · intro id t hfound
      rw [hrun] at hfound
      exact nomatch hfound
    · simp [hrun, hne]
    · exact ⟨fun _ => ⟨hne, hstuck⟩, fun _ => ⟨_, hrun⟩⟩
    · intro fault t hfound
      rw [hrun] at hfound
      injection hfound with hfault ht
      subst ht
      exact ⟨hfault.symm, hcircle, hperm, rfl⟩

/-! ## Two contexts that wait on each other, and two that wait on a third -/

/-- A blocked context. -/
def waiting (id target : Nat) : Context :=
  { Context.vacant with id, state := .wait, waitingOn := some target }

/-- Two contexts that join each other. -/
def mutualJoins : Scheduler := ⟨[waiting 1 2, waiting 2 1], [2, 1], 3⟩

/-- A context that can run behind two that wait on it, one through the other. -/
def chainOfJoins : Scheduler :=
  ⟨[waiting 1 2, waiting 2 3, { waiting 3 1 with state := .run }], [1, 2, 3], 4⟩

theorem nextRunnable_picks_first_circle_and_chain :
    (mutualJoins.QueuesActive ∧ (∃ t, nextRunnable mutualJoins = .error .invalidContext t) ∧
      ∃ id, Relation.TransGen mutualJoins.WaitsInQueue id id) ∧
    chainOfJoins.QueuesActive ∧
      nextRunnable chainOfJoins = .ok (some 3) { chainOfJoins with queue := [1, 2] } := by
  have hmutual : mutualJoins.QueuesActive := (queuesActive_iff_perm (by decide)).mpr (by decide)
  have hchain : chainOfJoins.QueuesActive := (queuesActive_iff_perm (by decide)).mpr (by decide)
  have hpick := nextRunnable_picks_first hmutual
  have hstuck : ∀ id ∈ mutualJoins.queue, mutualJoins.IsStuck id := by
    intro id hid
    rcases List.mem_pair.mp hid with rfl | rfl
    · exact ⟨1, ⟨_, rfl, rfl, rfl⟩, _, rfl, .inr rfl⟩
    · exact ⟨2, ⟨_, rfl, rfl, rfl⟩, _, rfl, .inr rfl⟩
  obtain ⟨t, hdead⟩ := hpick.deadlock_iff.mpr ⟨by decide, hstuck⟩
  refine ⟨⟨hmutual, ⟨t, hdead⟩, (hpick.deadlock _ t hdead).2.1⟩, hchain, ?_⟩
  have hlast : chainOfJoins.CanGoOn 3 := ⟨_, rfl, .inl rfl⟩
  have hfirst : chainOfJoins.IsStuck 1 := ⟨2, ⟨_, rfl, rfl, rfl⟩, _, rfl, .inr rfl⟩
  have hsecond : chainOfJoins.IsStuck 2 := ⟨3, ⟨_, rfl, rfl, rfl⟩, _, rfl, .inl rfl⟩
  obtain ⟨id, t, hrun⟩ := (nextRunnable_picks_first hchain).runnable_iff.mpr ⟨3, by decide, hlast⟩
  obtain ⟨skipped, rest, hqueue, hid, -, rfl⟩ := (nextRunnable_picks_first hchain).first id t hrun
  simp only [chainOfJoins, List.cons_eq_append_iff, List.cons.injEq, List.nil_eq] at hqueue
  rcases hqueue with ⟨-, rfl, -⟩ | ⟨_, rfl, ⟨-, rfl, -⟩ | ⟨_, rfl, ⟨rfl, rfl, rfl⟩ | ⟨_, -, hlong⟩⟩⟩
  · exact absurd hid hfirst.not_canGoOn
  · exact absurd hid hsecond.not_canGoOn
  · exact hrun
  · simp at hlong

end PostScriptCore.Scheduler
