import PostScriptCore.Machine.Schedule
import PostScriptCore.Proofs.Machine.Effect
import PostScriptCore.Proofs.Stack

/-!
# Turns keep the registry

A turn is one effect after the other, between taking a context out of the registry and putting it
back.  What every effect keeps, every turn keeps, and so every sequence of calls.

* `Session.Evolves`, `Session.evolves_runTurn` — a turn is a sequence of effects.
* `Scheduler.Hosts` — the invariant while a context is out of the registry.
* `Context.Undisturbed` — what the turns of others do to an active context.
* `World.nextSession?`, `Session.endTurn`, `World.nextSession?_cases` — a turn from its beginning to
  its end.
* `World.Call`, `World.registry_between_turns` — any calls, over any programs.
-/

namespace PostScriptCore

/-! ## A turn as a sequence of effects -/

namespace Session

variable {ν : Type}

/-- One effect after the other. -/
def Evolves : Session ν → Session ν → Prop := Relation.ReflTransGen Affects

lemma quiet_of_nextObject? {s t : Session ν} {obj : Object} (h : s.nextObject? = some (obj, t)) :
    Quiet s t := by
  rw [nextObject?] at h
  split at h
  · contradiction
  · cases h
    exact ⟨⟨rfl, rfl, rfl, .refl _⟩, rfl, rfl⟩

lemma affects_fail (fault : Fault) (s : Session ν) : Affects s (s.fail fault) := by
  refine ⟨⟨rfl, rfl, rfl, .refl _⟩, .ended _ ?_⟩
  simp only [fail]
  split_ifs <;> rfl

/-- **A turn is one effect after the other.** -/
lemma evolves_runTurn (budget : Nat) {s : Session Builtin} (hrun : s.context.state = .run) :
    Evolves s (runTurn budget s).2 := by
  induction budget generalizing s with
  | zero => exact .refl
  | succ budget ih =>
      rw [runTurn]
      cases hnext : s.nextObject? with
      | none => exact .refl
      | some next =>
          obtain ⟨obj, t⟩ := next
          have hquiet := quiet_of_nextObject? hnext
          have hends := acts_execute obj (hquiet.running hrun)
          rw [Ends] at hends
          dsimp only
          cases hresult : execute obj t with
          | ok a u =>
              rw [hresult] at hends
              exact .head (hquiet.then_affects hends.1) (ih hends.2)
          | error fault u =>
              rw [hresult] at hends
              dsimp only
              split_ifs
              · exact .single (hquiet.then_affects hends)
              · exact .head (hquiet.then_affects hends) (.single (affects_fail fault u))

end Session

/-! ## The registry without the running context -/

namespace Scheduler

variable {system : SystemOperators} {s t : Scheduler} {me me' : Standing} {c : Context} {id : Nat}

/-- The registry is in order, and the running context is not in it. -/
structure Hosts (s : Scheduler) (me : Standing) : Prop where
  registered : s.Registered
  absent : s.find? me.id = none
  id_lt : me.id < s.nextId
  waits : me.state = .wait → ∃ target, me.waitingOn = some target

lemma Hosts.ne_of_find? (h : s.Hosts me) (hfind : s.find? id = some c) : me.id ≠ id := by
  rintro rfl
  rw [h.absent] at hfind
  contradiction

lemma Effect.id_eq (h : Effect system s me t me') : me'.id = me.id := by
  cases h <;> rfl

/-- **An effect keeps the registry in order.** -/
lemma Hosts.effect (h : s.Hosts me) (heffect : Effect system s me t me') : t.Hosts me' := by
  cases heffect with
  | quiet => exact h
  | numbered => exact ⟨h.registered.allocated, h.absent, Nat.lt_succ_of_lt h.id_lt, h.waits⟩
  | forked child hid hstate =>
      have hne : me.id ≠ child.id := by
        rw [hid]
        exact Nat.ne_of_lt h.id_lt
      refine ⟨h.registered.adopted hid hstate, ?_, Nat.lt_succ_of_lt h.id_lt, h.waits⟩
      rw [find?_adopt, if_neg hne]
      exact h.absent
  | blocked target => exact ⟨h.registered, h.absent, h.id_lt, fun _ => ⟨target, rfl⟩⟩
  | joined target hfind hzombie hrun =>
      have hne := h.ne_of_find? hfind
      refine ⟨h.registered.updated hfind rfl ?_ nofun, ?_, h.id_lt, fun hwait => ?_⟩
      · rw [hzombie]
        rfl
      · rw [find?_update (f := Context.released) fun _ hc => hc, if_neg hne]
        exact h.absent
      · rw [hrun] at hwait
        contradiction
  | detached target c hfind hdetached =>
      obtain ⟨hfree, hid, hwaits, hstate⟩ := Action.standing_detached hdetached
      have hne := h.ne_of_find? hfind
      refine ⟨h.registered.updated hfind hid ?_ fun hwait => ?_, ?_, h.id_lt, h.waits⟩
      · rw [hstate]
        split_ifs with hzombie
        · rw [hzombie]
          rfl
        · rfl
      · rw [hwaits]
        refine h.registered.waits target (mem_of_find? hfind) ?_
        rw [hstate] at hwait
        split_ifs at hwait
        exact hwait
      · rw [find?_update fun _ _ => hid, if_neg hne]
        exact h.absent
  | ended state hstate =>
      refine ⟨h.registered, h.absent, h.id_lt, fun hwait => ?_⟩
      rw [show state = .wait from hwait] at hstate
      contradiction

/-- An effect uses only the next number. -/
lemma Effect.renumbered (h : Effect system s me t me') :
    Renumbered s.nextId (me.id :: s.ids) t.nextId (me'.id :: t.ids) := by
  cases h with
  | quiet => exact .refl _ _
  | numbered => exact ⟨Nat.le_succ _, fun _ hid => .inl hid⟩
  | forked child hid hstate =>
      refine ⟨Nat.le_succ _, fun j hj => ?_⟩
      rcases List.mem_cons.mp hj with rfl | hj
      · exact .inl (List.mem_cons_self ..)
      · rcases mem_ids_insert (s := s.allocateId.2) hj with rfl | hj
        · exact .inr hid.ge
        · exact .inl (List.mem_cons_of_mem _ hj)
  | blocked target => exact .refl _ _
  | joined target hfind hzombie hrun =>
      rw [ids_update (f := Context.released) fun _ hc => hc]
      exact .refl _ _
  | detached target c hfind hdetached =>
      rw [ids_update fun _ _ => (Action.standing_detached hdetached).2.1]
      exact .refl _ _
  | ended state hstate => exact .refl _ _

end Scheduler

/-! ## Contexts that wait their turn -/

/-- What the turns of others do to an active context: at most, the operator at the bottom of its
execution stack is exchanged for the one of a detached context. -/
structure Context.Undisturbed (system : SystemOperators) (c c' : Context) : Prop where
  same : c' = { c with stackSet := { c.stackSet with exec := c'.stackSet.exec } }
  exec : c.stackSet.exec.WellFormed → c'.stackSet.exec.WellFormed ∧
    (c'.stackSet.exec.toList = c.stackSet.exec.toList ∨
      ∃ above, c.stackSet.exec.toList = Object.operator system.zombie :: above ∧
        c'.stackSet.exec.toList = Object.operator system.free :: above)

namespace Context.Undisturbed

variable {system : SystemOperators} {c c' c'' : Context}

lemma refl (c : Context) : c.Undisturbed system c := ⟨rfl, fun h => ⟨h, .inl rfl⟩⟩

lemma state (h : c.Undisturbed system c') : c'.state = c.state := by
  rw [h.same]

lemma trans (h : c.Undisturbed system c') (h' : c'.Undisturbed system c'') :
    c.Undisturbed system c'' := by
  refine ⟨?_, fun hexec => ?_⟩
  · rw [h'.same, h.same]
  · obtain ⟨hexec', hlist⟩ := h.exec hexec
    obtain ⟨hexec'', hlist'⟩ := h'.exec hexec'
    refine ⟨hexec'', ?_⟩
    rcases hlist with hlist | ⟨above, hbefore, hafter⟩
    · rwa [hlist] at hlist'
    · rcases hlist' with hlist' | ⟨above', hbefore', hafter'⟩
      · exact .inr ⟨above, hbefore, hlist'.trans hafter⟩
      · -- the exchanged operator is exchanged again only if both are the same
        obtain ⟨-, rfl⟩ := List.cons.inj (hafter.symm.trans hbefore')
        exact .inr ⟨above, hbefore, hafter'⟩

/-- Detaching an active context. -/
lemma of_detached (h : Action.detached system c = .ok c') (hactive : c.state.isActive = true) :
    c.Undisturbed system c' := by
  obtain ⟨hbottom, exec, hreplace, rfl⟩ := Action.detached_active h hactive
  refine ⟨rfl, fun hexec => ?_⟩
  rw [Stack.fromBottom?_eq_getElem?] at hbottom
  obtain ⟨above, habove⟩ : ∃ above, c.stackSet.exec.toList =
      Object.operator system.zombie :: above := by
    cases hlist : c.stackSet.exec.toList with
    | nil => simp [hlist] at hbottom
    | cons bottom above =>
        rw [hlist, List.getElem?_cons_zero] at hbottom
        exact ⟨above, by rw [Option.some.inj hbottom]⟩
  have hcount : 0 < c.stackSet.exec.count := by
    rw [← Stack.length_toList, habove]
    exact Nat.succ_pos _
  obtain ⟨exec', hreplace', hexec', hlist'⟩ := Stack.replaceFromBottom_run hexec hcount
    (Object.operator system.free)
  obtain rfl : exec = exec' := by
    rw [hreplace'] at hreplace
    cases hreplace
    rfl
  refine ⟨hexec', .inr ⟨above, habove, ?_⟩⟩
  rw [hlist', habove]
  rfl

end Context.Undisturbed

namespace Scheduler

variable {system : SystemOperators} {s t : Scheduler} {me me' : Standing} {c : Context} {id : Nat}

/-- **An effect of the running context leaves the active contexts alone.** -/
lemma Hosts.undisturbed (h : s.Hosts me) (heffect : Effect system s me t me')
    (hfind : s.find? id = some c) (hactive : c.state.isActive = true) :
    ∃ c', t.find? id = some c' ∧ c.Undisturbed system c' := by
  cases heffect with
  | quiet | numbered | blocked | ended => exact ⟨c, hfind, .refl c⟩
  | forked child hid hstate =>
      refine ⟨c, ?_, .refl c⟩
      have hne : id ≠ child.id := by
        rintro rfl
        rw [hid, h.registered.find?_nextId] at hfind
        contradiction
      rw [find?_adopt, if_neg hne]
      exact hfind
  | joined target hfind' hzombie hrun =>
      refine ⟨c, ?_, .refl c⟩
      have hne : id ≠ target.id := by
        rintro rfl
        rw [hfind'] at hfind
        cases hfind
        rw [hzombie] at hactive
        contradiction
      rw [find?_update (f := Context.released) fun _ hc => hc, if_neg hne]
      exact hfind
  | detached target c' hfind' hdetached =>
      have hid := (Action.standing_detached hdetached).2.1
      rw [find?_update fun _ _ => hid]
      split_ifs with heq
      · subst heq
        rw [hfind'] at hfind
        cases hfind
        exact ⟨c', by rw [hfind']; rfl, .of_detached hdetached hactive⟩
      · exact ⟨c, hfind, .refl c⟩

/-- An effect unregisters nobody. -/
lemma Effect.find?_ne_none (h : Effect system s me t me') (hfind : s.find? id ≠ none) :
    t.find? id ≠ none := by
  cases h with
  | quiet | numbered | blocked | ended => exact hfind
  | forked child hid hstate =>
      rw [find?_adopt]
      split_ifs
      · nofun
      · exact hfind
  | joined target hfind' hzombie hrun =>
      rw [← mem_ids_iff, ids_update (f := Context.released) fun _ hc => hc, mem_ids_iff]
      exact hfind
  | detached target c hfind' hdetached =>
      rw [← mem_ids_iff, ids_update fun _ _ => (Action.standing_detached hdetached).2.1, mem_ids_iff]
      exact hfind

end Scheduler

/-! ## A whole turn -/

namespace Session.Evolves

variable {ν : Type} {s t : Session ν}

lemma sameMachine (h : Evolves s t) : SameMachine s t := by
  induction h with
  | refl => exact .refl s
  | tail _ hstep ih => exact ih.trans hstep.toSameMachine

lemma id_eq (h : Evolves s t) : t.context.id = s.context.id := by
  induction h with
  | refl => rfl
  | tail _ hstep ih => exact hstep.effect.id_eq.trans ih

lemma hosts (h : Evolves s t) (hs : s.scheduler.Hosts s.context.standing) :
    t.scheduler.Hosts t.context.standing := by
  induction h with
  | refl => exact hs
  | tail _ hstep ih => exact ih.effect hstep.effect

lemma renumbered (h : Evolves s t) :
    Scheduler.Renumbered s.scheduler.nextId (s.context.id :: s.scheduler.ids)
      t.scheduler.nextId (t.context.id :: t.scheduler.ids) := by
  induction h with
  | refl => exact .refl _ _
  | tail _ hstep ih => exact ih.trans hstep.effect.renumbered

lemma find?_ne_none (h : Evolves s t) {id : Nat} (hfind : s.scheduler.find? id ≠ none) :
    t.scheduler.find? id ≠ none := by
  induction h with
  | refl => exact hfind
  | tail _ hstep ih => exact hstep.effect.find?_ne_none ih

lemma undisturbed (h : Evolves s t) (hs : s.scheduler.Hosts s.context.standing) {id : Nat}
    {c : Context} (hfind : s.scheduler.find? id = some c) (hactive : c.state.isActive = true) :
    ∃ c', t.scheduler.find? id = some c' ∧ c.Undisturbed s.system c' := by
  induction h with
  | refl => exact ⟨c, hfind, .refl c⟩
  | tail hbefore hstep ih =>
      obtain ⟨c', hfind', hc'⟩ := ih
      obtain ⟨c'', hfind'', hc''⟩ := (hosts hbefore hs).undisturbed hstep.effect hfind'
        (by rw [hc'.state]; exact hactive)
      rw [(sameMachine hbefore).system] at hc''
      exact ⟨c'', hfind'', hc'.trans hc''⟩

end Session.Evolves

/-- The registry between two turns: in order, and without free contexts. -/
structure Scheduler.Orderly (s : Scheduler) : Prop extends Registered s where
  not_free : ∀ c ∈ s.contexts, c.state ≠ .free

lemma Scheduler.orderly_empty : Scheduler.empty.Orderly :=
  ⟨registered_empty, by simp [Scheduler.empty]⟩

lemma Scheduler.Registered.orderly_reap {s : Scheduler} (h : s.Registered) : s.reap.Orderly := by
  refine ⟨h.reaped, fun c hc => ?_⟩
  simpa using (List.mem_filter.mp hc).2

namespace Session

variable {ν : Type} {s : Session ν}

/-- The running context as its turn leaves it. -/
def leftover (turn : Turn) (s : Session ν) : Context :=
  if turn = .finished then { s.context with state := .zombie } else s.context

/-- The world after a turn: the context is back in the registry, and free ones are forgotten. -/
def endTurn (turn : Turn) (s : Session ν) : World ν :=
  { s.toWorld with scheduler := (s.scheduler.enrol (s.leftover turn)).reap }

lemma id_leftover (turn : Turn) (s : Session ν) : (s.leftover turn).id = s.context.id := by
  rw [leftover]
  split_ifs <;> rfl

lemma registered_enrol_leftover (h : s.scheduler.Hosts s.context.standing) (turn : Turn) :
    (s.scheduler.enrol (s.leftover turn)).Registered := by
  have hid := id_leftover turn s
  refine h.registered.enrolled (hid ▸ h.absent) (hid ▸ h.id_lt) ?_
  rw [leftover]
  split_ifs
  · exact nofun
  · exact h.waits

lemma find?_endTurn (h : s.scheduler.Hosts s.context.standing) (turn : Turn) (id : Nat) :
    (s.endTurn turn).scheduler.find? id =
      (if id = s.context.id then some (s.leftover turn) else s.scheduler.find? id).filter
        fun c => c.state != .free := by
  rw [endTurn, Scheduler.find?_reap (registered_enrol_leftover h turn).ids_nodup,
    Scheduler.find?_enrol, id_leftover]

lemma renumbered_endTurn (turn : Turn) (s : Session ν) :
    Scheduler.Renumbered s.scheduler.nextId (s.context.id :: s.scheduler.ids)
      (s.endTurn turn).scheduler.nextId (s.endTurn turn).scheduler.ids := by
  refine ⟨(Scheduler.nextId_enrol ..).ge, fun id hid => .inl ?_⟩
  obtain ⟨c, hc, rfl⟩ := List.mem_map.mp hid
  have henrolled : c.id ∈ (s.scheduler.enrol (s.leftover turn)).ids :=
    List.mem_map_of_mem (List.mem_filter.mp hc).1
  rcases Scheduler.mem_ids_enrol henrolled with hid | hid
  · rw [hid, id_leftover]
    exact List.mem_cons_self ..
  · exact List.mem_cons_of_mem _ hid

end Session

namespace World

variable {ν : Type} {w : World ν} {s : Session ν}

/-- The session in which the next turn begins. -/
def nextSession? (w : World ν) : Option (Session ν) :=
  match Scheduler.nextRunnable w.scheduler with
  | .ok (some id) scheduler =>
    (scheduler.take? id).map fun (c, scheduler) =>
      { w with scheduler, context := { c with state := .run } }
  | _ => none

/-- A turn of the session begins in the world: a context that can go on is out of the registry, and
everything else is as it was. -/
structure Opens (w : World ν) (s : Session ν) : Prop where
  machine : s.toMachine = w.toMachine
  taken : ∃ c, w.scheduler.find? s.context.id = some c ∧ s.context = { c with state := .run } ∧
    w.scheduler.CanGoOn s.context.id
  others : ∀ id, id ≠ s.context.id → s.scheduler.find? id = w.scheduler.find? id
  hosts : s.scheduler.Hosts s.context.standing
  nextId : s.scheduler.nextId = w.scheduler.nextId

lemma Opens.running (h : w.Opens s) : s.context.state = .run := by
  obtain ⟨c, -, hcontext, -⟩ := h.taken
  rw [hcontext]

/-- The scheduler looks for a runnable context. -/
lemma search_ok {next : Option Nat} {scheduler : Scheduler}
    (h : Scheduler.nextRunnable w.scheduler = .ok next scheduler) :
    focus (fun w : World ν => w.scheduler) (fun scheduler w => { w with scheduler })
      Scheduler.empty Scheduler.nextRunnable w = .ok next { w with scheduler } := by
  simp only [focus, h]

lemma search_error {fault : Fault} {scheduler : Scheduler}
    (h : Scheduler.nextRunnable w.scheduler = .error fault scheduler) :
    focus (fun w : World ν => w.scheduler) (fun scheduler w => { w with scheduler })
      Scheduler.empty Scheduler.nextRunnable w = .error fault { w with scheduler } := by
  simp only [focus, h]

/-- A context that is taken out of the registry can begin its turn. -/
lemma opens_taken (hw : w.scheduler.Registered) {id : Nat} (hgo : w.scheduler.CanGoOn id)
    {c : Context} (hfind : w.scheduler.find? id = some c) {queue : List Nat}
    (hqueue : w.scheduler.queue.Perm (id :: queue)) :
    w.Opens { w with
      scheduler := { w.scheduler with
        queue, contexts := w.scheduler.contexts.filter fun d => d.id != id }
      context := { c with state := .run } } := by
  obtain rfl := Scheduler.id_of_find? hfind
  have hothers := Scheduler.find?_filter_id { w.scheduler with queue } c.id
  refine ⟨rfl, ⟨c, hfind, rfl, hgo⟩, fun id hid => (hothers id).trans (if_neg hid), ?_, rfl⟩
  exact ⟨hw.taken hfind hqueue, (hothers c.id).trans (if_pos rfl),
    hw.ids_lt c (Scheduler.mem_of_find? hfind), nofun⟩

/-- **The next turn**: it begins with a context that can go on and ends with that context back in
the registry, or there is none and only the queue may have turned. -/
lemma nextSession?_cases [NativeSet ν] (hw : w.scheduler.Registered) (budget : Nat) :
    (∃ s, w.nextSession? = some s ∧ w.Opens s ∧ runNext budget w =
      .ok true ((Session.runTurn budget s).2.endTurn (Session.runTurn budget s).1)) ∨
    (w.nextSession? = none ∧ ∃ queue, queue.Perm w.scheduler.queue ∧
      finalState (runNext budget) w = { w with scheduler := { w.scheduler with queue } }) := by
  rcases hw.toQueuesActive.cases with hnil | ⟨skipped, id, rest, hqueue, hgo, hskipped⟩ |
    ⟨hne, hstuck⟩
  · have hrun := Scheduler.nextRunnable_of_nil hnil
    have hidle : runNext budget w = .ok false w := (bind_ok (search_ok hrun)).trans rfl
    exact .inr ⟨by rw [nextSession?, hrun], w.scheduler.queue, .refl _, finalState_of_ok hidle⟩
  · have hrun := Scheduler.nextRunnable_of_canGoOn hqueue hgo hskipped
    have ⟨c, hfind, _⟩ := hgo
    have hperm : w.scheduler.queue.Perm (id :: (rest ++ skipped)) := by
      rw [hqueue]
      exact List.perm_middle.trans ((List.perm_append_comm).cons id)
    have htake := Scheduler.take?_eq_some (s := { w.scheduler with queue := rest ++ skipped }) hfind
    dsimp only at htake
    refine .inl ⟨_, ?_, opens_taken hw hgo hfind hperm, ?_⟩
    · rw [nextSession?, hrun]
      dsimp only
      rw [htake]
      rfl
    · refine (bind_ok (search_ok hrun)).trans ?_
      dsimp only
      show EStateM.Result.ok true _ = _
      dsimp only
      rw [htake]
      rfl
  · obtain ⟨turned, hrun, hperm⟩ := Scheduler.nextRunnable_of_stuck hne hstuck
    have hdead : runNext budget w = .error .invalidContext
        { w with scheduler := { w.scheduler with queue := turned } } :=
      bind_error (search_error hrun)
    exact .inr ⟨by rw [nextSession?, hrun], turned, hperm, finalState_of_error hdead⟩

/-- **A turn ends with the registry in order.** -/
lemma Opens.orderly_endTurn {w : World Builtin} {s : Session Builtin} (h : w.Opens s)
    (budget : Nat) (turn : Turn) : ((Session.runTurn budget s).2.endTurn turn).scheduler.Orderly :=
  (Session.registered_enrol_leftover ((Session.evolves_runTurn budget h.running).hosts h.hosts)
    turn).orderly_reap

lemma Opens.continues_endTurn {w : World Builtin} {s : Session Builtin} (h : w.Opens s)
    (budget : Nat) (turn : Turn) :
    w.scheduler.Continues ((Session.runTurn budget s).2.endTurn turn).scheduler := by
  have hopened : Scheduler.Renumbered w.scheduler.nextId w.scheduler.ids s.scheduler.nextId
      (s.context.id :: s.scheduler.ids) := by
    refine ⟨h.nextId.ge, fun id hid => .inl ?_⟩
    rw [Scheduler.mem_ids_iff]
    by_cases heq : id = s.context.id
    · obtain ⟨c, hfind, -⟩ := h.taken
      simp [heq, hfind]
    · rw [← h.others id heq, ← Scheduler.mem_ids_iff]
      exact (List.mem_cons.mp hid).resolve_left heq
  exact hopened.trans ((Session.evolves_runTurn budget h.running).renumbered.trans
    (Session.renumbered_endTurn turn _))

/-- **A turn of another context leaves an active one alone.** -/
lemma Opens.undisturbed {w : World Builtin} {s : Session Builtin} (h : w.Opens s) {id : Nat}
    {c : Context} (hfind : w.scheduler.find? id = some c) (hactive : c.state.isActive = true)
    (hother : id ≠ s.context.id) (budget : Nat) (turn : Turn) :
    ∃ c', ((Session.runTurn budget s).2.endTurn turn).scheduler.find? id = some c' ∧
      c.Undisturbed w.system c' := by
  have hevolves := Session.evolves_runTurn budget h.running
  obtain ⟨c', hfind', hc'⟩ :=
    hevolves.undisturbed h.hosts ((h.others id hother).trans hfind) hactive
  refine ⟨c', ?_, congrArg Machine.system h.machine ▸ hc'⟩
  have hfree : c'.state ≠ .free := by
    intro hfree
    rw [← hc'.state, hfree] at hactive
    contradiction
  rw [Session.find?_endTurn (hevolves.hosts h.hosts), hevolves.id_eq, if_neg hother, hfind']
  simp [Option.filter, hfree]

/-! ## Calls -/

/-- A spawn uses up a number, and registers a context under it unless it fails: a fresh one, about to
execute the program above the operator that ends it. -/
lemma spawn_cases (program : Object) (w : World ν) :
    finalState (spawn program) w = { w with scheduler := w.scheduler.allocateId.2 } ∨
    ∃ child : Context, child.id = w.scheduler.nextId ∧ child.state = .run ∧
      (∃ c exec, Context.create w.scheduler.nextId w.settings = .ok c ∧
        Stack.pushAll [Object.operator w.system.zombie, program] c.stackSet.exec = .ok () exec ∧
        child = { c with stackSet := { c.stackSet with exec } }) ∧
      finalState (spawn program) w = { w with scheduler := w.scheduler.allocateId.2.adopt child } := by
  refine Ends.finalState (P := fun v => v = { w with scheduler := w.scheduler.allocateId.2 } ∨
    ∃ child : Context, child.id = w.scheduler.nextId ∧ child.state = .run ∧
      (∃ c exec, Context.create w.scheduler.nextId w.settings = .ok c ∧
        Stack.pushAll [Object.operator w.system.zombie, program] c.stackSet.exec = .ok () exec ∧
        child = { c with stackSet := { c.stackSet with exec } }) ∧
      v = { w with scheduler := w.scheduler.allocateId.2.adopt child }) ?_
  refine Ends.bind ?_
  show Ends (query fun v => Context.create w.scheduler.nextId v.settings)
    { w with scheduler := w.scheduler.allocateId.2 } _ _
  refine Ends.query (fun c hcreate => Ends.bind (Ends.get ?_)) fun _ _ => .inl rfl
  have hstanding := Context.standing_create hcreate
  dsimp only
  split
  · exact .inl rfl
  · next exec hpush =>
    exact .inr ⟨{ c with stackSet := { c.stackSet with exec } },
      congrArg Standing.id hstanding, congrArg Standing.state hstanding,
      ⟨c, exec, hcreate, hpush, rfl⟩, rfl⟩

/-- What a host can do with a world: start a context, let the contexts run, or change what they
share. -/
inductive Call
  | spawn (program : Object)
  | run (budget turns : Nat)
  | change (f : Machine Builtin → Machine Builtin)

/-- The world after a call. -/
def Call.apply : Call → World Builtin → World Builtin
  | spawn program, w => finalState (World.spawn program) w
  | run budget turns, w => finalState (World.run budget turns) w
  | change f, w => { f w.toMachine with scheduler := w.scheduler, output := w.output }

/-- The world after some calls. -/
def after (w : World Builtin) (calls : List Call) : World Builtin :=
  calls.foldl (fun w call => call.apply w) w

lemma orderly_spawn {w : World Builtin} (h : w.scheduler.Orderly) (program : Object) :
    (finalState (spawn program) w).scheduler.Orderly ∧
      w.scheduler.Continues (finalState (spawn program) w).scheduler := by
  rcases spawn_cases program w with hspawn | ⟨child, hid, hrun, -, hspawn⟩
  · rw [hspawn]
    exact ⟨⟨h.toRegistered.allocated, h.not_free⟩, Nat.le_succ _, fun _ hid => .inl hid⟩
  · rw [hspawn]
    refine ⟨⟨h.toRegistered.adopted hid hrun, fun c hc => ?_⟩, Nat.le_succ _, fun j hj => ?_⟩
    · rcases Scheduler.mem_insertOrdered hc with rfl | hc
      · simp [hrun]
      · exact h.not_free c hc
    · rcases Scheduler.mem_ids_insert (s := w.scheduler.allocateId.2) hj with rfl | hj
      · exact .inr hid.ge
      · exact .inl hj

lemma orderly_runNext {w : World Builtin} (h : w.scheduler.Orderly) (budget : Nat) :
    (finalState (runNext budget) w).scheduler.Orderly ∧
      w.scheduler.Continues (finalState (runNext budget) w).scheduler := by
  rcases nextSession?_cases h.toRegistered budget with ⟨s, -, hopens, hrun⟩ | ⟨-, queue, hperm, hrun⟩
  · rw [finalState_of_ok hrun]
    exact ⟨hopens.orderly_endTurn budget _, hopens.continues_endTurn budget _⟩
  · rw [hrun]
    exact ⟨⟨h.toRegistered.turned hperm, h.not_free⟩, .refl _ _⟩

lemma orderly_run {w : World Builtin} (h : w.scheduler.Orderly) (budget turns : Nat) :
    (finalState (run budget turns) w).scheduler.Orderly ∧
      w.scheduler.Continues (finalState (run budget turns) w).scheduler := by
  induction turns generalizing w with
  | zero => exact ⟨h, .refl _ _⟩
  | succ turns ih =>
      have hnext := orderly_runNext h budget
      cases hrun : runNext budget w with
      | error fault v =>
          rw [finalState_of_error hrun] at hnext
          have hfail : run budget (turns + 1) w = .error fault v := bind_error hrun
          rw [finalState_of_error hfail]
          exact hnext
      | ok goesOn v =>
          rw [finalState_of_ok hrun] at hnext
          have hrest : run budget (turns + 1) w =
              (if goesOn then run budget turns else pure true : EStateM Fault _ Bool) v :=
            bind_ok hrun
          rw [finalState, hrest]
          cases goesOn with
          | false => exact hnext
          | true =>
              obtain ⟨horderly, hcontinues⟩ := ih hnext.1
              exact ⟨horderly, hnext.2.trans hcontinues⟩

lemma orderly_after {w : World Builtin} (h : w.scheduler.Orderly) (calls : List Call) :
    (w.after calls).scheduler.Orderly ∧ w.scheduler.Continues (w.after calls).scheduler := by
  induction calls generalizing w with
  | nil => exact ⟨h, .refl _ _⟩
  | cons call rest ih =>
      have hcall : (call.apply w).scheduler.Orderly ∧
          w.scheduler.Continues (call.apply w).scheduler := by
        cases call with
        | spawn program => exact orderly_spawn h program
        | run budget turns => exact orderly_run h budget turns
        | change f => exact ⟨h, .refl _ _⟩
      obtain ⟨hrest, hcontinues⟩ := ih hcall.1
      exact ⟨hrest, hcall.2.trans hcontinues⟩

/-- What a turn that begins in the world does with the registry, for any number of objects. -/
structure TurnsSafely (w : World Builtin) : Prop where
  /-- Wherever the turn has come to, no context has the number that a new one would get. -/
  adopts_new : ∀ s, w.nextSession? = some s → ∀ objects,
    (Session.runTurn objects s).2.scheduler.find?
      (Session.runTurn objects s).2.scheduler.nextId = none ∧
    (Session.runTurn objects s).2.context.id ≠ (Session.runTurn objects s).2.scheduler.nextId
  /-- The context that had the turn is registered afterwards, as the turn left it, unless free. -/
  puts_back : ∀ s, w.nextSession? = some s → ∀ objects turn t,
    Session.runTurn objects s = (turn, t) → (t.leftover turn).state ≠ .free →
    (t.endTurn turn).scheduler.find? s.context.id = some (t.leftover turn)
  /-- A context that could run or waited, and had not the turn, still can or does. -/
  keeps_active : ∀ s, w.nextSession? = some s → ∀ objects turn t,
    Session.runTurn objects s = (turn, t) → ∀ id, w.scheduler.IsActive id → id ≠ s.context.id →
    (t.endTurn turn).scheduler.IsActive id

lemma opens_of_nextSession? {w : World Builtin} {s : Session Builtin}
    (h : w.scheduler.Registered) (hnext : w.nextSession? = some s) : w.Opens s := by
  rcases nextSession?_cases h 0 with ⟨t, ht, hopens, -⟩ | ⟨hnone, -⟩
  · rw [hnext] at ht
    cases ht
    exact hopens
  · rw [hnext] at hnone
    contradiction

lemma turnsSafely {w : World Builtin} (h : w.scheduler.Orderly) : w.TurnsSafely := by
  refine ⟨fun s hnext objects => ?_, fun s hnext objects turn t hrun hfree => ?_,
    fun s hnext objects turn t hrun id hactive hid => ?_⟩
  · have hopens := opens_of_nextSession? h.toRegistered hnext
    have hhosts := (Session.evolves_runTurn objects hopens.running).hosts hopens.hosts
    exact ⟨hhosts.registered.find?_nextId, Nat.ne_of_lt hhosts.id_lt⟩
  · have hopens := opens_of_nextSession? h.toRegistered hnext
    have hevolves := Session.evolves_runTurn objects hopens.running
    rw [hrun] at hevolves
    rw [Session.find?_endTurn (hevolves.hosts hopens.hosts), if_pos hevolves.id_eq.symm]
    simp [Option.filter, hfree]
  · have hopens := opens_of_nextSession? h.toRegistered hnext
    obtain ⟨c, hfind, hstate⟩ := hactive
    have hactive := (Scheduler.isActive_iff hfind).mp ⟨c, hfind, hstate⟩
    obtain ⟨c', hfind', hc'⟩ := hopens.undisturbed hfind hactive hid objects turn
    rw [hrun] at hfind'
    exact ⟨c', hfind', by rwa [hc'.state]⟩

/-- **The registry between two turns.**  Whatever has been spawned and run, the queue holds the
contexts that can run or wait, each once; none is free; one that waits says on what; numbers are
distinct, below the next one, and never used again, so that a new context replaces none.  Numbers are not
cut to words, so that this is about the first `wordBound` contexts. -/
theorem registry_between_turns (machine : Machine Builtin) (accepting : Bool)
    (before since : List Call) :
    ((ofMachine machine accepting).after before).scheduler.Orderly ∧
    ((ofMachine machine accepting).after before).scheduler.Continues
      (((ofMachine machine accepting).after before).after since).scheduler ∧
    ((ofMachine machine accepting).after before).TurnsSafely := by
  have hempty : (ofMachine machine accepting).scheduler.Orderly := Scheduler.orderly_empty
  have horderly := (orderly_after hempty before).1
  exact ⟨horderly, (orderly_after horderly since).2, turnsSafely horderly⟩

end World

end PostScriptCore
