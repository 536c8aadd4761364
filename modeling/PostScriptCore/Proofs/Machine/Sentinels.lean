import PostScriptCore.Proofs.Builtin.Forking
import PostScriptCore.Proofs.Machine.Execution
import PostScriptCore.Proofs.Machine.Rendezvous
import PostScriptCore.Proofs.Machine.Schedule
import PostScriptCore.Proofs.Machine.Start

/-!
# The operator at the bottom

At the bottom of a context's execution stack stands the operator that will end it, and which of the two
it is says whether the context has been detached.  Nothing else says so, and neither the procedures that
are executed above it nor a failure that clears the stack may lose it.

* `SystemOperators.sentinel`, `ContextState.final` — the operator, and the state in which it ends a context.
* `Context.Guarded`, `Context.Accords` — a context agrees with what is known about its detaching.
* `Annals` — which contexts were detached or joined with success.
* `Session.refrains` — nothing ends the context but the operator at the bottom.
* `Session.agrees_run`, `Session.agrees_execute` — one native and one object.
* `Session.execute_sentinel` — what happens when the bottom is reached.
* `Session.concludes_runTurn` — a whole turn.
-/

namespace PostScriptCore

/-! ## The two operators -/

open Classical in
/-- The operator that ends a context. -/
noncomputable def SystemOperators.sentinel (system : SystemOperators) (detached : Prop) : Nat :=
  if detached then system.free else system.zombie

open Classical in
/-- The state in which a context ends. -/
noncomputable def ContextState.final (detached : Prop) : ContextState :=
  if detached then .free else .zombie

namespace Context

variable {system : SystemOperators} {detached joined : Prop} {bottom : Object} {c d : Context}

/-- The stacks are in order, and the object is at the bottom of the execution stack. -/
structure Guarded (bottom : Object) (c : Context) : Prop where
  operands : c.stackSet.operands.WellFormed
  hold : c.stackSet.hold.WellFormed
  exec : c.stackSet.exec.WellFormed
  bottom : c.stackSet.exec.fromBottom? 0 = some bottom

/-- Going on as before leaves the bottom in place. -/
lemma Guarded.proceeds (h : c.Guarded bottom) (hd : c.Proceeds d) : d.Guarded bottom := by
  obtain ⟨hexec, hprefix⟩ := hd.exec h.exec
  refine ⟨hd.operands h.operands, hd.hold h.hold, hexec, ?_⟩
  have hbottom := h.bottom
  rw [Stack.fromBottom?_eq_getElem?] at hbottom ⊢
  obtain ⟨above, habove⟩ := hprefix
  rw [← habove, List.getElem?_append_left (List.getElem?_eq_some_iff.mp hbottom).1]
  exact hbottom

/-- The bottom has been exchanged. -/
lemma Guarded.exchanged (h : c.Guarded bottom) {obj : Object} {exec : Stack}
    (hrun : Stack.replaceFromBottom 0 obj c.stackSet.exec = .ok () exec) :
    Guarded obj { c with stackSet := { c.stackSet with exec } } := by
  have hcount : 0 < c.stackSet.exec.count := by
    by_contra hempty
    have hbottom := h.bottom
    rw [Stack.fromBottom?, if_neg hempty] at hbottom
    contradiction
  obtain ⟨exec', hrun', hexec, hlist⟩ := Stack.replaceFromBottom_run h.exec hcount obj
  rw [hrun] at hrun'
  cases hrun'
  refine ⟨h.operands, h.hold, hexec, ?_⟩
  have hlength : 0 < c.stackSet.exec.toList.length := by rwa [Stack.length_toList]
  show exec.fromBottom? 0 = some obj
  rw [Stack.fromBottom?_eq_getElem?, hlist, List.getElem?_set_self hlength]

/-- The context is as it has to be, according to whether it was detached and whether it was joined. -/
structure Accords (system : SystemOperators) (detached joined : Prop) (c : Context) : Prop where
  active : c.state.isActive = true → c.Guarded (Object.operator (system.sentinel detached))
  zombie : c.state = .zombie → ¬ detached
  free : c.state = .free → detached ∨ joined

lemma Guarded.accords (h : c.Guarded (Object.operator (system.sentinel detached)))
    (hactive : c.state.isActive = true) : c.Accords system detached joined := by
  refine ⟨fun _ => h, fun hzombie => ?_, fun hfree => ?_⟩
  · rw [hzombie] at hactive
    contradiction
  · rw [hfree] at hactive
    contradiction

/-- A context that has ended as it had to. -/
lemma accords_final (h : c.state = .final detached) : c.Accords system detached joined := by
  rw [ContextState.final] at h
  split_ifs at h with hdetached
  · refine ⟨fun hactive => ?_, fun hzombie => ?_, fun _ => .inl hdetached⟩
    · rw [h] at hactive
      contradiction
    · rw [h] at hzombie
      contradiction
  · refine ⟨fun hactive => ?_, fun _ => hdetached, fun hfree => ?_⟩
    · rw [h] at hactive
      contradiction
    · rw [h] at hfree
      contradiction

namespace Accords

/-- A context that has ended, and was not joined. -/
lemma state_eq (h : c.Accords system detached False) (hended : c.state.isActive = false) :
    c.state = .final detached := by
  cases hstate : c.state with
  | run | wait =>
      rw [hstate] at hended
      contradiction
  | zombie => exact (if_neg (h.zombie hstate)).symm
  | free => exact (if_pos ((h.free hstate).resolve_right not_false)).symm

/-- Detaching a context. -/
lemma of_detached (h : c.Accords system detached joined) (hdetached : Action.detached system c = .ok d)
    {detached' : Prop} (hd : detached') : d.Accords system detached' joined := by
  have hoperator : system.sentinel detached' = system.free := if_pos hd
  cases hactive : c.state.isActive with
  | true =>
      obtain ⟨-, exec, hrun, rfl⟩ := Action.detached_active hdetached hactive
      refine Guarded.accords ?_ hactive
      rw [hoperator]
      exact (h.active hactive).exchanged hrun
  | false =>
      cases hstate : c.state with
      | run | wait =>
          rw [hstate] at hactive
          contradiction
      | zombie =>
          rw [Action.detached, hstate] at hdetached
          cases hdetached
          exact ⟨fun hactive => by contradiction, fun hzombie => by contradiction, fun _ => .inl hd⟩
      | free =>
          rw [Action.detached, hstate] at hdetached
          contradiction

/-- A context that is joined. -/
lemma of_released (hjoined : joined) : c.released.Accords system detached joined :=
  ⟨fun hactive => by contradiction, fun hzombie => by contradiction, fun _ => .inr hjoined⟩

lemma mono {joined' : Prop} (h : c.Accords system detached joined) (himp : joined → joined') :
    c.Accords system detached joined' :=
  ⟨h.active, h.zombie, fun hfree => (h.free hfree).imp_right himp⟩

end Accords

end Context

/-! ## What has been detached and joined -/

/-- Which contexts have been detached and which have been joined, with success. -/
@[ext]
structure Annals where
  detached : Nat → Prop
  joined : Nat → Prop

namespace Annals

variable {a : Annals} {performed performed' : Performed}

/-- Nothing has happened yet. -/
def blank : Annals := ⟨fun _ => False, fun _ => False⟩

/-- Some natives have been performed. -/
def after (a : Annals) (performed : Performed) : Annals where
  detached id := a.detached id ∨ performed.Detaches id
  joined id := a.joined id ∨ performed.Joins id

lemma after_eq_self (hdetach : ∀ handle s, ¬ performed .detach [handle] s)
    (hjoin : ∀ handle s, ¬ performed .join [handle] s) : a.after performed = a := by
  ext id
  · exact or_iff_left fun ⟨handle, s, h, _⟩ => hdetach handle s h
  · exact or_iff_left fun ⟨handle, s, h, _⟩ => hjoin handle s h

lemma after_after : (a.after performed).after performed' =
    a.after fun native args s => performed native args s ∨ performed' native args s := by
  have hsplit (native : Builtin) (id : Nat) :
      (∃ handle s, (performed native [handle] s ∨ performed' native [handle] s) ∧
        handle.asContext? = some id) ↔
      (∃ handle s, performed native [handle] s ∧ handle.asContext? = some id) ∨
        ∃ handle s, performed' native [handle] s ∧ handle.asContext? = some id := by
    simp only [or_and_right, exists_or]
  ext id
  · exact or_assoc.trans (or_congr_right (hsplit .detach id).symm)
  · exact or_assoc.trans (or_congr_right (hsplit .join id).symm)

/-- The registered contexts are as they have to be, and none that is still to come was detached. -/
structure Covers (a : Annals) (system : SystemOperators) (registry : Scheduler) : Prop where
  contexts : ∀ id c, registry.find? id = some c → c.Accords system (a.detached id) (a.joined id)
  unborn : ∀ id, registry.nextId ≤ id → ¬ a.detached id

namespace Covers

variable {system : SystemOperators} {registry : Scheduler}

lemma allocated (h : a.Covers system registry) : a.Covers system registry.allocateId.2 :=
  ⟨h.contexts, fun id hid => h.unborn id (Nat.le_of_succ_le hid)⟩

/-- A new context was never detached. -/
lemma adopted (h : a.Covers system registry) {child : Context} (hid : child.id = registry.nextId)
    (hrun : child.state = .run) (hguarded : child.Guarded (Object.operator system.zombie)) :
    a.Covers system (registry.allocateId.2.adopt child) := by
  refine ⟨fun id c hfind => ?_, h.allocated.unborn⟩
  rw [Scheduler.find?_adopt] at hfind
  split_ifs at hfind with hsame
  · cases hfind
    subst hsame
    refine Context.Guarded.accords ?_ ?_
    · rw [SystemOperators.sentinel, if_neg (h.unborn child.id hid.ge)]
      exact hguarded
    · rw [hrun]
      rfl
  · exact h.contexts id c hfind

end Covers

end Annals

/-! ## New contexts -/

lemma Context.stackSet_create {id : Nat} {settings : Settings} {c : Context}
    (h : Context.create id settings = .ok c) : c.stackSet = StackSet.create settings := by
  rw [Context.create] at h
  split at h
  · cases h
    rfl
  · contradiction

/-- The stacks of a new context are in order. -/
lemma Action.wellFormed_makeChild {id zombie : Nat} {settings : Settings} {parent : Memory}
    {operands : List Object} {proc : Object} {child : Context} (hsegment : 0 < settings.segmentSize)
    (h : makeChild id settings parent zombie operands proc = .ok child) :
    child.stackSet.operands.WellFormed ∧ child.stackSet.hold.WellFormed ∧
      child.stackSet.exec.WellFormed := by
  obtain ⟨fresh, hcreate, hproceeds⟩ := proceeds_makeChild h
  have hempty (limit : Nat) (overflow : Fault) :
      (Stack.create settings.segmentSize limit overflow).WellFormed :=
    Stack.wellFormed_create hsegment _ _
  have hstacks := Context.stackSet_create hcreate
  rw [StackSet.create] at hstacks
  refine ⟨hproceeds.operands ?_, hproceeds.hold ?_, (hproceeds.exec ?_).1⟩
  · rw [hstacks]
    exact hempty _ _
  · rw [hstacks]
    exact hempty _ _
  · rw [hstacks]
    exact hempty _ _

/-- **A child** begins with the operator at the bottom that waits for a join. -/
lemma Action.guarded_makeChild {id zombie : Nat} {settings : Settings} {parent : Memory}
    {operands : List Object} {proc : Object} {child : Context} (hsegment : 0 < settings.segmentSize)
    (h : makeChild id settings parent zombie operands proc = .ok child) :
    child.Guarded (Object.operator zombie) := by
  obtain ⟨hoperands, hhold, hexec⟩ := wellFormed_makeChild hsegment h
  refine ⟨hoperands, hhold, hexec, ?_⟩
  rcases makeChild_cases hsegment parent zombie id operands proc with ⟨child', hmake, hchild⟩ |
    ⟨fault, hmake, -⟩
  · obtain rfl := Except.ok.inj (h.symm.trans hmake)
    obtain ⟨fresh, images, body, transfer, -, -, -, hlist⟩ := hchild.images
    rw [Stack.fromBottom?_eq_getElem?, hlist]
    rfl
  · rw [h] at hmake
    contradiction

/-! ## One native -/

namespace Session

variable {a : Annals} {s t : Session Builtin} {obj : Object}

/-- The running context still has the operator at the bottom that it has to have, and the other contexts
are as they have to be. -/
structure Agrees (a : Annals) (s : Session Builtin) : Prop where
  others : a.Covers s.system s.scheduler
  guarded : s.context.Guarded (Object.operator (s.system.sentinel (a.detached s.context.id)))
  active : s.context.state.isActive = true

/-- A native that neither detaches nor joins. -/
lemma after_runs_other {native : Builtin} (hdetach : native ≠ .detach) (hjoin : native ≠ .join)
    (args : List Object) (s : Session Builtin) : a.after (runs native args s) = a :=
  Annals.after_eq_self (fun _ _ h => hdetach h.1.1.symm) fun _ _ h => hjoin h.1.1.symm

lemma after_runs_error {native : Builtin} {args : List Object} {fault : Fault}
    (h : native.run args s = .error fault t) : a.after (runs native args s) = a := by
  refine Annals.after_eq_self ?_ ?_ <;>
  · rintro handle t ⟨-, u, hsucceeds⟩
    rw [h] at hsucceeds
    contradiction

lemma Agrees.private (h : s.Agrees a) (hst : Private s t) : t.Agrees a where
  others := by
    rw [hst.system, hst.scheduler]
    exact h.others
  guarded := by
    rw [hst.system, hst.context.id]
    exact h.guarded.proceeds hst.context
  active := by
    rw [hst.context.state]
    exact h.active

lemma Agrees.waits (h : s.Agrees a) (hst : Action.Waits s t) : t.Agrees a := by
  have hgoes := h.private hst.goes_on
  refine ⟨hgoes.others, ⟨hgoes.guarded.operands, hgoes.guarded.hold, hgoes.guarded.exec,
    hgoes.guarded.bottom⟩, ?_⟩
  rcases hst.state with hstate | hstate
  · rw [hstate]
    exact h.active
  · rw [hstate]
    rfl

/-- Collecting storage does not matter. -/
lemma Agrees.sweeps (h : s.Agrees a) {mode : Object}
    {result : Memory → EStateM.Result Fault Memory Nat → Prop} (hst : Action.Sweeps mode s t result) :
    t.Agrees a :=
  have hgoes := h.private hst.goes_on
  ⟨hgoes.others, hgoes.guarded, hgoes.active⟩

/-- A fork starts a context that was never detached. -/
lemma agrees_fork (h : s.Agrees a) (hsegment : 0 < s.settings.segmentSize) (proc : Object) :
    (finalState (Action.fork proc) s).Agrees a := by
  refine Ends.finalState (Ends.mono (Action.ends_fork proc s) (fun _ _ h => h.elim)
    fun _ t ⟨hprivate, hscheduler⟩ => ?_)
  have hgoes := h.private hprivate
  refine ⟨?_, hgoes.guarded, hgoes.active⟩
  rw [show t.system = s.system from hprivate.system]
  rcases hscheduler with hscheduler | hscheduler | ⟨operands, child, hchild, hscheduler⟩
  · rw [hscheduler]
    exact h.others
  · rw [hscheduler]
    exact h.others.allocated
  · have hstanding := Action.standing_makeChild hchild
    rw [hscheduler]
    exact h.others.adopted (congrArg Standing.id hstanding) (congrArg Standing.state hstanding)
      (Action.guarded_makeChild hsegment hchild)

/-- A join frees its target. -/
lemma agrees_join (h : s.Agrees a) (handle : Object) :
    (finalState (Action.join handle) s).Agrees (a.after (runs .join [handle] s)) := by
  have hends := Action.ends_join handle s
  rw [Ends] at hends
  cases hrun : Action.join handle s with
  | error fault t =>
      rw [hrun] at hends
      rw [finalState_of_error hrun, after_runs_error (show Builtin.run .join [handle] s = _ from hrun)]
      exact h.waits hends
  | ok u t =>
      rw [hrun] at hends
      rw [finalState_of_ok hrun]
      obtain ⟨hprivate, target, hnames, hfind, hzombie, hscheduler⟩ := hends
      have hdetached : (a.after (runs .join [handle] s)).detached = a.detached := by
        funext id
        refine propext (or_iff_left fun hdetaches => ?_)
        have hsame := (detaches_runs.mp hdetaches).1
        contradiction
      have hgoes := h.private hprivate
      refine ⟨⟨fun id c hc => ?_, ?_⟩, ?_, hgoes.active⟩
      · have hsystem : t.system = s.system := hprivate.system
        rw [hsystem, hdetached]
        rw [hscheduler, Scheduler.find?_update (f := Context.released) fun _ hc => hc] at hc
        split_ifs at hc with htarget
        · subst htarget
          rw [hfind] at hc
          cases hc
          exact .of_released (.inr (joins_runs.mpr ⟨rfl, hnames, t, hrun⟩))
        · exact (h.others.contexts id c hc).mono .inl
      · rw [hdetached, hscheduler]
        exact h.others.unborn
      · rw [hdetached]
        exact hgoes.guarded

/-- A detach exchanges the operator at the bottom, or frees its target. -/
lemma agrees_detach (h : s.Agrees a) (hhosts : s.scheduler.Hosts s.context.standing)
    (handle : Object) :
    (finalState (Action.detach handle) s).Agrees (a.after (runs .detach [handle] s)) := by
  have hends := Action.ends_detach handle s
  rw [Ends] at hends
  cases hrun : Action.detach handle s with
  | error fault t =>
      rw [hrun] at hends
      rw [finalState_of_error hrun, after_runs_error (show Builtin.run .detach [handle] s = _ from hrun),
        show t = s from hends]
      exact h
  | ok u t =>
      rw [hrun] at hends
      rw [finalState_of_ok hrun]
      obtain ⟨target, c, hnames, hdetached, htarget⟩ := hends
      have hjoined : (a.after (runs .detach [handle] s)).joined = a.joined := by
        funext id
        refine propext (or_iff_left fun hjoins => ?_)
        have hsame := (joins_runs.mp hjoins).1
        contradiction
      have hnow : (a.after (runs .detach [handle] s)).detached target.id :=
        .inr (detaches_runs.mpr ⟨rfl, hnames, t, hrun⟩)
      have hother {id : Nat} (hne : id ≠ target.id) :
          (a.after (runs .detach [handle] s)).detached id = a.detached id := by
        refine propext (or_iff_left fun hdetaches => hne ?_)
        exact Option.some.inj ((detaches_runs.mp hdetaches).2.1.symm.trans hnames)
      have hid : c.id = target.id := (Action.standing_detached hdetached).2.1
      rcases htarget with ⟨rfl, rfl⟩ | ⟨hfind, rfl⟩
      · have hactive : c.state.isActive = true := by
          obtain ⟨-, exec, -, rfl⟩ := Action.detached_active hdetached h.active
          exact h.active
        have haccords : s.context.Accords s.system (a.detached s.context.id) False :=
          h.guarded.accords h.active
        refine ⟨⟨fun id d hd => ?_, fun id hid' => ?_⟩, ?_, hactive⟩
        · have hne : id ≠ s.context.id := (hhosts.ne_of_find? hd).symm
          rw [hjoined, hother hne]
          exact h.others.contexts id d hd
        · rw [hother (Nat.ne_of_gt (Nat.lt_of_lt_of_le hhosts.id_lt hid'))]
          exact h.others.unborn id hid'
        · exact (haccords.of_detached hdetached (hid.symm ▸ hnow)).active hactive
      · have hne : s.context.id ≠ target.id := hhosts.ne_of_find? hfind
        refine ⟨⟨fun id d hd => ?_, fun id hid' => ?_⟩, ?_, h.active⟩
        · rw [hjoined]
          rw [Scheduler.find?_update fun _ _ => hid] at hd
          split_ifs at hd with heq
          · subst heq
            rw [hfind] at hd
            cases hd
            exact (h.others.contexts _ target hfind).of_detached hdetached hnow
          · rw [hother heq]
            exact h.others.contexts id d hd
        · have hlt : target.id < s.scheduler.nextId :=
            hhosts.registered.ids_lt target (Scheduler.mem_of_find? hfind)
          rw [hother (Nat.ne_of_gt (Nat.lt_of_lt_of_le hlt hid'))]
          exact h.others.unborn id hid'
        · show s.context.Guarded _
          rw [hother hne]
          exact h.guarded

/-- **A native** leaves the contexts as they have to be, unless it ends the running one. -/
lemma agrees_run {native : Builtin} (args : List Object) (h : s.Agrees a)
    (hhosts : s.scheduler.Hosts s.context.standing) (hsegment : 0 < s.settings.segmentSize)
    (hzombie : native ≠ .zombie) (hfree : native ≠ .free) :
    (finalState (native.run args) s).Agrees (a.after (runs native args s)) := by
  cases native.concerns args with
  | itself args hpersonal =>
      rw [after_runs_other (by rintro rfl; contradiction) (by rintro rfl; contradiction)]
      exact h.private (Ends.finalState (Builtin.private_run hpersonal args s))
  | nobody hrefused =>
      have hrun : native.run args s = .error .invalidSignature s := congrFun (hrefused Builtin) s
      rw [finalState_of_error hrun, after_runs_error hrun]
      exact h
  | globalVM mode =>
      rw [after_runs_other (by decide) (by decide)]
      exact Ends.finalState (Ends.mono (Action.ends_vmReclaim mode s) (fun _ _ ht => h.sweeps ht)
        fun _ _ ht => h.sweeps ht)
  | child proc =>
      rw [after_runs_other (by decide) (by decide)]
      exact agrees_fork h hsegment proc
  | joined handle => exact agrees_join h handle
  | detached handle => exact agrees_detach h hhosts handle
  | ended => exact absurd rfl hzombie
  | freed => exact absurd rfl hfree

/-! ## One object -/

/-- The native that executing the object would come to run. -/
def called? (s : Session Builtin) (obj : Object) : Option Builtin :=
  (s.dispatched? obj).bind fun opcode =>
    match s.operators.select s.globalVM s.context.stackSet.operands opcode with
    | .ok signature => s.operators.natives[signature.native]?
    | .error _ => none

/-- Executing the object does not end the context. -/
def sparesContext (s : Session Builtin) (obj : Object) : Bool :=
  s.called? obj != some .zombie && s.called? obj != some .free

lemma Calls.called?_eq {native : Builtin} {args : List Object} (h : s.Calls obj native args t) :
    s.called? obj = some native := by
  obtain ⟨opcode, hopcode, signature, hselect, -, hnative, -⟩ := h
  rw [called?, hopcode, Option.bind_some, hselect]
  exact hnative

/-- A context that runs is hosted as long as its number is the same. -/
lemma hosts_private (hhosts : s.scheduler.Hosts s.context.standing) (hrunning : s.context.state = .run)
    (hst : Private s t) : t.scheduler.Hosts t.context.standing := by
  have hid : t.context.standing.id = s.context.standing.id := hst.context.id
  have hstate : t.context.standing.state = .run := hst.context.state.trans hrunning
  rw [hst.scheduler]
  refine ⟨hhosts.registered, ?_, ?_, fun hwait => ?_⟩
  · rw [hid]
    exact hhosts.absent
  · rw [hid]
    exact hhosts.id_lt
  · rw [hstate] at hwait
    contradiction

/-- **An object above the bottom** leaves the contexts as they have to be. -/
lemma agrees_execute (h : s.Agrees a) (hrunning : s.context.state = .run)
    (hhosts : s.scheduler.Hosts s.context.standing) (hsegment : 0 < s.settings.segmentSize)
    (hspares : s.sparesContext obj = true) :
    (finalState (execute obj) s).Agrees (a.after (s.Performs obj)) := by
  rcases execute_cases obj s with ⟨hprivate, hnone⟩ | ⟨native, args, t, need, hcalls, hprivate, hrun⟩
  · rw [Annals.after_eq_self (fun _ _ hperforms => hnone _ _ _ hperforms.1)
      fun _ _ hperforms => hnone _ _ _ hperforms.1]
    exact h.private hprivate
  · rw [sparesContext, hcalls.called?_eq, Bool.and_eq_true, bne_iff_ne, bne_iff_ne] at hspares
    have hfinal : finalState (execute obj) s = finalState (releasingHold need (native.run args)) t := by
      rw [finalState, finalState, hrun]
    have hnative := agrees_run args (h.private hprivate) (hosts_private hhosts hrunning hprivate)
      (by rw [hprivate.settings]; exact hsegment) (fun hsame => hspares.1 (congrArg some hsame))
      fun hsame => hspares.2 (congrArg some hsame)
    rw [hfinal, hcalls.performs_eq]
    exact hnative.private (private_releasingHold need (native.run args) t)

/-! ## The bottom -/

/-- A definition without patterns fits whatever the operands are. -/
lemma resolve_nullary {stackSet : StackSet} {definitions : List (Definition Builtin)} {native : Builtin}
    (hfirst : definitions.head? = some ⟨[], 0, native⟩) (hoperands : stackSet.operands.WellFormed)
    (hhold : stackSet.hold.WellFormed) : stackSet.resolve definitions = .ok ⟨[], 0, native⟩ := by
  obtain ⟨rest, rfl⟩ := List.head?_eq_some_iff.mp hfirst
  have hchoice : OperatorTable.choice (⟨[], 0, native⟩ :: rest) stackSet.operands.toList =
      .ok ⟨[], 0, native⟩ := by
    have haccepts : Definition.accepts ⟨[], 0, native⟩ stackSet.operands.toList = true := by
      simp [Definition.accepts, Pattern.acceptTop]
    simp only [OperatorTable.choice, List.find?_cons, haccepts]
  have hroom : stackSet.roomFor (⟨[], 0, native⟩ : Definition Builtin) = .ok () :=
    (if_neg (Nat.not_lt_of_le hoperands.count_le)).trans (if_neg (Nat.not_lt_of_le hhold.count_le))
  rw [StackSet.resolve, hchoice]
  simp only [hroom]
  rfl

open OperatorTable in
/-- Executing an operator that ends contexts. -/
lemma execute_finish {start : OperatorTable Builtin × Memory} {run : List (RegistryOp Builtin)}
    (h : s.toMachine.Closes start run) {opcode : Nat} {native : Builtin} {state : ContextState}
    (hfirst : (definitionsAt s.operators (registered start run) opcode).head? = some ⟨[], 0, native⟩)
    (hnative : native.run [] = (Action.finish state : Action Builtin Unit))
    (hoperands : s.context.stackSet.operands.WellFormed)
    (hhold : s.context.stackSet.hold.WellFormed) :
    ∃ t, execute (Object.operator opcode) s = .error .contextSwitch t ∧ t.toWorld = s.toWorld ∧
      t.context.id = s.context.id ∧ t.context.state = state := by
  have hvalue : (Object.operator opcode).value.toNat = opcode :=
    UInt32.toNat_ofNat_of_lt' (h.opcode_lt hfirst)
  let v := s.setCurrent (Object.operator opcode)
  obtain ⟨-, hinvoked⟩ := answers_of_registered (s := v) h.fresh h.spares h.words h.registry hoperands
    hhold opcode v.context.stackSet.hold.limit
  obtain ⟨below, args, operands, hold, -, hargs, hheld, hrun⟩ :=
    hinvoked _ (resolve_nullary hfirst hoperands hhold)
  have hprepare : Definition.prepare ⟨[], 0, native⟩ args = [] := rfl
  have hbody : NativeSet.run native (dispatchNested v.context.stackSet.hold.limit) [] =
      (Action.finish state : Action Builtin Unit) := hnative
  rw [hprepare] at hheld hrun
  obtain ⟨hold', -, -, -, hreleased⟩ := releasingHold_dropped
    (Action.finish_run state (v.running opcode 0 operands hold)) (.inl rfl) hheld.hold_wf hheld.held rfl
  have hdispatch : dispatch opcode v = releasingHold 0 (NativeSet.run native
      (dispatchNested v.context.stackSet.hold.limit) []) (v.running opcode 0 operands hold) :=
    (bind_ok (t := v) rfl).trans hrun
  rw [hbody] at hdispatch
  exact ⟨_, (execute_operator hvalue).trans (hdispatch.trans hreleased), rfl, rfl, rfl⟩

/-- **The operator at the bottom** ends the context in the state that it has to end in. -/
lemma execute_sentinel (h : s.toMachine.EndsContexts) (hoperands : s.context.stackSet.operands.WellFormed)
    (hhold : s.context.stackSet.hold.WellFormed) (detached : Prop) :
    ∃ t, execute (Object.operator (s.system.sentinel detached)) s = .error .contextSwitch t ∧
      t.toWorld = s.toWorld ∧ t.context.id = s.context.id ∧ t.context.state = .final detached := by
  obtain ⟨-, start, run, hcloses⟩ := h
  rw [SystemOperators.sentinel, ContextState.final]
  by_cases hdetached : detached
  · rw [if_pos hdetached, if_pos hdetached]
    exact execute_finish hcloses hcloses.free rfl hoperands hhold
  · rw [if_neg hdetached, if_neg hdetached]
    exact execute_finish hcloses hcloses.zombie rfl hoperands hhold

/-- **A failure** reads the bottom before it clears the stack. -/
lemma state_fail (h : s.toMachine.EndsContexts) {detached : Prop}
    (hguarded : s.context.Guarded (Object.operator (s.system.sentinel detached))) (fault : Fault) :
    (s.fail fault).context.state = .final detached := by
  obtain ⟨-, start, run, hcloses⟩ := h
  have hbottom := hguarded.bottom
  rw [SystemOperators.sentinel] at hbottom
  have hstate : (s.fail fault).context.state =
      if s.context.stackSet.exec.fromBottom? 0 = some (Object.operator s.system.free) then .free
      else .zombie := by
    cases hrestore : s.context.restoreArity with
    | none => simp only [fail, hrestore]
    | some arity => simp only [fail, hrestore, giveBack_eq]
  rw [hstate, hbottom, ContextState.final]
  by_cases hdetached : detached
  · rw [if_pos hdetached, if_pos hdetached, if_pos rfl]
  · rw [if_neg hdetached, if_neg hdetached, if_neg fun hsame =>
      hcloses.operator_ne (Option.some.inj hsame)]

/-! ## A whole turn -/

/-- Until it has executed so many objects, the context executes none that would end it, but for the one at
the bottom. -/
def refrains : Nat → Session Builtin → Bool
  | 0, _ => true
  | budget + 1, s =>
    match s.nextObject? with
    | none => true
    | some (obj, s) =>
      (s.context.stackSet.exec.count == 0 || s.sparesContext obj) &&
        match execute obj s with
        | .ok _ s => refrains budget s
        | .error _ _ => true

/-- What becomes of the contexts in a turn: the others are as they have to be, and so is the one that had
the turn, which has not run out of work, and has ended if it failed. -/
structure Concludes (a : Annals) (turn : Turn) (t : Session Builtin) : Prop where
  others : a.Covers t.system t.scheduler
  own : t.context.Accords t.system (a.detached t.context.id) False
  unfinished : turn ≠ .finished
  failed : ∀ fault, turn = .failed fault → t.context.state.isActive = false

/-- A turn after which the context has neither run out of work nor failed. -/
lemma Concludes.of_stopped {turn : Turn} (hturn : turn = .switched ∨ turn = .unfinished)
    (hothers : a.Covers t.system t.scheduler)
    (hown : t.context.Accords t.system (a.detached t.context.id) False) : Concludes a turn t := by
  refine ⟨hothers, hown, ?_, fun fault hfailed => ?_⟩
  · rcases hturn with rfl | rfl <;> decide
  · rcases hturn with rfl | rfl <;> contradiction

/-- What is performed in a turn, and what is performed by its first object and in the rest. -/
lemma after_performsWithin {n : Nat} {v w : Session Builtin} (hnext : s.nextObject? = some (obj, v))
    (hrun : execute obj v = .ok () w) :
    a.after (s.PerformsWithin (n + 1)) = (a.after (v.Performs obj)).after (w.PerformsWithin n) := by
  rw [Annals.after_after]
  congr 1
  funext native args t
  rw [performsWithin_succ hnext]
  refine propext (or_congr_right ⟨?_, fun h => ⟨w, hrun, h⟩⟩)
  rintro ⟨w', hrun', h⟩
  rw [hrun] at hrun'
  cases hrun'
  exact h

/-- What is performed in a turn that ends with its first object. -/
lemma after_performsWithin_error {n : Nat} {v w : Session Builtin} {fault : Fault}
    (hnext : s.nextObject? = some (obj, v)) (hrun : execute obj v = .error fault w) :
    a.after (s.PerformsWithin (n + 1)) = a.after (v.Performs obj) := by
  congr 1
  funext native args t
  rw [performsWithin_succ hnext]
  refine propext (or_iff_left ?_)
  rintro ⟨w', hrun', -⟩
  rw [hrun] at hrun'
  contradiction

lemma after_performsWithin_none {n : Nat} (hnone : ∀ native args t, ¬ s.PerformsWithin n native args t) :
    a.after (s.PerformsWithin n) = a :=
  Annals.after_eq_self (fun _ _ => hnone _ _ _) fun _ _ => hnone _ _ _

/-- Taking an object off the stack leaves the bottom in place, or is what it was. -/
lemma Agrees.nextObject (h : s.Agrees a) {v : Session Builtin} (hnext : s.nextObject? = some (obj, v)) :
    v.toWorld = s.toWorld ∧ v.context.id = s.context.id ∧ v.context.state = s.context.state ∧
      v.context.stackSet.operands = s.context.stackSet.operands ∧
      v.context.stackSet.hold = s.context.stackSet.hold ∧
      (v.context.stackSet.exec.count = 0 ∧
          obj = Object.operator (s.system.sentinel (a.detached s.context.id)) ∨
        v.context.stackSet.exec.count ≠ 0 ∧ v.Agrees a) := by
  rw [nextObject?] at hnext
  cases hpop : s.context.stackSet.exec.pop? with
  | none =>
      rw [hpop] at hnext
      contradiction
  | some next =>
      obtain ⟨top, exec⟩ := next
      rw [hpop] at hnext
      cases hnext
      refine ⟨rfl, rfl, rfl, rfl, rfl, ?_⟩
      obtain ⟨hexec, hlist⟩ := Stack.pop?_cases h.guarded.exec hpop
      have hbottom := h.guarded.bottom
      rw [Stack.fromBottom?_eq_getElem?, hlist] at hbottom
      by_cases hempty : exec.count = 0
      · have hnil : exec.toList = [] := by
          rw [← List.length_eq_zero_iff, Stack.length_toList]
          exact hempty
        rw [hnil] at hbottom
        exact .inl ⟨hempty, Option.some.inj hbottom⟩
      · refine .inr ⟨hempty, h.others, ⟨h.guarded.operands, h.guarded.hold, hexec, ?_⟩, h.active⟩
        have hlength : 0 < exec.toList.length := by
          rw [Stack.length_toList]
          exact Nat.pos_of_ne_zero hempty
        rw [List.getElem?_append_left hlength, ← Stack.fromBottom?_eq_getElem?] at hbottom
        exact hbottom

/-- There is always something left to execute. -/
lemma Agrees.nextObject?_ne_none (h : s.Agrees a) : s.nextObject? ≠ none := by
  intro hnext
  have hpop : s.context.stackSet.exec.pop? = none := by
    rw [nextObject?] at hnext
    split at hnext
    · assumption
    · contradiction
  have hbottom := h.guarded.bottom
  rw [Stack.fromBottom?_eq_getElem?, Stack.toList_of_pop?_eq_none h.guarded.exec hpop] at hbottom
  contradiction

/-- The last object ends the context. -/
lemma concludes_bottom {n : Nat} {v : Session Builtin} (h : s.Agrees a)
    (hends : s.toMachine.EndsContexts)
    (hnext : s.nextObject? = some (Object.operator (s.system.sentinel (a.detached s.context.id)), v)) :
    Concludes (a.after (s.PerformsWithin (n + 1))) (runTurn (n + 1) s).1 (runTurn (n + 1) s).2 := by
  obtain ⟨hworld, hid, -, hoperands, hhold, -⟩ := h.nextObject hnext
  have hsystem : v.system = s.system := congrArg (·.system) hworld
  have hvends : v.toMachine.EndsContexts := (congrArg (·.toMachine) hworld) ▸ hends
  obtain ⟨t, hrun, htworld, htid, htstate⟩ := execute_sentinel hvends
    (by rw [hoperands]; exact h.guarded.operands) (by rw [hhold]; exact h.guarded.hold)
    (a.detached s.context.id)
  rw [hsystem] at hrun
  have hturn : runTurn (n + 1) s = (.switched, t) := by
    rw [runTurn, hnext]
    simp only [hrun]
    exact if_pos rfl
  have hsame : a.after (s.PerformsWithin (n + 1)) = a := by
    rw [after_performsWithin_error hnext hrun]
    exact Annals.after_eq_self (fun _ _ => not_performs_of_switch hrun) fun _ _ =>
      not_performs_of_switch hrun
  rw [hturn, hsame]
  have hworld' : t.toWorld = s.toWorld := htworld.trans hworld
  refine .of_stopped (.inl rfl) ?_ ?_
  · rw [show t.system = s.system from congrArg (·.system) hworld',
      show t.scheduler = s.scheduler from congrArg (·.scheduler) hworld']
    exact h.others
  · rw [htid, hid]
    exact Context.accords_final htstate

/-- **In a turn that executes nothing else that ends contexts**, every context stays as it has to be, and
the one that has the turn ends as it has to end. -/
lemma concludes_runTurn (budget : Nat) (h : s.Agrees a) (hrunning : s.context.state = .run)
    (hhosts : s.scheduler.Hosts s.context.standing) (hends : s.toMachine.EndsContexts)
    (hrefrains : refrains budget s = true) :
    Concludes (a.after (s.PerformsWithin budget)) (runTurn budget s).1 (runTurn budget s).2 := by
  induction budget generalizing a s with
  | zero =>
      have hnone : ∀ native args t, ¬ s.PerformsWithin 0 native args t := by
        rintro native args t ⟨k, u, obj, v, hk, -⟩
        exact Nat.not_lt_zero k hk
      rw [after_performsWithin_none hnone]
      exact .of_stopped (.inr rfl) h.others (h.guarded.accords h.active)
  | succ budget ih =>
      cases hnext : s.nextObject? with
      | none => exact absurd hnext h.nextObject?_ne_none
      | some next =>
          obtain ⟨obj, v⟩ := next
          obtain ⟨hworld, -, -, -, -, ⟨-, rfl⟩ | ⟨hleft, hv⟩⟩ := h.nextObject hnext
          · exact concludes_bottom h hends hnext
          · have hquiet := quiet_of_nextObject? hnext
            have hvrunning := hquiet.running hrunning
            have hvhosts : v.scheduler.Hosts v.context.standing := by
              rw [hquiet.scheduler, hquiet.standing]
              exact hhosts
            have hvends := hends.sameMachine hquiet.toSameMachine
            simp only [refrains, hnext, Bool.and_eq_true, Bool.or_eq_true, beq_iff_eq] at hrefrains
            obtain ⟨hspares, hrest⟩ := hrefrains
            have hstep := agrees_execute hv hvrunning hvhosts hvends.segments
              (hspares.resolve_left hleft)
            have hacts := acts_execute obj hvrunning
            rw [Ends] at hacts
            cases hrun : execute obj v with
            | ok u w =>
                rw [hrun] at hacts hrest
                rw [finalState_of_ok hrun] at hstep
                have hturn : runTurn (budget + 1) s = runTurn budget w := by
                  rw [runTurn, hnext]
                  simp only [hrun]
                rw [hturn, after_performsWithin hnext hrun]
                exact ih hstep hacts.2 (hvhosts.effect hacts.1.effect)
                  (hvends.sameMachine hacts.1.toSameMachine) hrest
            | error fault w =>
                rw [hrun] at hacts
                rw [finalState_of_error hrun] at hstep
                rw [after_performsWithin_error hnext hrun, runTurn, hnext]
                simp only [hrun]
                split_ifs
                · exact .of_stopped (.inl rfl) hstep.others (hstep.guarded.accords hstep.active)
                · have hstate := state_fail (hvends.sameMachine hacts.toSameMachine) hstep.guarded fault
                  refine ⟨hstep.others, Context.accords_final hstate, fun h => by contradiction,
                    fun _ _ => ?_⟩
                  rw [hstate, ContextState.final]
                  split_ifs <;> rfl

end Session

end PostScriptCore
