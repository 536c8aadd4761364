import PostScriptCore.Machine.Turn
import PostScriptCore.Proofs.Builtin.Personal
import PostScriptCore.Proofs.Context.Registry

/-!
# What one object does to the contexts

Of all that a running context can do, only a few operators touch another context or its own standing
with the scheduler.  `Scheduler.Effect` lists what they do; every object that is executed has one of
these effects, whether it succeeds or fails, and leaves the machine's settings and operators alone.

* `Standing` — what the scheduler sees of a context.
* `Session.Quiet` — nothing of this changes.
* `Scheduler.Effect` — what can happen to the registry and to the running context's standing.
* `Session.Acts` — an action with one of these effects, which goes on running unless it fails.
* `Session.acts_execute` — executing an object is such an action.
-/

namespace PostScriptCore

/-- What the scheduler sees of a context. -/
structure Standing where
  id : Nat
  state : ContextState
  waitingOn : Option Nat

/-- The standing of a context. -/
def Context.standing (c : Context) : Standing := ⟨c.id, c.state, c.waitingOn⟩

lemma Context.standing_create {id : Nat} {settings : Settings} {c : Context}
    (h : Context.create id settings = .ok c) : c.standing = ⟨id, .run, none⟩ := by
  rw [Context.create] at h
  split at h
  · cases h
    rfl
  · contradiction

/-- The second memory is left by collections of the first. -/
def Memory.Collections : Memory → Memory → Prop :=
  Relation.ReflTransGen fun m n => ∃ roots, n = finalState (Memory.collect roots true false) m

lemma Memory.Collections.refl (m : Memory) : m.Collections m := Relation.ReflTransGen.refl

namespace Session

variable {ν α β : Type}

/-- Settings and operators stay, and the global memory is at most collected. -/
structure SameMachine (s t : Session ν) : Prop where
  settings : t.settings = s.settings
  operators : t.operators = s.operators
  system : t.system = s.system
  globalVM : s.globalVM.Collections t.globalVM

/-- No context but the running one has changed, and that one stands as it stood. -/
structure Quiet (s t : Session ν) : Prop extends SameMachine s t where
  scheduler : t.scheduler = s.scheduler
  standing : t.context.standing = s.context.standing

lemma SameMachine.refl (s : Session ν) : SameMachine s s := ⟨rfl, rfl, rfl, .refl _⟩

lemma SameMachine.trans {s t u : Session ν} (h : SameMachine s t) (h' : SameMachine t u) :
    SameMachine s u where
  settings := h'.settings.trans h.settings
  operators := h'.operators.trans h.operators
  system := h'.system.trans h.system
  globalVM := h.globalVM.trans h'.globalVM

lemma Quiet.refl (s : Session ν) : Quiet s s := ⟨SameMachine.refl s, rfl, rfl⟩

lemma Quiet.trans {s t u : Session ν} (h : Quiet s t) (h' : Quiet t u) : Quiet s u where
  toSameMachine := h.toSameMachine.trans h'.toSameMachine
  scheduler := h'.scheduler.trans h.scheduler
  standing := h'.standing.trans h.standing

instance : Std.Refl (@Quiet ν) where
  refl := Quiet.refl

instance : IsTrans (Session ν) Quiet where
  trans _ _ _ h h' := h.trans h'

/-! ## Quiet actions -/

lemma quiet_onContext {x : EStateM Fault Context α}
    (hx : ∀ c, Ends x c (fun _ d => d.standing = c.standing) fun _ d => d.standing = c.standing) :
    Follows Quiet (onContext x : Action ν α) := by
  intro s
  have hquiet : ∀ d : Context, d.standing = s.context.standing →
      Quiet s { s with context := d } := fun d hd => ⟨⟨rfl, rfl, rfl, .refl _⟩, rfl, hd⟩
  exact Ends.focus (Ends.mono (hx s.context) (fun _ d hd => hquiet d hd) fun _ d hd => hquiet d hd)

lemma quiet_onStackSet (x : EStateM Fault StackSet α) :
    Follows Quiet (onContext (Context.onStackSet x) : Action ν α) :=
  quiet_onContext fun _ => Ends.focus (Ends.always (fun _ _ => rfl) fun _ _ => rfl)

lemma quiet_onOperands (x : EStateM Fault Stack α) : Follows Quiet (onOperands x : Action ν α) :=
  quiet_onStackSet _

lemma quiet_onExec (x : EStateM Fault Stack α) : Follows Quiet (onExec x : Action ν α) :=
  quiet_onStackSet _

lemma quiet_onHold (x : EStateM Fault Stack α) : Follows Quiet (onHold x : Action ν α) :=
  quiet_onStackSet _

lemma quiet_onLocalVM (x : MemoryM α) : Follows Quiet (onLocalVM x : Action ν α) :=
  quiet_onContext fun _ => Ends.focus (Ends.always (fun _ _ => rfl) fun _ _ => rfl)

lemma quiet_push (obj : Object) : Follows Quiet (push obj : Action ν Unit) := quiet_onOperands _

lemma quiet_modifyContext {f : Context → Context} (hf : ∀ c, (f c).standing = c.standing) :
    Follows Quiet (modifyContext f : Action ν Unit) :=
  .modify fun s => ⟨⟨rfl, rfl, rfl, .refl _⟩, rfl, hf s.context⟩

lemma allowsPersonal_quiet : AllowsPersonal (@Quiet ν) where
  onOperands _ := quiet_onOperands _
  onLocalVM _ := quiet_onLocalVM _
  output _ _ := ⟨⟨rfl, rfl, rfl, .refl _⟩, rfl, rfl⟩

end Session

namespace Action

open Session

variable {ν : Type}

lemma quiet_collectLocal : Follows Quiet (onContext Context.collectLocal : Action ν Nat) :=
  quiet_onContext fun _ => Ends.bind (Ends.get (Ends.focus (Ends.always (fun _ _ => rfl) fun _ _ => rfl)))

/-- A collection of the global memory changes nothing else. -/
lemma ends_collectGlobal (roots : List Object) {s : Session ν} {P : Session ν → Prop}
    (h : ∀ m, s.globalVM.Collections m → P { s with globalVM := m }) :
    Ends (onGlobalVM (Memory.collect roots true false)) s (fun _ t => P t) fun _ t => P t := by
  have hcollected (m : Memory) (hm : m = finalState (Memory.collect roots true false) s.globalVM) :
      P { s with globalVM := m } := h m (.single ⟨roots, hm⟩)
  refine Ends.focus ?_
  cases hrun : Memory.collect roots true false s.globalVM with
  | ok total m => exact Ends.of_ok hrun (hcollected m (finalState_of_ok hrun).symm)
  | error fault m => exact Ends.of_error hrun (hcollected m (finalState_of_error hrun).symm)

lemma quiet_collectGlobal (roots : List Object) :
    Follows Quiet (onGlobalVM (Memory.collect roots true false) : Action ν Nat) := fun _ =>
  ends_collectGlobal roots fun _ hm => ⟨⟨rfl, rfl, rfl, hm⟩, rfl, rfl⟩

lemma quiet_vmReclaim (mode : Object) : Follows Quiet (vmReclaim mode : Action ν Unit) := by
  rw [vmReclaim]
  cases mode.asInt? with
  | none => exact .throw _
  | some z =>
      refine .ite (.pure ()) (.ite (.throw_bind _) ?_)
      refine .bind (.discard quiet_collectLocal) fun _ => .ite ?_ (.pure ())
      exact .bind .get fun _ => .discard (quiet_collectGlobal _)

end Action

/-! ## Effects -/

/-- What the running context can do to the registry and to its own standing. -/
inductive Scheduler.Effect (system : SystemOperators) (s : Scheduler) (me : Standing) :
    Scheduler → Standing → Prop
  | quiet : Effect system s me s me
  /-- A number was used up. -/
  | numbered : Effect system s me s.allocateId.2 me
  | forked (child : Context) (hid : child.id = s.nextId) (hstate : child.state = .run) :
    Effect system s me (s.allocateId.2.adopt child) me
  | blocked (target : Nat) :
    Effect system s me s { me with state := .wait, waitingOn := some target }
  | joined (target : Context) (hfind : s.find? target.id = some target)
    (hzombie : target.state = .zombie) (hrun : me.state = .run) :
    Effect system s me (s.update target.id Context.released) { me with waitingOn := none }
  | detached (target c : Context) (hfind : s.find? target.id = some target)
    (hdetached : Action.detached system target = .ok c) :
    Effect system s me (s.update target.id fun _ => c) me
  | ended (state : ContextState) (hstate : state.isActive = false) :
    Effect system s me s { me with state }

namespace Session

variable {ν α β : Type}

/-- The second session is the first after something with an effect. -/
structure Affects (s t : Session ν) : Prop extends SameMachine s t where
  effect : Scheduler.Effect s.system s.scheduler s.context.standing t.scheduler t.context.standing

lemma Quiet.affects {s t : Session ν} (h : Quiet s t) : Affects s t := by
  refine ⟨h.toSameMachine, ?_⟩
  rw [h.scheduler, h.standing]
  exact .quiet

lemma Quiet.then_affects {s t u : Session ν} (h : Quiet s t) (h' : Affects t u) : Affects s u := by
  refine ⟨h.toSameMachine.trans h'.toSameMachine, ?_⟩
  rw [← h.system, ← h.scheduler, ← h.standing]
  exact h'.effect

lemma Affects.then_quiet {s t u : Session ν} (h : Affects s t) (h' : Quiet t u) : Affects s u := by
  refine ⟨h.toSameMachine.trans h'.toSameMachine, ?_⟩
  rw [h'.scheduler, h'.standing]
  exact h.effect

lemma Quiet.running {s t : Session ν} (h : Quiet s t) (hrun : s.context.state = .run) :
    t.context.state = .run :=
  (congrArg Standing.state h.standing).trans hrun

/-- From a running context the action has an effect, and unless it fails the context goes on
running. -/
def Acts (x : Action ν α) (s : Session ν) : Prop :=
  s.context.state = .run →
    Ends x s (fun _ t => Affects s t ∧ t.context.state = .run) fun _ t => Affects s t

lemma acts_of_quiet {x : Action ν α} (hx : Follows Quiet x) (s : Session ν) : Acts x s := fun hrun =>
  Ends.mono (hx s) (fun _ _ ht => ⟨ht.affects, ht.running hrun⟩) fun _ _ ht => ht.affects

/-- What is quiet can come first. -/
lemma ends_bind_of_quiet {x : Action ν α} {f : α → Action ν β} {s : Session ν} (hx : Follows Quiet x)
    {ok : β → Session ν → Prop} {err : Fault → Session ν → Prop}
    (herr : ∀ e t, Quiet s t → err e t) (hf : ∀ a t, Quiet s t → Ends (f a) t ok err) :
    Ends (x >>= f) s ok err :=
  Ends.bind (Ends.mono (hx s) hf herr)

lemma acts_bind_of_quiet {x : Action ν α} {f : α → Action ν β} {s : Session ν} (hx : Follows Quiet x)
    (hf : ∀ a t, Quiet s t → Acts (f a) t) : Acts (x >>= f) s := by
  intro hrun
  refine ends_bind_of_quiet hx (fun _ _ ht => ht.affects) fun a t ht => ?_
  exact Ends.mono (hf a t ht (ht.running hrun))
    (fun _ _ hu => ⟨ht.then_affects hu.1, hu.2⟩) fun _ _ hu => ht.then_affects hu

end Session

/-! ## The operators of contexts -/

namespace Action

open Session

variable {ν : Type} {s : Session ν}

lemma standing_receive (source : Memory) (objs : List Object) (p : Transfer × Context) :
    Ends (receive source objs) p (fun _ q => q.2.standing = p.2.standing)
      fun _ q => q.2.standing = p.2.standing := by
  induction objs generalizing p with
  | nil => exact rfl
  | cons obj rest ih =>
      refine Ends.bind (Ends.focus (Ends.always (fun image part => ?_) fun _ _ => rfl))
      refine Ends.bind (Ends.focus (Ends.focus (Ends.always (fun _ stackSet => ?_) fun _ _ => rfl)))
      exact ih _

lemma standing_makeChild {id zombie : Nat} {settings : Settings} {parent : Memory}
    {operands : List Object} {proc : Object} {child : Context}
    (h : makeChild id settings parent zombie operands proc = .ok child) :
    child.standing = ⟨id, .run, none⟩ := by
  rw [makeChild] at h
  split at h
  · contradiction
  next fresh hcreate =>
    have hfilled : Ends (do
        receive parent operands
        let body ← intoLocalVM (Transfer.copy parent proc)
        ontoStackSet (StackSet.onExec (Stack.pushAll [Object.operator zombie, body])) :
          ReceiverM Unit) (Transfer.empty, fresh) (fun _ q => q.2.standing = fresh.standing)
        fun _ _ => True := by
      refine Ends.bind (Ends.mono (standing_receive _ _ _) (fun _ q hq => ?_) fun _ _ _ => trivial)
      refine Ends.bind (Ends.focus (Ends.always (fun body part => ?_) fun _ _ => trivial))
      exact Ends.focus (Ends.focus (Ends.always (fun _ _ => hq) fun _ _ => trivial))
    dsimp only at h
    split at h
    · next hrun =>
      cases h
      rw [Ends, hrun] at hfilled
      exact hfilled.trans (Context.standing_create hcreate)
    · contradiction

lemma acts_fork (proc : Object) : Acts (fork proc) s := by
  refine acts_bind_of_quiet (.query _) fun count t _ => fun hrun => Ends.bind ?_
  show Ends _ { t with scheduler := t.scheduler.allocateId.2 } _ _
  have hnumbered : Affects t { t with scheduler := t.scheduler.allocateId.2 } :=
    ⟨⟨rfl, rfl, rfl, .refl _⟩, .numbered⟩
  refine Ends.bind (Ends.query (fun child hchild => ?_) fun _ _ => hnumbered)
  refine ends_bind_of_quiet (quiet_onOperands _) (fun _ _ hu => hnumbered.then_quiet hu) fun _ u hu => ?_
  refine ends_bind_of_quiet (quiet_push _) (fun _ _ hv => hnumbered.then_quiet (hu.trans hv))
    fun _ v hv => ?_
  have hv := hu.trans hv
  have hstanding := standing_makeChild hchild
  refine ⟨hnumbered.toSameMachine.trans (hv.toSameMachine.trans ⟨rfl, rfl, rfl, .refl _⟩), ?_⟩
  show Scheduler.Effect t.system t.scheduler t.context.standing (v.scheduler.adopt child)
    v.context.standing
  rw [hv.scheduler, hv.standing]
  exact .forked child (congrArg Standing.id hstanding) (congrArg Standing.state hstanding)

lemma acts_deliver {target : Context} (hfind : s.scheduler.find? target.id = some target)
    (hzombie : target.state = .zombie) : Acts (deliver target) s := by
  have hreceive : Follows Quiet (focus (fun s => (Transfer.empty, s.context))
      (fun part s => { s with context := part.2 }) (Transfer.empty, Context.vacant)
      (receive target.localVM target.stackSet.operands.toList) : Action ν Unit) := by
    intro t
    have hquiet : ∀ c : Context, c.standing = t.context.standing →
        Quiet t { t with context := c } := fun c hc => ⟨⟨rfl, rfl, rfl, .refl _⟩, rfl, hc⟩
    exact Ends.focus (Ends.mono (standing_receive _ _ (Transfer.empty, t.context))
      (fun _ q hq => hquiet q.2 hq) fun _ q hq => hquiet q.2 hq)
  intro hrun
  refine Ends.bind (Ends.get ?_)
  dsimp only
  split
  · exact (Quiet.refl s).affects
  · refine ends_bind_of_quiet (quiet_push _) (fun _ _ ht => ht.affects) fun _ t ht => ?_
    refine ends_bind_of_quiet hreceive (fun _ _ hu => (ht.trans hu).affects) fun _ u hu => ?_
    have hu := ht.trans hu
    refine ⟨⟨hu.toSameMachine.trans ⟨rfl, rfl, rfl, .refl _⟩, ?_⟩, hu.running hrun⟩
    show Scheduler.Effect s.system s.scheduler s.context.standing
      (u.scheduler.update target.id Context.released) { u.context.standing with waitingOn := none }
    rw [hu.scheduler, hu.standing]
    exact .joined target hfind hzombie hrun

lemma acts_waitFor (id : Nat) (handle : Object) : Acts (waitFor id handle) s := by
  intro hrun
  refine Ends.bind (Ends.get ?_)
  refine ends_bind_of_quiet (quiet_onExec _) (fun _ _ ht => ht.affects) fun _ t ht => ?_
  refine ends_bind_of_quiet (quiet_onExec _) (fun _ _ hu => (ht.trans hu).affects) fun _ u hu => ?_
  have hu := ht.trans hu
  refine ⟨hu.toSameMachine.trans ⟨rfl, rfl, rfl, .refl _⟩, ?_⟩
  show Scheduler.Effect s.system s.scheduler s.context.standing u.scheduler
    { u.context.standing with state := .wait, waitingOn := some id }
  rw [hu.scheduler, hu.standing]
  exact .blocked id

lemma acts_join (handle : Object) : Acts (join handle) s := by
  rw [join]
  cases handle.asContext? with
  | none => exact acts_of_quiet (.throw _) s
  | some id =>
      intro hrun
      refine Ends.bind (Ends.get ?_)
      cases hfind : s.scheduler.find? id with
      | none => exact (Quiet.refl s).affects
      | some target =>
          have hid := Scheduler.id_of_find? hfind
          dsimp only
          cases hstate : target.state with
          | zombie => exact acts_deliver (hid.symm ▸ hfind) hstate hrun
          | free => exact (Quiet.refl s).affects
          | run => exact acts_waitFor id handle hrun
          | wait => exact acts_waitFor id handle hrun

/-- A context that is detached keeps its number, and stays active or inactive. -/
lemma standing_detached {system : SystemOperators} {target c : Context}
    (h : detached system target = .ok c) :
    target.state ≠ .free ∧ c.id = target.id ∧ c.waitingOn = target.waitingOn ∧
      c.state = if target.state = .zombie then .free else target.state := by
  rw [detached] at h
  cases hstate : target.state with
  | zombie =>
      simp only [hstate, Except.ok.injEq] at h
      simp [← h]
  | free => simp [hstate] at h
  | run | wait =>
      simp only [hstate] at h
      split at h
      · split at h
        · cases h
          simp
        · contradiction
      · contradiction

/-- An active context that is detached had the ending operator of a forked one at the bottom, and it
was exchanged. -/
lemma detached_active {system : SystemOperators} {target c : Context}
    (h : detached system target = .ok c) (hactive : target.state.isActive = true) :
    target.stackSet.exec.fromBottom? 0 = some (Object.operator system.zombie) ∧
    ∃ exec, Stack.replaceFromBottom 0 (Object.operator system.free) target.stackSet.exec =
        .ok () exec ∧
      c = { target with stackSet := { target.stackSet with exec } } := by
  rw [detached] at h
  cases hstate : target.state with
  | run | wait =>
      simp only [hstate] at h
      split at h
      · next hbottom =>
        refine ⟨hbottom, ?_⟩
        split at h
        · next exec hreplace =>
          cases h
          exact ⟨exec, hreplace, rfl⟩
        · contradiction
      · contradiction
  | zombie | free =>
      rw [hstate] at hactive
      contradiction

lemma acts_detach (handle : Object) : Acts (detach handle) s := by
  rw [detach]
  cases handle.asContext? with
  | none => exact acts_of_quiet (.throw _) s
  | some id =>
      intro hrun
      refine Ends.bind (Ends.get ?_)
      split
      · refine Ends.bind (Ends.query (fun c hc => ?_) fun _ _ => (Quiet.refl s).affects)
        obtain ⟨-, hid, hwaits, hstate⟩ := standing_detached hc
        rw [hrun, if_neg nofun] at hstate
        have hstanding : c.standing = s.context.standing := by
          rw [Context.standing, hid, hwaits, hstate, Context.standing, hrun]
        have hquiet : Quiet s { s with context := c } :=
          ⟨⟨rfl, rfl, rfl, .refl _⟩, rfl, hstanding⟩
        exact ⟨hquiet.affects, hquiet.running hrun⟩
      · cases hfind : s.scheduler.find? id with
        | none => exact (Quiet.refl s).affects
        | some target =>
            have hid := Scheduler.id_of_find? hfind
            subst hid
            refine Ends.bind (Ends.query (fun c hc => ?_) fun _ _ => (Quiet.refl s).affects)
            exact ⟨⟨⟨rfl, rfl, rfl, .refl _⟩, .detached target c hfind hc⟩, hrun⟩

lemma acts_finish {state : ContextState} (h : state.isActive = false) :
    Acts (finish state) s := fun _ =>
  ⟨⟨rfl, rfl, rfl, .refl _⟩, .ended state h⟩

end Action

/-! ## Executing an object -/

open Session in
/-- Every built-in operator has an effect. -/
lemma Builtin.acts_run {ν : Type} (native : Builtin) (args : List Object) (s : Session ν) :
    Acts (native.run args) s := by
  cases native.concerns args with
  | itself args hpersonal => exact acts_of_quiet (personal_run allowsPersonal_quiet hpersonal args) s
  | nobody h =>
      rw [h]
      exact acts_of_quiet (.throw _) s
  | globalVM mode => exact acts_of_quiet (Action.quiet_vmReclaim mode) s
  | child proc => exact Action.acts_fork proc
  | joined handle => exact Action.acts_join handle
  | detached handle => exact Action.acts_detach handle
  | ended => exact Action.acts_finish rfl
  | freed => exact Action.acts_finish rfl

namespace Session

variable {ν : Type} {s : Session Builtin}

/-- Dropping the held arguments afterwards adds nothing. -/
lemma acts_releasingHold {body : Action ν Unit} {s : Session ν} (hbody : Acts body s) (need : Nat) :
    Acts (releasingHold need body) s := by
  intro hrun
  have hends := hbody hrun
  have hdrop : Follows Quiet (onHold (Stack.drop need) : Action ν Unit) := quiet_onHold _
  rw [Ends] at hends ⊢
  rw [releasingHold]
  cases hresult : body s with
  | ok a t =>
      rw [hresult] at hends
      exact Ends.mono (hdrop t) (fun _ _ hu => ⟨hends.1.then_quiet hu, hu.running hends.2⟩)
        fun _ _ hu => hends.1.then_quiet hu
  | error fault t =>
      rw [hresult] at hends
      dsimp only at hends ⊢
      split_ifs
      · exact hends
      · have hdrop := hdrop t
        rw [Ends] at hdrop
        cases hu : (onHold (Stack.drop need) : Action ν Unit) t with
        | ok a u =>
            rw [hu] at hdrop
            exact hends.then_quiet hdrop
        | error e u =>
            rw [hu] at hdrop
            exact hends.then_quiet hdrop

lemma quiet_holdOperands (opcode : Nat) (signature : Signature) :
    Follows Quiet (holdOperands opcode signature : Action ν (List Object)) :=
  .bind (quiet_onOperands _) fun _ => .bind (quiet_onOperands _) fun _ => .bind (quiet_onHold _) fun _ =>
    .bind (quiet_modifyContext fun _ => rfl) fun _ => .pure _

lemma acts_dispatch (opcode : Nat) : Acts (dispatch opcode) s := by
  refine acts_bind_of_quiet .get fun _ t _ => ?_
  rw [dispatchNested]
  refine acts_bind_of_quiet (quiet_modifyContext fun _ => rfl) fun _ u _ => ?_
  refine acts_bind_of_quiet (.query _) fun signature v _ => ?_
  rw [invoke]
  refine acts_bind_of_quiet (.query _) fun _ w _ => ?_
  refine acts_bind_of_quiet (quiet_holdOperands _ _) fun args x _ => ?_
  refine acts_bind_of_quiet .get fun _ y _ => ?_
  split
  · exact acts_of_quiet (.throw _) y
  · next native _ => exact acts_releasingHold (native.acts_run args y) _

lemma quiet_step (proc : Object) : Follows Quiet (step proc : Action ν Unit) := by
  have hfirst : ∀ first : Object, Follows Quiet (if first.isProc || !first.executable then push first
      else onExec (Stack.push first) : Action ν Unit) := fun _ => .ite (quiet_push _) (quiet_onExec _)
  refine .ite (.pure ()) (.bind (.query _) fun first => .ite ?_ (hfirst first))
  exact .bind (.query _) fun _ => .bind (quiet_onExec _) fun _ => hfirst first

lemma acts_runOperator (current : Object) (opcode : Nat) : Acts (runOperator current opcode) s :=
  acts_bind_of_quiet (quiet_modifyContext fun _ => rfl) fun _ _ _ => acts_dispatch opcode

/-- **Executing an object** has an effect, and unless it fails the context goes on running. -/
lemma acts_execute (obj : Object) : Acts (execute obj) s := by
  rw [execute]
  split
  · exact acts_of_quiet (quiet_push obj) s
  · cases obj.ty with
    | operator => exact acts_runOperator obj _
    | name =>
        refine acts_bind_of_quiet .get fun _ t _ => ?_
        split
        · exact acts_runOperator _ _
        · exact acts_of_quiet (.throw _) t
    | array => exact acts_of_quiet (quiet_step obj) s
    | null => exact acts_of_quiet (.pure ()) s
    | _ => exact acts_of_quiet (quiet_push obj) s

end Session

end PostScriptCore
