import PostScriptCore.Proofs.Machine.Execution

/-!
# What is left to execute

An object that is executed with success leaves the execution stack as it was, unless it is a procedure:
only a detach of the running context reaches down to it, and exchanges the operator at its bottom.  An
object that hands control away may have put something on top.

* `SystemOperators.Exchanged` — objects to execute, and the same after a detach.
* `SystemOperators.Exchanges` — the same, told by whether the context was detached.
* `Session.LeavesPending` — the execution stack is as it was, but for a detach.
* `Session.KeepsPending` — the two ends of an action, as far as the execution stack goes.
* `Builtin.keepsPending_run`, `Session.keepsPending_execute` — a native, and an object that is no procedure.
* `Session.DetachesItself`, `Session.exchanges_execute` — which objects exchange the bottom.
-/

namespace PostScriptCore

/-- The objects are the same, but the operator at the bottom may have been exchanged by a detach. -/
def SystemOperators.Exchanged (system : SystemOperators) (objs objs' : List Object) : Prop :=
  objs' = objs ∨ ∃ above, objs = Object.operator system.zombie :: above ∧
    objs' = Object.operator system.free :: above

namespace SystemOperators.Exchanged

variable {system : SystemOperators} {objs objs' objs'' : List Object}

lemma trans (h : system.Exchanged objs objs') (h' : system.Exchanged objs' objs'') :
    system.Exchanged objs objs'' := by
  rcases h with rfl | ⟨above, rfl, rfl⟩
  · exact h'
  · rcases h' with rfl | ⟨above', hsame, rfl⟩
    · exact .inr ⟨above, rfl, rfl⟩
    · exact .inr ⟨above, rfl, by rw [(List.cons.inj hsame).2]⟩

lemma length_eq (h : system.Exchanged objs objs') : objs'.length = objs.length := by
  rcases h with rfl | ⟨above, rfl, rfl⟩ <;> rfl

/-- The operators that end a context weigh the same. -/
lemma sum_map_eq (h : system.Exchanged objs objs') {f : Object → Nat}
    (hf : f (Object.operator system.free) = f (Object.operator system.zombie)) :
    (objs'.map f).sum = (objs.map f).sum := by
  rcases h with rfl | ⟨above, rfl, rfl⟩
  · rfl
  · rw [List.map_cons, List.map_cons, List.sum_cons, List.sum_cons, hf]

end SystemOperators.Exchanged

/-- The objects are the same, unless the context was detached: then the operator at the bottom was
exchanged. -/
structure SystemOperators.Exchanges (system : SystemOperators) (detached : Prop)
    (objs objs' : List Object) : Prop where
  kept : ¬ detached → objs' = objs
  exchanged : detached → ∃ above, objs = Object.operator system.zombie :: above ∧
    objs' = Object.operator system.free :: above

namespace SystemOperators.Exchanges

variable {system : SystemOperators} {detached : Prop} {objs objs' : List Object}

lemma of_not (hdetached : ¬ detached) (hsame : objs' = objs) : system.Exchanges detached objs objs' :=
  ⟨fun _ => hsame, fun h => absurd h hdetached⟩

lemma length_eq (h : system.Exchanges detached objs objs') : objs'.length = objs.length := by
  by_cases hdetached : detached
  · obtain ⟨above, rfl, rfl⟩ := h.exchanged hdetached
    rfl
  · rw [h.kept hdetached]

/-- If another object stands at the bottom, the context was detached. -/
lemma detached_of_bottom (hne : Object.operator system.zombie ≠ Object.operator system.free) {above above' : List Object}
    (h : system.Exchanges detached (Object.operator system.zombie :: above)
      (Object.operator system.free :: above')) : detached ∧ above' = above := by
  by_cases hdetached : detached
  · obtain ⟨rest, hbefore, hafter⟩ := h.exchanged hdetached
    exact ⟨hdetached, (List.cons.inj hafter).2.trans (List.cons.inj hbefore).2.symm⟩
  · exact absurd (List.cons.inj (h.kept hdetached)).1.symm hne

/-- What stands above the rest is never exchanged together with the bottom. -/
lemma of_concat {above : Object} (habove : above ≠ Object.operator system.zombie)
    (h : system.Exchanges detached (objs ++ [above]) objs') :
    ∃ objs'', objs' = objs'' ++ [above] ∧ system.Exchanges detached objs objs'' := by
  by_cases hdetached : detached
  · obtain ⟨rest, hsplit, rfl⟩ := h.exchanged hdetached
    cases objs with
    | nil => exact absurd (List.cons.inj hsplit).1 habove
    | cons bottom objs =>
        obtain ⟨rfl, rfl⟩ := List.cons.inj hsplit
        exact ⟨_, rfl, fun hnot => absurd hdetached hnot, fun _ => ⟨objs, rfl, rfl⟩⟩
  · exact ⟨objs, h.kept hdetached, .of_not hdetached rfl⟩

end SystemOperators.Exchanges

namespace Session

variable {ν α : Type} {s t u : Session ν}

/-- The execution stack is as it was, but the operator at its bottom may have been exchanged. -/
structure LeavesPending (s t : Session ν) : Prop where
  system : t.system = s.system
  limit : t.context.stackSet.exec.limit = s.context.stackSet.exec.limit
  wellFormed : s.context.stackSet.exec.WellFormed → t.context.stackSet.exec.WellFormed
  items : s.context.stackSet.exec.WellFormed →
    s.system.Exchanged s.context.stackSet.exec.toList t.context.stackSet.exec.toList

lemma LeavesPending.of_same (hsystem : t.system = s.system)
    (hexec : t.context.stackSet.exec = s.context.stackSet.exec) : LeavesPending s t :=
  ⟨hsystem, congrArg Stack.limit hexec, fun h => hexec ▸ h, fun _ => .inl (congrArg Stack.toList hexec)⟩

lemma LeavesPending.refl (s : Session ν) : LeavesPending s s := .of_same rfl rfl

lemma LeavesPending.trans (h : LeavesPending s t) (h' : LeavesPending t u) : LeavesPending s u where
  system := h'.system.trans h.system
  limit := h'.limit.trans h.limit
  wellFormed := fun hs => h'.wellFormed (h.wellFormed hs)
  items := fun hs => (h.items hs).trans (h.system ▸ h'.items (h.wellFormed hs))

/-- Where nothing was taken off besides, the execution stack is as it was. -/
lemma LeavesPending.items_eq (h : LeavesPending s t) (hs : s.context.stackSet.exec.WellFormed)
    (hgrows : s.context.stackSet.exec.Grows t.context.stackSet.exec) :
    t.context.stackSet.exec.toList = s.context.stackSet.exec.toList :=
  ((hgrows hs).2.eq_of_length (h.items hs).length_eq.symm).symm

instance : Std.Refl (@LeavesPending ν) where
  refl := LeavesPending.refl

instance : IsTrans (Session ν) LeavesPending where
  trans _ _ _ h h' := h.trans h'

/-! ## Actions on the rest of the session -/

lemma leavesPending_onContext {x : EStateM Fault Context α}
    (hx : ∀ c : Context, Ends x c (fun _ d => d.stackSet.exec = c.stackSet.exec)
      fun _ d => d.stackSet.exec = c.stackSet.exec) :
    Follows LeavesPending (onContext x : Action ν α) := fun s =>
  Ends.focus (Ends.mono (hx s.context) (fun _ _ h => .of_same rfl h) fun _ _ h => .of_same rfl h)

lemma leavesPending_onOperands (x : EStateM Fault Stack α) :
    Follows LeavesPending (onOperands x : Action ν α) :=
  leavesPending_onContext fun _ =>
    Ends.focus (Ends.focus (Ends.always (fun _ _ => rfl) fun _ _ => rfl))

lemma leavesPending_onHold (x : EStateM Fault Stack α) :
    Follows LeavesPending (onHold x : Action ν α) :=
  leavesPending_onContext fun _ =>
    Ends.focus (Ends.focus (Ends.always (fun _ _ => rfl) fun _ _ => rfl))

lemma leavesPending_onLocalVM (x : MemoryM α) : Follows LeavesPending (onLocalVM x : Action ν α) :=
  leavesPending_onContext fun _ => Ends.focus (Ends.always (fun _ _ => rfl) fun _ _ => rfl)

lemma leavesPending_push (obj : Object) : Follows LeavesPending (push obj : Action ν Unit) :=
  leavesPending_onOperands _

lemma allowsPersonal_leavesPending : AllowsPersonal (@LeavesPending ν) where
  onOperands _ := leavesPending_onOperands _
  onLocalVM _ := leavesPending_onLocalVM _
  output _ _ := .of_same rfl rfl

/-! ## The ends of an action -/

/-- The action leaves what is pending, or hands control away with something more on top of it, or
fails. -/
def KeepsPending (x : Action ν α) (s : Session ν) : Prop :=
  Ends x s (fun _ t => LeavesPending s t) fun fault t =>
    fault.isControl = true → s.context.stackSet.exec.Grows t.context.stackSet.exec

lemma keepsPending_throw (fault : Fault) : KeepsPending (throw fault : Action ν α) s :=
  fun _ => .refl _

/-- An action that is private besides has at most put something on top. -/
lemma keepsPending_of_follows {x : Action ν α} (hleaves : Follows LeavesPending x)
    (hprivate : Follows Private x) : KeepsPending x s :=
  Ends.mono (Ends.and (hleaves s) (hprivate s)) (fun _ _ h => h.1) fun _ _ h _ => h.2.context.exec

lemma keepsPending_bind {β : Type} {x : Action ν α} {f : α → Action ν β}
    (hleaves : Follows LeavesPending x) (hprivate : Follows Private x)
    (hf : ∀ a t, KeepsPending (f a) t) : KeepsPending (x >>= f) s :=
  Ends.bind (Ends.mono (Ends.and (hleaves s) (hprivate s))
    (fun a t ht => Ends.mono (hf a t) (fun _ _ hu => ht.1.trans hu)
      fun _ _ hu hcontrol => ht.2.context.exec.trans (hu hcontrol))
    fun _ _ ht _ => ht.2.context.exec)

end Session

/-! ## Natives -/

namespace Action

open Session

variable {ν : Type} {s : Session ν}

/-- A detach exchanges the bottom of the execution stack of an active context, and leaves that of a finished
one alone. -/
lemma exec_detached {system : SystemOperators} {target c : Context}
    (h : detached system target = .ok c) :
    target.state.isActive = false ∧ c.stackSet.exec = target.stackSet.exec ∨
      target.state.isActive = true ∧
        target.stackSet.exec.fromBottom? 0 = some (Object.operator system.zombie) ∧
          Stack.replaceFromBottom 0 (Object.operator system.free) target.stackSet.exec =
            .ok () c.stackSet.exec := by
  cases hactive : target.state.isActive with
  | true =>
      obtain ⟨hbottom, exec, hrun, rfl⟩ := detached_active h hactive
      exact .inr ⟨rfl, hbottom, hrun⟩
  | false =>
      rw [detached] at h
      cases hstate : target.state with
      | run | wait =>
          rw [hstate] at hactive
          contradiction
      | free =>
          rw [hstate] at h
          contradiction
      | zombie =>
          rw [hstate] at h
          cases h
          exact .inl ⟨rfl, rfl⟩

/-- What the exchange does to the list of objects. -/
lemma exchanged_replaceFromBottom {exec exec' : Stack} {before after : Object} (hs : exec.WellFormed)
    (hbottom : exec.fromBottom? 0 = some before)
    (hrun : Stack.replaceFromBottom 0 after exec = .ok () exec') :
    exec'.WellFormed ∧ ∃ above, exec.toList = before :: above ∧ exec'.toList = after :: above := by
  have hcount : 0 < exec.count := by
    by_contra hempty
    rw [Stack.fromBottom?, if_neg hempty] at hbottom
    contradiction
  obtain ⟨exec'', hrun', hwf, hlist⟩ := Stack.replaceFromBottom_run hs hcount after
  rw [hrun] at hrun'
  cases hrun'
  refine ⟨hwf, ?_⟩
  rw [Stack.fromBottom?_eq_getElem?] at hbottom
  cases hitems : exec.toList with
  | nil =>
      rw [hitems] at hbottom
      contradiction
  | cons bottom above =>
      rw [hitems] at hbottom
      exact ⟨above, by rw [Option.some.inj hbottom], by rw [hlist, hitems]; rfl⟩

/-- A detach of the running context exchanges the bottom of its execution stack. -/
lemma leavesPending_detached {c : Context} (h : detached s.system s.context = .ok c) :
    LeavesPending s { s with context := c } := by
  rcases exec_detached h with ⟨-, hexec⟩ | ⟨-, hbottom, hrun⟩
  · exact .of_same rfl hexec
  · exact ⟨rfl, Stack.limit_replaceFromBottom hrun,
      fun hs => (exchanged_replaceFromBottom hs hbottom hrun).1,
      fun hs => .inr (exchanged_replaceFromBottom hs hbottom hrun).2⟩

/-- **A detach that succeeds** exchanges the bottom of what the running context executes exactly if it names
this context and it is active. -/
lemma exchanges_detach {handle : Object} {t : Session ν} (hs : s.context.stackSet.exec.WellFormed)
    (hrun : detach handle s = .ok () t) :
    s.system.Exchanges (s.context.state.isActive = true ∧ handle.asContext? = some s.context.id)
      s.context.stackSet.exec.toList t.context.stackSet.exec.toList := by
  by_cases hself : handle.asContext? = some s.context.id
  · have hends : Ends (detach handle) s
        (fun _ t => ∃ c, detached s.system s.context = .ok c ∧ t = { s with context := c })
        fun _ _ => True := by
      rw [detach, hself]
      refine Ends.bind (Ends.get ?_)
      rw [if_pos rfl]
      exact Ends.bind (Ends.query (fun c hc => ⟨c, hc, rfl⟩) fun _ _ => trivial)
    rw [Ends, hrun] at hends
    obtain ⟨c, hdetached, rfl⟩ := hends
    rcases exec_detached hdetached with ⟨hinactive, hexec⟩ | ⟨hactive, hbottom, hreplace⟩
    · exact .of_not (fun h => by rw [hinactive] at h; exact Bool.false_ne_true h.1)
        (congrArg Stack.toList hexec)
    · exact ⟨fun hnot => absurd ⟨hactive, hself⟩ hnot,
        fun _ => (exchanged_replaceFromBottom hs hbottom hreplace).2⟩
  · have hends := ends_detach handle s
    rw [Ends, hrun] at hends
    obtain ⟨target, c, hnames, -, ⟨rfl, -⟩ | ⟨-, rfl⟩⟩ := hends
    · exact absurd hnames hself
    · exact .of_not (fun h => hself h.2) rfl

/-- **A detach of the running context** succeeds if it is active and still has the operator at the bottom that
waits for a join. -/
lemma detach_itself {handle : Object} {above : List Object} (hself : handle.asContext? = some s.context.id)
    (hactive : s.context.state.isActive = true) (hs : s.context.stackSet.exec.WellFormed)
    (hitems : s.context.stackSet.exec.toList = Object.operator s.system.zombie :: above) :
    ∃ exec, exec.WellFormed ∧ exec.toList = Object.operator s.system.free :: above ∧
      detach handle s = .ok () (s.setExec exec) := by
  have hbottom : s.context.stackSet.exec.fromBottom? 0 = some (Object.operator s.system.zombie) := by
    rw [Stack.fromBottom?_eq_getElem?, hitems]
    rfl
  have hcount : 0 < s.context.stackSet.exec.count := by
    rw [← Stack.length_toList, hitems]
    exact Nat.succ_pos _
  obtain ⟨exec, hreplace, hwf, hlist⟩ := Stack.replaceFromBottom_run hs hcount (Object.operator s.system.free)
  have hdetached : detached s.system s.context = .ok (s.setExec exec).context := by
    rw [detached]
    cases hstate : s.context.state with
    | run | wait => simp only [if_pos hbottom, hreplace, setExec, hstate]
    | zombie | free =>
        rw [hstate] at hactive
        contradiction
  refine ⟨exec, hwf, hlist.trans (by rw [hitems]; rfl), ?_⟩
  rw [detach, hself]
  refine (bind_ok (x := get) rfl).trans ?_
  rw [if_pos rfl]
  exact (bind_ok (query_ok (f := fun s : Session ν => detached s.system s.context) hdetached)).trans rfl

lemma exec_receive (source : Memory) (objs : List Object) (p : Transfer × Context) :
    Ends (receive source objs) p (fun _ q => q.2.stackSet.exec = p.2.stackSet.exec)
      fun _ q => q.2.stackSet.exec = p.2.stackSet.exec := by
  induction objs generalizing p with
  | nil => exact rfl
  | cons obj rest ih =>
      refine Ends.bind (Ends.focus (Ends.always (fun image part => ?_) fun _ _ => rfl))
      refine Ends.bind (Ends.focus (Ends.focus (Ends.focus
        (Ends.always (fun _ operands => ?_) fun _ _ => rfl))))
      exact ih _

lemma leavesPending_deliver (target : Context) :
    Follows LeavesPending (deliver target : Action ν Unit) := by
  have hreceive : Follows LeavesPending (focus (fun s => (Transfer.empty, s.context))
      (fun part s => { s with context := part.2 }) (Transfer.empty, Context.vacant)
      (receive target.localVM target.stackSet.operands.toList) : Action ν Unit) := fun s =>
    Ends.focus (Ends.mono (exec_receive _ _ (Transfer.empty, s.context))
      (fun _ _ h => .of_same rfl h) fun _ _ h => .of_same rfl h)
  refine .bind .get fun _ => .ite (.throw_bind _) (.bind (leavesPending_push _) fun _ => ?_)
  exact .bind hreceive fun _ => .bind (.modify fun _ => .of_same rfl rfl) fun _ =>
    .modify fun _ => .of_same rfl rfl

/-- **A join** that succeeds has delivered, and one that waits puts itself on top. -/
lemma keepsPending_join (handle : Object) : KeepsPending (join handle) s := by
  have hgrows : Ends (join handle) s (fun _ _ => True) fun _ t =>
      s.context.stackSet.exec.Grows t.context.stackSet.exec :=
    Ends.mono (ends_join handle s) (fun _ _ _ => trivial) fun _ _ h => h.goes_on.context.exec
  have hleaves : Ends (join handle) s (fun _ t => LeavesPending s t) fun _ _ => True := by
    rw [join]
    cases handle.asContext? with
    | none => trivial
    | some id =>
        refine Ends.bind (Ends.get ?_)
        cases s.scheduler.find? id with
        | none => trivial
        | some target =>
            dsimp only
            cases target.state with
            | zombie => exact Ends.mono (leavesPending_deliver target s) (fun _ _ h => h) fun _ _ _ => trivial
            | free => trivial
            | run | wait =>
                exact Ends.mono (ends_waitFor id handle s) (fun _ _ h => h.elim) fun _ _ _ => trivial
  exact Ends.mono (Ends.and hleaves hgrows) (fun _ _ h => h.1) fun _ _ h _ => h.2

lemma leavesPending_vmReclaim (mode : Object) :
    Follows LeavesPending (vmReclaim mode : Action ν Unit) := by
  have hlocal : Follows LeavesPending (onContext Context.collectLocal : Action ν Nat) :=
    leavesPending_onContext fun _ =>
      Ends.bind (Ends.get (Ends.focus (Ends.always (fun _ _ => rfl) fun _ _ => rfl)))
  have hglobal (x : MemoryM Nat) : Follows LeavesPending (onGlobalVM x : Action ν Nat) := fun _ =>
    Ends.focus (Ends.always (fun _ _ => .of_same rfl rfl) fun _ _ => .of_same rfl rfl)
  rw [vmReclaim]
  split
  · exact .throw _
  · refine .ite (.pure _) (.ite (.throw_bind _) (.bind (.map hlocal _) fun _ => .ite ?_ (.pure _)))
    exact .bind .get fun _ => .map (hglobal _) _

end Action

open Session in
/-- **A native** that runs with success leaves what is pending. -/
lemma Builtin.keepsPending_run {ν : Type} {s : Session ν} (native : Builtin) (args : List Object) :
    KeepsPending (native.run args) s := by
  cases native.concerns args with
  | itself args hpersonal =>
      exact keepsPending_of_follows (personal_run allowsPersonal_leavesPending hpersonal args)
        (private_run hpersonal args)
  | nobody hrefused =>
      rw [hrefused ν]
      exact keepsPending_throw _
  | globalVM mode =>
      exact Ends.mono (Ends.and (Action.leavesPending_vmReclaim mode s) (Action.ends_vmReclaim mode s))
        (fun _ _ h => h.1) fun _ _ h _ => h.2.goes_on.context.exec
  | child proc =>
      exact Ends.mono (Action.ends_fork proc s) (fun _ _ h => h.elim) fun _ _ h _ => h.1.context.exec
  | joined handle => exact Action.keepsPending_join handle
  | detached handle =>
      refine Ends.mono (Action.ends_detach handle s) ?_ fun _ _ h _ => h ▸ .refl _
      rintro _ _ ⟨target, c, -, hdetached, ⟨rfl, rfl⟩ | ⟨-, rfl⟩⟩
      · exact Action.leavesPending_detached hdetached
      · exact .of_same rfl rfl
  | ended | freed => exact fun _ => .refl _

open Session in
/-- **A native that succeeds** exchanges the bottom exactly if it detaches the running context. -/
lemma Builtin.exchanges_run {s t : Session Builtin} {native : Builtin} {args : List Object}
    (hs : s.context.stackSet.exec.WellFormed) (hrun : native.run args s = .ok () t) :
    s.system.Exchanges (s.context.state.isActive = true ∧ (runs native args s).Detaches s.context.id)
      s.context.stackSet.exec.toList t.context.stackSet.exec.toList := by
  have hleaves : LeavesPending s t := by
    have hkeeps := Builtin.keepsPending_run (s := s) native args
    rw [KeepsPending, Ends, hrun] at hkeeps
    exact hkeeps
  have hother (hne : native ≠ .detach) (hgrows : s.context.stackSet.exec.Grows t.context.stackSet.exec) :
      s.system.Exchanges (s.context.state.isActive = true ∧ (runs native args s).Detaches s.context.id)
        s.context.stackSet.exec.toList t.context.stackSet.exec.toList := by
    refine .of_not ?_ (hleaves.items_eq hs hgrows)
    rintro ⟨-, handle, s', ⟨⟨rfl, -, -⟩, -⟩, -⟩
    exact hne rfl
  cases native.concerns args with
  | itself args hpersonal =>
      have hprivate := private_run hpersonal args s
      rw [Ends, hrun] at hprivate
      exact hother (by rintro rfl; contradiction) hprivate.context.exec
  | nobody hrefused =>
      rw [hrefused Builtin] at hrun
      contradiction
  | globalVM mode =>
      have hends := Action.ends_vmReclaim mode s
      rw [Ends, show Action.vmReclaim mode s = .ok () t from hrun] at hends
      exact hother (by decide) hends.goes_on.context.exec
  | child proc =>
      have hends := Action.ends_fork proc s
      rw [Ends, show Action.fork proc s = .ok () t from hrun] at hends
      exact hends.elim
  | joined handle =>
      have hends := Action.ends_join handle s
      rw [Ends, show Action.join handle s = .ok () t from hrun] at hends
      exact hother (by decide) hends.1.context.exec
  | detached handle =>
      have hnames : (runs .detach [handle] s).Detaches s.context.id ↔
          handle.asContext? = some s.context.id := by
        rw [detaches_runs]
        exact ⟨fun h => h.2.1, fun h => ⟨rfl, h, t, hrun⟩⟩
      rw [hnames]
      exact Action.exchanges_detach hs hrun
  | ended | freed => contradiction

/-! ## Objects -/

namespace Session

variable {s : Session Builtin}

/-- Executing the object detaches the running context, which is active. -/
def DetachesItself (s : Session Builtin) (obj : Object) : Prop :=
  s.context.state.isActive = true ∧ Performed.Detaches (s.Performs obj) s.context.id

lemma leavesPending_holdOperands {ν : Type} (opcode : Nat) (signature : Signature) :
    Follows LeavesPending (holdOperands opcode signature : Action ν (List Object)) :=
  .bind (leavesPending_onOperands _) fun _ => .bind (leavesPending_onOperands _) fun _ =>
    .bind (leavesPending_onHold _) fun _ => .bind (.modify fun _ => .of_same rfl rfl) fun _ => .pure _

/-- Dropping the held arguments is no concern of what is pending, and asks for nothing. -/
lemma keepsPending_releasingHold {ν : Type} {s : Session ν} {need : Nat} {body : Action ν Unit}
    (hbody : KeepsPending body s) : KeepsPending (releasingHold need body) s := by
  have hdrop (t : Session ν) : Ends (onHold (Stack.drop need)) t
      (fun _ u => LeavesPending t u ∧ Private t u) fun fault _ => fault.isControl = false := by
    have hfault : Ends (onHold (Stack.drop need)) t (fun _ _ => True)
        fun fault _ => fault.isControl = false := by
      unfold onHold
      refine Ends.focus (Ends.focus (Ends.focus ?_))
      rw [Ends, Stack.drop]
      split_ifs <;> trivial
    exact Ends.mono (Ends.and (Ends.and (leavesPending_onHold (Stack.drop need) t)
      (private_onHold (Stack.endures_drop need) t)) hfault) (fun _ _ h => h.1) fun _ _ h => h.2
  rw [KeepsPending, Ends] at hbody ⊢
  rw [releasingHold]
  cases hrun : body s with
  | ok a t =>
      rw [hrun] at hbody
      exact Ends.mono (hdrop t) (fun _ _ h => hbody.trans h.1) fun _ _ h hcontrol => by
        rw [h] at hcontrol
        contradiction
  | error fault t =>
      rw [hrun] at hbody
      dsimp only
      split_ifs
      · exact hbody
      · have ht := hdrop t
        rw [Ends] at ht
        cases hdropped : onHold (Stack.drop need) t with
        | ok a u =>
            rw [hdropped] at ht
            exact fun hcontrol => (hbody hcontrol).trans ht.2.context.exec
        | error fault' u =>
            rw [hdropped] at ht
            intro hcontrol
            rw [ht] at hcontrol
            contradiction

lemma keepsPending_runOperator (current : Object) (opcode : Nat) :
    KeepsPending (runOperator current opcode) s := by
  have hset {f : Context → Context} (hf : ∀ c : Context, c.Proceeds (f c))
      (hexec : ∀ c : Context, (f c).stackSet.exec = c.stackSet.exec) {g : PUnit → Action Builtin Unit}
      (hg : ∀ a t, KeepsPending (g a) t) (s : Session Builtin) :
      KeepsPending (modifyContext f >>= g) s :=
    keepsPending_bind (.modify fun s => .of_same rfl (hexec s.context)) (private_modifyContext hf) hg
  refine hset (f := fun c => { c with current })
    (fun c => .of_same rfl rfl rfl rfl) (fun _ => rfl) (fun _ t => ?_) s
  refine keepsPending_bind .get .get fun _ t => ?_
  refine hset (f := fun c => { c with restoreArity := none })
    (fun c => .of_same rfl rfl rfl rfl) (fun _ => rfl) (fun _ t => ?_) t
  refine keepsPending_bind (.query _) (.query _) fun signature t => ?_
  refine keepsPending_bind (.query _) (.query _) fun _ t => ?_
  refine keepsPending_bind (leavesPending_holdOperands _ _) (private_holdOperands _ _) fun args t => ?_
  refine keepsPending_bind .get .get fun w t => ?_
  cases w.operators.natives[signature.native]? with
  | none => exact keepsPending_throw _
  | some native => exact keepsPending_releasingHold (Builtin.keepsPending_run native args)

/-- **An object that is no procedure** leaves what is pending. -/
lemma keepsPending_execute {obj : Object} (hproc : obj.isProc = false) :
    KeepsPending (execute obj) s := by
  have hpush : KeepsPending (push obj) s :=
    keepsPending_of_follows (leavesPending_push obj) (private_push obj)
  rw [execute]
  cases hexecutable : obj.executable with
  | false => exact hpush
  | true =>
      cases hty : obj.ty with
      | operator => exact keepsPending_runOperator _ _
      | name =>
          refine keepsPending_bind .get .get fun w t => ?_
          cases w.operators.lookup? obj.value.toNat with
          | none => exact keepsPending_throw _
          | some opcode => exact keepsPending_runOperator _ _
      | array =>
          rw [Object.isProc, hexecutable, hty] at hproc
          contradiction
      | null => exact .refl _
      | _ => exact hpush

/-- An action that succeeds with its held arguments dropped has succeeded before. -/
lemma exec_releasingHold {ν : Type} {s t : Session ν} {need : Nat} {body : Action ν Unit}
    (hrun : releasingHold need body s = .ok () t) :
    ∃ u, body s = .ok () u ∧ t.context.stackSet.exec = u.context.stackSet.exec := by
  rw [releasingHold] at hrun
  cases hbody : body s with
  | ok a u =>
      rw [hbody] at hrun
      have hdrop : Ends (onHold (Stack.drop need)) u
          (fun _ t => t.context.stackSet.exec = u.context.stackSet.exec) fun _ _ => True := by
        unfold onHold
        exact Ends.focus (Ends.focus (Ends.focus (Ends.always (fun _ _ => rfl) fun _ _ => trivial)))
      rw [Ends, show onHold (Stack.drop need) u = .ok () t from hrun] at hdrop
      exact ⟨u, rfl, hdrop⟩
  | error fault u =>
      rw [hbody] at hrun
      dsimp only at hrun
      split_ifs at hrun
      split at hrun <;> contradiction

/-- **An object that is no procedure** and is executed with success exchanges the bottom exactly if it detaches
the running context. -/
lemma exchanges_execute {t : Session Builtin} {obj : Object} (hproc : obj.isProc = false)
    (hs : s.context.stackSet.exec.WellFormed) (hrun : execute obj s = .ok () t) :
    s.system.Exchanges (s.DetachesItself obj) s.context.stackSet.exec.toList
      t.context.stackSet.exec.toList := by
  have hleaves : LeavesPending s t := by
    have hkeeps := keepsPending_execute (s := s) hproc
    rw [KeepsPending, Ends, hrun] at hkeeps
    exact hkeeps
  rcases execute_cases obj s with ⟨hprivate, hnone⟩ | ⟨native, args, w, need, hcalls, hprivate, hresult⟩
  · rw [finalState_of_ok hrun] at hprivate
    refine .of_not ?_ (hleaves.items_eq hs hprivate.context.exec)
    rintro ⟨-, handle, u, ⟨hcalls, -⟩, -⟩
    exact hnone _ _ _ hcalls
  · obtain ⟨u, hnative, hexec⟩ := exec_releasingHold (hresult.symm.trans hrun)
    obtain ⟨hw, hbefore⟩ := hprivate.context.exec hs
    have hexchanges := Builtin.exchanges_run hw hnative
    rw [← hexec] at hexchanges
    -- the dispatch only puts something on top, and in the end there is no more than before
    have hlength := hexchanges.length_eq.symm.trans (hleaves.items hs).length_eq
    rw [← hbefore.eq_of_length hlength.symm] at hexchanges
    rwa [DetachesItself, hcalls.performs_eq, ← hprivate.context.id, ← hprivate.context.state,
      ← hprivate.system]

end Session

end PostScriptCore
