import PostScriptCore.Proofs.Machine.Dispatch
import PostScriptCore.Proofs.Machine.Effect

/-!
# How built-in operators fail

A native finds its operands on the hold stack already.  Every built-in one but `join` makes up its mind
before it touches the operand stack, or has the room that its results need, so that a failure leaves the
operands that are still there as they were; and no native touches the hold stack.

* `Context.Retains`, `Session.Retains` — what a native leaves alone in any case.
* `Session.Neutral` — the operands are left alone as well.
* `Session.FailsClean` — a failure leaves the operands alone.
* `Builtin.results` — the results that a native needs room for.
* `Builtin.retains_run`, `Builtin.failsClean_run` — the built-in operators do as said.
-/

namespace PostScriptCore

/-- The arguments on hold are what they were, and the operand stack is in order. -/
structure Context.Retains (c d : Context) : Prop where
  hold : d.stackSet.hold = c.stackSet.hold
  restoreArity : d.restoreArity = c.restoreArity
  limit : d.stackSet.operands.limit = c.stackSet.operands.limit
  wellFormed : c.stackSet.operands.WellFormed → d.stackSet.operands.WellFormed

lemma Context.Retains.refl (c : Context) : Context.Retains c c := ⟨rfl, rfl, rfl, fun h => h⟩

lemma Context.Retains.trans {c d e : Context} (h : Context.Retains c d) (h' : Context.Retains d e) :
    Context.Retains c e where
  hold := h'.hold.trans h.hold
  restoreArity := h'.restoreArity.trans h.restoreArity
  limit := h'.limit.trans h.limit
  wellFormed hwf := h'.wellFormed (h.wellFormed hwf)

/-- The context with another operand stack. -/
lemma Context.Retains.setOperands {c : Context} {operands : Stack}
    (hlimit : operands.limit = c.stackSet.operands.limit)
    (hwf : c.stackSet.operands.WellFormed → operands.WellFormed) :
    Context.Retains c { c with stackSet := { c.stackSet with operands } } :=
  ⟨rfl, rfl, hlimit, hwf⟩

namespace Session

variable {ν α β : Type}

/-- The machine is at most collected, and the context has what a native leaves alone. -/
structure Retains (s t : Session ν) : Prop extends SameMachine s t where
  context : Context.Retains s.context t.context

/-- Besides, the operands are what they were. -/
structure Neutral (s t : Session ν) : Prop extends SameMachine s t where
  hold : t.context.stackSet.hold = s.context.stackSet.hold
  restoreArity : t.context.restoreArity = s.context.restoreArity
  operands : t.context.stackSet.operands = s.context.stackSet.operands

lemma Retains.refl (s : Session ν) : Retains s s := ⟨.refl s, .refl s.context⟩

lemma Retains.trans {s t u : Session ν} (h : Retains s t) (h' : Retains t u) : Retains s u :=
  ⟨h.toSameMachine.trans h'.toSameMachine, h.context.trans h'.context⟩

instance : Std.Refl (@Retains ν) where
  refl := Retains.refl

instance : IsTrans (Session ν) Retains where
  trans _ _ _ h h' := h.trans h'

instance : Std.Refl (@Neutral ν) where
  refl s := ⟨.refl s, rfl, rfl, rfl⟩

instance : IsTrans (Session ν) Neutral where
  trans _ _ _ h h' := ⟨h.toSameMachine.trans h'.toSameMachine, h'.hold.trans h.hold,
    h'.restoreArity.trans h.restoreArity, h'.operands.trans h.operands⟩

lemma Neutral.retains {s t : Session ν} (h : Neutral s t) : Retains s t where
  toSameMachine := h.toSameMachine
  context := ⟨h.hold, h.restoreArity, congrArg Stack.limit h.operands, fun hwf => h.operands ▸ hwf⟩

/-- Another context under the same machine. -/
lemma Retains.of_context {s : Session ν} {c : Context} (h : Context.Retains s.context c) :
    Retains s { s with context := c } :=
  ⟨⟨rfl, rfl, rfl, .refl _⟩, h⟩

/-- From `s`, the action keeps its hands off the held arguments, and off the operands unless it
succeeds or hands control away. -/
def FailsClean (x : Action ν α) (s : Session ν) : Prop :=
  Ends x s (fun _ t => Retains s t) fun fault t =>
    Retains s t ∧
      (fault.isControl = false → t.context.stackSet.operands = s.context.stackSet.operands)

/-! ## Rules -/

lemma neutral_onContext {x : EStateM Fault Context α}
    (hx : ∀ c : Context, Ends x c
      (fun _ d => d.restoreArity = c.restoreArity ∧ d.stackSet.hold = c.stackSet.hold ∧
        d.stackSet.operands = c.stackSet.operands)
      fun _ d => d.restoreArity = c.restoreArity ∧ d.stackSet.hold = c.stackSet.hold ∧
        d.stackSet.operands = c.stackSet.operands) :
    Follows Neutral (onContext x : Action ν α) := by
  intro s
  refine Ends.focus (Ends.mono (hx s.context) (fun _ c hc => ?_) fun _ c hc => ?_)
  · exact ⟨⟨rfl, rfl, rfl, .refl _⟩, hc.2.1, hc.1, hc.2.2⟩
  · exact ⟨⟨rfl, rfl, rfl, .refl _⟩, hc.2.1, hc.1, hc.2.2⟩

lemma neutral_onLocalVM (x : MemoryM α) : Follows Neutral (onLocalVM x : Action ν α) :=
  neutral_onContext fun _ => Ends.focus
    (Ends.always (fun _ _ => ⟨rfl, rfl, rfl⟩) fun _ _ => ⟨rfl, rfl, rfl⟩)

lemma neutral_onExec (x : EStateM Fault Stack α) :
    Follows Neutral (onExec x : Action ν α) :=
  neutral_onContext fun _ => Ends.focus (Ends.focus
    (Ends.always (fun _ _ => ⟨rfl, rfl, rfl⟩) fun _ _ => ⟨rfl, rfl, rfl⟩))

lemma retains_of_neutral {x : Action ν α} (hx : Follows Neutral x) : Follows Retains x := fun s =>
  Ends.mono (hx s) (fun _ _ ht => ht.retains) fun _ _ ht => ht.retains

lemma failsClean_of_neutral {x : Action ν α} (hx : Follows Neutral x) (s : Session ν) :
    FailsClean x s :=
  Ends.mono (hx s) (fun _ _ ht => ht.retains) fun _ _ ht => ⟨ht.retains, fun _ => ht.operands⟩

namespace FailsClean

variable {s : Session ν}

lemma pure (a : α) : FailsClean (Pure.pure a : Action ν α) s := Retains.refl s

lemma throw (fault : Fault) : FailsClean (MonadExcept.throw fault : Action ν α) s :=
  ⟨Retains.refl s, fun _ => rfl⟩

/-- What leaves the operands alone can come first. -/
lemma bind {x : Action ν α} {f : α → Action ν β} (hx : Follows Neutral x)
    (hf : ∀ a t, Neutral s t → FailsClean (f a) t) : FailsClean (x >>= f) s := by
  refine Ends.bind (Ends.mono (hx s) (fun a t ht => ?_) fun _ _ ht =>
    ⟨ht.retains, fun _ => ht.operands⟩)
  refine Ends.mono (hf a t ht) (fun _ u hu => ht.retains.trans hu) fun _ u hu => ?_
  exact ⟨ht.retains.trans hu.1, fun hfault => (hu.2 hfault).trans ht.operands⟩

lemma ite {p : Prop} [Decidable p] {x y : Action ν α} (hx : FailsClean x s)
    (hy : FailsClean y s) : FailsClean (if p then x else y) s := by
  split
  · exact hx
  · exact hy

/-- An operation of the operand stack that changes nothing when it fails. -/
lemma onOperands {x : EStateM Fault Stack α}
    (hx : Ends x s.context.stackSet.operands
      (fun _ t => t.limit = s.context.stackSet.operands.limit ∧
        (s.context.stackSet.operands.WellFormed → t.WellFormed))
      fun _ t => t = s.context.stackSet.operands) :
    FailsClean (Session.onOperands x) s := by
  refine ends_onOperands (Ends.mono hx (fun a t ht => ?_) fun fault t ht => ?_)
  · exact .of_context (.setOperands ht.1 ht.2)
  · subst ht
    exact ⟨.of_context (.setOperands rfl fun h => h), fun _ => rfl⟩

lemma push (obj : Object) : FailsClean (Session.push obj) s :=
  onOperands (Stack.ends_push obj _)

lemma follows {x : Action ν α} (hx : ∀ s, FailsClean x s) : Follows Retains x := fun s =>
  Ends.mono (hx s) (fun _ _ ht => ht) fun _ _ ht => ht.1

end FailsClean

/-- With room, a push succeeds and takes one place. -/
lemma push_roomy {s : Session ν} (h : s.context.stackSet.operands.WellFormed)
    (hroom : s.context.stackSet.operands.count < s.context.stackSet.operands.limit) (obj : Object) :
    ∃ t, push obj s = .ok () t ∧ Retains s t ∧
      t.context.stackSet.operands.count = s.context.stackSet.operands.count + 1 := by
  obtain ⟨operands, hrun, hwf, hlist, hlimit⟩ := Stack.push_run h hroom obj
  exact ⟨_, onOperands_ok hrun, .of_context (.setOperands hlimit fun _ => hwf),
    Stack.count_of_concat hlist⟩

end Session

/-! ## The operators -/

namespace Action

open Session

variable {ν : Type} {s : Session ν}

/-- With room, pushing objects in order succeeds. -/
lemma pushAll_roomy (objs : List Object) (h : s.context.stackSet.operands.WellFormed)
    (hroom : s.context.stackSet.operands.count + objs.length ≤
      s.context.stackSet.operands.limit) :
    ∃ t, pushAll objs s = .ok () t ∧ Retains s t := by
  induction objs generalizing s with
  | nil => exact ⟨s, rfl, .refl s⟩
  | cons obj rest ih =>
      rw [List.length_cons] at hroom
      obtain ⟨t, hpush, ht, hcount⟩ := push_roomy h (by omega) obj
      obtain ⟨u, hrest, hu⟩ := ih (ht.context.wellFormed h) (by rw [ht.context.limit]; omega)
      exact ⟨u, (bind_ok hpush).trans hrest, ht.trans hu⟩

lemma failsClean_pushCount (n : Nat) : FailsClean (pushCount n) s := .ite (.push _) (.throw _)

lemma failsClean_clear : FailsClean clear s := by
  refine .onOperands (Ends.modify ?_)
  have hshort (operands : Stack) (hwf : operands.WellFormed) :
      operands.Shortens operands.clear := (hwf.shortens_setCount (Nat.zero_le _)).1
  exact ⟨rfl, fun hwf => (hshort _ hwf).wellFormed hwf⟩

lemma failsClean_clearToMark : FailsClean clearToMark s :=
  .bind (.query _) fun _ _ _ => .onOperands (Ends.mono (Stack.ends_drop _ _)
    (fun _ _ ht => ⟨ht.1, fun hwf => (ht.2 hwf).1⟩) fun _ _ ht => ht)

lemma failsClean_index (n : Object) : FailsClean (index n) s := by
  rw [index]
  split
  · exact .throw _
  · refine .ite (failsClean_of_neutral (.throw_bind _) s) (.bind .get fun _ _ _ => ?_)
    split
    · exact .push _
    · exact .throw _

lemma failsClean_intBinary (op : Int → Int → Int) (a b : Object) :
    FailsClean (intBinary op a b) s := by
  rw [intBinary]
  split
  · exact .push _
  · exact .throw _

lemma failsClean_realBinary (op : UInt32 → UInt32 → UInt32) (a b : Object) :
    FailsClean (realBinary op a b) s := by
  rw [realBinary]
  split
  · exact .push _
  · exact .throw _

lemma failsClean_intNeg (a : Object) : FailsClean (intNeg a) s := by
  rw [intNeg]
  split
  · exact .push _
  · exact .throw _

lemma failsClean_realNeg (a : Object) : FailsClean (realNeg a) s := by
  rw [realNeg]
  split
  · exact .push _
  · exact .throw _

lemma failsClean_onComposite (f : Object → Object) (obj : Object) :
    FailsClean (onComposite f obj) s :=
  .ite (.push _) (.throw _)

lemma neutral_restore (obj : Object) : Follows Neutral (restore obj : Action ν Unit) := by
  rw [restore]
  split
  · exact .throw _
  · refine .bind .get fun _ => .ite (.throw_bind _) ?_
    exact .ite (.throw_bind _) (neutral_onLocalVM _)

lemma failsClean_vmStatus (h : s.context.stackSet.operands.WellFormed)
    (hroom : s.context.stackSet.operands.count + 3 ≤ s.context.stackSet.operands.limit) :
    FailsClean vmStatus s := by
  refine .bind .get fun r t ht => ?_
  rw [← ht.operands] at h hroom
  obtain ⟨u, hpush, hu⟩ := pushAll_roomy [clamp r.context.localVM.level,
    clamp r.context.localVM.arena.used, clamp r.context.localVM.arena.max] h hroom
  refine Ends.of_ok (a := ()) ?_ hu
  rw [← hpush]
  simp [pushAll]

lemma neutral_vmReclaim (mode : Object) : Follows Neutral (vmReclaim mode : Action ν Unit) := by
  have hlocal : Follows Neutral (onContext Context.collectLocal : Action ν Nat) :=
    neutral_onContext fun _ => Ends.bind (Ends.get (Ends.focus
      (Ends.always (fun _ _ => ⟨rfl, rfl, rfl⟩) fun _ _ => ⟨rfl, rfl, rfl⟩)))
  have hglobal (roots : List Object) :
      Follows Neutral (onGlobalVM (Memory.collect roots true false) : Action ν Nat) := fun _ =>
    ends_collectGlobal roots fun _ hm => ⟨⟨rfl, rfl, rfl, hm⟩, rfl, rfl, rfl⟩
  rw [vmReclaim]
  split
  · exact .throw _
  · refine .ite (.pure ()) (.ite (.throw_bind _) (.bind (.map hlocal _) fun _ => ?_))
    exact .ite (.bind .get fun _ => .map (hglobal _) _) (.pure ())

lemma neutral_print (obj : Object) : Follows Neutral (print obj : Action ν Unit) := by
  refine .bind .get fun _ => .ite (.modify fun t => ?_) (.throw _)
  exact ⟨⟨rfl, rfl, rfl, .refl _⟩, rfl, rfl, rfl⟩

lemma neutral_finish (state : ContextState) : Follows Neutral (finish state : Action ν Unit) :=
  .bind (.modify fun _ => ⟨⟨rfl, rfl, rfl, .refl _⟩, rfl, rfl, rfl⟩) fun _ => .throw _

/-- Once the operands down to the mark are gone, there is room for the handle of the child. -/
lemma failsClean_fork (proc : Object) (h : s.context.stackSet.operands.WellFormed) :
    FailsClean (fork proc) s := by
  refine .bind (.query _) fun count t ht => Ends.bind ?_
  let u : Session ν := { t with scheduler := t.scheduler.allocateId.2 }
  have hu : Retains t u := ⟨⟨rfl, rfl, rfl, .refl _⟩, .refl _⟩
  show Ends _ u _ _
  refine Ends.bind (Ends.query (fun child _ => ?_) fun _ _ => ⟨hu, fun _ => rfl⟩)
  have hwf : u.context.stackSet.operands.WellFormed := ht.operands ▸ h
  refine Ends.bind (ends_onOperands ?_)
  refine Ends.mono (Stack.ends_drop (count + 1) u.context.stackSet.operands)
    (fun _ operands hdrop => ?_) fun _ operands hdrop => ?_
  · obtain ⟨hlimit, hdropped⟩ := hdrop
    obtain ⟨hwf', hcount⟩ := hdropped hwf
    have hle := hwf.count_le
    have hv : Retains u (u.setOperands operands) := .of_context (.setOperands hlimit fun _ => hwf')
    obtain ⟨w, hpush, hw, -⟩ := push_roomy (s := u.setOperands operands) hwf'
      (by show operands.count < operands.limit; omega) (Object.context t.scheduler.allocateId.1)
    refine Ends.bind (Ends.of_ok hpush ?_)
    have hadopted : Retains w { w with scheduler := w.scheduler.adopt child } :=
      ⟨⟨rfl, rfl, rfl, .refl _⟩, .refl _⟩
    exact ⟨hu.trans (hv.trans (hw.trans hadopted)), nofun⟩
  · subst hdrop
    exact ⟨hu, fun _ => rfl⟩

/-- A child's or a target's operands arrive on the operand stack only. -/
lemma retains_receive (source : Memory) (objs : List Object) (p : Transfer × Context) :
    Ends (receive source objs) p (fun _ q => Context.Retains p.2 q.2)
      fun _ q => Context.Retains p.2 q.2 := by
  induction objs generalizing p with
  | nil => exact .refl p.2
  | cons obj rest ih =>
      refine Ends.bind (Ends.focus (Ends.always (fun image part => ?_) fun _ part => ?_))
      · refine Ends.bind (Ends.focus (Ends.focus (Ends.focus (Ends.mono (Stack.ends_push image _)
          (fun _ operands hpush => ?_) fun _ operands hpush => ?_))))
        · refine Ends.mono (ih _) (fun _ _ hq => .trans ?_ hq) fun _ _ hq => .trans ?_ hq
          · exact ⟨rfl, rfl, hpush.1, hpush.2⟩
          · exact ⟨rfl, rfl, hpush.1, hpush.2⟩
        · subst hpush
          exact ⟨rfl, rfl, rfl, fun h => h⟩
      · exact ⟨rfl, rfl, rfl, fun h => h⟩

lemma retains_deliver (target : Context) : Follows Retains (deliver target : Action ν Unit) := by
  have hreceive : Follows Retains (focus (fun s => (Transfer.empty, s.context))
      (fun part s => { s with context := part.2 }) (Transfer.empty, Context.vacant)
      (receive target.localVM target.stackSet.operands.toList) : Action ν Unit) := fun s =>
    Ends.focus (Ends.mono (retains_receive _ _ (Transfer.empty, s.context))
      (fun _ _ hq => .of_context hq) fun _ _ hq => .of_context hq)
  refine .bind .get fun s => .ite (.throw_bind _) ?_
  refine .bind (FailsClean.follows fun _ => .push _) fun _ => .bind hreceive fun _ => ?_
  refine .bind (.modify fun _ => ⟨⟨rfl, rfl, rfl, .refl _⟩, .refl _⟩) fun _ => ?_
  exact .modify fun _ => .of_context ⟨rfl, rfl, rfl, fun h => h⟩

lemma neutral_waitFor (id : Nat) (handle : Object) :
    Follows Neutral (waitFor id handle : Action ν Unit) := by
  refine .bind .get fun _ => .bind (neutral_onExec _) fun _ => .bind (neutral_onExec _) fun _ => ?_
  refine .bind (.modify fun _ => ?_) fun _ => .throw _
  exact ⟨⟨rfl, rfl, rfl, .refl _⟩, rfl, rfl, rfl⟩

lemma retains_join (handle : Object) : Follows Retains (join handle : Action ν Unit) := by
  rw [join]
  split
  · exact .throw _
  · refine .bind .get fun s => ?_
    split
    · exact .throw _
    · split
      · exact retains_deliver _
      · exact .throw _
      · exact retains_of_neutral (neutral_waitFor _ _)
      · exact retains_of_neutral (neutral_waitFor _ _)

/-- What detaching leaves of a context. -/
lemma operands_detached {system : SystemOperators} {target c : Context}
    (h : detached system target = .ok c) :
    c.restoreArity = target.restoreArity ∧ c.stackSet.hold = target.stackSet.hold ∧
      c.stackSet.operands = target.stackSet.operands := by
  rw [detached] at h
  split at h
  · cases h
    exact ⟨rfl, rfl, rfl⟩
  · contradiction
  all_goals
    split at h
    · split at h
      · cases h
        exact ⟨rfl, rfl, rfl⟩
      · contradiction
    · contradiction

lemma neutral_detach (handle : Object) : Follows Neutral (detach handle : Action ν Unit) := by
  rw [detach]
  split
  · exact .throw _
  · intro s
    refine Ends.bind (Ends.get ?_)
    split
    · refine Ends.bind (Ends.query (fun c hc => ?_) fun _ _ => Std.Refl.refl s)
      obtain ⟨hrestore, hhold, hoperands⟩ := operands_detached hc
      exact ⟨⟨rfl, rfl, rfl, .refl _⟩, hhold, hrestore, hoperands⟩
    · split
      · exact Follows.throw _ s
      · exact Follows.bind (.query _) (fun c => .modify fun _ => ⟨⟨rfl, rfl, rfl, .refl _⟩, rfl, rfl, rfl⟩) s

end Action

namespace Builtin

open Session

variable {ν : Type} {s : Session ν}

/-- The results that a native needs room for, because it pushes several. -/
def results : Builtin → Nat
  | .exch | .dup => 2
  | .vmStatus => 3
  | _ => 0

/-- No built-in definition promises fewer results than its native needs room for. -/
lemma results_le_outArity :
    ∀ d ∈ builtinDefs, d.native.results ≤ (UInt8.ofNat d.outArity).toNat := by
  decide

/-- **A built-in native fails clean**, but for `join`. -/
lemma failsClean_run {native : Builtin} (hnative : native ≠ .join) (args : List Object)
    (h : s.context.stackSet.operands.WellFormed)
    (hroom : native.results + s.context.stackSet.operands.count ≤
      s.context.stackSet.operands.limit) : FailsClean (native.run args) s := by
  rw [Nat.add_comm] at hroom
  have hpushAll (objs : List Object) (hobjs : s.context.stackSet.operands.count + objs.length ≤
      s.context.stackSet.operands.limit) : FailsClean (Action.pushAll objs) s := by
    obtain ⟨t, hrun, ht⟩ := Action.pushAll_roomy objs h hobjs
    exact Ends.of_ok hrun ht
  unfold run
  split
  · exact .pure ()
  · exact hpushAll _ hroom
  · exact hpushAll _ hroom
  · exact Action.failsClean_clear
  · exact .bind .get fun _ _ _ => Action.failsClean_pushCount _
  · exact .push _
  · exact Action.failsClean_clearToMark
  · exact .bind (.query _) fun _ _ _ => Action.failsClean_pushCount _
  · exact Action.failsClean_index _
  · exact Action.failsClean_intBinary _ _ _
  · exact Action.failsClean_realBinary _ _ _
  · exact Action.failsClean_intBinary _ _ _
  · exact Action.failsClean_realBinary _ _ _
  · exact Action.failsClean_intBinary _ _ _
  · exact Action.failsClean_realBinary _ _ _
  · exact Action.failsClean_intNeg _
  · exact Action.failsClean_realNeg _
  · exact .push _
  · exact .push _
  · exact .push _
  · exact Action.failsClean_onComposite _ _
  · exact Action.failsClean_onComposite _ _
  · exact Action.failsClean_onComposite _ _
  · exact Action.failsClean_onComposite _ _
  · exact Action.failsClean_onComposite _ _
  · exact .bind (neutral_onLocalVM _) fun _ _ _ => .push _
  · exact failsClean_of_neutral (Action.neutral_restore _) s
  · exact Action.failsClean_vmStatus h hroom
  · exact failsClean_of_neutral (Action.neutral_vmReclaim _) s
  · exact Action.failsClean_fork _ h
  · contradiction
  · exact .throw _
  · exact failsClean_of_neutral (Action.neutral_detach _) s
  · exact .bind .get fun _ _ _ => .push _
  · exact failsClean_of_neutral (Action.neutral_finish _) s
  · exact failsClean_of_neutral (Action.neutral_finish _) s
  · exact failsClean_of_neutral (Action.neutral_print _) s
  · exact .throw _

/-- **No built-in native touches the hold stack**, and the operand stack stays in order. -/
lemma retains_run (native : Builtin) (args : List Object)
    (h : s.context.stackSet.operands.WellFormed)
    (hroom : native.results + s.context.stackSet.operands.count ≤
      s.context.stackSet.operands.limit) :
    Ends (native.run args) s (fun _ t => Retains s t) fun _ t => Retains s t := by
  by_cases hnative : native = .join
  · subst hnative
    match args with
    | [handle] => exact Action.retains_join handle s
    | [] | _ :: _ :: _ => exact Retains.refl s
  · exact Ends.mono (failsClean_run hnative args h hroom) (fun _ _ ht => ht) fun _ _ ht => ht.1

end Builtin

end PostScriptCore
