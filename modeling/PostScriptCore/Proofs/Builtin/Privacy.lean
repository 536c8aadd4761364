import PostScriptCore.Proofs.Machine.Effect
import PostScriptCore.Proofs.Transfer.Receiving

/-!
# What the running context does for itself

Personal operators change nothing but the running context.  The other ones do more, and for each of these
there is one lemma that says everything it does to the other contexts, to the global memory and to what the
running context is still going to execute.

* `Stack.Grows` — a stack stays in order and keeps its items.
* `Session.Private` — nothing has changed but the running context, which goes on as before.
* `Builtin.private_run` — personal operators do no more than that.
* `Action.ends_fork`, `Action.ends_join`, `Action.ends_detach`, `Action.ends_vmReclaim` — the other ones.
-/

namespace PostScriptCore

/-- Nothing is taken off the stack. -/
def Stack.Grows (s t : Stack) : Prop := s.WellFormed → t.WellFormed ∧ s.toList <+: t.toList

namespace Stack.Grows

variable {s t u : Stack}

lemma refl (s : Stack) : s.Grows s := fun h => ⟨h, List.prefix_refl _⟩

lemma trans (h : s.Grows t) (h' : t.Grows u) : s.Grows u := fun hs =>
  have ⟨ht, hlist⟩ := h hs
  have ⟨hu, hlist'⟩ := h' ht
  ⟨hu, hlist.trans hlist'⟩

instance : Std.Refl Grows := ⟨refl⟩

instance : IsTrans Stack Grows := ⟨fun _ _ _ h h' => h.trans h'⟩

lemma push (obj : Object) : Follows Grows (Stack.push obj) := by
  intro s
  by_cases hfull : s.limit ≤ s.count
  · exact .of_error (push_full hfull obj) (.refl s)
  · rw [Ends]
    cases hrun : Stack.push obj s with
    | error fault t =>
        rw [Stack.push, if_neg hfull] at hrun
        cases hrun
    | ok a t =>
        intro hs
        obtain ⟨t', hrun', hwf, hlist, -⟩ := push_run hs (Nat.lt_of_not_le hfull) obj
        rw [hrun] at hrun'
        cases hrun'
        exact ⟨hwf, hlist ▸ List.prefix_append _ _⟩

lemma pushAll (objs : List Object) : Follows Grows (Stack.pushAll objs) := by
  induction objs with
  | nil => exact .pure ()
  | cons obj rest ih => exact .bind (push obj) fun _ => ih

end Stack.Grows

/-- The context goes on as before, with its memory and its stacks in order, and still has to execute what it
had to. -/
structure Context.Proceeds (c d : Context) : Prop where
  id : d.id = c.id
  state : d.state = c.state
  localVM : c.localVM.Upkept d.localVM
  operands : c.stackSet.operands.Endures d.stackSet.operands
  hold : c.stackSet.hold.Endures d.stackSet.hold
  exec : c.stackSet.exec.Grows d.stackSet.exec

/-- A context that only works on something else goes on as before. -/
lemma Context.Proceeds.of_same {c d : Context} (hid : d.id = c.id) (hstate : d.state = c.state)
    (hlocalVM : d.localVM = c.localVM) (hstackSet : d.stackSet = c.stackSet) : c.Proceeds d := by
  refine ⟨hid, hstate, fun bank h => hlocalVM ▸ h, ?_, ?_, ?_⟩
  all_goals rw [hstackSet]
  · exact fun h => h
  · exact fun h => h
  · exact .refl _

lemma Context.Proceeds.refl (c : Context) : c.Proceeds c := .of_same rfl rfl rfl rfl

lemma Context.Proceeds.trans {c d e : Context} (h : c.Proceeds d) (h' : d.Proceeds e) : c.Proceeds e where
  id := h'.id.trans h.id
  state := h'.state.trans h.state
  localVM := fun bank hc => h'.localVM bank (h.localVM bank hc)
  operands := fun hc => h'.operands (h.operands hc)
  hold := fun hc => h'.hold (h.hold hc)
  exec := h.exec.trans h'.exec

/-- The context with another local memory. -/
lemma Context.Proceeds.setLocalVM {c : Context} {localVM : Memory} (h : c.localVM.Upkept localVM) :
    c.Proceeds { c with localVM } :=
  ⟨rfl, rfl, h, fun h => h, fun h => h, .refl _⟩

/-- The context with another operand stack. -/
lemma Context.Proceeds.setOperands {c : Context} {operands : Stack}
    (h : c.stackSet.operands.Endures operands) :
    c.Proceeds { c with stackSet := { c.stackSet with operands } } :=
  ⟨rfl, rfl, fun _ h => h, h, fun h => h, .refl _⟩

namespace Session

variable {ν α : Type}

/-- Nothing has changed but the names, the output and the running context, which goes on as before. -/
structure Private (s t : Session ν) : Prop where
  settings : t.settings = s.settings
  operators : t.operators = s.operators
  system : t.system = s.system
  globalVM : t.globalVM = s.globalVM
  scheduler : t.scheduler = s.scheduler
  context : s.context.Proceeds t.context

lemma Private.refl (s : Session ν) : Private s s := ⟨rfl, rfl, rfl, rfl, rfl, .refl _⟩

lemma Private.trans {s t u : Session ν} (h : Private s t) (h' : Private t u) : Private s u where
  settings := h'.settings.trans h.settings
  operators := h'.operators.trans h.operators
  system := h'.system.trans h.system
  globalVM := h'.globalVM.trans h.globalVM
  scheduler := h'.scheduler.trans h.scheduler
  context := h.context.trans h'.context

instance : Std.Refl (@Private ν) where
  refl := Private.refl

instance : IsTrans (Session ν) Private where
  trans _ _ _ h h' := h.trans h'

/-! ## Private actions -/

lemma private_onContext {x : EStateM Fault Context α} (hx : Follows Context.Proceeds x) :
    Follows Private (onContext x : Action ν α) := fun s =>
  Ends.focus (Ends.mono (hx s.context) (fun _ _ h => ⟨rfl, rfl, rfl, rfl, rfl, h⟩)
    fun _ _ h => ⟨rfl, rfl, rfl, rfl, rfl, h⟩)

lemma private_onOperands {x : EStateM Fault Stack α} (hx : Follows Stack.Endures x) :
    Follows Private (onOperands x : Action ν α) :=
  private_onContext fun _ => Ends.focus (Ends.focus (Ends.mono (hx _)
    (fun _ _ h => .setOperands h) fun _ _ h => .setOperands h))

lemma private_onHold {x : EStateM Fault Stack α} (hx : Follows Stack.Endures x) :
    Follows Private (onHold x : Action ν α) :=
  private_onContext fun _ => Ends.focus (Ends.focus (Ends.mono (hx _)
    (fun _ _ h => ⟨rfl, rfl, fun _ h => h, fun h => h, h, .refl _⟩)
    fun _ _ h => ⟨rfl, rfl, fun _ h => h, fun h => h, h, .refl _⟩))

lemma private_onLocalVM {x : MemoryM α} (hx : Follows Memory.Upkept x) :
    Follows Private (onLocalVM x : Action ν α) :=
  private_onContext fun c => Ends.focus (Ends.mono (hx c.localVM) (fun _ _ h => .setLocalVM h)
    fun _ _ h => .setLocalVM h)

lemma private_push (obj : Object) : Follows Private (push obj : Action ν Unit) :=
  private_onOperands (Stack.endures_push obj)

lemma private_schedule (obj : Object) : Follows Private (onExec (Stack.push obj) : Action ν Unit) :=
  private_onContext fun _ => Ends.focus (Ends.focus (Ends.mono (Stack.Grows.push obj _)
    (fun _ _ h => ⟨rfl, rfl, fun _ h => h, fun h => h, fun h => h, h⟩)
    fun _ _ h => ⟨rfl, rfl, fun _ h => h, fun h => h, fun h => h, h⟩))

lemma private_modifyContext {f : Context → Context} (hf : ∀ c : Context, c.Proceeds (f c)) :
    Follows Private (modifyContext f : Action ν Unit) :=
  .modify fun s => ⟨rfl, rfl, rfl, rfl, rfl, hf s.context⟩

end Session

/-! ## Natives -/

lemma Session.allowsPersonal_private {ν : Type} : Session.AllowsPersonal (@Session.Private ν) where
  onOperands hx := Session.private_onOperands hx
  onLocalVM hx := Session.private_onLocalVM hx
  output _ _ := ⟨rfl, rfl, rfl, rfl, rfl, .refl _⟩

lemma Builtin.private_run {ν : Type} {native : Builtin} (h : native.isPersonal = true)
    (args : List Object) : Follows Session.Private (native.run args : Action ν Unit) :=
  personal_run Session.allowsPersonal_private h args

/-! ## The operators of contexts -/

namespace Action

open Session

variable {ν : Type}

/-- **A fork** hands control away, or fails, and adopts at most a new child. -/
lemma ends_fork (proc : Object) (s : Session ν) :
    Ends (fork proc) s (fun _ _ => False) fun _ t =>
      Private s { t with scheduler := s.scheduler } ∧
        (t.scheduler = s.scheduler ∨ t.scheduler = s.scheduler.allocateId.2 ∨
          ∃ operands child, makeChild s.scheduler.nextId s.settings s.context.localVM s.system.zombie
              operands proc = .ok child ∧
            t.scheduler = s.scheduler.allocateId.2.adopt child) := by
  refine Ends.bind (Ends.query (fun count _ => ?_) fun _ _ => ⟨.refl s, .inl rfl⟩)
  refine Ends.bind ?_
  show Ends _ { s with scheduler := s.scheduler.allocateId.2 } _ _
  have hnumbered {t : Session ν} (ht : Private { s with scheduler := s.scheduler.allocateId.2 } t) :
      Private s { t with scheduler := s.scheduler } :=
    ⟨ht.settings, ht.operators, ht.system, ht.globalVM, rfl, ht.context⟩
  refine Ends.bind (Ends.query (fun child hchild => ?_) fun _ _ => ⟨hnumbered (.refl _), .inr (.inl rfl)⟩)
  refine Ends.bind (Ends.mono (private_onOperands (Stack.endures_drop _) _) (fun _ t ht => ?_)
    fun _ t ht => ⟨hnumbered ht, .inr (.inl ht.scheduler)⟩)
  refine Ends.bind (Ends.mono (private_push _ _) (fun _ u hu => ?_)
    fun _ u hu => ⟨hnumbered (ht.trans hu), .inr (.inl (ht.trans hu).scheduler)⟩)
  have hu := ht.trans hu
  have hadopted := congrArg (Scheduler.adopt · child) hu.scheduler
  exact ⟨(hnumbered hu : Private s { u with scheduler := s.scheduler }),
    .inr (.inr ⟨_, child, hchild, hadopted⟩)⟩

lemma proceeds_receive (source : Memory) (objs : List Object) (p : Transfer × Context) :
    Ends (receive source objs) p (fun _ q => p.2.Proceeds q.2) fun _ q => p.2.Proceeds q.2 := by
  induction objs generalizing p with
  | nil => exact .refl p.2
  | cons obj rest ih =>
      refine Ends.bind (Ends.focus (Ends.mono
        (Transfer.follows_copy (R := Memory.Upkept) source obj (p.1, p.2.localVM))
        (fun image part hpart => ?_) fun _ _ hpart => .setLocalVM hpart))
      refine Ends.bind (Ends.focus (Ends.focus (Ends.focus (Ends.mono (Stack.endures_push image _)
        (fun _ operands hpush => ?_) fun _ _ hpush => .trans (.setLocalVM hpart) (.setOperands hpush)))))
      have hpushed : p.2.Proceeds
          { p.2 with localVM := part.2, stackSet := { p.2.stackSet with operands } } :=
        .trans (.setLocalVM hpart) (.setOperands hpush)
      exact Ends.mono (ih _) (fun _ _ hq => hpushed.trans hq) fun _ _ hq => hpushed.trans hq

/-- A child goes on from a fresh context. -/
lemma proceeds_makeChild {id zombie : Nat} {settings : Settings} {parent : Memory} {operands : List Object}
    {proc : Object} {child : Context} (h : makeChild id settings parent zombie operands proc = .ok child) :
    ∃ fresh, Context.create id settings = .ok fresh ∧ fresh.Proceeds child := by
  rw [makeChild] at h
  split at h
  · contradiction
  next fresh hcreate =>
    refine ⟨fresh, hcreate, ?_⟩
    have hfilled : Ends (do
        receive parent operands
        let body ← intoLocalVM (Transfer.copy parent proc)
        ontoStackSet (StackSet.onExec (Stack.pushAll [Object.operator zombie, body])) :
          ReceiverM Unit) (Transfer.empty, fresh) (fun _ q => fresh.Proceeds q.2) fun _ _ => True := by
      refine Ends.bind (Ends.mono (proceeds_receive parent operands (Transfer.empty, fresh))
        (fun _ q hq => ?_) fun _ _ _ => trivial)
      refine Ends.bind (Ends.focus (Ends.mono
        (Transfer.follows_copy (R := Memory.Upkept) parent proc (q.1, q.2.localVM))
        (fun body part hpart => ?_) fun _ _ _ => trivial))
      have hcopied : fresh.Proceeds { q.2 with localVM := part.2 } := .trans hq (.setLocalVM hpart)
      refine Ends.focus (Ends.focus (Ends.focus (Ends.mono
        (Stack.Grows.pushAll [Object.operator zombie, body] _) (fun _ exec hexec => ?_) fun _ _ _ => trivial)))
      exact hcopied.trans ⟨rfl, rfl, fun _ h => h, fun h => h, fun h => h, hexec⟩
    dsimp only at h
    split at h
    · next hrun =>
      cases h
      rw [Ends, hrun] at hfilled
      exact hfilled
    · contradiction

/-- A delivery frees its target, or fails and does nothing to it. -/
lemma ends_deliver (target : Context) (s : Session ν) :
    Ends (deliver target) s
      (fun _ t => Private s { t with scheduler := s.scheduler } ∧
        t.scheduler = s.scheduler.update target.id Context.released) fun _ t => Private s t := by
  have hreceive : Follows Private (focus (fun s => (Transfer.empty, s.context))
      (fun part s => { s with context := part.2 }) (Transfer.empty, Context.vacant)
      (receive target.localVM target.stackSet.operands.toList) : Action ν Unit) := fun s =>
    Ends.focus (Ends.mono (proceeds_receive _ _ (Transfer.empty, s.context))
      (fun _ _ h => ⟨rfl, rfl, rfl, rfl, rfl, h⟩) fun _ _ h => ⟨rfl, rfl, rfl, rfl, rfl, h⟩)
  refine Ends.bind (Ends.get ?_)
  dsimp only
  split
  · exact Private.refl s
  · refine Ends.bind (Ends.mono (private_push _ _) (fun _ t ht => ?_) fun _ _ ht => ht)
    refine Ends.bind (Ends.mono (hreceive t) (fun _ u hu => ?_) fun _ _ hu => ht.trans hu)
    have hu := ht.trans hu
    have hcontext := hu.context
    exact ⟨⟨hu.settings, hu.operators, hu.system, hu.globalVM, rfl, hcontext.id, hcontext.state,
      hcontext.localVM, hcontext.operands, hcontext.hold, hcontext.exec⟩,
      congrArg (Scheduler.update · target.id Context.released) hu.scheduler⟩

/-- The running context goes on as before, but for its state: it may wait. -/
structure Waits (s t : Session ν) : Prop where
  goes_on : Private s { t with context := { t.context with state := s.context.state } }
  state : t.context.state = s.context.state ∨ t.context.state = .wait

lemma Waits.of_private {s t : Session ν} (h : Private s t) : Waits s t :=
  ⟨⟨h.settings, h.operators, h.system, h.globalVM, h.scheduler, h.context.id, rfl, h.context.localVM,
    h.context.operands, h.context.hold, h.context.exec⟩, .inl h.context.state⟩

lemma ends_waitFor (id : Nat) (handle : Object) (s : Session ν) :
    Ends (waitFor id handle) s (fun _ _ => False) fun _ t => Waits s t := by
  refine Ends.bind (Ends.get ?_)
  refine Ends.bind (Ends.mono (private_schedule _ _) (fun _ t ht => ?_) fun _ _ ht => .of_private ht)
  refine Ends.bind (Ends.mono (private_schedule _ _) (fun _ u hu => ?_)
    fun _ _ hu => .of_private (ht.trans hu))
  have hu := ht.trans hu
  exact ⟨⟨hu.settings, hu.operators, hu.system, hu.globalVM, hu.scheduler, hu.context.id, rfl,
    hu.context.localVM, hu.context.operands, hu.context.hold, hu.context.exec⟩, .inr rfl⟩

/-- **A join** frees the finished context that it names, and otherwise does nothing to the others. -/
lemma ends_join (handle : Object) (s : Session ν) :
    Ends (join handle) s
      (fun _ t => Private s { t with scheduler := s.scheduler } ∧
        ∃ target, handle.asContext? = some target.id ∧ s.scheduler.find? target.id = some target ∧
          target.state = .zombie ∧ t.scheduler = s.scheduler.update target.id Context.released)
      fun _ t => Waits s t := by
  rw [join]
  cases hname : handle.asContext? with
  | none => exact .of_private (.refl s)
  | some id =>
      refine Ends.bind (Ends.get ?_)
      cases hfind : s.scheduler.find? id with
      | none => exact .of_private (.refl s)
      | some target =>
          obtain rfl := Scheduler.id_of_find? hfind
          dsimp only
          cases hstate : target.state with
          | zombie =>
              exact Ends.mono (ends_deliver target s)
                (fun _ _ h => ⟨h.1, target, rfl, hfind, hstate, h.2⟩) fun _ _ h => .of_private h
          | free => exact .of_private (.refl s)
          | run | wait =>
              exact Ends.mono (ends_waitFor target.id handle s) (fun _ _ h => h.elim) fun _ _ h => h

/-- **A detach** changes the context that it names, the running one or another, and nothing else. -/
lemma ends_detach (handle : Object) (s : Session ν) :
    Ends (detach handle) s
      (fun _ t => ∃ target c, handle.asContext? = some target.id ∧ detached s.system target = .ok c ∧
        (target = s.context ∧ t = { s with context := c } ∨
          s.scheduler.find? target.id = some target ∧
            t = { s with scheduler := s.scheduler.update target.id fun _ => c }))
      fun _ t => t = s := by
  rw [detach]
  cases hname : handle.asContext? with
  | none => exact rfl
  | some id =>
      refine Ends.bind (Ends.get ?_)
      split
      · next hself =>
        refine Ends.bind (Ends.query (fun c hc => ?_) fun _ _ => rfl)
        exact ⟨s.context, c, congrArg some hself, hc, .inl ⟨rfl, rfl⟩⟩
      · cases hfind : s.scheduler.find? id with
        | none => exact rfl
        | some target =>
            obtain rfl := Scheduler.id_of_find? hfind
            refine Ends.bind (Ends.query (fun c hc => ?_) fun _ _ => rfl)
            exact ⟨target, c, rfl, hc, .inr ⟨hfind, rfl⟩⟩

lemma finish_run (state : ContextState) (s : Session ν) :
    finish state s = .error .contextSwitch { s with context := { s.context with state } } := rfl

/-- Only the global memory may have changed.  If it has, then it was collected, with the given result,
from what all contexts hold on to once the local memory of the running one has been collected. -/
structure Sweeps (mode : Object) (s t : Session ν)
    (result : Memory → EStateM.Result Fault Memory Nat → Prop) : Prop where
  goes_on : Private s { t with globalVM := s.globalVM }
  globalVM : t.globalVM = s.globalVM ∨ mode.asInt? = some 2 ∧ result t.globalVM
    (Memory.collect ((finalState (onContext Context.collectLocal) s).context.roots ++
      (finalState (onContext Context.collectLocal) s).scheduler.roots) true false s.globalVM)

lemma Sweeps.of_private {mode : Object} {s t : Session ν}
    {result : Memory → EStateM.Result Fault Memory Nat → Prop} (h : Private s t) :
    Sweeps mode s t result :=
  ⟨⟨h.settings, h.operators, h.system, rfl, h.scheduler, h.context⟩, .inl h.globalVM⟩

/-- **Reclaiming storage** takes away from the global memory, and only in the second mode. -/
lemma ends_vmReclaim (mode : Object) (s : Session ν) :
    Ends (vmReclaim mode) s
      (fun _ t => Sweeps mode s t fun m collected => ∃ total, collected = .ok total m)
      fun _ t => Sweeps mode s t fun m collected => ∃ fault, collected = .error fault m := by
  have hcollect (roots : List Object) : Follows Memory.Upkept (Memory.collect roots true false) :=
    .of_discard (Memory.upkept_perform (.collect roots true false) rfl)
  have hlocal : Follows Private (onContext Context.collectLocal : Action ν Nat) :=
    private_onContext fun c => Ends.bind (Ends.get (Ends.focus (Ends.mono (hcollect _ c.localVM)
      (fun _ _ h => .setLocalVM h) fun _ _ h => .setLocalVM h)))
  rw [vmReclaim]
  cases hmode : mode.asInt? with
  | none => exact .of_private (.refl s)
  | some z =>
      dsimp only
      split
      · exact .of_private (.refl s)
      split
      · exact .of_private (.refl s)
      have hs := hlocal s
      rw [Ends] at hs
      cases hrun : (onContext Context.collectLocal : Action ν Nat) s with
      | error fault t =>
          rw [hrun] at hs
          exact Ends.bind (Ends.of_error (discard_error hrun) (.of_private hs))
      | ok total t =>
          rw [hrun] at hs
          refine Ends.bind (Ends.of_ok (discard_ok hrun) ?_)
          split
          · next htwo =>
            have hafter : finalState (onContext Context.collectLocal) s = t := finalState_of_ok hrun
            have hswept : Private s { t with globalVM := s.globalVM } :=
              ⟨hs.settings, hs.operators, hs.system, rfl, hs.scheduler, hs.context⟩
            refine Ends.bind (Ends.get ?_)
            cases hglobal : Memory.collect (t.context.roots ++ t.scheduler.roots) true false t.globalVM with
            | ok collected m =>
                have hcollect : onGlobalVM (Memory.collect (t.context.roots ++ t.scheduler.roots) true
                    false) t = .ok collected { t with globalVM := m } := by
                  simp only [onGlobalVM, focus, hglobal]
                refine Ends.of_ok (discard_ok hcollect) ⟨hswept, .inr ⟨by rw [hmode, htwo], collected, ?_⟩⟩
                rw [hafter, ← hs.globalVM, hglobal]
            | error fault m =>
                have hcollect : onGlobalVM (Memory.collect (t.context.roots ++ t.scheduler.roots) true
                    false) t = .error fault { t with globalVM := m } := by
                  simp only [onGlobalVM, focus, hglobal]
                refine Ends.of_error (discard_error hcollect) ⟨hswept, .inr ⟨by rw [hmode, htwo], fault, ?_⟩⟩
                rw [hafter, ← hs.globalVM, hglobal]
          · exact .of_private hs

end Action

end PostScriptCore
