import PostScriptCore.Proofs.Builtin.Failing
import PostScriptCore.Proofs.Machine.Invocation
import PostScriptCore.Proofs.Names

/-!
# A failed operator gives its operands back

The operands that a native takes wait on the hold stack until it is done.  If it fails, they go back to
the operand stack; if it succeeds, they are dropped, so that there is nothing on hold between two
objects, and a failure finds either the arguments of the operator that failed or nothing at all.

* `Session.OverBuiltins` — the operators are those that a run has registered, and all of them built in.
* `Session.Ready` — nothing is on hold between two objects.
* `Session.Settles` — an object leaves the session ready, or fails so that operands can be given back.
* `Session.settles_execute` — every object does.
* `Session.failed_turn_gives_back` — a turn that fails gives back the operands of the failing object.
-/

namespace PostScriptCore

open OperatorTable

/-- The definition is the one of a built-in operator. -/
def Definition.IsBuiltin (d : Definition Builtin) : Prop :=
  ∃ b ∈ builtinDefs, d = ⟨b.patterns, UInt8.ofNat b.outArity, b.native⟩

/-- A built-in definition asks for the room that its native needs. -/
lemma Definition.IsBuiltin.results_le {d : Definition Builtin} (h : d.IsBuiltin) :
    d.native.results ≤ d.outArity.toNat := by
  obtain ⟨b, hb, rfl⟩ := h
  exact Builtin.results_le_outArity b hb

namespace Session

variable {ν : Type} {start : OperatorTable Builtin × Memory} {run : List (RegistryOp Builtin)}
  {log : List (Nat × Definition Builtin)} {s t u : Session Builtin}

/-- The operators of the session are those that a run has registered on a fresh table, and all of them
are built in. -/
structure OverBuiltins (start : OperatorTable Builtin × Memory) (run : List (RegistryOp Builtin))
    (s : Session Builtin) : Prop where
  fresh : IsFresh start
  spares : sparesAll start run = true
  words : (OperatorTable.afterAll start run).2.entityCount ≤ wordBound
  registry : (s.operators, s.globalVM) = OperatorTable.afterAll start run
  builtin : ∀ entry ∈ registered start run, entry.2.IsBuiltin

/-- A run goes on with the collections of its memory, and registers nothing more. -/
lemma exists_run_of_collections (hfresh : IsFresh start) (hspares : sparesAll start run = true)
    {m : Memory} (h : (OperatorTable.afterAll start run).2.Collections m) :
    ∃ more, sparesAll start (run ++ more) = true ∧
      OperatorTable.afterAll start (run ++ more) = ((OperatorTable.afterAll start run).1, m) ∧
      registered start (run ++ more) = registered start run ∧
      m.entityCount = (OperatorTable.afterAll start run).2.entityCount := by
  induction h with
  | refl => exact ⟨[], by simpa using hspares, by rw [List.append_nil], by rw [List.append_nil], rfl⟩
  | tail _ hstep ih =>
      obtain ⟨more, hmore, hafter, hlog, hcount⟩ := ih
      obtain ⟨roots, rfl⟩ := hstep
      have hs : (OperatorTable.afterAll start (run ++ more)).2.Sound :=
        (hfresh.settled_afterAll hmore).threaded.sound
      rw [hafter] at hs
      have hcollected := Memory.Sweeps.entityCount_eq
        (Ends.finalState (Memory.onlySweeps_collect roots true false hs))
      refine ⟨more ++ [.memory (.collect roots true false)], ?_, ?_, ?_, hcollected.trans hcount⟩
      · rw [← List.append_assoc, sparesAll_append, hmore]
        rfl
      · rw [← List.append_assoc, afterAll_append, hafter]
        show OperatorTable.after _ _ = _
        rw [after_memory, Memory.after, MemoryOp.perform, finalState_discard]
      · rw [← List.append_assoc, registered_append, hlog, registered, opcode?_memory]
        exact List.append_nil _

/-- **Executing objects keeps the operators.** -/
lemma OverBuiltins.sameMachine (h : OverBuiltins start run s) (hst : SameMachine s t) :
    ∃ more, OverBuiltins start (run ++ more) t ∧
      registered start (run ++ more) = registered start run := by
  have hoperators : (OperatorTable.afterAll start run).1 = s.operators := congrArg Prod.fst h.registry.symm
  have hglobalVM : (OperatorTable.afterAll start run).2 = s.globalVM := congrArg Prod.snd h.registry.symm
  obtain ⟨more, hspares, hafter, hlog, hcount⟩ :=
    exists_run_of_collections h.fresh h.spares (hglobalVM ▸ hst.globalVM)
  refine ⟨more, ⟨h.fresh, hspares, ?_, ?_, fun entry hentry => h.builtin entry (hlog ▸ hentry)⟩, hlog⟩
  · rw [hafter, hcount]
    exact h.words
  · rw [hafter, hst.operators, hoperators]

/-! ## Between two objects -/

/-- The operators are built in and registered as the log says, the stacks are in order, and nothing is
on hold. -/
structure Ready (start : OperatorTable Builtin × Memory) (log : List (Nat × Definition Builtin))
    (s : Session Builtin) : Prop where
  registry : ∃ run, OverBuiltins start run s ∧ registered start run = log
  operands : s.context.stackSet.operands.WellFormed
  hold : s.context.stackSet.hold.WellFormed
  empty : s.context.stackSet.hold.toList = []

lemma Ready.keep (h : Ready start log s) (hst : SameMachine s t)
    (hoperands : t.context.stackSet.operands.WellFormed)
    (hhold : t.context.stackSet.hold.WellFormed) (hempty : t.context.stackSet.hold.toList = []) :
    Ready start log t := by
  obtain ⟨run, hover, hlog⟩ := h.registry
  obtain ⟨more, hover', hlog'⟩ := hover.sameMachine hst
  exact ⟨⟨run ++ more, hover', hlog'.trans hlog⟩, hoperands, hhold, hempty⟩

lemma Ready.retains (h : Ready start log s) (hst : Retains s t) : Ready start log t :=
  h.keep hst.toSameMachine (hst.context.wellFormed h.operands) (hst.context.hold ▸ h.hold)
    (hst.context.hold ▸ h.empty)

/-! ## What is given back -/

/-- The operand stack once a failure has given back what is on hold. -/
def returned (s : Session ν) : Stack :=
  match s.context.restoreArity with
  | some arity =>
    finalState (Stack.pushAll (s.context.stackSet.hold.topmost arity)) s.context.stackSet.operands
  | none => s.context.stackSet.operands

/-- Nothing comes back from an empty hold stack, whatever an earlier operator has left noted. -/
lemma returned_of_empty {s : Session ν} (h : s.context.stackSet.hold.toList = []) :
    s.returned = s.context.stackSet.operands := by
  rw [returned]
  split
  · rw [Stack.topmost, h, List.drop_nil]
    rfl
  · rfl

/-- The arguments on hold come back as they are. -/
lemma returned_of_held {s : Session ν} {args : List Object}
    (hoperands : s.context.stackSet.operands.WellFormed)
    (hheld : s.context.stackSet.hold.toList = args)
    (hrestore : s.context.restoreArity = some args.length)
    (hroom : s.context.stackSet.operands.count + args.length ≤ s.context.stackSet.operands.limit) :
    s.returned.WellFormed ∧ s.returned.toList = s.context.stackSet.operands.toList ++ args ∧
      s.returned.limit = s.context.stackSet.operands.limit := by
  have htopmost : s.context.stackSet.hold.topmost args.length = args := by
    rw [Stack.topmost, hheld, ← Stack.length_toList, hheld, Nat.sub_self, List.drop_zero]
  obtain ⟨t, hpush, hwf, hlist, hlimit⟩ := Stack.pushAll_run hoperands hroom
  rw [returned, hrestore]
  dsimp only
  rw [htopmost, finalState_of_ok hpush]
  exact ⟨hwf, hlist, hlimit⟩

lemma giveBack_eq (arity : Nat) (stackSet : StackSet) :
    giveBack arity stackSet = { stackSet with
      operands := finalState (Stack.pushAll (stackSet.hold.topmost arity)) stackSet.operands } := by
  rw [giveBack, finalState]
  cases Stack.pushAll (stackSet.hold.topmost arity) stackSet.operands <;> rfl

/-- **A failure** pushes the name of its error onto what it has given back, as far as there is room,
and leaves nothing else. -/
lemma fail_stacks (fault : Fault) (s : Session ν) :
    (s.fail fault).context.stackSet.operands =
        finalState (Stack.push (Object.name (s.names.intern fault.errorName).1)) s.returned ∧
      (s.fail fault).context.stackSet.hold.toList = [] ∧
      (s.fail fault).context.stackSet.exec.toList = [] ∧
      (s.fail fault).names = (s.names.intern fault.errorName).2 := by
  refine ⟨?_, Stack.toList_clear _, Stack.toList_clear _, rfl⟩
  rw [returned, finalState]
  cases hrestore : s.context.restoreArity with
  | none =>
      simp only [fail, hrestore]
      cases Stack.push _ s.context.stackSet.operands <;> rfl
  | some arity =>
      simp only [fail, hrestore, giveBack_eq]
      cases Stack.push _ (finalState _ s.context.stackSet.operands) <;> rfl

/-! ## Executing an object -/

/-- The opcode that executing an object dispatches. -/
def dispatched? (s : Session ν) (obj : Object) : Option Nat :=
  if obj.executable then
    match obj.ty with
    | .operator => some obj.value.toNat
    | .name => s.operators.lookup? obj.value.toNat
    | _ => none
  else none

/-- The definition whose native the dispatch of an opcode invokes, if it comes to that. -/
def invokedBy (log : List (Nat × Definition ν)) (s : Session ν) (opcode : Nat) :
    Option (Definition ν) :=
  (s.context.stackSet.resolve (definitionsAt s.operators log opcode)).toOption

/-- The definition whose native executing an object invokes. -/
def invoked? (log : List (Nat × Definition ν)) (s : Session ν) (obj : Object) :
    Option (Definition ν) :=
  (s.dispatched? obj).bind (s.invokedBy log)

/-- The operands as they come back after a failure: those that a native was invoked on are prepared. -/
def givenBack (invoked : Option (Definition ν)) (operands : List Object) : List Object :=
  match invoked with
  | none => operands
  | some d =>
    let below := operands.length - d.patterns.length
    operands.take below ++ d.prepare (operands.drop below)

lemma givenBack_split {d : Definition ν} {below args : List Object}
    (hargs : args.length = d.patterns.length) :
    givenBack (some d) (below ++ args) = below ++ d.prepare args := by
  have hbelow : (below ++ args).length - d.patterns.length = below.length := by
    rw [List.length_append]
    omega
  rw [givenBack, hbelow, List.take_left, List.drop_left]

/-- What comes back is what was there, prepared if a native has been invoked. -/
structure GivesBack (invoked : Option (Definition ν)) (operands : Stack) (t : Session ν) : Prop where
  wellFormed : t.returned.WellFormed
  toList : t.returned.toList = givenBack invoked operands.toList
  limit : t.returned.limit = operands.limit

/-- The action leaves the session ready, hands control away with nothing on hold, or fails so that the
operands come back.  `invoked` is the definition whose native runs, if one does. -/
def Settles (start : OperatorTable Builtin × Memory) (log : List (Nat × Definition Builtin))
    (invoked : Option (Definition Builtin)) (x : Action Builtin Unit) (s : Session Builtin) : Prop :=
  Ends x s (fun _ t => Ready start log t) fun fault t =>
    (fault.isControl = true → t.context.stackSet.hold.toList = []) ∧
      (fault.isControl = false → (∀ d, invoked = some d → d.native ≠ .join) →
        GivesBack invoked s.context.stackSet.operands t)

/-- A session that holds nothing gives back the operands that it has. -/
lemma Ready.givesBack (h : Ready start log s)
    (hoperands : t.context.stackSet.operands = s.context.stackSet.operands)
    (hempty : t.context.stackSet.hold.toList = []) : GivesBack none s.context.stackSet.operands t := by
  have hreturned := (returned_of_empty hempty).trans hoperands
  exact ⟨hreturned ▸ h.operands, by rw [hreturned]; rfl, by rw [hreturned]⟩

/-- What fails clean without a native holds nothing. -/
lemma settles_of_failsClean (h : Ready start log s) {x : Action Builtin Unit}
    (hx : FailsClean x s) : Settles start log none x s := by
  refine Ends.mono hx (fun _ t ht => h.retains ht) fun fault t ht => ?_
  have hempty := (h.retains ht.1).empty
  exact ⟨fun _ => hempty, fun hfault _ => h.givesBack (ht.2 hfault) hempty⟩

lemma failsClean_step (proc : Object) : FailsClean (step proc) s := by
  have hfirst (first : Object) (s : Session Builtin) :
      FailsClean (if first.isProc || !first.executable then push first
        else onExec (Stack.push first) : Action Builtin Unit) s :=
    .ite (.push _) (failsClean_of_neutral (neutral_onExec _) s)
  refine .ite (.pure ()) (.bind (.query _) fun first t _ => .ite ?_ (hfirst first t))
  exact .bind (.query _) fun _ _ _ => .bind (neutral_onExec _) fun _ u _ => hfirst first u

/-! ## Dispatch -/

/-- The definition that a dispatch comes to is one of those it was given, and there is room for its
results. -/
lemma room_of_resolve {stackSet : StackSet} {definitions : List (Definition ν)} {d : Definition ν}
    (h : stackSet.resolve definitions = .ok d) : d ∈ definitions ∧
      stackSet.operands.count - d.patterns.length + d.outArity.toNat ≤ stackSet.operands.limit := by
  rw [StackSet.resolve] at h
  cases hchoice : choice definitions stackSet.operands.toList with
  | error fault =>
      rw [hchoice] at h
      contradiction
  | ok found =>
      rw [hchoice] at h
      dsimp only at h
      cases hroom : stackSet.roomFor found with
      | error fault =>
          rw [hroom] at h
          contradiction
      | ok =>
          rw [hroom] at h
          obtain rfl := Except.ok.inj h
          rw [StackSet.roomFor] at hroom
          split_ifs at hroom with hfull
          exact ⟨(mem_of_choice hchoice).1, Nat.le_of_not_lt hfull⟩

lemma isBuiltin_of_mem (h : ∀ entry ∈ log, entry.2.IsBuiltin) {opcode : Nat}
    {d : Definition Builtin} (hd : d ∈ definitionsAt s.operators log opcode) : d.IsBuiltin := by
  rw [definitionsAt] at hd
  split at hd
  · obtain ⟨entry, hentry, rfl⟩ := List.mem_map.mp hd
    exact h entry (List.mem_of_mem_filter hentry)
  · contradiction

/-- **A native that was invoked** leaves nothing on hold, unless it fails and its arguments are to be
given back. -/
lemma settles_releasingHold (h : Ready start log s) {d : Definition Builtin} (hd : d.IsBuiltin)
    {opcode : Nat} (hcurrent : s.context.current.asOpcode? = some opcode) {below args : List Object}
    (hlist : s.context.stackSet.operands.toList = below ++ args)
    (hargs : args.length = d.patterns.length) {operands hold : Stack}
    (hheld : s.Held below (d.prepare args) operands hold)
    (hroom : s.context.stackSet.operands.count - d.patterns.length + d.outArity.toNat ≤
      s.context.stackSet.operands.limit) {result : EStateM.Result Fault (Session Builtin) Unit}
    (hresult : result = releasingHold d.patterns.length (d.native.run (d.prepare args))
      (s.running opcode d.patterns.length operands hold)) {x : Action Builtin Unit}
    (hx : x s = result) : Settles start log (some d) x s := by
  have hlength : (d.prepare args).length = d.patterns.length := by
    rw [Definition.prepare, List.length_zipWith, hargs, Nat.min_self]
  have hcount : s.context.stackSet.operands.count = operands.count + d.patterns.length := by
    rw [← Stack.length_toList, ← Stack.length_toList, hlist, hheld.below, List.length_append, hargs]
  have hle := h.operands.count_le
  have hlimit := hheld.limit
  have hresults := hd.results_le
  have hempty : hold.toList = d.prepare args := by
    rw [hheld.held, h.empty, List.nil_append]
  have hrestore : (s.running opcode d.patterns.length operands hold).context.restoreArity =
      some d.patterns.length := if_pos hcurrent
  generalize hu : s.running opcode d.patterns.length operands hold = u at hresult hrestore
  have husame : SameMachine s u := by
    subst hu
    exact ⟨rfl, rfl, rfl, .refl _⟩
  have huoperands : u.context.stackSet.operands = operands := by
    subst hu
    rfl
  have huhold : u.context.stackSet.hold = hold := by
    subst hu
    rfl
  have huwf : u.context.stackSet.operands.WellFormed := huoperands ▸ hheld.operands_wf
  have huroom : d.native.results + u.context.stackSet.operands.count ≤
      u.context.stackSet.operands.limit := by
    rw [huoperands]
    omega
  have hretains := Builtin.retains_run d.native (d.prepare args) huwf huroom
  have hheld' {t : Session Builtin} (ht : Retains u t) : t.context.stackSet.hold.WellFormed ∧
      t.context.stackSet.hold.toList = [] ++ d.prepare args := by
    rw [ht.context.hold, huhold]
    exact ⟨hheld.hold_wf, hempty⟩
  rw [Settles, Ends, hx, hresult]
  rw [Ends] at hretains
  cases hbody : d.native.run (d.prepare args) u with
  | ok a t =>
      rw [hbody] at hretains
      obtain ⟨hold', hwf, hnone, -, hrelease⟩ :=
        releasingHold_ok hbody (hheld' hretains).1 (hheld' hretains).2 hlength
      rw [hrelease]
      exact h.keep (husame.trans (hretains.toSameMachine.trans ⟨rfl, rfl, rfl, .refl _⟩))
        (hretains.context.wellFormed huwf) hwf hnone
  | error fault t =>
      rw [hbody] at hretains
      cases hcontrol : fault.isControl with
      | true =>
          obtain ⟨hold', -, hnone, -, hrelease⟩ :=
            releasingHold_dropped hbody (.inl hcontrol) (hheld' hretains).1 (hheld' hretains).2 hlength
          rw [hrelease]
          exact ⟨fun _ => hnone, fun hfault => Bool.noConfusion (hcontrol.symm.trans hfault)⟩
      | false =>
          have hkept : t.context.restoreArity = some d.patterns.length :=
            hretains.context.restoreArity.trans hrestore
          rw [releasingHold_kept hbody hcontrol (by rw [hkept]; rfl)]
          refine ⟨fun hfault => Bool.noConfusion (hcontrol.symm.trans hfault), fun _ hjoin => ?_⟩
          have hclean := Builtin.failsClean_run (hjoin d rfl) (d.prepare args) huwf huroom
          rw [FailsClean, Ends, hbody] at hclean
          have hoperands : t.context.stackSet.operands = operands :=
            (hclean.2 hcontrol).trans huoperands
          obtain ⟨hwf, hreturned, hlimit'⟩ := returned_of_held
            (hoperands ▸ hheld.operands_wf) (hheld' hretains).2 (hlength ▸ hkept)
            (by rw [hoperands]; simp only [List.nil_append]; omega)
          refine ⟨hwf, ?_, ?_⟩
          · rw [hreturned, hoperands, hheld.below, hlist, givenBack_split hargs, List.nil_append]
          · rw [hlimit', hoperands, hlimit]

/-- **A dispatch as the object being executed** leaves nothing on hold, unless it fails and its
arguments are to be given back. -/
lemma settles_dispatch (h : Ready start log s) {opcode : Nat}
    (hcurrent : s.context.current.asOpcode? = some opcode) :
    Settles start log (s.invokedBy log opcode) (dispatch opcode) s := by
  obtain ⟨run, hover, rfl⟩ := h.registry
  have hanswers := answers_of_registered hover.fresh hover.spares hover.words hover.registry
    h.operands h.hold opcode s.context.stackSet.hold.limit
  have hdispatch : dispatch opcode s =
      dispatchNested (s.context.stackSet.hold.limit + 1) opcode s := rfl
  rw [invokedBy]
  cases hresolve : s.context.stackSet.resolve
      (definitionsAt s.operators (registered start run) opcode) with
  | error fault =>
      rw [Settles, Ends, hdispatch, hanswers.refused fault hresolve]
      exact ⟨fun _ => h.empty, fun _ _ => h.givesBack rfl h.empty⟩
  | ok d =>
      obtain ⟨below, args, operands, hold, hlist, hargs, hheld, hrun⟩ := hanswers.invoked d hresolve
      obtain ⟨hmem, hroom⟩ := room_of_resolve hresolve
      exact settles_releasingHold h (isBuiltin_of_mem hover.builtin hmem) hcurrent hlist hargs hheld
        hroom hrun hdispatch

lemma settles_runOperator (h : Ready start log s) {current : Object} {opcode : Nat}
    (hcurrent : current.asOpcode? = some opcode) :
    Settles start log (s.invokedBy log opcode) (runOperator current opcode) s := by
  let t : Session Builtin := { s with context := { s.context with current } }
  have ht : Ready start log t := h.keep ⟨rfl, rfl, rfl, .refl _⟩ h.operands h.hold h.empty
  have hsettles : Settles start log (t.invokedBy log opcode) (dispatch opcode) t :=
    settles_dispatch ht hcurrent
  refine Ends.bind ?_
  exact hsettles

/-- The opcode of a name fits into an object. -/
lemma asOpcode?_of_lookup (h : Ready start log s) {name opcode : Nat}
    (hname : s.operators.lookup? name = some opcode) :
    (Object.operator opcode).asOpcode? = some opcode := by
  obtain ⟨run, hover, -⟩ := h.registry
  have hsettled := hover.fresh.settled_afterAll hover.spares
  obtain ⟨ls, hstores, -⟩ := hsettled.holds hover.words
  have hsize := hstores.size_lt hsettled.threaded.sound
  rw [← hover.registry] at hstores hsize
  obtain ⟨l, hl, -⟩ := hstores.lookup?_eq_some_iff.mp hname
  obtain ⟨hlt, -⟩ := List.getElem?_eq_some_iff.mp hl
  rw [hstores.size] at hsize
  exact congrArg some (UInt32.toNat_ofNat_of_lt' (Nat.lt_trans hlt hsize))

/-- **Executing an object** leaves the session ready, or fails so that the operands come back. -/
lemma settles_execute (h : Ready start log s) (obj : Object) :
    Settles start log (s.invoked? log obj) (execute obj) s := by
  have hplain {x : Action Builtin Unit} (hnone : s.dispatched? obj = none) (hx : FailsClean x s) :
      Settles start log (s.invoked? log obj) x s := by
    rw [invoked?, hnone]
    exact settles_of_failsClean h hx
  have hdispatched {current : Object} {opcode : Nat} (hsome : s.dispatched? obj = some opcode)
      (hcurrent : current.asOpcode? = some opcode) :
      Settles start log (s.invoked? log obj) (runOperator current opcode) s := by
    rw [invoked?, hsome]
    exact settles_runOperator h hcurrent
  rw [execute]
  cases hexecutable : obj.executable with
  | false => exact hplain (by simp [dispatched?, hexecutable]) (.push obj)
  | true =>
      simp only [Bool.not_true, Bool.false_eq_true, if_false]
      cases hty : obj.ty with
      | operator =>
          exact hdispatched (by simp [dispatched?, hexecutable, hty])
            (by simp [Object.asOpcode?, Object.payload?, hty])
      | name =>
          refine Ends.bind (Ends.get ?_)
          cases hlookup : s.operators.lookup? obj.value.toNat with
          | some opcode =>
              exact hdispatched (by simp [dispatched?, hexecutable, hty, hlookup])
                (asOpcode?_of_lookup h hlookup)
          | none => exact hplain (by simp [dispatched?, hexecutable, hty, hlookup]) (.throw _)
      | array => exact hplain (by simp [dispatched?, hexecutable, hty]) (failsClean_step obj)
      | null => exact hplain (by simp [dispatched?, hexecutable, hty]) (.pure ())
      | _ => exact hplain (by simp [dispatched?, hexecutable, hty]) (.push obj)

/-! ## Whole turns -/

lemma Ready.nextObject (h : Ready start log s) {obj : Object} (hnext : s.nextObject? = some (obj, t)) :
    Ready start log t := by
  rw [nextObject?] at hnext
  split at hnext
  · contradiction
  · cases hnext
    exact h.keep ⟨rfl, rfl, rfl, .refl _⟩ h.operands h.hold h.empty

/-- **A turn ends at an object**, unless it is cut short or runs out of work: before it, every object
was executed with success. -/
lemma runTurn_cases [NativeSet ν] (n : Nat) (s : Session ν) :
    ∃ k u, runTurn k s = (.unfinished, u) ∧
      (runTurn n s = (.unfinished, u) ∨ runTurn n s = (.finished, u) ∨
        k < n ∧ ∃ obj v fault w, u.nextObject? = some (obj, v) ∧ execute obj v = .error fault w ∧
          runTurn n s = if fault.isControl then (.switched, w) else (.failed fault, w.fail fault)) := by
  induction n generalizing s with
  | zero => exact ⟨0, s, rfl, .inl rfl⟩
  | succ n ih =>
      cases hnext : s.nextObject? with
      | none => exact ⟨0, s, rfl, .inr (.inl (by rw [runTurn, hnext]))⟩
      | some next =>
          obtain ⟨obj, v⟩ := next
          cases hrun : execute obj v with
          | ok a w =>
              have hstep (m : Nat) : runTurn (m + 1) s = runTurn m w := by simp [runTurn, hnext, hrun]
              obtain ⟨k, u, hreached, hend⟩ := ih w
              refine ⟨k + 1, u, (hstep k).trans hreached, ?_⟩
              rw [hstep]
              exact hend.imp_right (Or.imp_right (And.imp_left Nat.succ_lt_succ))
          | error fault w =>
              refine ⟨0, s, rfl, .inr (.inr ⟨n.succ_pos, obj, v, fault, w, hnext, hrun, ?_⟩)⟩
              simp [runTurn, hnext, hrun]

/-- **Between two objects nothing is on hold.** -/
lemma Ready.runTurn (h : Ready start log s) {k : Nat} (hrun : runTurn k s = (.unfinished, u)) :
    Ready start log u := by
  induction k generalizing s with
  | zero =>
      cases hrun
      exact h
  | succ k ih =>
      rw [Session.runTurn] at hrun
      split at hrun
      · cases hrun
      · next obj v hnext =>
        have hsettles := settles_execute (h.nextObject hnext) obj
        rw [Settles, Ends] at hsettles
        split at hrun
        · next w hexecute =>
          rw [hexecute] at hsettles
          exact ih hsettles hrun
        · split at hrun <;> cases hrun

/-- Pushing the name of an error onto what came back. -/
lemma toList_push_name {operands : Stack} (h : operands.WellFormed) (obj : Object) :
    (finalState (Stack.push obj) operands).toList =
      operands.toList ++ if operands.toList.length < operands.limit then [obj] else [] := by
  have hle := h.count_le
  rw [Stack.toList_finalState_push h, Stack.length_toList]
  split_ifs with hroom
  · rw [List.take_of_length_le]
    rw [List.length_append, Stack.length_toList, List.length_singleton]
    omega
  · have hfull : operands.limit = operands.toList.length := by
      rw [Stack.length_toList]
      omega
    rw [hfull, List.take_left, List.append_nil]

/-- Within `n` objects the session comes to an object that fails: `v` is the session in which it is
executed, and `w` the one in which it has failed. -/
def FailsAt (n : Nat) (s : Session ν) [NativeSet ν] (obj : Object) (v : Session ν) (fault : Fault)
    (w : Session ν) : Prop :=
  ∃ k u, k < n ∧ runTurn k s = (.unfinished, u) ∧ u.nextObject? = some (obj, v) ∧
    execute obj v = .error fault w

/-- The operands are the given ones, with the literal name of the error on top if there is room. -/
def Reports (fault : Fault) (returned : List Object) (limit : Nat) (t : Session ν) : Prop :=
  ∃ name, t.names.resolve? name = some fault.errorName ∧
    t.context.stackSet.operands.toList =
      returned ++ if returned.length < limit then [Object.name name] else []

/-- **A failed operator gives its operands back.**  At no point of a turn that begins with an empty hold
stack is anything on hold between two objects.  If the turn fails, the operands are those that the
failing object found, prepared if it came to invoke a native other than `join`, and the name of the
error. -/
theorem failed_turn_gives_back (h : OverBuiltins start run s)
    (hoperands : s.context.stackSet.operands.WellFormed)
    (hhold : s.context.stackSet.hold.WellFormed)
    (hempty : s.context.stackSet.hold.toList = []) :
    (∀ n, (runTurn n s).2.context.stackSet.hold.toList = []) ∧
    ∀ n fault t, runTurn n s = (.failed fault, t) → t.context.stackSet.exec.toList = [] ∧
      ∃ obj v w, FailsAt n s obj v fault w ∧ t = w.fail fault ∧
        ((∀ d, v.invoked? (registered start run) obj = some d → d.native ≠ .join) →
          t.Reports fault (givenBack (v.invoked? (registered start run) obj)
            v.context.stackSet.operands.toList) v.context.stackSet.operands.limit) := by
  have hready : Ready start (registered start run) s := ⟨⟨run, h, rfl⟩, hoperands, hhold, hempty⟩
  refine ⟨fun n => ?_, fun n fault t hfailed => ?_⟩
  · obtain ⟨k, u, hreached, hend⟩ := runTurn_cases n s
    have hu := hready.runTurn hreached
    rcases hend with hend | hend | ⟨-, obj, v, fault, w, hnext, hexecute, hend⟩
    · rw [hend]
      exact hu.empty
    · rw [hend]
      exact hu.empty
    · have hsettles := settles_execute (hu.nextObject hnext) obj
      rw [Settles, Ends, hexecute] at hsettles
      rw [hend]
      split_ifs with hcontrol
      · exact hsettles.1 hcontrol
      · exact (fail_stacks fault w).2.1
  · obtain ⟨k, u, hreached, hend⟩ := runTurn_cases n s
    have hu := hready.runTurn hreached
    rw [hfailed] at hend
    rcases hend with hend | hend | ⟨hlt, obj, v, fault', w, hnext, hexecute, hend⟩
    · cases hend
    · cases hend
    · have hsettles := settles_execute (hu.nextObject hnext) obj
      rw [Settles, Ends, hexecute] at hsettles
      split_ifs at hend with hcontrol
      · cases hend
      · cases hend
        obtain ⟨hpushed, -, hexec, hnames⟩ := fail_stacks fault w
        refine ⟨hexec, obj, v, w, ⟨k, u, hlt, hreached, hnext, hexecute⟩, rfl, fun hjoin => ?_⟩
        obtain ⟨hwf, hreturned, hlimit⟩ := hsettles.2 (Bool.eq_false_of_not_eq_true hcontrol) hjoin
        refine ⟨_, (congrArg (Names.resolve? · _) hnames).trans (Names.resolve?_intern _ _), ?_⟩
        rw [hpushed, toList_push_name hwf, hreturned, hlimit]

/-- Stacks with an index that reaches too far as operand, and the operator to use it. -/
def reachingStacks : StackSet :=
  { StackSet.create Settings.standard with
    operands := Stack.ofObjects [Object.mark, Object.int 7]
    exec := Stack.ofObjects [Object.operator 1] }

/-- A session on a registry with these stacks. -/
def reaching (r : OperatorTable Builtin × Memory) : Session Builtin :=
  { mixedOperands r with context := { Context.vacant with stackSet := reachingStacks } }

lemma stacks_reaching (r : OperatorTable Builtin × Memory) :
    (reaching r).context.stackSet.operands.WellFormed ∧
      (reaching r).context.stackSet.hold.WellFormed ∧
      (reaching r).context.stackSet.hold.toList = [] ∧
      (reaching r).context.stackSet.operands.toList = [Object.mark, Object.int 7] ∧
      (reaching r).context.stackSet.operands.limit = 8 := by
  obtain ⟨hwf, hlist, hlimit⟩ :=
    Stack.ofObjects_run (show [Object.mark, Object.int 7].length ≤ 8 by decide)
  exact ⟨hwf, Stack.wellFormed_create (by decide) _ _, Stack.toList_create .., hlist, hlimit⟩

lemma overBuiltins_reaching (hfresh : IsFresh start) (hspares : sparesAll start run = true)
    (hwords : (OperatorTable.afterAll start run).2.entityCount ≤ wordBound)
    (hbuiltin : ∀ entry ∈ registered start run, entry.2.IsBuiltin) :
    OverBuiltins start run (reaching (OperatorTable.afterAll start run)) :=
  ⟨hfresh, hspares, hwords, rfl, hbuiltin⟩

lemma isBuiltin_growingLog : ∀ entry ∈ growingLog, entry.2.IsBuiltin := by
  intro entry hentry
  simp only [growingLog, List.mem_cons, List.not_mem_nil, or_false] at hentry
  rcases hentry with rfl | rfl | rfl | rfl
  · exact ⟨⟨"add", .intAdd, 1, [.type .integer, .type .integer]⟩, by simp [builtinDefs], rfl⟩
  · exact ⟨⟨"add", .realAdd, 1, [.float, .float]⟩, by simp [builtinDefs], rfl⟩
  · exact ⟨⟨"exch", .exch, 2, [.any, .any]⟩, by simp [builtinDefs], rfl⟩
  · exact ⟨⟨"index", .index, 1, [.type .integer]⟩, by simp [builtinDefs], rfl⟩

/-- The operator is taken off the execution stack. -/
lemma exists_nextObject_reaching (r : OperatorTable Builtin × Memory) :
    ∃ exec, (reaching r).nextObject? = some (Object.operator 1, (reaching r).setExec exec) := by
  obtain ⟨hwf, hlist, -⟩ := Stack.ofObjects_run
    (show [Object.operator 1].length ≤ 8 by decide)
  obtain ⟨exec, hpop, -⟩ := Stack.pop?_run hwf (hlist.trans (List.nil_append _).symm)
  refine ⟨exec, ?_⟩
  have hexec : (reaching r).context.stackSet.exec.pop? = some (Object.operator 1, exec) := hpop
  rw [nextObject?, hexec]
  rfl

/-- What the operator is defined as. -/
def indexing : Definition Builtin := ⟨[.type .integer], 1, .index⟩

lemma definitionsAt_indexing {r : OperatorTable Builtin × Memory} (hbyName : r.1.byName = [(7, 0), (40, 1)]) :
    definitionsAt r.1 growingLog 1 = [indexing] := by
  rw [definitionsAt, name?, hbyName]
  rfl

lemma resolve_indexing {stackSet : StackSet}
    (hoperands : stackSet.operands = reachingStacks.operands)
    (hhold : stackSet.hold = reachingStacks.hold) :
    stackSet.resolve [indexing] = .ok indexing := by
  have hresolve : reachingStacks.resolve [indexing] = .ok indexing := by rfl
  rw [StackSet.resolve_congr hoperands hhold, hresolve]

/-- It comes to invoke `index`. -/
lemma invoked?_reaching {r : OperatorTable Builtin × Memory} (hbyName : r.1.byName = [(7, 0), (40, 1)])
    (exec : Stack) :
    ((reaching r).setExec exec).invoked? growingLog (Object.operator 1) = some indexing := by
  have hdefinitions : definitionsAt ((reaching r).setExec exec).operators growingLog 1 =
      [indexing] := definitionsAt_indexing hbyName
  have hresolve : ((reaching r).setExec exec).context.stackSet.resolve [indexing] = .ok indexing :=
    resolve_indexing rfl rfl
  show invokedBy growingLog _ 1 = _
  rw [invokedBy, hdefinitions, hresolve]
  rfl

/-- An index below the operands. -/
lemma index_run {n : Object} {z : Int} (hn : n.asInt? = some z)
    (hdeep : s.context.stackSet.operands.fromTop? z.toNat = none) :
    Action.index n s = .error .rangeCheck s := by
  rw [Action.index, hn]
  dsimp only
  split_ifs
  · rfl
  · refine (bind_ok (t := s) rfl).trans ?_
    rw [hdeep]
    rfl

/-- The native finds no operand as deep as that. -/
lemma runTurn_reaching {r : OperatorTable Builtin × Memory}
    (hover : OverBuiltins start run (reaching r)) (hlog : registered start run = growingLog)
    (hbyName : r.1.byName = [(7, 0), (40, 1)]) :
    ∃ t, runTurn 1 (reaching r) = (.failed .rangeCheck, t) := by
  obtain ⟨hoperands, hhold, hempty, hlist, -⟩ := stacks_reaching r
  obtain ⟨exec, hnext⟩ := exists_nextObject_reaching r
  let v := (reaching r).setExec exec
  let u : Session Builtin := { v with context := { v.context with current := Object.operator 1 } }
  have hdefinitions : definitionsAt u.operators growingLog 1 = [indexing] :=
    definitionsAt_indexing hbyName
  have hanswers := answers_of_registered (s := u) hover.fresh hover.spares hover.words hover.registry
    hoperands hhold 1 u.context.stackSet.hold.limit
  rw [hlog, hdefinitions] at hanswers
  obtain ⟨below, args, operands, hold, hsplit, hargs, hheld, hrun⟩ :=
    hanswers.invoked indexing (resolve_indexing rfl rfl)
  obtain ⟨rfl, rfl⟩ : below = [Object.mark] ∧ args = [Object.int 7] :=
    List.append_inj' (hsplit.symm.trans hlist) hargs
  have hpicked : operands.fromTop? 7 = none := by
    rw [Stack.fromTop?_eq_getElem?, hheld.below]
    rfl
  have hindex : Builtin.index.run [Object.int 7] (u.running 1 1 operands hold) =
      .error .rangeCheck (u.running 1 1 operands hold) := by
    show Action.index (Object.int 7) _ = _
    exact index_run rfl hpicked
  have hexecute : execute (Object.operator 1) v = .error .rangeCheck (u.running 1 1 operands hold) :=
    hrun.trans (releasingHold_kept hindex rfl rfl)
  have hcontrol : Fault.rangeCheck.isControl = false := rfl
  exact ⟨(u.running 1 1 operands hold).fail .rangeCheck, by
    simp [runTurn, hnext, show (reaching r).setExec exec = v from rfl, hexecute, hcontrol]⟩

/-- The failing object is the operator, with both operands in place. -/
lemma failsAt_reaching {r : OperatorTable Builtin × Memory} (hbyName : r.1.byName = [(7, 0), (40, 1)])
    {obj : Object} {v w : Session Builtin} {fault : Fault}
    (h : FailsAt 1 (reaching r) obj v fault w) :
    v.invoked? growingLog obj = some indexing ∧
      v.context.stackSet.operands.toList = [Object.mark, Object.int 7] ∧
      v.context.stackSet.operands.limit = 8 := by
  obtain ⟨k, u, hk, hreached, hnext, -⟩ := h
  obtain rfl : k = 0 := by omega
  cases hreached
  obtain ⟨exec, hnext'⟩ := exists_nextObject_reaching r
  cases hnext.symm.trans hnext'
  exact ⟨invoked?_reaching hbyName exec, (stacks_reaching r).2.2.2⟩

theorem failed_turn_gives_back_index :
    OverBuiltins freshRegistry growingRun (reaching (OperatorTable.afterAll freshRegistry growingRun)) ∧
      (reaching (OperatorTable.afterAll freshRegistry growingRun)).context.stackSet.operands.WellFormed ∧
      (reaching (OperatorTable.afterAll freshRegistry growingRun)).context.stackSet.hold.WellFormed ∧
      (reaching (OperatorTable.afterAll freshRegistry growingRun)).context.stackSet.hold.toList = [] ∧
      ∃ t, runTurn 1 (reaching (OperatorTable.afterAll freshRegistry growingRun)) = (.failed .rangeCheck, t) ∧
        t.Reports .rangeCheck [Object.mark, Object.int 7] 8 ∧
        t.context.stackSet.exec.toList = [] := by
  obtain ⟨hspares, hwords, hbyName, hlog⟩ := growingRun_registers
  obtain ⟨hoperands, hhold, hempty, -, -⟩ := stacks_reaching (OperatorTable.afterAll freshRegistry growingRun)
  have hover := overBuiltins_reaching isFresh_freshRegistry hspares hwords
    (hlog ▸ isBuiltin_growingLog)
  obtain ⟨t, hfailed⟩ := runTurn_reaching hover hlog hbyName
  obtain ⟨-, hends⟩ := failed_turn_gives_back hover hoperands hhold hempty
  obtain ⟨hexec, obj, v, w, hfails, -, hreports⟩ := hends 1 .rangeCheck t hfailed
  obtain ⟨hinvoked, hlist, hlimit⟩ := failsAt_reaching hbyName hfails
  rw [hlog, hinvoked, hlist, hlimit] at hreports
  exact ⟨hover, hoperands, hhold, hempty, t, hfailed, hreports (by rintro d ⟨⟩; nofun), hexec⟩

end Session

end PostScriptCore
