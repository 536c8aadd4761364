import PostScriptCore.Proofs.Builtin.Privacy
import PostScriptCore.Proofs.Machine.Failure

/-!
# Which native an object runs

Executing an object moves objects between the stacks of the running context until, perhaps, one native
runs.  Everything that the object does besides is private.

* `Session.Calls`, `Session.Calls.unique` — the native that executing an object comes to run, on which
  arguments and in which session.
* `Session.execute_cases` — executing an object is private, or it is what this native does.
* `Session.Performs`, `Session.runs` — the native is run with success.
* `Session.PerformsWithin`, `Session.performsWithin_succ` — the same, somewhere in a turn.
-/

namespace PostScriptCore

/-- Natives that are run with success, on arguments and in a session. -/
abbrev Performed := Builtin → List Object → Session Builtin → Prop

/-- Some natives detach the context. -/
def Performed.Detaches (performed : Performed) (id : Nat) : Prop :=
  ∃ handle s, performed .detach [handle] s ∧ handle.asContext? = some id

/-- Some natives join the context. -/
def Performed.Joins (performed : Performed) (id : Nat) : Prop :=
  ∃ handle s, performed .join [handle] s ∧ handle.asContext? = some id

namespace Session

variable {ν α : Type} {s t : Session Builtin} {obj : Object}

/-- The session when the dispatch of an operator begins. -/
def begun (s : Session ν) (current : Object) : Session ν :=
  { s with context := { s.context with current, restoreArity := none } }

/-- The dispatch of the opcode comes to run the native on the arguments, in the session `t`. -/
def Invokes (s : Session Builtin) (current : Object) (opcode : Nat) (native : Builtin)
    (args : List Object) (t : Session Builtin) : Prop :=
  ∃ signature, s.operators.select s.globalVM s.context.stackSet.operands opcode = .ok signature ∧
    s.checkRoom signature = .ok () ∧ s.operators.natives[signature.native]? = some native ∧
    holdOperands opcode signature (s.begun current) = .ok args t

/-- The operator that stands for an object while the opcode is dispatched for it. -/
def operatorOf (obj : Object) (opcode : Nat) : Object :=
  if obj.ty = .operator then obj else Object.operator opcode

/-- Executing the object comes to run the native on the arguments, in the session `t`. -/
def Calls (s : Session Builtin) (obj : Object) (native : Builtin) (args : List Object)
    (t : Session Builtin) : Prop :=
  ∃ opcode, s.dispatched? obj = some opcode ∧ s.Invokes (operatorOf obj opcode) opcode native args t

/-- The native runs with success. -/
def Performs (s : Session Builtin) (obj : Object) (native : Builtin) (args : List Object)
    (t : Session Builtin) : Prop :=
  s.Calls obj native args t ∧ ∃ u, native.run args t = .ok () u

/-- A native that runs with success in a session. -/
def runs (native : Builtin) (args : List Object) (s : Session Builtin) : Performed :=
  fun native' args' s' => (native' = native ∧ args' = args ∧ s' = s) ∧ ∃ t, native.run args s = .ok () t

/-- Detaching and joining name their targets. -/
lemma detaches_runs {native : Builtin} {handle : Object} {id : Nat} :
    (runs native [handle] s).Detaches id ↔ native = .detach ∧ handle.asContext? = some id ∧
      ∃ t, native.run [handle] s = .ok () t := by
  constructor
  · rintro ⟨handle', s', ⟨⟨rfl, hargs, rfl⟩, hsucceeds⟩, hnames⟩
    cases hargs
    exact ⟨rfl, hnames, hsucceeds⟩
  · rintro ⟨rfl, hnames, hsucceeds⟩
    exact ⟨handle, s, ⟨⟨rfl, rfl, rfl⟩, hsucceeds⟩, hnames⟩

lemma joins_runs {native : Builtin} {handle : Object} {id : Nat} :
    (runs native [handle] s).Joins id ↔ native = .join ∧ handle.asContext? = some id ∧
      ∃ t, native.run [handle] s = .ok () t := by
  constructor
  · rintro ⟨handle', s', ⟨⟨rfl, hargs, rfl⟩, hsucceeds⟩, hnames⟩
    cases hargs
    exact ⟨rfl, hnames, hsucceeds⟩
  · rintro ⟨rfl, hnames, hsucceeds⟩
    exact ⟨handle, s, ⟨⟨rfl, rfl, rfl⟩, hsucceeds⟩, hnames⟩

/-! ## One object -/

/-- An object calls at most one native, on certain arguments. -/
lemma Calls.unique {native native' : Builtin} {args args' : List Object} {t t' : Session Builtin}
    (h : s.Calls obj native args t) (h' : s.Calls obj native' args' t') :
    native' = native ∧ args' = args ∧ t' = t := by
  obtain ⟨opcode, hopcode, signature, hselect, -, hnative, hhold⟩ := h
  obtain ⟨opcode', hopcode', signature', hselect', -, hnative', hhold'⟩ := h'
  obtain rfl := Option.some.inj (hopcode.symm.trans hopcode')
  obtain rfl := Except.ok.inj (hselect.symm.trans hselect')
  rw [hhold] at hhold'
  cases hhold'
  exact ⟨Option.some.inj (hnative'.symm.trans hnative), rfl, rfl⟩

/-- What is performed is what the called native does. -/
lemma Calls.performs_eq {native : Builtin} {args : List Object} (h : s.Calls obj native args t) :
    s.Performs obj = runs native args t := by
  funext native' args' t'
  refine propext ⟨fun ⟨h', hsucceeds⟩ => ?_, fun ⟨hsame, hsucceeds⟩ => ?_⟩
  · obtain ⟨rfl, rfl, rfl⟩ := h.unique h'
    exact ⟨⟨rfl, rfl, rfl⟩, hsucceeds⟩
  · obtain ⟨rfl, rfl, rfl⟩ := hsame
    exact ⟨h, hsucceeds⟩

lemma private_begun (s : Session ν) (current : Object) : Private s (s.begun current) :=
  ⟨rfl, rfl, rfl, rfl, rfl, .of_same rfl rfl rfl rfl⟩

lemma endures_promoteAt (signature : Signature) (depth : Nat) :
    Follows Stack.Endures (signature.promoteAt depth) := by
  intro s
  cases hobj : s.fromTop? depth with
  | none => exact Ends.of_ok (by rw [Signature.promoteAt, hobj]) fun h => h
  | some obj =>
      cases hpattern : signature.pattern? (signature.inArity.toNat - 1 - depth) with
      | none => exact Ends.of_ok (by rw [Signature.promoteAt, hobj, hpattern]) fun h => h
      | some pattern =>
          have hrun : signature.promoteAt depth s =
              if pattern.promotes obj then Stack.replaceFromTop depth obj.promoted s else .ok () s := by
            rw [Signature.promoteAt, hobj, hpattern]
          rw [Ends, hrun]
          split_ifs
          · exact Stack.endures_replaceFromTop depth obj.promoted s
          · exact fun h => h

lemma endures_promoteEach (signature : Signature) (depths : List Nat) :
    Follows Stack.Endures (signature.promoteEach depths) := by
  induction depths with
  | nil => exact .pure ()
  | cons depth rest ih => exact .bind (endures_promoteAt signature depth) fun _ => ih

lemma endures_takeOperands (n : Nat) : Follows Stack.Endures (takeOperands n) := by
  induction n with
  | zero => exact .pure _
  | succ n ih => exact .bind (Stack.endures_popOr _) fun _ => .bind ih fun _ => .pure _

lemma private_holdOperands (opcode : Nat) (signature : Signature) :
    Follows Private (holdOperands opcode signature : Action ν (List Object)) :=
  .bind (private_onOperands (endures_promoteEach _ _)) fun _ =>
    .bind (private_onOperands (endures_takeOperands _)) fun _ =>
      .bind (private_onHold (Stack.endures_pushAll _)) fun _ =>
        .bind (private_modifyContext fun _ => .of_same rfl rfl rfl rfl) fun _ =>
          .pure _

lemma private_step (proc : Object) : Follows Private (step proc : Action ν Unit) := by
  have hfirst (first : Object) : Follows Private (if first.isProc || !first.executable then push first
      else onExec (Stack.push first) : Action ν Unit) := .ite (private_push _) (private_schedule _)
  refine .ite (.pure ()) (.bind (.query _) fun first => .ite ?_ (hfirst first))
  exact .bind (.query _) fun _ => .bind (private_schedule _) fun _ => hfirst first

/-- Dropping the held arguments is private. -/
lemma private_releasingHold (need : Nat) (body : Action ν Unit) (s : Session ν) :
    Private (finalState body s) (finalState (releasingHold need body) s) := by
  have hdrop (t : Session ν) : Ends (onHold (Stack.drop need)) t (fun _ u => Private t u)
      fun _ u => Private t u := private_onHold (Stack.endures_drop need) t
  have hends : Ends (releasingHold need body) s (fun _ u => Private (finalState body s) u)
      fun _ u => Private (finalState body s) u := by
    rw [Ends, releasingHold, finalState]
    cases hbody : body s with
    | ok a t => exact hdrop t
    | error fault t =>
        dsimp only
        split_ifs
        · exact Private.refl t
        · have ht := hdrop t
          rw [Ends] at ht
          cases hrun : onHold (Stack.drop need) t with
          | ok a u =>
              rw [hrun] at ht
              exact ht
          | error e u =>
              rw [hrun] at ht
              exact ht
  exact Ends.finalState hends

/-- Dispatching an operator is private, and no native runs, or it is what its native does. -/
lemma dispatch_cases (opcode : Nat) (current : Object) (s : Session Builtin) :
    (Private s (finalState (runOperator current opcode) s) ∧
      ∀ native args t, ¬ s.Invokes current opcode native args t) ∨
    ∃ native args t need, s.Invokes current opcode native args t ∧
      runOperator current opcode s = releasingHold need (native.run args) t := by
  have hrun : runOperator current opcode s =
      dispatch opcode { s with context := { s.context with current } } := rfl
  cases hselect : s.operators.select s.globalVM s.context.stackSet.operands opcode with
  | error fault =>
      have hfail : runOperator current opcode s = .error fault (s.begun current) := by
        rw [hrun, dispatch]
        exact (bind_ok rfl).trans ((bind_ok rfl).trans (bind_error (query_error hselect)))
      refine .inl ⟨finalState_of_error hfail ▸ private_begun s current, ?_⟩
      rintro native args t ⟨signature, hselect', -⟩
      rw [hselect] at hselect'
      contradiction
  | ok signature =>
      have hinvoke : runOperator current opcode s =
          invoke (dispatchNested s.context.stackSet.hold.limit) opcode signature (s.begun current) :=
        hrun.trans (dispatch_eq_invoke (s := { s with context := { s.context with current } }) hselect)
      cases hroom : s.checkRoom signature with
      | error fault =>
          have hfail : runOperator current opcode s = .error fault (s.begun current) :=
            hinvoke.trans (bind_error (query_error (s := s.begun current) hroom))
          refine .inl ⟨finalState_of_error hfail ▸ private_begun s current, ?_⟩
          rintro native args t ⟨signature', hselect', hroom', -⟩
          obtain rfl := Except.ok.inj (hselect.symm.trans hselect')
          rw [hroom] at hroom'
          contradiction
      | ok =>
          have hheld := private_holdOperands opcode signature (s.begun current)
          have hbegin : runOperator current opcode s = _ :=
            hinvoke.trans (bind_ok (query_ok (s := s.begun current) hroom))
          rw [Ends] at hheld
          cases hhold : holdOperands opcode signature (s.begun current) with
          | error fault t =>
              rw [hhold] at hheld
              have hfail : runOperator current opcode s = .error fault t :=
                hbegin.trans (bind_error hhold)
              refine .inl ⟨finalState_of_error hfail ▸ (private_begun s current).trans hheld, ?_⟩
              rintro native args t' ⟨signature', hselect', -, -, hhold'⟩
              obtain rfl := Except.ok.inj (hselect.symm.trans hselect')
              rw [hhold] at hhold'
              contradiction
          | ok args t =>
              rw [hhold] at hheld
              have ht : Private s t := (private_begun s current).trans hheld
              have hlookup : runOperator current opcode s = _ :=
                hbegin.trans ((bind_ok hhold).trans (bind_ok (t := t) rfl))
              rw [ht.operators] at hlookup
              cases hnative : s.operators.natives[signature.native]? with
              | none =>
                  rw [hnative] at hlookup
                  refine .inl ⟨finalState_of_error hlookup ▸ ht, ?_⟩
                  rintro native args' t' ⟨signature', hselect', -, hnative', -⟩
                  obtain rfl := Except.ok.inj (hselect.symm.trans hselect')
                  rw [hnative] at hnative'
                  contradiction
              | some native =>
                  rw [hnative] at hlookup
                  exact .inr ⟨native, args, t, _, ⟨signature, hselect, hroom, hnative, hhold⟩, hlookup⟩

lemma Invokes.private {current : Object} {opcode : Nat} {native : Builtin} {args : List Object}
    (h : s.Invokes current opcode native args t) : Private s t := by
  obtain ⟨signature, -, -, -, hhold⟩ := h
  have hheld := private_holdOperands opcode signature (s.begun current)
  rw [Ends, hhold] at hheld
  exact (private_begun s current).trans hheld

/-- A name is executed as the operator that it stands for. -/
lemma execute_name (hexecutable : obj.executable = true) (hty : obj.ty = .name) {opcode : Nat}
    (hlookup : s.operators.lookup? obj.value.toNat = some opcode) :
    execute obj s = runOperator (Object.operator opcode) opcode s := by
  simp only [execute, hexecutable, hty, Bool.not_true, Bool.false_eq_true, if_false]
  refine (bind_ok (t := s) rfl).trans ?_
  rw [hlookup]

/-- Nor does anything happen if it stands for none. -/
lemma execute_unregistered (hexecutable : obj.executable = true) (hty : obj.ty = .name)
    (hlookup : s.operators.lookup? obj.value.toNat = none) :
    execute obj s = .error .unregistered s := by
  simp only [execute, hexecutable, hty, Bool.not_true, Bool.false_eq_true, if_false]
  refine (bind_ok (t := s) rfl).trans ?_
  rw [hlookup]
  rfl

/-- **Executing an object** is private, and no native runs, or it is what the native does that it
calls. -/
lemma execute_cases (obj : Object) (s : Session Builtin) :
    (Private s (finalState (execute obj) s) ∧ ∀ native args t, ¬ s.Calls obj native args t) ∨
      ∃ native args t need, s.Calls obj native args t ∧ Private s t ∧
        execute obj s = releasingHold need (native.run args) t := by
  have hplain {x : Action Builtin Unit} (hx : Follows Private x) (hrun : execute obj s = x s)
      (hnone : s.dispatched? obj = none) :
      Private s (finalState (execute obj) s) ∧ ∀ native args t, ¬ s.Calls obj native args t := by
    refine ⟨?_, ?_⟩
    · rw [finalState, hrun]
      exact Ends.finalState (hx s)
    · rintro native args t ⟨opcode, hsome, -⟩
      rw [hnone] at hsome
      contradiction
  have hdispatched {opcode : Nat} (hsome : s.dispatched? obj = some opcode)
      (hrun : execute obj s = runOperator (operatorOf obj opcode) opcode s) :
      (Private s (finalState (execute obj) s) ∧ ∀ native args t, ¬ s.Calls obj native args t) ∨
        ∃ native args t need, s.Calls obj native args t ∧ Private s t ∧
          execute obj s = releasingHold need (native.run args) t := by
    rcases dispatch_cases opcode (operatorOf obj opcode) s with ⟨hprivate, hnone⟩ |
      ⟨native, args, t, need, hinvokes, hresult⟩
    · refine .inl ⟨by rw [finalState, hrun]; exact hprivate, ?_⟩
      rintro native args t ⟨opcode', hopcode', hinvokes⟩
      obtain rfl := Option.some.inj (hsome.symm.trans hopcode')
      exact hnone native args t hinvokes
    · exact .inr ⟨native, args, t, need, ⟨opcode, hsome, hinvokes⟩, hinvokes.private,
        hrun.trans hresult⟩
  cases hexecutable : obj.executable with
  | false =>
      exact .inl (hplain (private_push obj) (by simp [execute, hexecutable])
        (by simp [dispatched?, hexecutable]))
  | true =>
      cases hty : obj.ty with
      | operator =>
          have hsome : s.dispatched? obj = some obj.value.toNat := by simp [dispatched?, hexecutable, hty]
          exact hdispatched hsome (by simp [execute, operatorOf, hexecutable, hty])
      | name =>
          cases hlookup : s.operators.lookup? obj.value.toNat with
          | some opcode =>
              have hsome : s.dispatched? obj = some opcode := by
                simp [dispatched?, hexecutable, hty, hlookup]
              refine hdispatched hsome ?_
              rw [execute_name hexecutable hty hlookup, operatorOf, if_neg (by simp [hty])]
          | none =>
              exact .inl (hplain (.throw .unregistered) (execute_unregistered hexecutable hty hlookup)
                (by simp [dispatched?, hexecutable, hty, hlookup]))
      | array =>
          exact .inl (hplain (private_step obj) (by simp [execute, hexecutable, hty])
            (by simp [dispatched?, hexecutable, hty]))
      | null =>
          exact .inl (hplain (.pure ()) (by simp [execute, hexecutable, hty])
            (by simp [dispatched?, hexecutable, hty]))
      | _ =>
          exact .inl (hplain (private_push obj) (by simp [execute, hexecutable, hty])
            (by simp [dispatched?, hexecutable, hty]))

/-- Dropping the held arguments never asks for a switch. -/
lemma releasingHold_ne_switch {need : Nat} {body : Action ν Unit} {s t u : Session ν}
    (hbody : body s = .ok () t) : releasingHold need body s ≠ .error .contextSwitch u := by
  have hdrop : Ends (onHold (Stack.drop need)) t (fun _ _ => True) fun fault _ =>
      fault ≠ .contextSwitch := by
    unfold onHold
    refine Ends.focus (Ends.focus (Ends.focus ?_))
    rw [Ends, Stack.drop]
    split_ifs
    · exact fun hsame => Fault.noConfusion hsame
    · trivial
  intro hswitch
  have hsame : onHold (Stack.drop need) t = .error .contextSwitch u := by
    rw [releasingHold, hbody] at hswitch
    exact hswitch
  rw [Ends, hsame] at hdrop
  exact hdrop rfl

/-- What asks for a switch has performed nothing. -/
lemma not_performs_of_switch {u : Session Builtin} (h : execute obj s = .error .contextSwitch u)
    {native : Builtin} {args : List Object} : ¬ s.Performs obj native args t := by
  rintro ⟨hcalls, v, hsucceeds⟩
  rcases execute_cases obj s with ⟨-, hnone⟩ | ⟨native', args', t', need, hcalls', -, hrun⟩
  · exact hnone native args t hcalls
  · obtain ⟨rfl, rfl, rfl⟩ := hcalls'.unique hcalls
    exact releasingHold_ne_switch hsucceeds (hrun.symm.trans h)

/-! ## Objects of a turn -/

/-- Among the first `n` objects of the turn, one runs the native with success on the arguments, in the
session `t`. -/
def PerformsWithin (n : Nat) (s : Session Builtin) (native : Builtin) (args : List Object)
    (t : Session Builtin) : Prop :=
  ∃ k u obj v, k < n ∧ runTurn k s = (.unfinished, u) ∧ u.nextObject? = some (obj, v) ∧
    v.Performs obj native args t

variable {n : Nat} {native : Builtin} {args : List Object} {u v w : Session Builtin}

/-- It is the first object, or one of the others. -/
lemma performsWithin_succ (hnext : s.nextObject? = some (obj, v)) :
    s.PerformsWithin (n + 1) native args t ↔ v.Performs obj native args t ∨
      ∃ w, execute obj v = .ok () w ∧ w.PerformsWithin n native args t := by
  constructor
  · rintro ⟨k, u, obj', v', hk, hreached, hnext', hperforms⟩
    cases k with
    | zero =>
        cases hreached
        rw [hnext] at hnext'
        cases hnext'
        exact .inl hperforms
    | succ k =>
        rw [runTurn, hnext] at hreached
        dsimp only at hreached
        cases hrun : execute obj v with
        | ok a w =>
            rw [hrun] at hreached
            exact .inr ⟨w, rfl, k, u, obj', v', Nat.lt_of_succ_lt_succ hk, hreached, hnext', hperforms⟩
        | error fault w =>
            rw [hrun] at hreached
            dsimp only at hreached
            split_ifs at hreached <;> cases hreached
  · rintro (hperforms | ⟨w, hrun, k, u, obj', v', hk, hreached, hnext', hperforms⟩)
    · exact ⟨0, s, obj, v, n.succ_pos, rfl, hnext, hperforms⟩
    · refine ⟨k + 1, u, obj', v', Nat.succ_lt_succ hk, ?_, hnext', hperforms⟩
      simp [runTurn, hnext, hrun, hreached]

end Session

end PostScriptCore
