import PostScriptCore.Builtin.Basic
import PostScriptCore.Machine.Dispatch
import PostScriptCore.Proofs.Operator.Signature

/-!
# Dispatching an operator with one operand

The operand moves to the hold stack, the native runs, and the operand is dropped again.

* `Session.holding` — the session while the native runs.
* `Session.Moved`, `Session.dispatch_moved`, `Session.dispatch_refused` — a whole dispatch, if there
  is room on the stacks and if there is not.
* `Session.releasingHold_ok`, `Session.releasingHold_error` — what becomes of the operand.
* `Session.Relays` — what a dispatch ends with, in terms of what its native ended with.
* `Session.Offers`, `Session.dispatch_offered` — the same for a built-in operator.
-/

namespace PostScriptCore

namespace OperatorTable

variable {ν : Type}

lemma select_of_signatures {t : OperatorTable ν} {m : Memory} {opcode : Nat} {signature : Signature}
    {operands : Stack} (h : t.signatures m opcode = .ok [signature])
    (hchosen : signature.isChosen operands = true) :
    t.select m operands opcode = .ok signature := by
  rw [signatures] at h
  split at h
  · next entry hentry =>
    rw [select, hentry]
    cases hcount : entry.count with
    | zero =>
        rw [hcount, signaturesFrom] at h
        exact nomatch Except.ok.inj h
    | succ count =>
        rw [hcount, signaturesFrom] at h
        split at h
        · contradiction
        · next first hfirst =>
          split at h
          · obtain ⟨rfl, -⟩ := List.cons.inj (Except.ok.inj h)
            dsimp only
            rw [hcount, if_neg (Nat.succ_ne_zero _), choose, hfirst]
            exact if_pos hchosen
          · contradiction
  · contradiction

end OperatorTable

namespace Signature

variable {p : Pattern} {out number : Nat}

lemma toNat_inArity_unary : (ofPatterns [p] out number).inArity.toNat = 1 := rfl

lemma pattern?_unary : (ofPatterns [p] out number).pattern? 0 = some p := by
  rw [pattern?, if_pos (by rw [toNat_inArity_unary]; exact Nat.one_pos)]
  exact p.decode?_encode

lemma isChosen_unary {operands : Stack} {below : List Object} {obj : Object}
    (hlist : operands.toList = below ++ [obj]) (haccepts : p.accepts obj = true) :
    (ofPatterns [p] out number).isChosen operands = true := by
  have hcount := (Stack.slot_last hlist).1
  have haccept : (ofPatterns [p] out number).acceptsAt operands 0 = true := by
    rw [acceptsAt, Stack.fromTop?_zero hlist, toNat_inArity_unary, pattern?_unary]
    exact haccepts
  have hfits : (ofPatterns [p] out number).fits operands = .full := by
    rw [fits, toNat_inArity_unary, if_neg (by omega), if_pos]
    rw [List.range_one, List.all_cons, List.all_nil, haccept]
    rfl
  rw [isChosen, hfits]
  exact Bool.or_true _

/-- Only a pattern for reals changes its operand. -/
lemma promote_unary (hp : p ≠ .float) {operands : Stack} {below : List Object} {obj : Object}
    (hlist : operands.toList = below ++ [obj]) :
    (ofPatterns [p] out number).promote operands = .ok () operands := by
  have hnot : p.promotes obj = false := by
    rw [Pattern.promotes, beq_eq_false_iff_ne.mpr hp]
    rfl
  rw [promote, toNat_inArity_unary, List.range_one, promoteEach]
  refine (bind_ok (a := ()) (t := operands) ?_).trans rfl
  rw [promoteAt, Stack.fromTop?_zero hlist, toNat_inArity_unary, pattern?_unary]
  dsimp only
  rw [hnot]
  rfl

end Signature

namespace Session

variable {ν α : Type}

/-- The session with another operand stack. -/
def setOperands (s : Session ν) (operands : Stack) : Session ν :=
  { s with context := { s.context with stackSet := { s.context.stackSet with operands } } }

/-- The session with another stack of held arguments. -/
def setHold (s : Session ν) (hold : Stack) : Session ν :=
  { s with context := { s.context with stackSet := { s.context.stackSet with hold } } }

/-- The session with another execution stack. -/
def setExec (s : Session ν) (exec : Stack) : Session ν :=
  { s with context := { s.context with stackSet := { s.context.stackSet with exec } } }

lemma onOperands_ok {x : EStateM Fault Stack α} {s : Session ν} {a : α} {operands : Stack}
    (h : x s.context.stackSet.operands = .ok a operands) :
    onOperands x s = .ok a (s.setOperands operands) := by
  simp only [onOperands, onContext, Context.onStackSet, StackSet.onOperands, focus, h]
  rfl

/-- An operation of the operand stack changes nothing else. -/
lemma ends_onOperands {x : EStateM Fault Stack α} {s : Session ν} {ok : α → Session ν → Prop}
    {err : Fault → Session ν → Prop}
    (h : Ends x s.context.stackSet.operands (fun a operands => ok a (s.setOperands operands))
      fun fault operands => err fault (s.setOperands operands)) :
    Ends (onOperands x) s ok err := by
  unfold onOperands
  refine Ends.focus (Ends.focus (Ends.focus ?_))
  exact h

lemma onHold_ok {x : EStateM Fault Stack α} {s : Session ν} {a : α} {hold : Stack}
    (h : x s.context.stackSet.hold = .ok a hold) :
    onHold x s = .ok a (s.setHold hold) := by
  simp only [onHold, onContext, Context.onStackSet, StackSet.onHold, focus, h]
  rfl

lemma onExec_ok {x : EStateM Fault Stack α} {s : Session ν} {a : α} {exec : Stack}
    (h : x s.context.stackSet.exec = .ok a exec) :
    onExec x s = .ok a (s.setExec exec) := by
  simp only [onExec, onContext, Context.onStackSet, StackSet.onExec, focus, h]
  rfl

lemma takeOperands_one {operands : Stack} (h : operands.WellFormed) {below : List Object}
    {obj : Object} (hlist : operands.toList = below ++ [obj]) :
    ∃ rest, takeOperands 1 operands = .ok [obj] rest ∧ rest.WellFormed ∧ rest.toList = below ∧
      rest.limit = operands.limit := by
  obtain ⟨rest, hpop, hrest, hbelow, hlimit⟩ := Stack.pop?_run h hlist
  have hpopOr : Stack.popOr .stackUnderflow operands = .ok obj rest := by rw [Stack.popOr, hpop]
  refine ⟨rest, ?_, hrest, hbelow, hlimit⟩
  rw [takeOperands]
  exact (bind_ok hpopOr).trans rfl

/-- The session while the native of an operator with one operand runs. -/
def holding (s : Session ν) (opcode : Nat) (operands hold : Stack) : Session ν :=
  { s with
    context := { s.context with
      stackSet := { s.context.stackSet with operands, hold }
      restoreArity := if s.context.current.asOpcode? = some opcode then some 1 else none } }

/-- The session when a dispatch begins: nothing is to be given back. -/
def cleared (s : Session ν) : Session ν :=
  { s with context := { s.context with restoreArity := none } }

/-- A dispatch invokes the signature that the operands select. -/
lemma dispatch_eq_invoke [NativeSet ν] {s : Session ν} {opcode : Nat} {signature : Signature}
    (hselect : s.operators.select s.globalVM s.context.stackSet.operands opcode = .ok signature) :
    dispatch opcode s =
      invoke (dispatchNested s.context.stackSet.hold.limit) opcode signature s.cleared := by
  have hclear : modifyContext (fun c => { c with restoreArity := none }) s = .ok () s.cleared := rfl
  have hquery : (query fun t : Session ν =>
      t.operators.select t.globalVM t.context.stackSet.operands opcode) s.cleared =
        .ok signature s.cleared := query_ok hselect
  rw [dispatch]
  refine (bind_ok (t := s) rfl).trans ?_
  rw [dispatchNested]
  exact (bind_ok hclear).trans (bind_ok hquery)

/-- A refused signature leaves everything in place. -/
lemma dispatch_refused [NativeSet ν] {s : Session ν} {opcode : Nat} {signature : Signature}
    {fault : Fault}
    (hselect : s.operators.select s.globalVM s.context.stackSet.operands opcode = .ok signature)
    (hroom : s.checkRoom signature = .error fault) :
    dispatch opcode s = .error fault s.cleared := by
  rw [dispatch_eq_invoke hselect, invoke]
  exact bind_error (query_error (s := s.cleared) hroom)

/-- There is room for the held argument. -/
def HasRoom (s : Session ν) : Prop := s.context.stackSet.hold.count < s.context.stackSet.hold.limit

/-- The room that an operator with one operand and at most one result needs is on the hold stack. -/
lemma checkRoom_unary {s : Session ν} (h : s.context.stackSet.operands.WellFormed)
    {below : List Object} {obj : Object}
    (hlist : s.context.stackSet.operands.toList = below ++ [obj]) (p : Pattern) {out : Nat}
    (hout : out ≤ 1) (number : Nat) :
    (s.HasRoom → s.checkRoom (Signature.ofPatterns [p] out number) = .ok ()) ∧
      (¬ s.HasRoom → s.checkRoom (Signature.ofPatterns [p] out number) = .error .limitCheck) := by
  have hcount := (Stack.slot_last hlist).1
  have hle := h.count_le
  have hout' : (Signature.ofPatterns [p] out number).outArity.toNat = out :=
    Nat.mod_eq_of_lt (show out < 256 by omega)
  rw [checkRoom, Signature.toNat_inArity_unary, hout', if_neg (by omega), HasRoom]
  refine ⟨fun hroom => if_neg (by omega), fun hroom => if_pos (by omega)⟩

/-- The operand has moved to the hold stack. -/
structure Moved (s : Session ν) (below : List Object) (obj : Object) (operands hold : Stack) :
    Prop where
  operands_wf : operands.WellFormed
  below : operands.toList = below
  limit : operands.limit = s.context.stackSet.operands.limit
  hold_wf : hold.WellFormed
  held : hold.toList = s.context.stackSet.hold.toList ++ [obj]
  hold_limit : hold.limit = s.context.stackSet.hold.limit

/-- **A dispatch with one operand** runs the native with the operand on the hold stack. -/
lemma dispatch_moved [NativeSet ν] {s : Session ν} {opcode out number : Nat} {p : Pattern}
    {native : ν} {obj : Object} {below : List Object}
    (hselect : s.operators.select s.globalVM s.context.stackSet.operands opcode =
      .ok (Signature.ofPatterns [p] out number))
    (hnative : s.operators.natives[number]? = some native) (hp : p ≠ .float)
    (hoperands : s.context.stackSet.operands.WellFormed)
    (hhold : s.context.stackSet.hold.WellFormed)
    (hlist : s.context.stackSet.operands.toList = below ++ [obj])
    (hroom : s.checkRoom (Signature.ofPatterns [p] out number) = .ok ()) :
    ∃ operands hold, s.Moved below obj operands hold ∧
      dispatch opcode s =
        releasingHold 1
          (NativeSet.run native (dispatchNested s.context.stackSet.hold.limit) [obj])
          (s.holding opcode operands hold) := by
  obtain ⟨operands, htake, hoperands', hbelow, hlimit⟩ := takeOperands_one hoperands hlist
  have hfree : s.context.stackSet.hold.count < s.context.stackSet.hold.limit := by
    rw [checkRoom, Signature.toNat_inArity_unary] at hroom
    split at hroom
    · contradiction
    · split at hroom
      · contradiction
      · omega
  obtain ⟨hold, hpush, hhold', hheld, hholds⟩ := Stack.push_run hhold hfree obj
  have hpushAll : Stack.pushAll [obj] s.context.stackSet.hold = .ok () hold := by
    rw [Stack.pushAll]
    exact (bind_ok hpush).trans rfl
  refine ⟨operands, hold, ⟨hoperands', hbelow, hlimit, hhold', hheld, hholds⟩, ?_⟩
  rw [dispatch_eq_invoke hselect, invoke]
  refine (bind_ok (query_ok (s := s.cleared) hroom)).trans ?_
  refine (bind_ok (a := [obj]) (t := s.holding opcode operands hold) ?_).trans ?_
  · -- promote, take, hold and note, each on its own part of the session
    rw [holdOperands]
    refine (bind_ok (onOperands_ok (s := s.cleared) (Signature.promote_unary hp hlist))).trans ?_
    refine (bind_ok (onOperands_ok (s := s.cleared) htake)).trans ?_
    exact (bind_ok (onHold_ok (s := s.cleared.setOperands operands) hpushAll)).trans rfl
  · refine (bind_ok (t := s.holding opcode operands hold) rfl).trans ?_
    have hnative' : (s.holding opcode operands hold).operators.natives[
        (Signature.ofPatterns [p] out number).native]? = some native := hnative
    rw [hnative']
    rfl

/-- Dropping the arguments of a native leaves what was on hold below them. -/
lemma dropHeld_run {t : Session ν} (hhold : t.context.stackSet.hold.WellFormed)
    {held args : List Object} (hlist : t.context.stackSet.hold.toList = held ++ args) {need : Nat}
    (hargs : args.length = need) :
    ∃ hold, onHold (Stack.drop need) t = .ok () (t.setHold hold) ∧ hold.WellFormed ∧
      hold.toList = held ∧ hold.limit = t.context.stackSet.hold.limit := by
  have hcount : t.context.stackSet.hold.count = held.length + need := by
    rw [← Stack.length_toList, hlist, List.length_append, hargs]
  obtain ⟨hold, hdrop, hwf, htake⟩ := Stack.drop_run hhold (n := need) (by omega)
  rw [hlist, hcount, Nat.add_sub_cancel, List.take_left] at htake
  exact ⟨hold, onHold_ok hdrop, hwf, htake, (Stack.limit_drop hdrop).1⟩

/-- After success the arguments are dropped. -/
lemma releasingHold_ok {body : Action ν Unit} {s t : Session ν} (hrun : body s = .ok () t)
    (hhold : t.context.stackSet.hold.WellFormed) {held args : List Object}
    (hlist : t.context.stackSet.hold.toList = held ++ args) {need : Nat}
    (hargs : args.length = need) :
    ∃ hold, hold.WellFormed ∧ hold.toList = held ∧ hold.limit = t.context.stackSet.hold.limit ∧
      releasingHold need body s = .ok () (t.setHold hold) := by
  obtain ⟨hold, hdrop, hwf, hheld, hlimit⟩ := dropHeld_run hhold hlist hargs
  refine ⟨hold, hwf, hheld, hlimit, ?_⟩
  rw [releasingHold, hrun]
  exact hdrop

/-- After a failure the operand stays where the failing context can give it back. -/
lemma releasingHold_kept {body : Action ν Unit} {s t : Session ν} {fault : Fault} {need : Nat}
    (hrun : body s = .error fault t) (hfault : fault.isControl = false)
    (hrestore : t.context.restoreArity.isSome = true) :
    releasingHold need body s = .error fault t := by
  rw [releasingHold, hrun]
  simp [hfault, hrestore]

/-- After a failure the operand stays or is dropped; the fault and everything else stay. -/
lemma releasingHold_error {body : Action ν Unit} {s t : Session ν} {fault : Fault}
    (hrun : body s = .error fault t) (hhold : t.context.stackSet.hold.WellFormed)
    (hpos : 0 < t.context.stackSet.hold.count) :
    ∃ hold, releasingHold 1 body s = .error fault (t.setHold hold) := by
  obtain ⟨hold, hdrop, -, -⟩ := Stack.drop_run hhold (n := 1) hpos
  rw [releasingHold, hrun]
  dsimp only
  split
  · exact ⟨t.context.stackSet.hold, rfl⟩
  · refine ⟨hold, ?_⟩
    rw [onHold_ok hdrop]

/-- After a control signal, or a failure after which nothing is given back, the arguments are dropped. -/
lemma releasingHold_dropped {body : Action ν Unit} {s t : Session ν} {fault : Fault}
    (hrun : body s = .error fault t)
    (hfault : fault.isControl = true ∨ t.context.restoreArity = none)
    (hhold : t.context.stackSet.hold.WellFormed) {held args : List Object}
    (hlist : t.context.stackSet.hold.toList = held ++ args) {need : Nat}
    (hargs : args.length = need) :
    ∃ hold, hold.WellFormed ∧ hold.toList = held ∧ hold.limit = t.context.stackSet.hold.limit ∧
      releasingHold need body s = .error fault (t.setHold hold) := by
  obtain ⟨hold, hdrop, hwf, hheld, hlimit⟩ := dropHeld_run hhold hlist hargs
  have hkeep : (!fault.isControl && t.context.restoreArity.isSome) = false := by
    rcases hfault with hfault | hfault <;> simp [hfault]
  refine ⟨hold, hwf, hheld, hlimit, ?_⟩
  rw [releasingHold, hrun]
  simp only [hkeep, Bool.false_eq_true, if_false, hdrop]

/-- Whether what was run leaves its arguments to the failing context. -/
def keepsArguments (body : Action ν Unit) (s : Session ν) : Bool :=
  match body s with
  | .ok _ _ => false
  | .error fault t => !fault.isControl && t.context.restoreArity.isSome

/-- A dispatch with this result relays what its native, `body` run in `s` on `need` arguments, ends with.
What the native answers or raises is what the dispatch answers or raises.  The arguments come off the
stack of held ones, and nothing else changes; after a failure they may have to be given back, and stay.
A native that has itself taken some of them away makes the dispatch fail. -/
structure Relays (need : Nat) (body : Action ν Unit) (s : Session ν)
    (result : EStateM.Result Fault (Session ν) Unit) : Prop where
  returned : ∀ t held args, body s = .ok () t → t.context.stackSet.hold.WellFormed →
    t.context.stackSet.hold.toList = held ++ args → args.length = need →
      ∃ hold, hold.WellFormed ∧ hold.toList = held ∧ hold.limit = t.context.stackSet.hold.limit ∧
        result = .ok () (t.setHold hold)
  dropped : ∀ fault t held args, body s = .error fault t → keepsArguments body s = false →
    t.context.stackSet.hold.WellFormed → t.context.stackSet.hold.toList = held ++ args →
      args.length = need →
      ∃ hold, hold.WellFormed ∧ hold.toList = held ∧ hold.limit = t.context.stackSet.hold.limit ∧
        result = .error fault (t.setHold hold)
  kept : keepsArguments body s = true → result = body s
  robbed : keepsArguments body s = false → (finalState body s).context.stackSet.hold.count < need →
    result = .error .stackUnderflow (finalState body s)

/-- **What the end of a native does.** -/
lemma relays_releasingHold (need : Nat) (body : Action ν Unit) (s : Session ν) :
    Relays need body s (releasingHold need body s) where
  returned t held args hrun hhold hlist hargs := releasingHold_ok hrun hhold hlist hargs
  dropped fault t held args hrun hkeep hhold hlist hargs := by
    rw [keepsArguments, hrun, Bool.and_eq_false_iff, Bool.not_eq_false', Option.isSome_eq_false_iff,
      Option.isNone_iff_eq_none] at hkeep
    exact releasingHold_dropped hrun hkeep hhold hlist hargs
  kept hkeep := by
    rw [keepsArguments] at hkeep
    cases hrun : body s with
    | ok a t =>
        rw [hrun] at hkeep
        contradiction
    | error fault t =>
        rw [hrun, Bool.and_eq_true, Bool.not_eq_true'] at hkeep
        exact releasingHold_kept hrun hkeep.1 hkeep.2
  robbed hkeep hfew := by
    have hdrop {t : Session ν} (ht : t.context.stackSet.hold.count < need) :
        onHold (Stack.drop need) t = .error .stackUnderflow t := by
      simp only [onHold, onContext, Context.onStackSet, StackSet.onHold, focus, Stack.drop, if_pos ht]
    rw [keepsArguments] at hkeep
    rw [releasingHold]
    cases hrun : body s with
    | ok a t =>
        rw [finalState_of_ok hrun] at hfew ⊢
        exact hdrop hfew
    | error fault t =>
        rw [finalState_of_error hrun] at hfew ⊢
        rw [hrun] at hkeep
        simp only [hkeep, Bool.false_eq_true, if_false, hdrop hfew]

/-! ## Built-in operators with one operand -/

/-- The opcode has one signature, of one pattern, and runs a built-in operator. -/
def Offers [NativeSet ν] (s : Session ν) (opcode : Nat) (p : Pattern) (out : Nat)
    (builtin : Builtin) : Prop :=
  ∃ number native,
    s.operators.signatures s.globalVM opcode = .ok [Signature.ofPatterns [p] out number] ∧
    s.operators.natives[number]? = some native ∧
    ∀ call args, NativeSet.run native call args = builtin.run args

/-- **Dispatching a built-in operator** on an operand that it accepts: without room to hold the
operand it is refused, and otherwise it runs. -/
lemma dispatch_offered [NativeSet ν] {s : Session ν} {opcode out : Nat} {p : Pattern}
    {builtin : Builtin} {obj : Object} {below : List Object} (h : s.Offers opcode p out builtin)
    (hp : p ≠ .float) (hout : out ≤ 1) (haccepts : p.accepts obj = true)
    (hoperands : s.context.stackSet.operands.WellFormed)
    (hhold : s.context.stackSet.hold.WellFormed)
    (hlist : s.context.stackSet.operands.toList = below ++ [obj]) :
    (¬ s.HasRoom → dispatch opcode s = .error .limitCheck s.cleared) ∧
    (s.HasRoom → ∃ operands hold, s.Moved below obj operands hold ∧
      dispatch opcode s =
        releasingHold 1 (builtin.run [obj]) (s.holding opcode operands hold)) := by
  obtain ⟨number, native, hsignatures, hnative, hrun⟩ := h
  have hselect := OperatorTable.select_of_signatures hsignatures
    (Signature.isChosen_unary hlist haccepts)
  obtain ⟨hroom, hfull⟩ := checkRoom_unary hoperands hlist p hout number
  refine ⟨fun hno => dispatch_refused hselect (hfull hno), fun hyes => ?_⟩
  obtain ⟨operands, hold, hmoved, hdispatch⟩ :=
    dispatch_moved hselect hnative hp hoperands hhold hlist (hroom hyes)
  rw [hrun] at hdispatch
  exact ⟨operands, hold, hmoved, hdispatch⟩

end Session

end PostScriptCore
