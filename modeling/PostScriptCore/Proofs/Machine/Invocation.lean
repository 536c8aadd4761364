import PostScriptCore.Proofs.Machine.Dispatch
import PostScriptCore.Proofs.Operator.Matching
import PostScriptCore.Proofs.Operator.Registry

/-!
# Dispatch runs the first definition that fits

Before a native runs, dispatch looks for the first definition that the operands fit, checks that
there is room, and turns the operands into what the definition asks for.

* `Definition.prepare` — the operands as the native gets them.
* `Signature.promote_run` — promotion, seen on the list of operands.
* `StackSet.resolve` — the definition that dispatch comes to, or why there is none.
* `Session.Answers` — a dispatch does what its definitions say.
* `Session.Dispatches` — the same, in terms of what the native answers or raises.
* `Session.dispatch_runs_first_fit` — every dispatch on a registry reached by a run does.
-/

namespace PostScriptCore

/-- An operand as a native gets it. -/
def Pattern.prepare (p : Pattern) (obj : Object) : Object :=
  if p.promotes obj then obj.promoted else obj

/-- The operands as the native gets them, the deepest first. -/
def Definition.prepare {ν : Type} (d : Definition ν) (args : List Object) : List Object :=
  List.zipWith Pattern.prepare d.patterns args

namespace Signature

variable {patterns : List Pattern} (out number : Nat) {operands : Stack}

/-- What promotion makes of the operand at a depth. -/
def promotion (patterns : List Pattern) (depth : Nat) (obj : Object) : Object :=
  match patterns.reverse[depth]? with
  | some p => p.prepare obj
  | none => obj

/-- What promotion makes of the operands at some depths, seen from the top. -/
def promotions (patterns : List Pattern) (depths : List Nat) (items : List Object) : List Object :=
  depths.foldl (fun items depth => items.modify depth (promotion patterns depth)) items

lemma promoteAt_run (h : patterns.length ≤ maxArity) (hwf : operands.WellFormed) {depth : Nat}
    (hdepth : depth < patterns.length) :
    ∃ t, (ofPatterns patterns out number).promoteAt depth operands = .ok () t ∧ t.WellFormed ∧
      t.limit = operands.limit ∧
      t.toList.reverse = operands.toList.reverse.modify depth (promotion patterns depth) := by
  have hpattern : (ofPatterns patterns out number).pattern?
      ((ofPatterns patterns out number).inArity.toNat - 1 - depth) =
        patterns.reverse[depth]? := by
    rw [toNat_inArity_ofPatterns h, pattern?_ofPatterns h, List.getElem?_reverse hdepth]
  have hlt : depth < patterns.reverse.length := by simpa using hdepth
  have hp : patterns.reverse[depth]? = some patterns.reverse[depth] := List.getElem?_eq_getElem _
  generalize patterns.reverse[depth] = p at hp
  have hpromotion : promotion patterns depth = p.prepare := by
    funext obj
    rw [promotion, hp]
  rw [promoteAt, hpattern, hp, Stack.fromTop?_eq_getElem?, hpromotion]
  cases hobj : operands.toList.reverse[depth]? with
  | none =>
      have hlength : operands.toList.reverse.length ≤ depth := List.getElem?_eq_none_iff.mp hobj
      exact ⟨operands, rfl, hwf, rfl, (List.modify_eq_self hlength).symm⟩
  | some obj =>
      obtain ⟨hlt, hget⟩ := List.getElem?_eq_some_iff.mp hobj
      have hmodify : operands.toList.reverse.modify depth p.prepare =
          operands.toList.reverse.set depth (p.prepare obj) := by
        have : Inhabited Object := ⟨Object.null⟩
        rw [List.modify_eq_set, hobj, Option.getD_some]
      rw [hmodify, Pattern.prepare]
      cases hpromotes : p.promotes obj with
      | true =>
          obtain ⟨t, hrun, hwf', hlimit, hlist⟩ :=
            Stack.replaceFromTop_run hwf (show depth < operands.count by simpa using hlt) obj.promoted
          exact ⟨t, by simp [hpromotes, hrun], hwf', hlimit, by simp [hlist]⟩
      | false =>
          refine ⟨operands, by simp [hpromotes], hwf, rfl, ?_⟩
          rw [← hget, if_neg Bool.false_ne_true, List.set_getElem_self]

lemma promoteEach_run (h : patterns.length ≤ maxArity) (hwf : operands.WellFormed)
    (depths : List Nat) (hdepths : ∀ depth ∈ depths, depth < patterns.length) :
    ∃ t, (ofPatterns patterns out number).promoteEach depths operands = .ok () t ∧ t.WellFormed ∧
      t.limit = operands.limit ∧
      t.toList.reverse = promotions patterns depths operands.toList.reverse := by
  induction depths generalizing operands with
  | nil => exact ⟨operands, rfl, hwf, rfl, rfl⟩
  | cons depth rest ih =>
      obtain ⟨t, hrun, hwf', hlimit, hlist⟩ :=
        promoteAt_run out number h hwf (hdepths depth List.mem_cons_self)
      obtain ⟨u, hrest, hwf'', hlimit', hlist'⟩ :=
        ih hwf' fun other hother => hdepths other (List.mem_cons_of_mem depth hother)
      refine ⟨u, (bind_ok hrun).trans hrest, hwf'', hlimit'.trans hlimit, ?_⟩
      rw [hlist', hlist]
      rfl

lemma getElem?_promotions (patterns : List Pattern) (n : Nat) (items : List Object) (i : Nat) :
    (promotions patterns (List.range n) items)[i]? =
      if i < n then items[i]?.map (promotion patterns i) else items[i]? := by
  induction n with
  | zero => rfl
  | succ n ih =>
      have hstep : promotions patterns (List.range (n + 1)) items =
          (promotions patterns (List.range n) items).modify n (promotion patterns n) := by
        rw [promotions, List.range_succ, List.foldl_append]
        rfl
      rw [hstep, List.getElem?_modify, ih]
      by_cases hi : n = i
      · subst hi
        simp
      · by_cases hlt : i < n
        · simp [hi, hlt, Nat.lt_succ_of_lt hlt]
        · simp [hi, hlt, show ¬ i < n + 1 by omega]

lemma promotions_range {below args : List Object} (hargs : args.length = patterns.length) :
    promotions patterns (List.range patterns.length) (below ++ args).reverse =
      (below ++ List.zipWith Pattern.prepare patterns args).reverse := by
  refine List.ext_getElem? fun i => ?_
  have hlength : (List.zipWith Pattern.prepare patterns args).length = patterns.length := by
    rw [List.length_zipWith, hargs, Nat.min_self]
  rw [getElem?_promotions, List.reverse_append, List.reverse_append, List.getElem?_append,
    List.getElem?_append, List.length_reverse, List.length_reverse, hlength, hargs]
  split
  · next hi =>
    have hlt : i < patterns.reverse.length := by simpa using hi
    have hp : patterns.reverse[i]? = some patterns.reverse[i] := List.getElem?_eq_getElem _
    have hpromotion : promotion patterns i = patterns.reverse[i].prepare := by
      funext obj
      rw [promotion, hp]
    rw [List.reverse_zipWith hargs.symm, List.getElem?_zipWith', hp, hpromotion]
    rfl
  · rfl

/-- **Promotion prepares the operands of a signature** and leaves the others alone. -/
lemma promote_run (h : patterns.length ≤ maxArity) (hwf : operands.WellFormed)
    {below args : List Object} (hlist : operands.toList = below ++ args)
    (hargs : args.length = patterns.length) :
    ∃ t, (ofPatterns patterns out number).promote operands = .ok () t ∧ t.WellFormed ∧
      t.limit = operands.limit ∧
      t.toList = below ++ List.zipWith Pattern.prepare patterns args := by
  obtain ⟨t, hrun, hwf', hlimit, hlist'⟩ := promoteEach_run out number h hwf
    (List.range patterns.length) fun depth hdepth => List.mem_range.mp hdepth
  refine ⟨t, ?_, hwf', hlimit, ?_⟩
  · rw [promote, toNat_inArity_ofPatterns h, hrun]
  · rw [hlist, promotions_range hargs] at hlist'
    exact List.reverse_injective hlist'

end Signature

namespace StackSet

variable {ν : Type}

/-- Refuses a definition whose results or arguments would not fit on their stacks. -/
def roomFor (s : StackSet) (d : Definition ν) : Except Fault Unit :=
  if s.operands.limit < s.operands.count - d.patterns.length + d.outArity.toNat then
    .error .stackOverflow
  else if s.hold.limit < s.hold.count + d.patterns.length then .error .limitCheck
  else .ok ()

/-- The definition that a dispatch comes to, or why it fails before a native runs. -/
def resolve (s : StackSet) (definitions : List (Definition ν)) : Except Fault (Definition ν) :=
  match OperatorTable.choice definitions s.operands.toList with
  | .error fault => .error fault
  | .ok d => (s.roomFor d).map fun _ => d

/-- What a dispatch comes to depends on the operands and on the room to hold them. -/
lemma resolve_congr {s t : StackSet} (hoperands : s.operands = t.operands) (hhold : s.hold = t.hold)
    (definitions : List (Definition ν)) : s.resolve definitions = t.resolve definitions := by
  simp only [resolve, roomFor, hoperands, hhold]

end StackSet

namespace Session

open OperatorTable

variable {ν : Type}

/-! ## Taking and holding operands -/

/-- **Taking operands** splits the list at the depth of the last one. -/
lemma takeOperands_run {operands : Stack} (h : operands.WellFormed) {below args : List Object}
    (hlist : operands.toList = below ++ args) :
    ∃ rest, takeOperands args.length operands = .ok args rest ∧ rest.WellFormed ∧
      rest.toList = below ∧ rest.limit = operands.limit := by
  induction args using List.reverseRecOn generalizing operands with
  | nil => exact ⟨operands, rfl, h, by simpa using hlist, rfl⟩
  | append_singleton deeper obj ih =>
      rw [← List.append_assoc] at hlist
      obtain ⟨t, hpop, hwf, hbelow, hlimit⟩ := Stack.pop?_run h hlist
      have hpopOr : Stack.popOr .stackUnderflow operands = .ok obj t := by rw [Stack.popOr, hpop]
      obtain ⟨rest, htake, hwf', hbelow', hlimit'⟩ := ih hwf hbelow
      refine ⟨rest, ?_, hwf', hbelow', hlimit'.trans hlimit⟩
      rw [List.length_append, List.length_singleton, takeOperands]
      exact (bind_ok hpopOr).trans ((bind_ok htake).trans rfl)

/-- The arguments have moved to the hold stack. -/
structure Held (s : Session ν) (below args : List Object) (operands hold : Stack) : Prop where
  operands_wf : operands.WellFormed
  below : operands.toList = below
  limit : operands.limit = s.context.stackSet.operands.limit
  hold_wf : hold.WellFormed
  held : hold.toList = s.context.stackSet.hold.toList ++ args
  hold_limit : hold.limit = s.context.stackSet.hold.limit

/-- The session while a native runs that took `need` operands. -/
def running (s : Session ν) (opcode need : Nat) (operands hold : Stack) : Session ν :=
  { s with
    context := { s.context with
      stackSet := { s.context.stackSet with operands, hold }
      restoreArity := if s.context.current.asOpcode? = some opcode then some need else none } }

/-- There is room for the results and for the held arguments. -/
lemma room_of_checkRoom {s : Session ν} {signature : Signature}
    (h : s.checkRoom signature = .ok ()) :
    s.context.stackSet.hold.count + signature.inArity.toNat ≤ s.context.stackSet.hold.limit := by
  rw [checkRoom] at h
  split_ifs at h
  omega

lemma holdOperands_run {s : Session ν} (opcode out number : Nat) {patterns : List Pattern}
    (hpatterns : patterns.length ≤ maxArity) (hoperands : s.context.stackSet.operands.WellFormed)
    (hhold : s.context.stackSet.hold.WellFormed) {below args : List Object}
    (hlist : s.context.stackSet.operands.toList = below ++ args)
    (hargs : args.length = patterns.length)
    (hroom : s.context.stackSet.hold.count + patterns.length ≤ s.context.stackSet.hold.limit) :
    ∃ operands hold,
      s.Held below (List.zipWith Pattern.prepare patterns args) operands hold ∧
      holdOperands opcode (Signature.ofPatterns patterns out number) s =
        .ok (List.zipWith Pattern.prepare patterns args)
          (s.running opcode patterns.length operands hold) := by
  have hlength : (List.zipWith Pattern.prepare patterns args).length = patterns.length := by
    rw [List.length_zipWith, hargs, Nat.min_self]
  obtain ⟨promoted, hpromote, hpromoted, hlimit, hprepared⟩ := Signature.promote_run
    out number hpatterns hoperands hlist hargs
  obtain ⟨operands, htake, hoperands', hbelow, hlimit'⟩ := takeOperands_run hpromoted hprepared
  obtain ⟨hold, hpush, hhold', hheld, hholds⟩ := Stack.pushAll_run hhold (hlength.symm ▸ hroom)
  refine ⟨operands, hold, ⟨hoperands', hbelow, hlimit'.trans hlimit, hhold', hheld, hholds⟩, ?_⟩
  rw [holdOperands, Signature.toNat_inArity_ofPatterns hpatterns, ← hlength]
  refine (bind_ok (onOperands_ok hpromote)).trans ?_
  refine (bind_ok (onOperands_ok (s := s.setOperands promoted) htake)).trans ?_
  exact (bind_ok (onHold_ok (s := s.setOperands operands) hpush)).trans rfl

/-! ## Dispatch -/

/-- A dispatch with this result does what the definitions say: it fails with everything in place, or
it runs the native of the first definition that fits on its prepared operands, and then lets go of them. -/
structure Answers [NativeSet ν] (s : Session ν) (opcode : Nat) (call : Nat → Action ν Unit)
    (definitions : List (Definition ν)) (result : EStateM.Result Fault (Session ν) Unit) :
    Prop where
  refused : ∀ fault, s.context.stackSet.resolve definitions = .error fault → result = .error fault s.cleared
  invoked : ∀ d, s.context.stackSet.resolve definitions = .ok d → ∃ below args operands hold,
    s.context.stackSet.operands.toList = below ++ args ∧ args.length = d.patterns.length ∧
      s.Held below (d.prepare args) operands hold ∧
      result = releasingHold d.patterns.length (NativeSet.run d.native call (d.prepare args))
        (s.running opcode d.patterns.length operands hold)

/-- A dispatch with this result does what the definitions say.  It fails with everything in place, or the
native of the first definition that fits is run on its prepared operands, which have moved to the stack
of held ones, and the result is what the native answers or raises. -/
structure Dispatches [NativeSet ν] (s : Session ν) (opcode : Nat) (call : Nat → Action ν Unit)
    (definitions : List (Definition ν)) (result : EStateM.Result Fault (Session ν) Unit) :
    Prop where
  refused : ∀ fault, s.context.stackSet.resolve definitions = .error fault → result = .error fault s.cleared
  invoked : ∀ d, s.context.stackSet.resolve definitions = .ok d → ∃ below args operands hold,
    s.context.stackSet.operands.toList = below ++ args ∧ args.length = d.patterns.length ∧
      s.Held below (d.prepare args) operands hold ∧
      Relays d.patterns.length (NativeSet.run d.native call (d.prepare args))
        (s.running opcode d.patterns.length operands hold) result

lemma Answers.dispatches [NativeSet ν] {s : Session ν} {opcode : Nat} {call : Nat → Action ν Unit}
    {definitions : List (Definition ν)} {result : EStateM.Result Fault (Session ν) Unit}
    (h : s.Answers opcode call definitions result) : s.Dispatches opcode call definitions result where
  refused := h.refused
  invoked d hd := by
    obtain ⟨below, args, operands, hold, hlist, hargs, hheld, hresult⟩ := h.invoked d hd
    exact ⟨below, args, operands, hold, hlist, hargs, hheld, hresult ▸ relays_releasingHold _ _ _⟩

lemma checkRoom_realises {s : Session ν} {t : OperatorTable ν} {d : Definition ν}
    {signature : Signature} (h : Realises t d signature) :
    s.checkRoom signature = s.context.stackSet.roomFor d := by
  have harity : signature.inArity.toNat = d.patterns.length := by
    rw [h.signature_eq, Signature.toNat_inArity_ofPatterns h.arity]
  have hout : signature.outArity = d.outArity := by
    rw [h.signature_eq, Signature.ofPatterns, UInt8.ofNat_toNat]
  rw [checkRoom, harity, hout, StackSet.roomFor]

/-- The operands of a definition that accepts them. -/
lemma exists_args_of_accepts {d : Definition ν} {items : List Object}
    (h : d.accepts items = true) :
    ∃ below args, items = below ++ args ∧ args.length = d.patterns.length := by
  rw [Definition.accepts, Pattern.acceptTop, Bool.and_eq_true, decide_eq_true_eq] at h
  refine ⟨_, _, (List.take_append_drop (items.length - d.patterns.length) items).symm, ?_⟩
  rw [List.length_drop]
  omega

lemma mem_of_choice {definitions : List (Definition ν)} {items : List Object} {d : Definition ν}
    (h : choice definitions items = .ok d) : d ∈ definitions ∧ d.accepts items = true := by
  rw [choice] at h
  split at h
  · next found hfind =>
    obtain rfl := Except.ok.inj h
    exact ⟨List.mem_of_find?_eq_some hfind,
      List.find?_some (p := fun d : Definition ν => d.accepts items) hfind⟩
  · contradiction

variable [NativeSet ν]

lemma dispatchNested_eq (s : Session ν) (depth opcode : Nat) :
    dispatchNested (depth + 1) opcode s =
      match s.operators.select s.globalVM s.context.stackSet.operands opcode with
      | .ok signature => invoke (dispatchNested depth) opcode signature s.cleared
      | .error fault => .error fault s.cleared := by
  have hclear : modifyContext (fun c => { c with restoreArity := none }) s = .ok () s.cleared := rfl
  rw [dispatchNested]
  refine (bind_ok hclear).trans ?_
  cases hselect : s.operators.select s.globalVM s.context.stackSet.operands opcode with
  | ok signature => exact bind_ok (query_ok (s := s.cleared) hselect)
  | error fault => exact bind_error (query_error (s := s.cleared) hselect)

lemma invoke_realises {s : Session ν} {opcode : Nat} {call : Nat → Action ν Unit}
    {d : Definition ν} {signature : Signature} (h : Realises s.operators d signature)
    (hoperands : s.context.stackSet.operands.WellFormed)
    (hhold : s.context.stackSet.hold.WellFormed) {below args : List Object}
    (hlist : s.context.stackSet.operands.toList = below ++ args)
    (hargs : args.length = d.patterns.length) (hroom : s.checkRoom signature = .ok ()) :
    ∃ operands hold, s.Held below (d.prepare args) operands hold ∧
      invoke call opcode signature s.cleared =
        releasingHold d.patterns.length (NativeSet.run d.native call (d.prepare args))
          (s.running opcode d.patterns.length operands hold) := by
  have harity : signature.inArity.toNat = d.patterns.length := by
    rw [h.signature_eq, Signature.toNat_inArity_ofPatterns h.arity]
  obtain ⟨operands, hold, hheld, hrun⟩ := holdOperands_run (s := s.cleared) opcode
    d.outArity.toNat signature.native h.arity hoperands hhold hlist hargs
    (harity ▸ room_of_checkRoom hroom)
  rw [← h.signature_eq] at hrun
  refine ⟨operands, hold, ⟨hheld.operands_wf, hheld.below, hheld.limit, hheld.hold_wf, hheld.held,
    hheld.hold_limit⟩, ?_⟩
  have hnative : (s.cleared.running opcode d.patterns.length operands hold).operators.natives[
      signature.native]? = some d.native := h.native
  rw [invoke]
  refine (bind_ok (query_ok (s := s.cleared) hroom)).trans ((bind_ok hrun).trans ?_)
  refine (bind_ok (t := s.cleared.running opcode d.patterns.length operands hold) rfl).trans ?_
  rw [hnative, harity]
  rfl

/-- **A dispatch does what the definitions of its opcode say.** -/
lemma answers_of_stores {s : Session ν} {ls : List (Listing ν)} {l : Listing ν} {opcode : Nat}
    (hstores : Stores s.operators s.globalVM ls) (hs : s.globalVM.Sound)
    (hm : s.globalVM.entityCount ≤ wordBound) (hl : ls[opcode]? = some l)
    (hoperands : s.context.stackSet.operands.WellFormed)
    (hhold : s.context.stackSet.hold.WellFormed) (depth : Nat) :
    s.Answers opcode (dispatchNested depth) l.definitions (dispatchNested (depth + 1) opcode s) := by
  obtain ⟨hok, herror⟩ := hstores.select hs hm hl s.context.stackSet.operands
  rw [dispatchNested_eq]
  cases hchoice : choice l.definitions s.context.stackSet.operands.toList with
  | error fault =>
      rw [herror fault hchoice]
      constructor
      · intro fault' hresolve
        rw [StackSet.resolve, hchoice] at hresolve
        obtain rfl := Except.error.inj hresolve
        rfl
      · intro d hresolve
        rw [StackSet.resolve, hchoice] at hresolve
        contradiction
  | ok d =>
      obtain ⟨signature, hrealises, hselect⟩ := hok d hchoice
      obtain ⟨below, args, hlist, hargs⟩ := exists_args_of_accepts (mem_of_choice hchoice).2
      have hcheck : s.checkRoom signature = s.context.stackSet.roomFor d := checkRoom_realises hrealises
      have hresolve : s.context.stackSet.resolve l.definitions = (s.context.stackSet.roomFor d).map fun _ => d := by
        rw [StackSet.resolve, hchoice]
      rw [hselect]
      cases hroom : s.context.stackSet.roomFor d with
      | error fault =>
          rw [hroom] at hcheck hresolve
          constructor
          · intro fault' hfault
            obtain rfl := Except.error.inj (hresolve.symm.trans hfault)
            exact bind_error (query_error (s := s.cleared) hcheck)
          · intro d' hd
            exact nomatch hresolve.symm.trans hd
      | ok =>
          rw [hroom] at hcheck hresolve
          constructor
          · intro fault hfault
            exact nomatch hresolve.symm.trans hfault
          · intro d' hd
            obtain rfl := Except.ok.inj (hresolve.symm.trans hd)
            obtain ⟨operands, hold, hheld, hrun⟩ :=
              invoke_realises hrealises hoperands hhold hlist hargs hcheck
            exact ⟨below, args, operands, hold, hlist, hargs, hheld, hrun⟩

/-- A dispatch of an opcode that was never assigned. -/
lemma answers_of_unknown {s : Session ν} {opcode : Nat} (h : s.operators.size ≤ opcode)
    (depth : Nat) :
    s.Answers opcode (dispatchNested depth) [] (dispatchNested (depth + 1) opcode s) := by
  have hselect (operands : Stack) :
      s.operators.select s.globalVM operands opcode = .error .unregistered := by
    rw [OperatorTable.select, OperatorTable.entry, if_neg (Nat.not_lt_of_le h)]
  rw [dispatchNested_eq, hselect]
  constructor
  · intro fault hfault
    obtain rfl := Except.error.inj hfault
    rfl
  · intro d hd
    contradiction

/-- **A dispatch does what a run has registered.** -/
lemma answers_of_registered {start : OperatorTable ν × Memory} {run : List (RegistryOp ν)}
    (h : IsFresh start) (hrun : sparesAll start run = true)
    (hwords : (OperatorTable.afterAll start run).2.entityCount ≤ wordBound) {s : Session ν}
    (hs : (s.operators, s.globalVM) = OperatorTable.afterAll start run)
    (hoperands : s.context.stackSet.operands.WellFormed)
    (hhold : s.context.stackSet.hold.WellFormed) (opcode depth : Nat) :
    s.Answers opcode (dispatchNested depth) (definitionsAt s.operators (registered start run) opcode)
      (dispatchNested (depth + 1) opcode s) := by
  have hsettled := h.settled_afterAll hrun
  rw [← hs] at hsettled hwords
  obtain ⟨ls, hstores, hrecorded⟩ := hsettled.holds hwords
  cases hl : ls[opcode]? with
  | some l =>
      rw [hrecorded.definitionsAt hstores.toLists hl]
      exact answers_of_stores hstores hsettled.threaded.sound hwords hl hoperands hhold depth
  | none =>
      have hsize : s.operators.size ≤ opcode := by
        rw [hstores.size]
        exact List.getElem?_eq_none_iff.mp hl
      have hnone : s.operators.name? opcode = none := by rw [hstores.name?_eq, hl, Option.map_none]
      rw [definitionsAt, hnone]
      exact answers_of_unknown hsize depth

/-- **Dispatch runs the first definition that fits.**  On a registry that a run has built, for every
opcode and every stack of operands, the quick checks agree with the patterns, and a dispatch does what
the definitions in the log say: what their native answers or raises on its prepared operands is what the
dispatch answers or raises. -/
theorem dispatch_runs_first_fit {start : OperatorTable ν × Memory} {run : List (RegistryOp ν)}
    (h : IsFresh start) (hrun : sparesAll start run = true)
    (hwords : (OperatorTable.afterAll start run).2.entityCount ≤ wordBound) {s : Session ν}
    (hs : (s.operators, s.globalVM) = OperatorTable.afterAll start run)
    (hoperands : s.context.stackSet.operands.WellFormed)
    (hhold : s.context.stackSet.hold.WellFormed) (opcode : Nat) :
    (∀ signatures, s.operators.signatures s.globalVM opcode = .ok signatures →
      ∀ signature ∈ signatures, QuickCheck.ofCode signature.quick ≠ .none → ∀ operands,
        (QuickCheck.ofCode signature.quick).passes operands = true ↔
          signature.fits operands = .full) ∧
    s.Dispatches opcode (dispatchNested s.context.stackSet.hold.limit)
      (definitionsAt s.operators (registered start run) opcode) (dispatch opcode s) ∧
    ∀ depth, s.Dispatches opcode (dispatchNested depth)
      (definitionsAt s.operators (registered start run) opcode)
      (dispatchNested (depth + 1) opcode s) := by
  have hanswers := answers_of_registered h hrun hwords hs hoperands hhold opcode
  have hsettled := h.settled_afterAll hrun
  rw [← hs] at hsettled hwords
  obtain ⟨ls, hstores, -⟩ := hsettled.holds hwords
  refine ⟨fun signatures hsignatures signature hmem hquick operands => ?_,
    (hanswers s.context.stackSet.hold.limit).dispatches, fun depth => (hanswers depth).dispatches⟩
  obtain ⟨l, hl, rfl⟩ :=
    hstores.listing_of_signatures hsettled.threaded.sound hwords hsignatures
  obtain ⟨r, hr, rfl⟩ := List.mem_map.mp hmem
  exact Signature.passes_iff_fits (hstores.native l (mem_of_getElem? hl) r hr).1 hquick

/-- Stacks with an integer below a real as operands. -/
def mixedStacks : StackSet :=
  { StackSet.create Settings.standard with
    operands := Stack.ofObjects [Object.mark, Object.int 1, Object.real 0x3f000000] }

/-- A session on a registry, with an integer below a real as operands. -/
def mixedOperands (r : OperatorTable Builtin × Memory) : Session Builtin where
  settings := Settings.standard
  globalVM := r.2
  names := Names.empty
  operators := r.1
  system := ⟨2, 3, 4⟩
  scheduler := Scheduler.empty
  output := ⟨"", true⟩
  context := { Context.vacant with stackSet := mixedStacks }

lemma registry_mixedOperands (r : OperatorTable Builtin × Memory) :
    ((mixedOperands r).operators, (mixedOperands r).globalVM) = r := rfl

lemma operators_mixedOperands (r : OperatorTable Builtin × Memory) :
    (mixedOperands r).operators = r.1 := rfl

lemma wellFormed_mixedStacks : mixedStacks.operands.WellFormed ∧ mixedStacks.hold.WellFormed ∧
    mixedStacks.operands.toList = [Object.mark, Object.int 1, Object.real 0x3f000000] := by
  obtain ⟨hwf, hlist, -⟩ := Stack.ofObjects_run
    (show [Object.mark, Object.int 1, Object.real 0x3f000000].length ≤ 8 by decide)
  exact ⟨hwf, Stack.wellFormed_create (by decide) _ _, hlist⟩

/-- The integer is promoted, the sum takes the place of both operands, and nothing is held any more. -/
theorem dispatch_runs_first_fit_promoting :
    IsFresh freshRegistry ∧ sparesAll freshRegistry growingRun = true ∧
      (OperatorTable.afterAll freshRegistry growingRun).2.entityCount ≤ wordBound ∧
      mixedStacks.operands.WellFormed ∧ mixedStacks.hold.WellFormed ∧
      ∃ t, dispatch 0 (mixedOperands (OperatorTable.afterAll freshRegistry growingRun)) = .ok () t ∧
        t.context.stackSet.operands.toList = [Object.mark, Object.real 0x3fc00000] ∧
        t.context.stackSet.hold.toList = [] := by
  obtain ⟨hspares, hwords, hbyName, hlog⟩ := growingRun_registers
  obtain ⟨hwf, hhold, hlist⟩ := wellFormed_mixedStacks
  have hs := registry_mixedOperands (OperatorTable.afterAll freshRegistry growingRun)
  obtain ⟨-, hdispatches, -⟩ := dispatch_runs_first_fit isFresh_freshRegistry hspares hwords hs hwf
    hhold 0
  have hdefinitions : definitionsAt (OperatorTable.afterAll freshRegistry growingRun).1
      (registered freshRegistry growingRun) 0 =
        [⟨[.type .integer, .type .integer], 1, .intAdd⟩, ⟨[.float, .float], 1, .realAdd⟩,
          ⟨[.any, .any], 2, .exch⟩] := by
    rw [definitionsAt, name?, hbyName, hlog]
    rfl
  have hresolve : mixedStacks.resolve
      [⟨[.type .integer, .type .integer], 1, Builtin.intAdd⟩, ⟨[.float, .float], 1, .realAdd⟩,
        ⟨[.any, .any], 2, .exch⟩] = .ok ⟨[.float, .float], 1, .realAdd⟩ := by
    rfl
  rw [operators_mixedOperands, hdefinitions] at hdispatches
  obtain ⟨below, args, operands, hold, hsplit, hlength, hheld, hrelays⟩ :=
    hdispatches.invoked _ hresolve
  obtain ⟨rfl, rfl⟩ : below = [Object.mark] ∧ args = [Object.int 1, Object.real 0x3f000000] :=
    List.append_inj' (hsplit.symm.trans hlist) hlength
  have hroom : operands.count < operands.limit := by
    rw [← Stack.length_toList, hheld.below, hheld.limit]
    decide
  obtain ⟨sum, hpush, -, hsum, -⟩ := Stack.push_run hheld.operands_wf hroom (Object.real 0x3fc00000)
  have hadd := onOperands_ok (s := (mixedOperands (OperatorTable.afterAll freshRegistry growingRun)).running 0 2
    operands hold) hpush
  obtain ⟨rest, -, hrest, -, hresult⟩ := hrelays.returned _ [] _ hadd hheld.hold_wf hheld.held rfl
  refine ⟨isFresh_freshRegistry, hspares, hwords, hwf, hhold, _, hresult, ?_, hrest⟩
  exact hsum.trans (by rw [hheld.below]; rfl)

end Session

end PostScriptCore
