import PostScriptCore.Proofs.Builtin.StackWords
import PostScriptCore.Proofs.Machine.Repertoire
import PostScriptCore.Proofs.Machine.Words
import PostScriptCore.Proofs.Stack.Refinement

/-!
# Dispatching the stack operators

How signatures are chosen, where arguments are held and how the stack is cut into segments does not show: a
dispatch of a stack operator does to the operands what the operator does to the list.

**Outcomes.**  `Session.HasEffect` says that a dispatch has an outcome on lists.  `Session.Leaves` is the rest:
nothing but the operands, what is on hold and the note on giving operands back is different afterwards.

**Before the native.**  `Session.Consults` are the stacks in order and the definitions that are tried.  Operands
are missing (`Session.Consults.short`), mistyped (`Session.Consults.mistyped`) or accepted
(`Session.Consults.accepted`), and then the native is invoked if there is room.

**The native.**  What it does is `Session.Rearranges` or `Session.Refuses`, on the operands alone.

**Together.**  `StackWord.hasEffect` has one case for each operator, and `StackWord.dispatch_has_effect` says it
of machines that have been started.
-/

namespace PostScriptCore

open OperatorTable

/-! ## What a dispatch leaves -/

namespace Session

variable {s u : Session Builtin} {opcode : Nat} {limit : Nat} {below args xs ys : List Object}
  {d : Definition Builtin} {definitions : List (Definition Builtin)} {fault : Fault}

/-- The operands, the topmost first. -/
def topFirst (s : Session Builtin) : List Object := s.context.stackSet.operands.toList.reverse

lemma length_topFirst (s : Session Builtin) : s.topFirst.length = s.context.stackSet.operands.toList.length :=
  List.length_reverse

/-- How many more objects can be held. -/
def holdRoom (s : Session Builtin) : Nat := s.context.stackSet.hold.limit - s.context.stackSet.hold.count

/-- The session has these operands, the topmost first, and holds these objects besides what the other one
holds.  Apart from them and the note whether operands are to be given back, it is the other one. -/
structure Leaves (s : Session Builtin) (operands held : List Object) (t : Session Builtin) : Prop where
  world : t.toWorld = s.toWorld
  context : t.context = { s.context with
    stackSet := { s.context.stackSet with
      operands := t.context.stackSet.operands, hold := t.context.stackSet.hold }
    restoreArity := t.context.restoreArity }
  operands : t.context.stackSet.operands.Lists s.context.stackSet.operands.limit operands.reverse
  hold : t.context.stackSet.hold.Lists s.context.stackSet.hold.limit (s.context.stackSet.hold.toList ++ held)

/-- **A dispatch has the outcome.**  After success the operands are what it says and nothing more is held.
After a failure they are what they were, except for an index that is out of range, which is no operand any
more; it is held if the operator is what is being executed. -/
def HasEffect (s : Session Builtin) (opcode : Nat) : Except Fault (List Object) → Prop
  | .ok ys => ∃ t, dispatch opcode s = .ok () t ∧ s.Leaves ys [] t
  | .error fault => ∃ t, dispatch opcode s = .error fault t ∧
    if fault = .rangeCheck then
      s.Leaves s.topFirst.tail
        (if s.context.current.asOpcode? = some opcode then s.topFirst.take 1 else []) t
    else s.Leaves s.topFirst [] t

/-- The action turns these operands into those and does nothing else.  Operands are listed from the bottom up. -/
def Rearranges (x : Action Builtin Unit) (limit : Nat) (xs ys : List Object) : Prop :=
  ∀ u : Session Builtin, u.context.stackSet.operands.Lists limit xs →
    ∃ operands : Stack, x u = .ok () (u.setOperands operands) ∧ operands.Lists limit ys

/-- On these operands the action fails and does nothing. -/
def Refuses (x : Action Builtin Unit) (limit : Nat) (xs : List Object) (fault : Fault) : Prop :=
  ∀ u : Session Builtin, u.context.stackSet.operands.Lists limit xs → x u = .error fault u

/-! ## Before a native runs -/

/-- A dispatch that is refused before a native runs changes nothing. -/
lemma leaves_cleared (hoperands : s.context.stackSet.operands.WellFormed)
    (hhold : s.context.stackSet.hold.WellFormed) : s.Leaves s.topFirst [] s.cleared where
  world := rfl
  context := rfl
  operands := ⟨hoperands, rfl, (List.reverse_reverse _).symm⟩
  hold := ⟨hhold, rfl, (List.append_nil _).symm⟩

/-- The stacks are in order, and a dispatch of the opcode does what the definitions say. -/
structure Consults (s : Session Builtin) (opcode : Nat) (definitions : List (Definition Builtin)) : Prop where
  operands : s.context.stackSet.operands.WellFormed
  hold : s.context.stackSet.hold.WellFormed
  answers : ∃ call, s.Answers opcode call definitions (dispatch opcode s)

namespace Consults

lemma refused (h : s.Consults opcode definitions)
    (hresolve : s.context.stackSet.resolve definitions = .error fault) (hfault : fault ≠ .rangeCheck) :
    s.HasEffect opcode (.error fault) := by
  obtain ⟨call, hanswers⟩ := h.answers
  refine ⟨s.cleared, hanswers.refused fault hresolve, ?_⟩
  rw [if_neg hfault]
  exact leaves_cleared h.operands h.hold

/-- Operands are missing if every definition takes more of them. -/
lemma short (h : s.Consults opcode definitions) (hne : definitions ≠ [])
    (hshort : ∀ d ∈ definitions, s.topFirst.length < d.patterns.length) :
    s.HasEffect opcode (.error .stackUnderflow) := by
  rw [length_topFirst] at hshort
  refine h.refused ?_ (by decide)
  have hnone : definitions.find? (fun d => d.accepts s.context.stackSet.operands.toList) = none := by
    rw [List.find?_eq_none]
    intro d hd
    rw [Definition.accepts, Pattern.acceptTop_short (hshort d hd)]
    exact Bool.false_ne_true
  obtain ⟨d, hd⟩ := List.exists_mem_of_ne_nil definitions hne
  have hany : (definitions.any fun d => s.context.stackSet.operands.toList.length < d.patterns.length) = true :=
    List.any_eq_true.mpr ⟨d, hd, decide_eq_true (hshort d hd)⟩
  rw [StackSet.resolve, choice, hnone]
  simp only [List.isEmpty_eq_false_iff.mpr hne, hany, Bool.false_eq_true, if_false, if_true]

/-- They are mistyped if there are enough for every definition and none accepts them. -/
lemma mistyped (h : s.Consults opcode definitions) (hne : definitions ≠ [])
    (hmistyped : ∀ d ∈ definitions, d.patterns.length ≤ s.topFirst.length ∧
      d.accepts s.context.stackSet.operands.toList = false) :
    s.HasEffect opcode (.error .typeCheck) := by
  rw [length_topFirst] at hmistyped
  refine h.refused ?_ (by decide)
  have hnone : definitions.find? (fun d => d.accepts s.context.stackSet.operands.toList) = none := by
    rw [List.find?_eq_none]
    intro d hd
    rw [(hmistyped d hd).2]
    exact Bool.false_ne_true
  have hany :
      (definitions.any fun d => s.context.stackSet.operands.toList.length < d.patterns.length) = false := by
    rw [List.any_eq_false]
    intro d hd
    simpa using (hmistyped d hd).1
  rw [StackSet.resolve, choice, hnone]
  simp only [List.isEmpty_eq_false_iff.mpr hne, hany, Bool.false_eq_true, if_false]

/-- **The first definition that accepts the operands** is invoked if there is room. -/
lemma accepted (h : s.Consults opcode definitions)
    (hlist : s.context.stackSet.operands.toList = below ++ args) (hargs : args.length = d.patterns.length)
    (hfind : definitions.find? (fun d => d.accepts s.context.stackSet.operands.toList) = some d)
    {outcome : Except Fault (List Object)}
    (hinvoked : s.context.stackSet.resolve definitions = .ok d → s.HasEffect opcode outcome) :
    s.HasEffect opcode
      (if s.context.stackSet.operands.limit < below.length + d.outArity.toNat then .error .stackOverflow
        else StackWord.holding s.holdRoom args.length outcome) := by
  have hcount : s.context.stackSet.operands.count - d.patterns.length = below.length := by
    rw [← Stack.length_toList, hlist, List.length_append, hargs, Nat.add_sub_cancel]
  have hresolve : s.context.stackSet.resolve definitions = (s.context.stackSet.roomFor d).map fun _ => d := by
    rw [StackSet.resolve, choice, hfind]
  have hle := h.hold.count_le
  rw [StackSet.roomFor, hcount] at hresolve
  rw [StackWord.holding, holdRoom]
  split_ifs at hresolve ⊢ with hfull hheld hroom hroom
  · exact h.refused hresolve (by decide)
  · exact h.refused hresolve (by decide)
  · omega
  · omega
  · exact hinvoked hresolve

/-! ## The native -/

/-- A native that was invoked runs with its arguments on hold. -/
lemma invoked (h : s.Consults opcode definitions)
    (hlist : s.context.stackSet.operands.toList = below ++ args) (hargs : args.length = d.patterns.length)
    (hresolve : s.context.stackSet.resolve definitions = .ok d) :
    ∃ operands hold, s.Held below (d.prepare args) operands hold ∧
      dispatch opcode s = releasingHold d.patterns.length (d.native.run (d.prepare args))
        (s.running opcode d.patterns.length operands hold) := by
  obtain ⟨call, hanswers⟩ := h.answers
  obtain ⟨below', args', operands, hold, hsplit, hargs', hheld, hrun⟩ := hanswers.invoked d hresolve
  obtain ⟨rfl, rfl⟩ : below' = below ∧ args' = args :=
    List.append_inj' (hsplit.symm.trans hlist) (hargs'.trans hargs.symm)
  exact ⟨operands, hold, hheld, hrun⟩

lemma length_prepare (hargs : args.length = d.patterns.length) : (d.prepare args).length = d.patterns.length := by
  rw [Definition.prepare, List.length_zipWith, hargs, Nat.min_self]

/-- **A native that rearranges the operands.** -/
lemma rearranged (h : s.Consults opcode definitions)
    (hlist : s.context.stackSet.operands.toList = below ++ args) (hargs : args.length = d.patterns.length)
    (hresolve : s.context.stackSet.resolve definitions = .ok d)
    (hrun : Rearranges (d.native.run (d.prepare args)) s.context.stackSet.operands.limit below ys.reverse) :
    s.HasEffect opcode (.ok ys) := by
  obtain ⟨operands, hold, hheld, hdispatch⟩ := h.invoked hlist hargs hresolve
  obtain ⟨operands', hrun', hlists⟩ := hrun (s.running opcode d.patterns.length operands hold)
    ⟨hheld.operands_wf, hheld.limit, hheld.below⟩
  obtain ⟨hold', hdrop, hwf, hdropped, hlimit⟩ := dropHeld_run
    (t := (s.running opcode d.patterns.length operands hold).setOperands operands') hheld.hold_wf hheld.held
    (length_prepare hargs)
  refine ⟨((s.running opcode d.patterns.length operands hold).setOperands operands').setHold hold', ?_,
    rfl, rfl, hlists, hwf, hlimit.trans hheld.hold_limit, hdropped.trans (List.append_nil _).symm⟩
  rw [hdispatch, releasingHold, hrun']
  exact hdrop

/-- **A native that fails** leaves its arguments on hold if it is what is being executed. -/
lemma failed (h : s.Consults opcode definitions)
    (hlist : s.context.stackSet.operands.toList = below ++ args) (hargs : args.length = d.patterns.length)
    (hresolve : s.context.stackSet.resolve definitions = .ok d)
    (hrun : Refuses (d.native.run (d.prepare args)) s.context.stackSet.operands.limit below fault)
    (hfault : fault.isControl = false) :
    ∃ t, dispatch opcode s = .error fault t ∧ s.Leaves below.reverse
      (if s.context.current.asOpcode? = some opcode then d.prepare args else []) t := by
  obtain ⟨operands, hold, hheld, hdispatch⟩ := h.invoked hlist hargs hresolve
  let u := s.running opcode d.patterns.length operands hold
  have hlists : operands.Lists s.context.stackSet.operands.limit below :=
    ⟨hheld.operands_wf, hheld.limit, hheld.below⟩
  have hrun' := hrun u hlists
  rw [← List.reverse_reverse below] at hlists
  rw [hdispatch]
  by_cases hcurrent : s.context.current.asOpcode? = some opcode
  · rw [if_pos hcurrent]
    have hrestore : u.context.restoreArity.isSome = true := by
      show (if _ then _ else _ : Option Nat).isSome = true
      rw [if_pos hcurrent]
      rfl
    exact ⟨u, releasingHold_kept hrun' hfault hrestore,
      rfl, rfl, hlists, hheld.hold_wf, hheld.hold_limit, hheld.held⟩
  · rw [if_neg hcurrent]
    have hrestore : u.context.restoreArity.isSome = false := by
      show (if _ then _ else _ : Option Nat).isSome = false
      rw [if_neg hcurrent]
      rfl
    obtain ⟨hold', hdrop, hwf, hdropped, hlimit⟩ :=
      dropHeld_run (t := u) hheld.hold_wf hheld.held (length_prepare hargs)
    refine ⟨u.setHold hold', ?_, rfl, rfl, hlists, hwf, hlimit.trans hheld.hold_limit,
      hdropped.trans (List.append_nil _).symm⟩
    rw [releasingHold, hrun']
    simp only [hfault, hrestore, Bool.not_false, Bool.and_false, Bool.false_eq_true, if_false, hdrop]

/-- A native without operands that fails changes nothing. -/
lemma failed_nullary {native : Builtin} {out : UInt8} (h : s.Consults opcode definitions)
    (hresolve : s.context.stackSet.resolve definitions = .ok ⟨[], out, native⟩)
    (hrun : Refuses (native.run []) s.context.stackSet.operands.limit s.context.stackSet.operands.toList fault)
    (hfault : fault.isControl = false) (hrange : fault ≠ .rangeCheck) : s.HasEffect opcode (.error fault) := by
  have hlist := (List.append_nil s.context.stackSet.operands.toList).symm
  obtain ⟨t, hdispatch, hleaves⟩ := h.failed hlist rfl hresolve hrun hfault
  refine ⟨t, hdispatch, ?_⟩
  have hnone : Definition.prepare ⟨[], out, native⟩ [] = [] := rfl
  rw [hnone, ite_self] at hleaves
  rw [if_neg hrange]
  exact hleaves

end Consults

/-! ## The natives -/

lemma rearranges_refl (limit : Nat) (xs : List Object) : Rearranges (pure ()) limit xs xs := fun u hu =>
  ⟨u.context.stackSet.operands, rfl, hu⟩

lemma rearranges_push (hroom : xs.length < limit) (obj : Object) :
    Rearranges (push obj) limit xs (xs ++ [obj]) := by
  intro u hu
  obtain ⟨operands, hpush, hlists⟩ := hu.push hroom obj
  exact ⟨operands, onOperands_ok hpush, hlists⟩

lemma rearranges_pushAll (objs : List Object) (hroom : xs.length + objs.length ≤ limit) :
    Rearranges (Action.pushAll objs) limit xs (xs ++ objs) := by
  induction objs generalizing xs with
  | nil =>
      rw [List.append_nil]
      exact rearranges_refl limit xs
  | cons obj rest ih =>
      rw [List.length_cons] at hroom
      intro u hu
      obtain ⟨operands, hpush, hlists⟩ := rearranges_push (by omega) obj u hu
      have hrestRoom : (xs ++ [obj]).length + rest.length ≤ limit := by
        rw [List.length_append, List.length_singleton]
        omega
      obtain ⟨operands', hrest, hlists'⟩ := ih hrestRoom (u.setOperands operands) hlists
      rw [List.append_assoc] at hlists'
      exact ⟨operands', (bind_ok hpush).trans hrest, hlists'⟩

lemma rearranges_clear (limit : Nat) (xs : List Object) : Rearranges Action.clear limit xs [] := by
  intro u hu
  have hwf := (hu.wellFormed.shortens_setCount (Nat.zero_le _)).1.wellFormed hu.wellFormed
  exact ⟨u.context.stackSet.operands.clear, onOperands_ok rfl, hwf, hu.limit_eq, Stack.toList_clear _⟩

end Session

/-! ## The words -/

namespace Session

variable {s : Session Builtin} {opcode : Nat} {below args xs : List Object} {x y : Object}
  {d : Definition Builtin} {definitions rest : List (Definition Builtin)} {native : Builtin} {out : UInt8}
  {outcome : Except Fault (List Object)}

/-- The topmost operand, -/
lemma split_one (h : s.topFirst = x :: xs) : s.context.stackSet.operands.toList = xs.reverse ++ [x] := by
  rw [← List.reverse_cons, ← h, topFirst, List.reverse_reverse]

/-- and the two topmost ones. -/
lemma split_two (h : s.topFirst = y :: x :: xs) : s.context.stackSet.operands.toList = xs.reverse ++ [x, y] := by
  rw [split_one h, List.reverse_cons, List.append_assoc, List.singleton_append]

/-- The topmost mark. -/
lemma topFirst_at_mark {mark : Object} {above : List Object}
    (h : s.context.stackSet.operands.toList = below ++ mark :: above) :
    s.topFirst = above.reverse ++ mark :: below.reverse := by
  rw [topFirst, h, List.reverse_append, List.reverse_cons, List.append_assoc, List.singleton_append]

/-- There is a topmost mark, or none. -/
lemma topmost_mark_cases (s : Session Builtin) :
    (∃ below mark above, s.context.stackSet.operands.toList = below ++ mark :: above ∧ mark.ty = .mark ∧
      ∀ obj ∈ above, obj.ty ≠ .mark) ∨ ∀ obj ∈ s.context.stackSet.operands.toList, obj.ty ≠ .mark := by
  by_cases hany : ∃ obj ∈ s.context.stackSet.operands.toList, obj.ty = .mark
  · exact .inl (Stack.exists_topmost_mark hany)
  · exact .inr fun obj hobj hty => hany ⟨obj, hobj, hty⟩

lemma topFirst_unmarked (h : ∀ obj ∈ s.context.stackSet.operands.toList, obj.ty ≠ .mark) :
    ∀ obj ∈ s.topFirst, obj.ty ≠ .mark := fun obj hobj => h obj (List.mem_reverse.mp hobj)

namespace Consults

lemma length_le (h : s.Consults opcode (d :: rest)) :
    s.context.stackSet.operands.toList.length ≤ s.context.stackSet.operands.limit := by
  rw [Stack.length_toList]
  exact h.operands.count_le

lemma accepts_split (hlist : s.context.stackSet.operands.toList = below ++ args)
    (hargs : args.length = d.patterns.length) :
    d.accepts s.context.stackSet.operands.toList = (d.patterns.zip args).all fun x => x.1.accepts x.2 := by
  rw [Definition.accepts, hlist, Pattern.acceptTop_append hargs]

/-- The first definition is invoked on operands that it accepts, if there is room. -/
lemma taking (h : s.Consults opcode (d :: rest))
    (hlist : s.context.stackSet.operands.toList = below ++ args) (hargs : args.length = d.patterns.length)
    (haccepts : ((d.patterns.zip args).all fun x => x.1.accepts x.2) = true)
    (hinvoked : s.context.stackSet.resolve (d :: rest) = .ok d → s.HasEffect opcode outcome) :
    s.HasEffect opcode
      (if s.context.stackSet.operands.limit < below.length + d.outArity.toNat then .error .stackOverflow
        else StackWord.holding s.holdRoom args.length outcome) :=
  h.accepted hlist hargs (List.find?_cons_of_pos ((accepts_split hlist hargs).trans haccepts)) hinvoked

/-- Results that take no more places than the operands have room. -/
lemma fitting (h : s.Consults opcode (d :: rest))
    (hlist : s.context.stackSet.operands.toList = below ++ args)
    {results : Nat} (hout : results ≤ args.length)
    (heffect : s.HasEffect opcode
      (if s.context.stackSet.operands.limit < below.length + results then .error .stackOverflow else outcome)) :
    s.HasEffect opcode outcome := by
  have hle := h.length_le
  rw [hlist, List.length_append] at hle
  rwa [if_neg (by omega)] at heffect

/-- One more place may be missing. -/
lemma growing (hlist : s.context.stackSet.operands.toList = below ++ args) {results : Nat}
    (hout : results = args.length + 1)
    (heffect : s.HasEffect opcode
      (if s.context.stackSet.operands.limit < below.length + results then .error .stackOverflow else outcome)) :
    s.HasEffect opcode (StackWord.growing s.context.stackSet.operands.limit s.topFirst outcome) := by
  have hlength : s.topFirst.length = below.length + args.length := by
    rw [length_topFirst, hlist, List.length_append]
  rw [StackWord.growing]
  split_ifs at heffect ⊢
  · omega
  · exact heffect
  · exact heffect
  · omega

/-- An operator without operands. -/
lemma nullary (h : s.Consults opcode [⟨[], out, native⟩])
    (hinvoked : s.context.stackSet.resolve [⟨[], out, native⟩] = .ok ⟨[], out, native⟩ →
      s.HasEffect opcode outcome) :
    s.HasEffect opcode
      (if s.context.stackSet.operands.limit < s.context.stackSet.operands.toList.length + out.toNat then
        .error .stackOverflow else outcome) := by
  have hlist := (List.append_nil s.context.stackSet.operands.toList).symm
  have heffect := h.taking hlist rfl rfl hinvoked
  rwa [List.length_nil, StackWord.holding_eq (Nat.zero_le _)] at heffect

/-- A native that puts its result in the place of its operands. -/
lemma resulting (h : s.Consults opcode definitions)
    (hlist : s.context.stackSet.operands.toList = below ++ args) (hargs : args.length = d.patterns.length)
    (hresolve : s.context.stackSet.resolve definitions = .ok d) (hout : 0 < d.outArity.toNat) {result : Object}
    (hrun : ∀ u : Session Builtin, u.context.stackSet.operands.Lists s.context.stackSet.operands.limit below →
      d.native.run (d.prepare args) u = push result u) : s.HasEffect opcode (.ok (result :: below.reverse)) := by
  have hroom := (room_of_resolve hresolve).2
  rw [← Stack.length_toList, hlist, List.length_append, hargs, Nat.add_sub_cancel] at hroom
  refine h.rearranged hlist hargs hresolve fun u hu => ?_
  rw [hrun u hu, List.reverse_cons, List.reverse_reverse]
  exact rearranges_push (by omega) result u hu

/-! ### The operand stack -/

lemma pop (h : s.Consults opcode [⟨[.any], 0, .pop⟩]) :
    s.HasEffect opcode (StackWord.pop.effect s.context.stackSet.operands.limit s.holdRoom s.topFirst) := by
  cases htop : s.topFirst with
  | nil => exact h.short (List.cons_ne_nil _ _) (by simp [htop])
  | cons x xs =>
      have hlist := split_one htop
      exact h.fitting hlist (Nat.zero_le _) (h.taking hlist rfl rfl fun hresolve =>
        h.rearranged hlist rfl hresolve (rearranges_refl _ _))

lemma exch (h : s.Consults opcode [⟨[.any, .any], 2, .exch⟩]) :
    s.HasEffect opcode (StackWord.exch.effect s.context.stackSet.operands.limit s.holdRoom s.topFirst) := by
  rcases htop : s.topFirst with _ | ⟨y, _ | ⟨x, xs⟩⟩
  · exact h.short (List.cons_ne_nil _ _) (by simp [htop])
  · exact h.short (List.cons_ne_nil _ _) (by simp [htop])
  · have hlist := split_two htop
    have hle := h.length_le
    rw [hlist, List.length_append] at hle
    refine h.fitting hlist (Nat.le_refl 2) (h.taking hlist rfl rfl fun hresolve =>
      h.rearranged hlist rfl hresolve ?_)
    rw [List.reverse_cons, List.reverse_cons, List.append_assoc]
    exact rearranges_pushAll [y, x] hle

lemma dup (h : s.Consults opcode [⟨[.any], 2, .dup⟩]) :
    s.HasEffect opcode (StackWord.dup.effect s.context.stackSet.operands.limit s.holdRoom s.topFirst) := by
  cases htop : s.topFirst with
  | nil => exact h.short (List.cons_ne_nil _ _) (by simp [htop])
  | cons x xs =>
      have hlist := split_one htop
      rw [StackWord.effect, ← htop]
      refine growing hlist rfl (h.taking hlist rfl rfl fun hresolve => h.rearranged hlist rfl hresolve ?_)
      have hroom := (room_of_resolve hresolve).2
      rw [← Stack.length_toList, hlist, List.length_append] at hroom
      rw [htop, List.reverse_cons, List.reverse_cons, List.append_assoc]
      exact rearranges_pushAll [x, x] hroom

lemma clear (h : s.Consults opcode [⟨[], 0, .clear⟩]) :
    s.HasEffect opcode (StackWord.clear.effect s.context.stackSet.operands.limit s.holdRoom s.topFirst) := by
  have hlist := (List.append_nil s.context.stackSet.operands.toList).symm
  exact h.fitting hlist (Nat.le_refl 0) (h.nullary fun hresolve =>
    h.rearranged hlist rfl hresolve (rearranges_clear _ _))

/-- A number of operands is put on top of them, if an integer can hold it. -/
lemma counting (h : s.Consults opcode [⟨[], 1, native⟩])
    (hresolve : s.context.stackSet.resolve [⟨[], 1, native⟩] = .ok ⟨[], 1, native⟩) {n : Nat}
    (hrun : ∀ u : Session Builtin, u.context.stackSet.operands.Lists s.context.stackSet.operands.limit
      s.context.stackSet.operands.toList → native.run [] u = Action.pushCount n u) :
    s.HasEffect opcode (StackWord.counted n s.topFirst) := by
  rw [StackWord.counted]
  split_ifs with hn
  · refine h.resulting (List.append_nil _).symm rfl hresolve Nat.one_pos fun u hu => (hrun u hu).trans ?_
    rw [Action.pushCount, if_pos hn]
  · refine h.failed_nullary hresolve (fun u hu => (hrun u hu).trans ?_) rfl (by decide)
    rw [Action.pushCount, if_neg hn]
    rfl

lemma count (h : s.Consults opcode [⟨[], 1, .count⟩]) :
    s.HasEffect opcode (StackWord.count.effect s.context.stackSet.operands.limit s.holdRoom s.topFirst) := by
  refine growing (List.append_nil _).symm rfl (h.nullary fun hresolve => h.counting hresolve fun u hu => ?_)
  rw [length_topFirst, ← hu.count_eq]
  exact bind_ok (t := u) rfl

lemma mark (h : s.Consults opcode [⟨[], 1, .mark⟩]) :
    s.HasEffect opcode (StackWord.mark.effect s.context.stackSet.operands.limit s.holdRoom s.topFirst) :=
  growing (List.append_nil _).symm rfl (h.nullary fun hresolve =>
    h.resulting (List.append_nil _).symm rfl hresolve Nat.one_pos fun _ _ => rfl)

/-- The distance to the topmost mark does not depend on segments. -/
lemma distanceToMark_run {u : Session Builtin} {limit : Nat} {items : List Object}
    (hu : u.context.stackSet.operands.Lists limit items) {mark : Object} {above : List Object}
    (hsplit : items = below ++ mark :: above) (hmark : mark.ty = .mark)
    (habove : ∀ obj ∈ above, obj.ty ≠ .mark) : Action.distanceToMark u = .ok above.length u :=
  query_ok (Stack.countToMark_eq (hu.toList_eq.trans hsplit) hmark habove)

lemma distanceToMark_unmatched {u : Session Builtin} {limit : Nat} {items : List Object}
    (hu : u.context.stackSet.operands.Lists limit items) (h : ∀ obj ∈ items, obj.ty ≠ .mark) :
    Action.distanceToMark u = .error .unmatchedMark u :=
  query_error (Stack.countToMark_of_unmatched (by rw [hu.toList_eq]; exact h))

lemma clearToMark (h : s.Consults opcode [⟨[], 0, .clearToMark⟩]) :
    s.HasEffect opcode (StackWord.clearToMark.effect s.context.stackSet.operands.limit s.holdRoom s.topFirst) := by
  have hnil := (List.append_nil s.context.stackSet.operands.toList).symm
  refine h.fitting hnil (Nat.le_refl 0) (h.nullary fun hresolve => ?_)
  rw [StackWord.effect]
  obtain ⟨below, mark, above, hlist, hmark, habove⟩ | hnone := s.topmost_mark_cases
  · rw [topFirst_at_mark hlist, (StackWord.split_at_mark hmark (by simpa using habove)).1]
    refine h.rearranged hnil rfl hresolve fun u hu => ?_
    obtain ⟨operands, hdrop, hlists⟩ := hu.drop (n := above.length + 1) (by rw [hlist]; simp)
    have hbelow :
        (below ++ mark :: above).take ((below ++ mark :: above).length - (above.length + 1)) = below := by simp
    rw [hlist, hbelow] at hlists
    rw [List.reverse_reverse]
    exact ⟨operands, (bind_ok (distanceToMark_run hu hlist hmark habove)).trans (onOperands_ok hdrop), hlists⟩
  · rw [(StackWord.unmatched (topFirst_unmarked hnone)).1]
    exact h.failed_nullary hresolve (fun u hu => bind_error (distanceToMark_unmatched hu hnone)) rfl (by decide)

lemma countToMark (h : s.Consults opcode [⟨[], 1, .countToMark⟩]) :
    s.HasEffect opcode (StackWord.countToMark.effect s.context.stackSet.operands.limit s.holdRoom s.topFirst) := by
  refine growing (List.append_nil _).symm rfl (h.nullary fun hresolve => ?_)
  obtain ⟨below, mark, above, hlist, hmark, habove⟩ | hnone := s.topmost_mark_cases
  · rw [topFirst_at_mark hlist, (StackWord.split_at_mark hmark (by simpa using habove)).2,
      ← topFirst_at_mark hlist, List.length_reverse]
    exact h.counting hresolve fun u hu => bind_ok (distanceToMark_run hu hlist hmark habove)
  · rw [(StackWord.unmatched (topFirst_unmarked hnone)).2]
    exact h.failed_nullary hresolve (fun u hu => bind_error (distanceToMark_unmatched hu hnone)) rfl (by decide)

/-- The operand at a depth, or none. -/
lemma index_eq {u : Session Builtin} {limit : Nat} {n : Object} {z : Int}
    (hu : u.context.stackSet.operands.Lists limit xs.reverse) (hn : n.asInt? = some z) :
    Action.index n u = match if z < 0 then none else xs[z.toNat]? with
      | some obj => push obj u
      | none => .error .rangeCheck u := by
  have hfound : u.context.stackSet.operands.fromTop? z.toNat = xs[z.toNat]? := by
    rw [Stack.fromTop?_eq_getElem?, hu.toList_eq, List.reverse_reverse]
  rw [Action.index, hn]
  dsimp only
  by_cases hz : z < 0
  · rw [if_pos hz, if_pos hz]
    rfl
  · rw [if_neg hz, if_neg hz]
    refine (bind_ok (t := u) rfl).trans ((bind_ok (t := u) rfl).trans ?_)
    rw [hfound]
    cases xs[z.toNat]? <;> rfl

lemma index (h : s.Consults opcode [⟨[.type .integer], 1, .index⟩]) :
    s.HasEffect opcode (StackWord.index.effect s.context.stackSet.operands.limit s.holdRoom s.topFirst) := by
  cases htop : s.topFirst with
  | nil => exact h.short (List.cons_ne_nil _ _) (by simp [htop])
  | cons n xs =>
      have hlist := split_one htop
      rw [StackWord.effect]
      by_cases hn : n.ty = .integer
      · have hvalue : n.asInt? = some n.signedValue := if_pos hn
        have haccepts : (([Pattern.type .integer].zip [n]).all fun x => x.1.accepts x.2) = true := by
          simp [Pattern.accepts, hn]
        rw [hvalue]
        refine h.fitting hlist (Nat.le_refl 1) (h.taking hlist rfl haccepts fun hresolve => ?_)
        rw [StackWord.picked]
        cases hpicked : if n.signedValue < 0 then none else xs[n.signedValue.toNat]? with
        | some obj =>
            have heffect : s.HasEffect opcode (.ok (obj :: xs.reverse.reverse)) :=
              h.resulting hlist rfl hresolve Nat.one_pos fun u hu => (index_eq hu hvalue).trans (by rw [hpicked])
            rwa [List.reverse_reverse] at heffect
        | none =>
            obtain ⟨t, hdispatch, hleaves⟩ := h.failed hlist rfl hresolve
              (fun u hu => (index_eq hu hvalue).trans (by rw [hpicked])) rfl
            refine ⟨t, hdispatch, ?_⟩
            rw [List.reverse_reverse] at hleaves
            rw [if_pos rfl, htop]
            exact hleaves
      · have hvalue : n.asInt? = none := if_neg hn
        rw [hvalue]
        refine h.mistyped (List.cons_ne_nil _ _) fun d hd => ?_
        obtain rfl := List.mem_singleton.mp hd
        rw [htop, accepts_split hlist rfl]
        exact ⟨Nat.succ_pos _, by simp [Pattern.accepts, hn]⟩

/-! ### Arithmetic -/

/-- A pattern for reals takes both kinds of numbers, and a native gets the real. -/
lemma asReal?_prepare {x : Object} (h : x.ty.isNumber = true) :
    (Pattern.float.prepare x).asReal? = some x.promoted.value := by
  rw [Pattern.prepare]
  cases hty : x.ty with
  | integer =>
      have hvalue : x.asInt? = some x.signedValue := if_pos hty
      rw [if_pos (by simp [Pattern.promotes, hty]), Object.promoted, hvalue]
      rfl
  | real =>
      have hvalue : x.asInt? = none := if_neg (by rw [hty]; decide)
      rw [if_neg (by simp [Pattern.promotes, hty]), Object.promoted, hvalue]
      exact if_pos hty
  | _ =>
      rw [hty] at h
      contradiction

/-- An operator on numbers, defined for integers first and then for reals. -/
lemma numeric {ints floats : List Pattern} {intNative realNative : Builtin}
    (h : s.Consults opcode [⟨ints, 1, intNative⟩, ⟨floats, 1, realNative⟩])
    (hlist : s.context.stackSet.operands.toList = below ++ args) (hints : args.length = ints.length)
    (hfloats : args.length = floats.length) (hpos : 0 < args.length) {result : Option Object}
    (hint : ((ints.zip args).all fun x => x.1.accepts x.2) = true → ∃ obj, result = some obj ∧
      (intNative.run (List.zipWith Pattern.prepare ints args) : Action Builtin Unit) = push obj)
    (hreal : ((ints.zip args).all fun x => x.1.accepts x.2) = false →
      ((floats.zip args).all fun x => x.1.accepts x.2) = true → ∃ obj, result = some obj ∧
        (realNative.run (List.zipWith Pattern.prepare floats args) : Action Builtin Unit) = push obj)
    (hneither : ((ints.zip args).all fun x => x.1.accepts x.2) = false →
      ((floats.zip args).all fun x => x.1.accepts x.2) = false → result = none) :
    s.HasEffect opcode (StackWord.calculated s.holdRoom args.length below.reverse result) := by
  have hfirst := accepts_split (d := ⟨ints, 1, intNative⟩) hlist hints
  have hsecond := accepts_split (d := ⟨floats, 1, realNative⟩) hlist hfloats
  cases hacceptsInts : (ints.zip args).all fun x => x.1.accepts x.2 with
  | true =>
      obtain ⟨obj, rfl, hrun⟩ := hint hacceptsInts
      exact h.fitting hlist hpos (h.taking hlist hints hacceptsInts fun hresolve =>
        h.resulting hlist hints hresolve Nat.one_pos fun u _ => congrFun hrun u)
  | false =>
      cases hacceptsFloats : (floats.zip args).all fun x => x.1.accepts x.2 with
      | true =>
          obtain ⟨obj, rfl, hrun⟩ := hreal hacceptsInts hacceptsFloats
          have hfind : [⟨ints, 1, intNative⟩, ⟨floats, 1, realNative⟩].find?
              (fun d : Definition Builtin => d.accepts s.context.stackSet.operands.toList) =
                some ⟨floats, 1, realNative⟩ := by
            simp only [List.find?_cons, hfirst, hsecond, hacceptsInts, hacceptsFloats]
          exact h.fitting hlist hpos (h.accepted hlist hfloats hfind fun hresolve =>
            h.resulting hlist hfloats hresolve Nat.one_pos fun u _ => congrFun hrun u)
      | false =>
          rw [hneither hacceptsInts hacceptsFloats]
          have hlength : args.length ≤ s.topFirst.length := by
            rw [length_topFirst, hlist, List.length_append]
            omega
          refine h.mistyped (List.cons_ne_nil _ _) fun d hd => ?_
          rcases List.mem_cons.mp hd with rfl | hd
          · exact ⟨hints ▸ hlength, hfirst.trans hacceptsInts⟩
          · obtain rfl := List.mem_singleton.mp hd
            exact ⟨hfloats ▸ hlength, hsecond.trans hacceptsFloats⟩

/-- An operator on two numbers. -/
lemma binary {intNative realNative : Builtin} {exact : Int → Int → Int} {rounded : UInt32 → UInt32 → UInt32}
    (hint : ∀ x y, (intNative.run [x, y] : Action Builtin Unit) = Action.intBinary exact x y)
    (hreal : ∀ x y, (realNative.run [x, y] : Action Builtin Unit) = Action.realBinary rounded x y)
    (h : s.Consults opcode
      [⟨[.type .integer, .type .integer], 1, intNative⟩, ⟨[.float, .float], 1, realNative⟩])
    (htop : s.topFirst = y :: x :: xs) :
    s.HasEffect opcode (StackWord.calculated s.holdRoom 2 xs (StackWord.binary exact rounded x y)) := by
  have hints : (([Pattern.type .integer, .type .integer].zip [x, y]).all fun x => x.1.accepts x.2) =
      (x.ty == .integer && y.ty == .integer) := by
    simp [Pattern.accepts]
  have hfloats : (([Pattern.float, .float].zip [x, y]).all fun x => x.1.accepts x.2) =
      (x.ty.isNumber && y.ty.isNumber) := by
    simp [Pattern.accepts]
  have hother (hnot : (x.ty == .integer && y.ty == .integer) = false) :
      StackWord.binary exact rounded x y = if x.ty.isNumber && y.ty.isNumber then
        some (Object.real (rounded x.promoted.value y.promoted.value)) else none := by
    rw [StackWord.binary]
    split
    · next hx hy => simp [StackWord.ty_of_asInt? hx, StackWord.ty_of_asInt? hy] at hnot
    · rfl
  rw [← List.reverse_reverse xs]
  refine h.numeric (split_two htop) rfl rfl Nat.two_pos (fun haccepts => ?_) (fun hnot haccepts => ?_)
    fun hnot hnone => ?_
  · obtain ⟨hx, hy⟩ := Bool.and_eq_true_iff.mp (hints.symm.trans haccepts)
    have hx : x.asInt? = some x.signedValue := if_pos (beq_iff_eq.mp hx)
    have hy : y.asInt? = some y.signedValue := if_pos (beq_iff_eq.mp hy)
    refine ⟨_, by rw [StackWord.binary, hx, hy], (hint x y).trans ?_⟩
    rw [Action.intBinary, hx, hy]
  · obtain ⟨hx, hy⟩ := Bool.and_eq_true_iff.mp (hfloats.symm.trans haccepts)
    refine ⟨_, (hother (hints.symm.trans hnot)).trans (if_pos (hfloats.symm.trans haccepts)),
      (hreal (Pattern.float.prepare x) (Pattern.float.prepare y)).trans ?_⟩
    rw [Action.realBinary, asReal?_prepare hx, asReal?_prepare hy]
  · rw [hother (hints.symm.trans hnot), ← hfloats, hnone]
    rfl

/-- The same for one number. -/
lemma neg (h : s.Consults opcode [⟨[.type .integer], 1, .intNeg⟩, ⟨[.float], 1, .realNeg⟩]) :
    s.HasEffect opcode (StackWord.neg.effect s.context.stackSet.operands.limit s.holdRoom s.topFirst) := by
  cases htop : s.topFirst with
  | nil => exact h.short (List.cons_ne_nil _ _) (by simp [htop])
  | cons x xs =>
      have hint : (([Pattern.type .integer].zip [x]).all fun x => x.1.accepts x.2) = (x.ty == .integer) := by
        simp [Pattern.accepts]
      have hfloat : (([Pattern.float].zip [x]).all fun x => x.1.accepts x.2) = x.ty.isNumber := by
        simp [Pattern.accepts]
      have hother (hnot : (x.ty == .integer) = false) : StackWord.negative x =
          if x.ty.isNumber then some (Object.real (Real.Single.neg x.promoted.value)) else none := by
        have hx : x.asInt? = none := if_neg (beq_eq_false_iff_ne.mp hnot)
        rw [StackWord.negative, Object.promoted, hx]
      rw [StackWord.effect, ← List.reverse_reverse xs]
      refine h.numeric (split_one htop) rfl rfl Nat.one_pos (fun haccepts => ?_) (fun hnot haccepts => ?_)
        fun hnot hnone => ?_
      · have hx : x.asInt? = some x.signedValue := if_pos (beq_iff_eq.mp (hint.symm.trans haccepts))
        refine ⟨Action.ofExactInt (-x.signedValue), by rw [StackWord.negative, hx], ?_⟩
        show Action.intNeg x = _
        rw [Action.intNeg, hx]
      · refine ⟨_, (hother (hint.symm.trans hnot)).trans (if_pos (hfloat.symm.trans haccepts)), ?_⟩
        show Action.realNeg (Pattern.float.prepare x) = _
        rw [Action.realNeg, asReal?_prepare (hfloat.symm.trans haccepts)]
      · rw [hother (hint.symm.trans hnot), ← hfloat, hnone]
        rfl

end Consults

/-- A dispatch fails with a fault if that is the outcome, and only then. -/
lemma HasEffect.fails_iff (h : s.HasEffect opcode outcome) (fault : Fault) :
    (∃ t, dispatch opcode s = .error fault t) ↔ outcome = .error fault := by
  cases outcome with
  | ok ys =>
      obtain ⟨t, hdispatch, -⟩ := h
      constructor
      · rintro ⟨u, hfailed⟩
        rw [hdispatch] at hfailed
        contradiction
      · intro he
        contradiction
  | error actual =>
      obtain ⟨t, hdispatch, -⟩ := h
      constructor
      · rintro ⟨u, hfailed⟩
        rw [hdispatch] at hfailed
        injection hfailed with hfault
        rw [hfault]
      · intro he
        exact ⟨t, Except.error.inj he ▸ hdispatch⟩

end Session

/-! ## Every word -/

namespace StackWord

/-- What is registered under the name, in the order in which it is tried. -/
def definitions : StackWord → List (Definition Builtin)
  | pop => [⟨[.any], 0, .pop⟩]
  | exch => [⟨[.any, .any], 2, .exch⟩]
  | dup => [⟨[.any], 2, .dup⟩]
  | clear => [⟨[], 0, .clear⟩]
  | count => [⟨[], 1, .count⟩]
  | mark => [⟨[], 1, .mark⟩]
  | clearToMark => [⟨[], 0, .clearToMark⟩]
  | countToMark => [⟨[], 1, .countToMark⟩]
  | index => [⟨[.type .integer], 1, .index⟩]
  | add => [⟨[.type .integer, .type .integer], 1, .intAdd⟩, ⟨[.float, .float], 1, .realAdd⟩]
  | sub => [⟨[.type .integer, .type .integer], 1, .intSub⟩, ⟨[.float, .float], 1, .realSub⟩]
  | mul => [⟨[.type .integer, .type .integer], 1, .intMul⟩, ⟨[.float, .float], 1, .realMul⟩]
  | neg => [⟨[.type .integer], 1, .intNeg⟩, ⟨[.float], 1, .realNeg⟩]

lemma builtinsOf_text (w : StackWord) : Machine.builtinsOf w.text = w.definitions := by
  cases w <;> rfl

lemma text_mem (w : StackWord) : w.text ∈ builtinDefs.map OperatorDef.name := by
  cases w <;> decide +kernel

/-- **Each word** does to the operands what it does to the list. -/
lemma hasEffect (w : StackWord) {s : Session Builtin} {opcode : Nat} (h : s.Consults opcode w.definitions) :
    s.HasEffect opcode (w.effect s.context.stackSet.operands.limit s.holdRoom s.topFirst) := by
  cases w with
  | pop => exact Session.Consults.pop h
  | exch => exact Session.Consults.exch h
  | dup => exact Session.Consults.dup h
  | clear => exact Session.Consults.clear h
  | count => exact Session.Consults.count h
  | mark => exact Session.Consults.mark h
  | clearToMark => exact Session.Consults.clearToMark h
  | countToMark => exact Session.Consults.countToMark h
  | index => exact Session.Consults.index h
  | neg => exact Session.Consults.neg h
  | add | sub | mul =>
      rcases htop : s.topFirst with _ | ⟨y, _ | ⟨x, xs⟩⟩
      · exact h.short (List.cons_ne_nil _ _) (by simp [htop, definitions])
      · exact h.short (List.cons_ne_nil _ _) (by simp [htop, definitions])
      · exact Session.Consults.binary (fun _ _ => rfl) (fun _ _ => rfl) h htop

/-- **The stack operators have their effect.**  On a machine that was started, whatever has been stored,
declared and registered under other names since, dispatching one of them does to the operands what it does to
the list, for all operands, segments and limits; in particular nothing else of the session changes.  With
nothing on hold and as much room to hold as there is for operands, it fails exactly if its operands are missing,
mistyped or out of range, or its result does not fit.  What is below the operands stays, and an exact result is
an integer if an object can hold it and a real otherwise. -/
theorem dispatch_has_effect {request : SettingsRequest} {m : Machine Builtin}
    (hstart : Machine.start request id = .ok m) (w : StackWord) :
    (∃ opcode, Machine.requiredOpcode m.names m.operators w.text = .ok opcode ∧
      ∀ (more : List (RegistryOp Builtin)) (s : Session Builtin), m.Continues w.text more s →
        s.context.stackSet.operands.WellFormed → s.context.stackSet.hold.WellFormed →
          s.HasEffect opcode (w.effect s.context.stackSet.operands.limit s.holdRoom s.topFirst) ∧
          (s.context.stackSet.hold.toList = [] →
            s.context.stackSet.operands.limit ≤ s.context.stackSet.hold.limit →
              s.HasEffect opcode (w.effect s.context.stackSet.operands.limit w.taken s.topFirst) ∧
              ∀ fault, (∃ t, Session.dispatch opcode s = .error fault t) ↔
                w.Fails s.context.stackSet.operands.limit s.topFirst fault)) ∧
    (∀ limit room xs ys, w ≠ .clear → w ≠ .clearToMark → w.effect limit room xs = .ok ys →
      xs.drop w.taken <:+ ys) ∧
    ∀ z, ((Action.ofExactInt z).asInt? = some z ↔ -2147483648 ≤ z ∧ z < 2147483648) ∧
      (¬ (-2147483648 ≤ z ∧ z < 2147483648) → (Action.ofExactInt z).ty = .real) := by
  obtain ⟨opcode, hopcode, hcontinues⟩ := Machine.exists_builtin_opcode hstart w.text_mem
  refine ⟨⟨opcode, hopcode, fun more s hs hoperands hhold => ?_⟩,
    fun limit room xs ys => suffix_of_effect, Action.ofExactInt_cases⟩
  obtain ⟨origin, run, hreached, hdefinitions⟩ := hcontinues more s hs
  have hanswers := Session.answers_of_registered (s := s) hreached.fresh hreached.spares hreached.words
    hreached.registry hoperands hhold opcode s.context.stackSet.hold.limit
  rw [hdefinitions, builtinsOf_text] at hanswers
  have heffect := w.hasEffect ⟨hoperands, hhold, _, hanswers⟩
  refine ⟨heffect, fun hempty hlimit => ?_⟩
  have hroom : s.topFirst.length ≤ s.holdRoom := by
    have hcount := hoperands.count_le
    have hnone : s.context.stackSet.hold.count = 0 := by rw [← Stack.length_toList, hempty, List.length_nil]
    rw [Session.length_topFirst, Stack.length_toList, Session.holdRoom, hnone]
    omega
  rw [effect_of_room w hroom] at heffect
  exact ⟨heffect, fun fault => (heffect.fails_iff fault).trans effect_eq_error_iff⟩

/-- Stacks with the largest integer below one, and a mark below them. -/
def overflowingStacks : StackSet :=
  { StackSet.create Settings.standard with
    operands := Stack.ofObjects [Object.mark, Object.int 2147483647, Object.int 1] }

/-- Their sum is a real. -/
theorem dispatch_has_effect_overflowing :
    ∃ (m : Machine Builtin) (opcode : Nat) (s t : Session Builtin), Machine.start {} id = .ok m ∧
      Machine.requiredOpcode m.names m.operators "add" = .ok opcode ∧
      s.context.stackSet.operands.toList = [Object.mark, Object.int 2147483647, Object.int 1] ∧
      Session.dispatch opcode s = .ok () t ∧
      t.context.stackSet.operands.toList = [Object.mark, Object.real 0x4f000000] := by
  have hresolve : SettingsRequest.resolve {} = .ok Settings.standard := rfl
  have hroom : Settings.standard.Offers 0 0 := ⟨by decide, by decide, by decide, by decide, by decide⟩
  obtain ⟨m, hstart, -, -⟩ := Machine.exists_start hresolve hroom
  obtain ⟨hwf, hlist, hlimit⟩ :=
    Stack.ofObjects_run (show [Object.mark, Object.int 2147483647, Object.int 1].length ≤ 8 by decide)
  have hhold : overflowingStacks.hold.WellFormed := Stack.wellFormed_create (by decide) _ _
  let s : Session Builtin :=
    { World.ofMachine m true with context := { Context.vacant with stackSet := overflowingStacks } }
  obtain ⟨origin, -, -, -, hrows⟩ := Machine.reached_start hstart
  have hcontinues : m.Continues "add" [] s := ⟨rfl, Nat.le_trans hrows (by decide), rfl, nofun⟩
  obtain ⟨⟨opcode, hopcode, hdispatch⟩, -⟩ := dispatch_has_effect hstart .add
  obtain ⟨heffect, -⟩ := hdispatch [] s hcontinues hwf hhold
  have htop : s.topFirst = [Object.int 1, Object.int 2147483647, Object.mark] := congrArg List.reverse hlist
  have hsum : add.effect s.context.stackSet.operands.limit s.holdRoom s.topFirst =
      .ok [Object.real 0x4f000000, Object.mark] := by
    rw [htop]
    rfl
  rw [hsum] at heffect
  obtain ⟨t, hrun, hleaves⟩ := heffect
  exact ⟨m, opcode, s, t, hstart, hopcode, hlist, hrun, hleaves.operands.toList_eq⟩

end StackWord

end PostScriptCore
