import PostScriptCore.Proofs.Builtin.Delivery
import PostScriptCore.Proofs.Machine.Pending
import PostScriptCore.Proofs.Object.Views

/-!
# Turns terminate

A procedure inside a procedure is data, so what is executed is no tree of procedures that a program could
tie into a knot: each object takes its own weight off the execution stack, and a procedure puts less back.
No operator puts anything there with success.

* `Object.weight`, `Session.pendingWeight` — how many objects are executed before this one is done, at
  most, and before all that is pending is done.
* `Session.ends_step_weight`, `Session.execute_lighter` — one element of a procedure, and one object.
* `Session.executions` — how many objects a turn executes.
* `Session.turn_terminates` — every turn ends, within the weight of what is pending.
-/

namespace PostScriptCore

/-- The most objects that are executed on behalf of this one.  Each element of a procedure takes one
execution of its own and one of the view of the procedure that begins with it. -/
def Object.weight (obj : Object) : Nat := if obj.isProc then 2 * obj.length.toNat + 1 else 1

lemma Object.weight_pos (obj : Object) : 0 < obj.weight := by
  rw [weight]
  split_ifs <;> omega

lemma Object.weight_of_isProc {obj : Object} (h : obj.isProc = true) :
    obj.weight = 2 * obj.length.toNat + 1 := if_pos h

lemma Object.weight_of_not_isProc {obj : Object} (h : obj.isProc = false) : obj.weight = 1 := by
  rw [weight, h]
  rfl

/-- What is left of a procedure weighs two less for each element that is gone. -/
lemma Object.weight_interval {proc rest : Object} {skip length stride : Nat}
    (hproc : proc.isProc = true) (h : proc.interval skip length stride = .ok rest) :
    rest.weight = 2 * length + 1 := by
  obtain ⟨-, hview, rfl⟩ := interval_eq_ok_iff.mp h
  exact weight_of_isProc (hview.isProc.trans hproc)

namespace Stack

/-- The objects on the stack weigh this much together. -/
def weight (s : Stack) : Nat := (s.toList.map Object.weight).sum

/-- The stack is in order and holds one object more. -/
def Gains (obj : Object) (s t : Stack) : Prop :=
  s.WellFormed → t.WellFormed ∧ t.toList = s.toList ++ [obj]

lemma ends_push_gains (obj : Object) (s : Stack) :
    Ends (push obj) s (fun _ t => Gains obj s t) fun _ _ => True := by
  rw [Ends]
  split
  · next hrun =>
    intro hs
    have hpush := ends_pushAll hs [obj]
    rwa [Ends, pushAll, bind_ok hrun] at hpush
  · trivial

lemma Gains.weight_eq {obj : Object} {s t : Stack} (h : Gains obj s t) (hs : s.WellFormed) :
    t.weight = s.weight + obj.weight := by
  rw [weight, (h hs).2, List.map_append, List.sum_append]
  rfl

end Stack

namespace Session

variable {s t v : Session Builtin} {obj : Object}

/-- The most objects that are executed before all that is pending is done. -/
def pendingWeight {ν : Type} (s : Session ν) : Nat := s.context.stackSet.exec.weight

/-- The execution stack stays in order, and weighs at most so much more. -/
def Weighs {ν : Type} (more : Nat) (s t : Session ν) : Prop :=
  s.context.stackSet.exec.WellFormed →
    t.context.stackSet.exec.WellFormed ∧ t.pendingWeight ≤ s.pendingWeight + more

lemma Weighs.mono {ν : Type} {s t : Session ν} {more more' : Nat} (h : Weighs more s t)
    (hle : more ≤ more') : Weighs more' s t := fun hs => ⟨(h hs).1, (h hs).2.trans (by omega)⟩

lemma Weighs.trans {ν : Type} {s t u : Session ν} {more more' : Nat} (h : Weighs more s t)
    (h' : Weighs more' t u) : Weighs (more + more') s u := fun hs =>
  have ⟨ht, hle⟩ := h hs
  have ⟨hu, hle'⟩ := h' ht
  ⟨hu, by omega⟩

lemma LeavesPending.weighs {ν : Type} {s t : Session ν} (h : LeavesPending s t) : Weighs 0 s t :=
  fun hs => ⟨h.wellFormed hs, ((h.items hs).sum_map_eq rfl).le⟩

lemma ends_schedule_weight {ν : Type} (s : Session ν) (obj : Object) :
    Ends (onExec (Stack.push obj)) s (fun _ t => Weighs obj.weight s t) fun _ _ => True := by
  unfold onExec
  refine Ends.focus (Ends.focus (Ends.focus ?_))
  refine Ends.mono (Stack.ends_push_gains obj s.context.stackSet.exec) (fun _ _ h hs => ?_)
    fun _ _ _ => trivial
  exact ⟨(h hs).1, (h.weight_eq hs).le⟩

/-- **One element of a procedure** puts back two less than the procedure weighed at most. -/
lemma ends_step_weight {ν : Type} {proc : Object} (hproc : proc.isProc = true) (s : Session ν) :
    Ends (step proc) s (fun _ t => Weighs (2 * proc.length.toNat) s t) fun _ _ => True := by
  have hfirst (first : Object) (s : Session ν) :
      Ends (if first.isProc || !first.executable then push first else onExec (Stack.push first)) s
        (fun _ t => Weighs 1 s t) fun _ _ => True := by
    split_ifs with hdata
    · exact Ends.mono (leavesPending_push first s) (fun _ _ h => h.weighs.mono (Nat.zero_le _))
        fun _ _ _ => trivial
    · have hproc : first.isProc = false := by
        rw [Bool.or_eq_true, not_or] at hdata
        exact Bool.eq_false_of_not_eq_true hdata.1
      refine Ends.mono (ends_schedule_weight s first) (fun _ _ h => ?_) fun _ _ h => h
      rwa [Object.weight_of_not_isProc hproc] at h
  rw [step]
  split
  · exact fun hs => ⟨hs, Nat.le_add_right _ _⟩
  refine Ends.bind (Ends.query (fun first _ => ?_) fun _ _ => trivial)
  dsimp only
  split
  · refine Ends.bind (Ends.query (fun rest hrest => ?_) fun _ _ => trivial)
    refine Ends.bind (Ends.mono (ends_schedule_weight s rest) (fun _ t ht => ?_) fun _ _ h => h)
    refine Ends.mono (hfirst first t) (fun _ _ hu => ?_) fun _ _ h => h
    rw [Object.weight_interval hproc hrest] at ht
    exact (ht.trans hu).mono (by omega)
  · exact Ends.mono (hfirst first s) (fun _ _ h => h.mono (by omega)) fun _ _ h => h

/-- **An object takes its weight off** what is pending, and puts back less. -/
lemma ends_execute_weight (obj : Object) (s : Session Builtin) :
    Ends (execute obj) s (fun _ t => Weighs (obj.weight - 1) s t) fun _ _ => True := by
  cases hproc : obj.isProc with
  | false =>
      exact Ends.mono (keepsPending_execute hproc) (fun _ _ h => h.weighs.mono (Nat.zero_le _))
        fun _ _ _ => trivial
  | true =>
      have hstep : execute obj s = step obj s := by simp [execute, Object.isProc_iff.mp hproc]
      rw [Object.weight_of_isProc hproc, Ends, hstep]
      exact ends_step_weight hproc s

lemma weight_nextObject? {ν : Type} {s v : Session ν} (hs : s.context.stackSet.exec.WellFormed)
    (hnext : s.nextObject? = some (obj, v)) :
    v.context.stackSet.exec.WellFormed ∧ s.pendingWeight = v.pendingWeight + obj.weight := by
  rw [nextObject?] at hnext
  split at hnext
  · contradiction
  · next hpop =>
    cases hnext
    obtain ⟨hv, hlist⟩ := Stack.pop?_cases hs hpop
    refine ⟨hv, ?_⟩
    rw [pendingWeight, Stack.weight, hlist, List.map_append, List.sum_append]
    rfl

/-- What is pending gets lighter with each object that is executed. -/
lemma execute_lighter (hs : s.context.stackSet.exec.WellFormed)
    (hnext : s.nextObject? = some (obj, v)) (hrun : execute obj v = .ok () t) :
    t.context.stackSet.exec.WellFormed ∧ t.pendingWeight < s.pendingWeight := by
  obtain ⟨hv, hweight⟩ := weight_nextObject? hs hnext
  have hends := ends_execute_weight obj v
  rw [Ends, hrun] at hends
  obtain ⟨ht, hle⟩ := hends hv
  have hpos := obj.weight_pos
  exact ⟨ht, by omega⟩

/-! ## Whole turns -/

/-- How many objects the turn executes within a budget. -/
def executions {ν : Type} [NativeSet ν] : Nat → Session ν → Nat
  | 0, _ => 0
  | budget + 1, s =>
    match s.nextObject? with
    | none => 0
    | some (obj, s) =>
      match execute obj s with
      | .ok _ s => executions budget s + 1
      | .error _ _ => 1

/-- **Every turn terminates**, whatever the memories store and the stacks hold: given a budget above the
weight of what is pending it does not run out, its outcome no longer depends on the budget, and no more
objects are executed than that weight. -/
theorem turn_terminates (h : s.context.stackSet.exec.WellFormed) :
    ∃ turn t n, turn ≠ .unfinished ∧
      n ≤ (s.context.stackSet.exec.toList.map Object.weight).sum ∧
      ∀ budget, n < budget → runTurn budget s = (turn, t) ∧ executions budget s = n := by
  change ∃ turn t n, turn ≠ .unfinished ∧ n ≤ s.pendingWeight ∧
    ∀ budget, n < budget → runTurn budget s = (turn, t) ∧ executions budget s = n
  induction hweight : s.pendingWeight using Nat.strong_induction_on generalizing s with
  | _ weight ih =>
      subst hweight
      cases hnext : s.nextObject? with
      | none =>
          refine ⟨.finished, s, 0, Turn.noConfusion, Nat.zero_le _, fun budget hbudget => ?_⟩
          obtain ⟨budget, rfl⟩ := Nat.exists_eq_succ_of_ne_zero hbudget.ne'
          exact ⟨by rw [runTurn, hnext], by rw [executions, hnext]⟩
      | some next =>
          obtain ⟨obj, v⟩ := next
          cases hrun : execute obj v with
          | ok a w =>
              obtain ⟨hw, hlighter⟩ := execute_lighter h hnext hrun
              obtain ⟨turn, t, n, hturn, hn, hends⟩ := ih _ hlighter hw rfl
              refine ⟨turn, t, n + 1, hturn, by omega, fun budget hbudget => ?_⟩
              obtain ⟨budget, rfl⟩ := Nat.exists_eq_succ_of_ne_zero (Nat.ne_zero_of_lt hbudget)
              obtain ⟨hreached, hcount⟩ := hends budget (by omega)
              simp [runTurn, executions, hnext, hrun, hreached, hcount]
          | error fault w =>
              have hpos : 1 ≤ s.pendingWeight := by
                have hweight := (weight_nextObject? h hnext).2
                have hpos := obj.weight_pos
                omega
              refine ⟨if fault.isControl then .switched else .failed fault,
                if fault.isControl then w else w.fail fault, 1, ?_, hpos, fun budget hbudget => ?_⟩
              · split_ifs <;> exact Turn.noConfusion
              · obtain ⟨budget, rfl⟩ := Nat.exists_eq_succ_of_ne_zero (Nat.ne_zero_of_lt hbudget)
                simp only [runTurn, executions, hnext, hrun, and_true]
                split_ifs <;> rfl

/-- A procedure whose first element is the procedure itself. -/
def knot : Object := (Object.composite .array .localVM 1 0 2).cvx

/-- The knot is tied, and about to be executed. -/
def knotted : Session Builtin :=
  (meeting ((Memory.narrow .localVM).afterAll
    [.newArray 2 [], .arrayPut knot 0 knot, .arrayPut knot 1 Object.null.cvx]) [] finishedPair).setExec
      (Stack.ofObjects [knot])

theorem turn_terminates_knotted :
    knotted.context.stackSet.exec.WellFormed ∧
      ((knotted.memory .localVM).arrayGet knot 0).toOption = some knot ∧
      ∃ turn t n, turn ≠ .unfinished ∧ n ≤ 5 ∧
        ∀ budget, n < budget → runTurn budget knotted = (turn, t) ∧ executions budget knotted = n := by
  obtain ⟨hwf, hlist, -⟩ := Stack.ofObjects_run (show [knot].length ≤ 8 by decide)
  have hexec : knotted.context.stackSet.exec = Stack.ofObjects [knot] := rfl
  obtain ⟨turn, t, n, hturn, hn, hends⟩ := turn_terminates (s := knotted) hwf
  rw [hexec, hlist] at hn
  exact ⟨hwf, by decide +kernel, turn, t, n, hturn, hn, hends⟩

end Session

end PostScriptCore
