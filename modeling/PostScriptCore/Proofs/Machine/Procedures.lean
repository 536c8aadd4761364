import PostScriptCore.Proofs.Machine.Pending
import PostScriptCore.Proofs.Machine.Rendezvous
import PostScriptCore.Proofs.Object.Views

/-!
# Procedures run element by element

A procedure is executed by way of ever shorter views of it: each time the first element is taken, and a
view of the others is put back before anything is done about it.

* `Object.after` — the view of the elements after the first `k`, if there are any.
* `Memory.arrayGet_after`, `Object.IsAfter.interval_one` — a view addresses the elements of the whole.
* `Object.isData`, `Session.process` — what is done with an element.
* `Session.AtElement`, `Session.Processes` — the elements of a procedure, processed one after the other.
* `Session.nextObject?_view`, `Session.runTurn_element` — one element, in a turn.
* `Session.procedure_runs_elements` — a whole procedure.
-/

namespace PostScriptCore

/-! ## Views -/

namespace Object

variable {p view : Object} {k : Nat}

/-- What is left of an array after its first `k` elements: the view of the others, if there are any. -/
def after (p : Object) (k : Nat) : List Object :=
  if k < p.length.toNat then (p.interval k (p.length.toNat - k) objectSize).toOption.toList else []

lemma after_of_le (h : p.length.toNat ≤ k) : p.after k = [] := if_neg (Nat.not_lt.mpr h)

lemma length_after_le (p : Object) (k : Nat) : (p.after k).length ≤ 1 := by
  rw [after]
  split_ifs
  · cases p.interval k (p.length.toNat - k) objectSize <;> simp [Except.toOption]
  · exact Nat.zero_le 1

/-- The view of the elements of an array after the first `k`. -/
structure IsAfter (p : Object) (k : Nat) (view : Object) : Prop where
  lt : k < p.length.toNat
  interval : p.interval k (p.length.toNat - k) objectSize = .ok view

lemma IsAfter.after_eq (h : p.IsAfter k view) : p.after k = [view] := by
  rw [after, if_pos h.lt, h.interval]
  rfl

/-- An element can be reached if its offset is a word. -/
lemma exists_isAfter (hty : p.ty = .array) (hlt : k < p.length.toNat)
    (hoffset : p.offset.toNat + k * objectSize < wordBound) : ∃ view, p.IsAfter k view := by
  have hcomposite : p.isComposite = true := by rw [isComposite, hty]; rfl
  obtain ⟨view, hview⟩ := exists_interval_iff.mpr
    ⟨hcomposite, Nat.le_of_eq (Nat.add_sub_cancel' (Nat.le_of_lt hlt)), hoffset⟩
  exact ⟨view, hlt, hview⟩

/-- What is left is a view, as long as there are elements left. -/
lemma IsAfter.isViewAt (h : p.IsAfter k view) :
    p.IsViewAt k objectSize view ∧ view.length.toNat = p.length.toNat - k :=
  (interval_eq_ok_iff.mp h.interval).2

/-- The whole is what is left before the first element. -/
lemma isAfter_zero (hty : p.ty = .array) (hlt : 0 < p.length.toNat) : p.IsAfter 0 p := by
  have hcomposite : p.isComposite = true := by rw [isComposite, hty]; rfl
  exact ⟨hlt, interval_eq_ok_iff.mpr ⟨hcomposite, .refl p objectSize, rfl⟩⟩

lemma IsAfter.isProc (h : p.IsAfter k view) : view.isProc = p.isProc := h.isViewAt.1.isProc

lemma IsAfter.bank (h : p.IsAfter k view) : view.bank = p.bank := by
  rw [h.isViewAt.1.same]

/-- **A view of a view** is a view of the whole. -/
lemma IsAfter.interval_one {rest : Object} (h : p.IsAfter k view) (hrest : p.IsAfter (k + 1) rest) :
    view.interval 1 (view.length.toNat - 1) objectSize = .ok rest := by
  obtain ⟨hcomposite, hview, hlength⟩ := interval_eq_ok_iff.mp h.interval
  obtain ⟨hlater, hleft⟩ := hrest.isViewAt
  have hlt := hrest.lt
  have hinside : view.IsViewAt 1 objectSize rest := hview.of_inside hlater (by omega)
  exact interval_eq_ok_iff.mpr ⟨by rw [hview.same]; exact hcomposite, hinside, by omega⟩

end Object

namespace Memory

variable {m : Memory} {p view : Object} {k : Nat}

/-- **A view** begins with the element that it was taken at. -/
lemma arrayGet_after (h : p.IsAfter k view) : m.arrayGet view 0 = m.arrayGet p k := by
  obtain ⟨hview, hlength⟩ := h.isViewAt
  exact arrayGet_view hview (hlength ▸ Nat.sub_pos_of_lt h.lt)

/-- What can be read of an array is at offsets that are words. -/
lemma offset_lt_of_arrayGet {obj : Object} (h : m.arrayGet p k = .ok obj) :
    p.offset.toNat + k * objectSize < wordBound := by
  by_contra hword
  rw [arrayGet, elementOffset, if_pos (Nat.le_of_not_lt hword)] at h
  split at h
  · contradiction
  · split_ifs at h

lemma arrayGet_of_elementsFrom {es : List Object} {count index : Nat}
    (h : m.elementsFrom p count index = .ok es) :
    es.length = count ∧ ∀ i obj, es[i]? = some obj → m.arrayGet p (index + i) = .ok obj := by
  induction count generalizing index es with
  | zero =>
      cases h
      exact ⟨rfl, fun i obj hobj => by contradiction⟩
  | succ count ih =>
      rw [elementsFrom] at h
      cases hfirst : m.arrayGet p index with
      | error fault =>
          rw [hfirst] at h
          contradiction
      | ok first =>
          rw [hfirst] at h
          cases hrest : m.elementsFrom p count (index + 1) with
          | error fault =>
              rw [hrest] at h
              contradiction
          | ok rest =>
              rw [hrest] at h
              cases h
              obtain ⟨hlength, hget⟩ := ih hrest
              refine ⟨by rw [List.length_cons, hlength], fun i obj hobj => ?_⟩
              cases i with
              | zero =>
                  cases hobj
                  exact hfirst
              | succ i =>
                  rw [show index + (i + 1) = index + 1 + i by omega]
                  exact hget i obj hobj

/-- The elements of an array, one by one. -/
lemma arrayGet_of_arrayElements {es : List Object} (h : m.arrayElements p = .ok es) :
    es.length = p.length.toNat ∧ ∀ i obj, es[i]? = some obj → m.arrayGet p i = .ok obj := by
  obtain ⟨hlength, hget⟩ := arrayGet_of_elementsFrom h
  refine ⟨hlength, fun i obj hobj => ?_⟩
  have hi := hget i obj hobj
  rwa [Nat.zero_add] at hi

end Memory

/-! ## Elements -/

/-- Literals, and procedures inside a procedure, are data. -/
def Object.isData (obj : Object) : Bool := obj.isProc || !obj.executable

lemma Object.isProc_of_not_isData {obj : Object} (h : ¬ obj.isData = true) : obj.isProc = false := by
  rw [isData, Bool.or_eq_true, not_or] at h
  exact Bool.eq_false_of_not_eq_true h.1

/-- How many objects are executed for an element: the view that begins with it, and the element itself
unless it is data. -/
def Object.elementCost (obj : Object) : Nat := if obj.isData then 1 else 2

/-- How many objects are executed for a procedure with these elements. -/
def procedureCost (es : List Object) : Nat :=
  if es = [] then 1 else (es.map Object.elementCost).sum

namespace Session

variable {s t u v : Session Builtin} {p obj : Object} {E es : List Object} {k : Nat}

/-- Processes an element of a procedure: data is pushed, and anything else is executed. -/
def process (obj : Object) : Action Builtin Unit := if obj.isData then push obj else execute obj

lemma keepsPending_process (obj : Object) (s : Session Builtin) : KeepsPending (process obj) s := by
  rw [process]
  split
  · exact keepsPending_of_follows (leavesPending_push obj) (private_push obj)
  · next hdata => exact keepsPending_execute (Object.isProc_of_not_isData hdata)

/-- Data dispatches nothing. -/
lemma dispatched?_of_isData (hdata : obj.isData = true) : s.dispatched? obj = none := by
  rw [Object.isData, Bool.or_eq_true, Bool.not_eq_true'] at hdata
  rcases hdata with hproc | hliteral
  · simp [dispatched?, Object.isProc_iff.mp hproc]
  · simp [dispatched?, hliteral]

lemma not_calls_of_isData {native : Builtin} {args : List Object} (hdata : obj.isData = true) :
    ¬ s.Calls obj native args t := by
  rintro ⟨opcode, hopcode, -⟩
  rw [dispatched?_of_isData hdata] at hopcode
  contradiction

/-- **An element** that is processed with success exchanges the bottom exactly if it detaches the running
context. -/
lemma exchanges_process (hs : s.context.stackSet.exec.WellFormed) (hrun : process obj s = .ok () t) :
    s.system.Exchanges (s.DetachesItself obj) s.context.stackSet.exec.toList
      t.context.stackSet.exec.toList := by
  rw [process] at hrun
  split at hrun
  · next hdata =>
    have hpush := Ends.and (leavesPending_push obj s) (private_push obj s)
    rw [Ends, hrun] at hpush
    refine .of_not ?_ (hpush.1.items_eq hs hpush.2.context.exec)
    rintro ⟨-, handle, u, ⟨hcalls, -⟩, -⟩
    exact not_calls_of_isData hdata hcalls
  · next hdata => exact exchanges_execute (Object.isProc_of_not_isData hdata) hs hrun

/-- The session `s` when the element at `k` is about to be processed: nothing has changed but the
execution stack, which holds `E` and the view of the elements that follow. -/
structure AtElement (p : Object) (E : List Object) (k : Nat) (s v : Session Builtin) : Prop where
  same : v = s.setExec v.context.stackSet.exec
  wellFormed : v.context.stackSet.exec.WellFormed
  limit : v.context.stackSet.exec.limit = s.context.stackSet.exec.limit
  items : v.context.stackSet.exec.toList = E ++ p.after (k + 1)

/-- The elements of the procedure from `k` on are processed one after the other, each of them once, until
there are none or one of them raises a fault.  What is below is `E`; an element that detaches the running
context exchanges the bottom of it, and no other one changes it. -/
inductive Processes (p : Object) :
    List Object → Nat → List Object → Session Builtin → Option Fault → Session Builtin → Prop
  | done {E : List Object} {k : Nat} {s u : Session Builtin} (hu : AtElement p E k s u) :
      Processes p E k [] s none u
  | next {E E' : List Object} {k : Nat} {obj : Object} {es : List Object} {s v t u : Session Builtin}
      {outcome : Option Fault} (hv : AtElement p E k s v) (hrun : process obj v = .ok () t)
      (hE : s.system.Exchanges (v.DetachesItself obj) E E')
      (hrest : Processes p E' (k + 1) es t outcome u) : Processes p E k (obj :: es) s outcome u
  | raised {E : List Object} {k : Nat} {obj : Object} {es : List Object} {s v u : Session Builtin}
      {fault : Fault} (hv : AtElement p E k s v) (hrun : process obj v = .error fault u)
      (hpending : fault.isControl = true →
        v.context.stackSet.exec.toList <+: u.context.stackSet.exec.toList) :
      Processes p E k (obj :: es) s (some fault) u

/-- How a turn goes on after something was executed. -/
def continued (budget : Nat) : EStateM.Result Fault (Session Builtin) Unit → Turn × Session Builtin
  | .ok _ t => runTurn budget t
  | .error fault t => if fault.isControl then (.switched, t) else (.failed fault, t.fail fault)

lemma runTurn_succ {obj : Object} (hnext : s.nextObject? = some (obj, v)) (budget : Nat) :
    runTurn (budget + 1) s = continued budget (execute obj v) := by
  rw [runTurn, hnext]
  dsimp only
  cases execute obj v <;> rfl

lemma execute_proc (hproc : p.isProc = true) (s : Session Builtin) : execute p s = step p s := by
  simp [execute, Object.isProc_iff.mp hproc]

/-- **One step** takes the first element of a view, and puts the view of the others back. -/
lemma step_run {view : Object} (hview : p.IsAfter k view) (hty : p.ty = .array)
    (hget : (s.memory p.bank).arrayGet p k = .ok obj)
    (hlater : k + 1 < p.length.toNat → p.offset.toNat + (k + 1) * objectSize < wordBound)
    (hs : s.context.stackSet.exec.WellFormed)
    (hroom : s.context.stackSet.exec.count < s.context.stackSet.exec.limit) :
    ∃ exec, exec.WellFormed ∧ exec.limit = s.context.stackSet.exec.limit ∧
      exec.toList = s.context.stackSet.exec.toList ++ p.after (k + 1) ∧
      step view s = (if obj.isData then push obj else onExec (Stack.push obj)) (s.setExec exec) := by
  obtain ⟨-, hlength⟩ := hview.isViewAt
  have hlt := hview.lt
  have hfirst : (s.memory view.bank).arrayGet view 0 = .ok obj := by
    rw [hview.bank, Memory.arrayGet_after hview, hget]
  rw [step, if_neg (by omega)]
  by_cases hmore : k + 1 < p.length.toNat
  · obtain ⟨rest, hrest⟩ := Object.exists_isAfter hty hmore (hlater hmore)
    have hinterval := hview.interval_one hrest
    obtain ⟨exec, hpush, hwf, hlist, hlimit⟩ := Stack.push_run hs hroom rest
    refine ⟨exec, hwf, hlimit, by rw [hlist, hrest.after_eq], ?_⟩
    refine (bind_ok (query_ok (s := s) hfirst)).trans ?_
    rw [if_pos (show 1 < view.length.toNat by omega)]
    exact (bind_ok (query_ok (s := s) hinterval)).trans (bind_ok (onExec_ok hpush))
  · refine ⟨s.context.stackSet.exec, hs, rfl, ?_, ?_⟩
    · rw [Object.after_of_le (by omega), List.append_nil]
    · refine (bind_ok (query_ok (s := s) hfirst)).trans ?_
      rw [if_neg (by omega)]
      rfl

/-- A view that is next in a turn: it is taken, its first element is passed on, and the view of the others is
put back. -/
lemma nextObject?_view (hproc : p.isProc = true) (hlt : k < p.length.toNat)
    (hget : (s.memory p.bank).arrayGet p k = .ok obj)
    (hlater : k + 1 < p.length.toNat → p.offset.toNat + (k + 1) * objectSize < wordBound)
    (hs : s.context.stackSet.exec.WellFormed)
    (hitems : s.context.stackSet.exec.toList = E ++ p.after k)
    (hroom : E.length < s.context.stackSet.exec.limit) :
    ∃ view exec exec', view.isProc = true ∧ s.nextObject? = some (view, s.setExec exec) ∧
      exec'.WellFormed ∧ exec'.limit = s.context.stackSet.exec.limit ∧
      exec'.toList = E ++ p.after (k + 1) ∧ execute view (s.setExec exec) =
        (if obj.isData then push obj else onExec (Stack.push obj)) (s.setExec exec') := by
  have hty : p.ty = .array := (Object.isProc_iff.mp hproc).1
  obtain ⟨view, hview⟩ := Object.exists_isAfter hty hlt (Memory.offset_lt_of_arrayGet hget)
  rw [hview.after_eq] at hitems
  obtain ⟨exec, hwf, hbelow, hlimit, hnext⟩ := nextObject?_run hs hitems
  have hlength : exec.count = E.length := by rw [← Stack.length_toList, hbelow]
  obtain ⟨exec', hwf', hlimit', hlist', hstep⟩ :=
    step_run (s := s.setExec exec) hview hty hget hlater hwf (show exec.count < exec.limit by omega)
  have hisProc := hview.isProc.trans hproc
  refine ⟨view, exec, exec', hisProc, hnext, hwf', hlimit'.trans hlimit,
    hlist'.trans (congrArg (· ++ _) hbelow), ?_⟩
  rw [execute_proc hisProc, hstep]
  rfl

/-- What is passed on to the execution stack is next. -/
lemma nextObject?_scheduled {exec : Stack} (hs : exec.WellFormed) (hroom : exec.count < exec.limit)
    (s : Session Builtin) (obj : Object) :
    ∃ above exec', onExec (Stack.push obj) (s.setExec exec) = .ok () (s.setExec above) ∧
      (s.setExec above).nextObject? = some (obj, s.setExec exec') ∧
      exec'.WellFormed ∧ exec'.limit = exec.limit ∧ exec'.toList = exec.toList := by
  obtain ⟨above, hpush, hwf, hlist, hlimit⟩ := Stack.push_run hs hroom obj
  obtain ⟨exec', hwf', hlist', hlimit', hnext⟩ := nextObject?_run (s := s.setExec above) hwf hlist
  exact ⟨above, exec', onExec_ok hpush, hnext, hwf', hlimit'.trans hlimit, hlist'⟩

/-- **One element in a turn**: the session in which it is processed, and how the turn goes on. -/
lemma runTurn_element (hproc : p.isProc = true) (hlt : k < p.length.toNat)
    (hget : (s.memory p.bank).arrayGet p k = .ok obj)
    (hlater : k + 1 < p.length.toNat → p.offset.toNat + (k + 1) * objectSize < wordBound)
    (hs : s.context.stackSet.exec.WellFormed)
    (hitems : s.context.stackSet.exec.toList = E ++ p.after k)
    (hroom : E.length + 2 ≤ s.context.stackSet.exec.limit) :
    ∃ v, AtElement p E k s v ∧
      ∀ budget, runTurn (obj.elementCost + budget) s = continued budget (process obj v) := by
  obtain ⟨view, exec, exec', -, hnext, hwf', hlimit', hlist, hexecute⟩ :=
    nextObject?_view hproc hlt hget hlater hs hitems (by omega)
  have hturn (budget : Nat) : runTurn (budget + 1) s = continued budget
      ((if obj.isData then push obj else onExec (Stack.push obj)) (s.setExec exec')) := by
    rw [runTurn_succ hnext, hexecute]
  cases hdata : obj.isData with
  | true =>
      refine ⟨s.setExec exec', ⟨rfl, hwf', hlimit', hlist⟩, fun budget => ?_⟩
      rw [hdata] at hturn
      rw [Object.elementCost, process, hdata, Nat.add_comm]
      exact hturn budget
  | false =>
      -- the element goes through the execution stack, and is taken off it again
      have hcount : exec'.count ≤ E.length + 1 := by
        rw [← Stack.length_toList, hlist, List.length_append]
        exact Nat.add_le_add_left (p.length_after_le (k + 1)) _
      obtain ⟨above, exec'', hschedule, hnext', hwfv, hlimitv, hlistv⟩ :=
        nextObject?_scheduled hwf' (by omega) s obj
      refine ⟨s.setExec exec'', ⟨rfl, hwfv, hlimitv.trans hlimit', hlistv.trans hlist⟩, fun budget => ?_⟩
      have hfirst : runTurn (budget + 1 + 1) s = runTurn (budget + 1) (s.setExec above) := by
        rw [hturn, hdata]
        exact congrArg (continued (budget + 1)) hschedule
      have hcost : obj.elementCost + budget = budget + 1 + 1 := by
        rw [Object.elementCost, hdata]
        exact Nat.add_comm 2 budget
      rw [hcost, hfirst, runTurn_succ hnext', process, hdata]
      rfl

/-! ## Whole procedures -/

/-- A view is no operator, so it is never exchanged. -/
lemma exchanges_after {system : SystemOperators} {detached : Prop} {objs : List Object}
    (hproc : p.isProc = true) (h : system.Exchanges detached (E ++ p.after k) objs) :
    ∃ E', objs = E' ++ p.after k ∧ system.Exchanges detached E E' := by
  cases hafter : p.after k with
  | nil =>
      rw [hafter, List.append_nil] at h
      exact ⟨objs, (List.append_nil _).symm, h⟩
  | cons view rest =>
      have hview : view.isProc = true ∧ rest = [] := by
        rw [Object.after] at hafter
        split_ifs at hafter with hlt
        cases hinterval : p.interval k (p.length.toNat - k) objectSize with
        | error fault =>
            rw [hinterval] at hafter
            contradiction
        | ok view' =>
            rw [hinterval] at hafter
            obtain ⟨rfl, rfl⟩ := List.cons.inj hafter
            exact ⟨(Object.IsAfter.isProc ⟨hlt, hinterval⟩).trans hproc, rfl⟩
      obtain ⟨hview, rfl⟩ := hview
      rw [hafter] at h
      refine h.of_concat ?_
      rintro rfl
      contradiction

/-- How the turn goes on after a procedure: from where its elements have been processed at the given cost, or
not at all if one of them raised a fault. -/
def GoesOn (cost : Nat) (s : Session Builtin) : Option Fault → Session Builtin → Prop
  | none, u => ∀ budget, runTurn (cost + budget) s = runTurn budget u
  | some fault, u => ∃ n, n ≤ cost ∧ ∀ budget, runTurn (n + budget) s =
      if fault.isControl then (.switched, u) else (.failed fault, u.fail fault)

/-- The elements from `k` on are processed, one after the other. -/
lemma exists_processes {rest : List Object} (hproc : p.isProc = true) (hrest : es.drop k = rest)
    (hs : s.context.stackSet.exec.WellFormed)
    (hitems : s.context.stackSet.exec.toList = E ++ p.after k)
    (hroom : E.length + 2 ≤ s.context.stackSet.exec.limit)
    (hlength : p.length.toNat = es.length)
    (hkept : ∀ m u, m < (rest.map Object.elementCost).sum → runTurn m s = (.unfinished, u) →
      (u.memory p.bank).arrayElements p = .ok es) :
    ∃ outcome u, Processes p E k rest s outcome u ∧
      GoesOn (rest.map Object.elementCost).sum s outcome u := by
  induction rest generalizing k s E with
  | nil =>
      have hdone : p.length.toNat ≤ k := hlength ▸ List.drop_eq_nil_iff.mp hrest
      rw [Object.after_of_le hdone] at hitems
      refine ⟨none, s, .done ⟨rfl, hs, rfl, ?_⟩, fun budget => ?_⟩
      · rw [Object.after_of_le (Nat.le_succ_of_le hdone), hitems]
      · rw [List.map_nil, List.sum_nil, Nat.zero_add]
  | cons obj rest ih =>
      rw [List.map_cons, List.sum_cons] at hkept ⊢
      have hcost : 0 < obj.elementCost := by rw [Object.elementCost]; split_ifs <;> omega
      obtain ⟨-, hget⟩ := Memory.arrayGet_of_arrayElements (hkept 0 s (by omega) rfl)
      have hobj : es[k]? = some obj := by
        rw [← List.head?_drop, hrest]
        rfl
      have hlt : k < p.length.toNat := hlength ▸ (List.getElem?_eq_some_iff.mp hobj).1
      have hlater (hmore : k + 1 < p.length.toNat) :
          p.offset.toNat + (k + 1) * objectSize < wordBound :=
        Memory.offset_lt_of_arrayGet
          (hget (k + 1) _ (List.getElem?_eq_getElem (show k + 1 < es.length by omega)))
      obtain ⟨v, hv, hturn⟩ := runTurn_element hproc hlt (hget k obj hobj) hlater hs hitems hroom
      have hkeeps := keepsPending_process obj v
      rw [KeepsPending, Ends] at hkeeps
      cases hrun : process obj v with
      | error fault u =>
          rw [hrun] at hkeeps hturn
          exact ⟨some fault, u, .raised hv hrun fun hcontrol => (hkeeps hcontrol hv.wellFormed).2,
            obj.elementCost, Nat.le_add_right _ _, hturn⟩
      | ok a t =>
          rw [hrun] at hkeeps hturn
          have hsystem : v.system = s.system := by rw [hv.same]; rfl
          obtain ⟨E', hitems', hE⟩ :=
            exchanges_after hproc (hv.items ▸ exchanges_process hv.wellFormed hrun)
          have hlimit : E'.length + 2 ≤ t.context.stackSet.exec.limit := by
            rw [hE.length_eq, hkeeps.limit, hv.limit]
            exact hroom
          obtain ⟨outcome, u, hprocesses, hends⟩ := ih (by rw [← List.tail_drop, hrest]; rfl)
            (hkeeps.wellFormed hv.wellFormed) hitems' hlimit fun m u hm hreached =>
              hkept (obj.elementCost + m) u (by omega) ((hturn m).trans hreached)
          refine ⟨outcome, u, .next hv hrun (hsystem ▸ hE) hprocesses, ?_⟩
          cases outcome with
          | none =>
              intro budget
              rw [Nat.add_assoc]
              exact (hturn _).trans (hends budget)
          | some fault =>
              obtain ⟨n, hn, hraised⟩ := hends
              refine ⟨obj.elementCost + n, by omega, fun budget => ?_⟩
              rw [Nat.add_assoc]
              exact (hturn _).trans (hraised budget)

/-- **A procedure runs its elements in order.**  As long as what it stores is not changed meanwhile, and
there is room for two objects above `E`, a turn that begins with it processes each element once.  Before
the element at `k` is processed, the execution stack holds nothing but what it is to find below it: `E`, or
`E` with the bottom exchanged if one of the elements before has detached the running context, and the view of
the elements that follow.  This is what is pending after the element has handed control away. -/
theorem procedure_runs_elements (hproc : p.isProc = true) (hs : s.context.stackSet.exec.WellFormed)
    (hitems : s.context.stackSet.exec.toList = E ++ [p])
    (hroom : E.length + 2 ≤ s.context.stackSet.exec.limit)
    (hkept : ∀ m u, m < procedureCost es → runTurn m s = (.unfinished, u) →
      (u.memory p.bank).arrayElements p = .ok es) :
    ∃ outcome u, Processes p E 0 es s outcome u ∧ GoesOn (procedureCost es) s outcome u := by
  have hty : p.ty = .array := (Object.isProc_iff.mp hproc).1
  have hcost : 0 < procedureCost es := by
    rw [procedureCost]
    split_ifs with hempty
    · exact Nat.one_pos
    · obtain ⟨obj, rest, rfl⟩ := List.exists_cons_of_ne_nil hempty
      rw [List.map_cons, List.sum_cons, Object.elementCost]
      split_ifs <;> omega
  obtain ⟨hlength, -⟩ := Memory.arrayGet_of_arrayElements (hkept 0 s hcost rfl)
  cases es with
  | nil =>
      obtain ⟨exec, hwf, hbelow, hlimit, hnext⟩ := nextObject?_run hs hitems
      have hempty : p.length.toNat = 0 := hlength.symm
      have hstep : execute p (s.setExec exec) = .ok () (s.setExec exec) := by
        rw [execute_proc hproc, step, if_pos hempty]
        rfl
      refine ⟨none, s.setExec exec, .done ⟨rfl, hwf, hlimit, ?_⟩, fun budget => ?_⟩
      · rw [Object.after_of_le (by omega), List.append_nil]
        exact hbelow
      · rw [procedureCost, if_pos rfl, Nat.add_comm, runTurn_succ hnext, hstep]
        rfl
  | cons obj rest =>
      have hlt : 0 < p.length.toNat := by
        rw [← hlength]
        exact Nat.succ_pos _
      have hwhole := (Object.isAfter_zero hty hlt).after_eq
      exact exists_processes hproc rfl hs (by rw [hwhole, hitems]) hroom hlength.symm hkept

/-! ## A procedure that detaches its context -/

/-- The procedure of `selfDetaching`: the handle of the context itself, `detach`, and two integers. -/
def detachingProc : Object := (Object.composite .array .localVM 1 0 4).cvx

/-- What the procedure stores. -/
def detachingElements : List Object :=
  [Object.context 1, Object.operator 0, Object.int 7, Object.int 8]

/-- The first context of a machine that has `detach` in the place of `join` is about to detach itself. -/
def selfDetaching : Session Builtin :=
  let storage : Object := Object.composite .array .localVM 1 0 4
  let localVM := (Memory.narrow .localVM).afterAll
    [.newArray 4 [], .arrayPut storage 0 (Object.context 1), .arrayPut storage 1 (Object.operator 0),
      .arrayPut storage 2 (Object.int 7), .arrayPut storage 3 (Object.int 8)]
  { (meeting localVM [] finishedPair).setExec (Stack.ofObjects [Object.operator 2, detachingProc]) with
    operators := ⟨1, 2, [(0, 0), (1, 1)], #[.detach, .fork]⟩ }

lemma exec_selfDetaching : selfDetaching.context.stackSet.exec.WellFormed ∧
    selfDetaching.context.stackSet.exec.toList = [Object.operator 2] ++ [detachingProc] ∧
    [Object.operator 2].length + 2 ≤ selfDetaching.context.stackSet.exec.limit := by
  obtain ⟨hwf, hlist, hlimit⟩ := Stack.ofObjects_run
    (show [Object.operator 2, detachingProc].length ≤ 8 by decide)
  have hexec : selfDetaching.context.stackSet.exec = Stack.ofObjects [Object.operator 2, detachingProc] :=
    rfl
  rw [hexec, hlimit]
  exact ⟨hwf, hlist, by decide⟩

lemma arrayElements_selfDetaching {m : Nat} (hm : m < procedureCost detachingElements)
    (hrun : runTurn m selfDetaching = (.unfinished, u)) :
    (u.memory detachingProc.bank).arrayElements detachingProc = .ok detachingElements := by
  have hall : ∀ m < procedureCost detachingElements, (((runTurn m selfDetaching).2.memory
      detachingProc.bank).arrayElements detachingProc).toOption = some detachingElements := by
    decide +kernel
  have hread := hall m hm
  rw [hrun] at hread
  exact ok_of_toOption hread

theorem procedure_runs_elements_detaching :
    detachingProc.isProc = true ∧ selfDetaching.context.stackSet.exec.WellFormed ∧
      selfDetaching.context.stackSet.exec.toList = [Object.operator 2] ++ [detachingProc] ∧
      [Object.operator 2].length + 2 ≤ selfDetaching.context.stackSet.exec.limit ∧
      (∀ m u, m < procedureCost detachingElements → runTurn m selfDetaching = (.unfinished, u) →
        (u.memory detachingProc.bank).arrayElements detachingProc = .ok detachingElements) ∧
      ∃ outcome u, Processes detachingProc [Object.operator 2] 0 detachingElements selfDetaching outcome u ∧
        GoesOn (procedureCost detachingElements) selfDetaching outcome u := by
  obtain ⟨hwf, hlist, hroom⟩ := exec_selfDetaching
  have hkept (m : Nat) (u : Session Builtin) (hm : m < procedureCost detachingElements)
      (hrun : runTurn m selfDetaching = (.unfinished, u)) := arrayElements_selfDetaching hm hrun
  exact ⟨rfl, hwf, hlist, hroom, hkept, procedure_runs_elements rfl hwf hlist hroom hkept⟩

/-- Once the handle and `detach` have been processed, what is pending is no extension of what stood below
the procedure. -/
theorem procedure_exchanges_bottom :
    selfDetaching.context.stackSet.exec.toList =
        [Object.operator selfDetaching.system.zombie] ++ [detachingProc] ∧
      [Object.operator selfDetaching.system.zombie].length + 2 ≤
        selfDetaching.context.stackSet.exec.limit ∧
      (∀ m u, m < procedureCost detachingElements → runTurn m selfDetaching = (.unfinished, u) →
        (u.memory detachingProc.bank).arrayElements detachingProc = .ok detachingElements) ∧
      ∃ u, runTurn 3 selfDetaching = (.unfinished, u) ∧
        u.context.stackSet.exec.toList =
          [Object.operator selfDetaching.system.free] ++ detachingProc.after 2 ∧
        ¬ [Object.operator selfDetaching.system.zombie] <+: u.context.stackSet.exec.toList := by
  obtain ⟨-, hlist, hroom⟩ := exec_selfDetaching
  have hturn : (runTurn 3 selfDetaching).1 = .unfinished := by decide +kernel
  have hexec : (runTurn 3 selfDetaching).2.context.stackSet.exec.toList =
      [Object.operator selfDetaching.system.free] ++ detachingProc.after 2 := by decide +kernel
  have hother : ¬ [Object.operator selfDetaching.system.zombie] <+:
      [Object.operator selfDetaching.system.free] ++ detachingProc.after 2 := by decide +kernel
  refine ⟨hlist, hroom, fun m u hm hrun => arrayElements_selfDetaching hm hrun, ?_⟩
  cases hrun : runTurn 3 selfDetaching with
  | mk turn u =>
      rw [hrun] at hturn hexec
      exact ⟨u, congrArg (·, u) hturn, hexec, hexec ▸ hother⟩

end Session

end PostScriptCore
