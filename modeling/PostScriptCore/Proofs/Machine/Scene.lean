import PostScriptCore.Proofs.Machine.Procedures
import PostScriptCore.Proofs.Machine.Vocabulary

/-!
# Turns, seen from outside

How a stack is cut into segments and what the machine notes about the running operator do not matter for
what a program does.  A scene leaves that out: of a session it keeps the objects on the stacks and, of the
procedure that is being run, the elements that are still to come.

* `Portrait`, `Scene` — a context and a session without those details.
* `Portrait.Depicts`, `Scene.Depicts` — whose they are.
* `Scene.Leads`, `Scene.Switches` — what a turn does from every session of a scene.
* `Scene.Does`, `Scene.Yields` — the same for one object.
* `Scene.leads_data`, `Scene.leads_word`, `Scene.switches_word` — the next element of the procedure.
-/

namespace PostScriptCore

/-! ## Stacks -/

/-- The items of a stack in working order. -/
structure Stack.Lists (s : Stack) (limit : Nat) (items : List Object) : Prop where
  wellFormed : s.WellFormed
  limit_eq : s.limit = limit
  toList_eq : s.toList = items

namespace Stack.Lists

variable {s : Stack} {limit : Nat} {items : List Object}

lemma count_eq (h : s.Lists limit items) : s.count = items.length := by
  rw [← h.toList_eq, length_toList]

lemma create {segmentSize : Nat} (hsegment : 0 < segmentSize) (limit : Nat) (overflow : Fault) :
    (Stack.create segmentSize limit overflow).Lists limit [] :=
  ⟨wellFormed_create hsegment limit overflow, rfl, toList_create _ _ _⟩

lemma push (h : s.Lists limit items) (hroom : items.length < limit) (obj : Object) :
    ∃ t, Stack.push obj s = .ok () t ∧ t.Lists limit (items ++ [obj]) := by
  obtain ⟨t, hrun, hwf, hlist, hlimit⟩ :=
    push_run h.wellFormed (by rw [h.count_eq, h.limit_eq]; exact hroom) obj
  exact ⟨t, hrun, hwf, hlimit.trans h.limit_eq, by rw [hlist, h.toList_eq]⟩

lemma drop (h : s.Lists limit items) {n : Nat} (hn : n ≤ items.length) :
    ∃ t, Stack.drop n s = .ok () t ∧ t.Lists limit (items.take (items.length - n)) := by
  obtain ⟨t, hrun, hwf, hlist⟩ := drop_run (n := n) h.wellFormed (h.count_eq ▸ hn)
  exact ⟨t, hrun, hwf, (limit_drop hrun).1.trans h.limit_eq, by rw [hlist, h.toList_eq, h.count_eq]⟩

end Stack.Lists

/-! ## Portraits and scenes -/

/-- What all contexts of a program have in common: the machine, and a local memory that none of them
uses. -/
structure Stage where
  machine : Machine Builtin
  localVM : Memory

/-- A context without the details. -/
structure Portrait where
  id : Nat
  state : ContextState
  waitingOn : Option Nat
  operands : List Object
  /-- The elements of its procedure that are still to be run, if it is to run any more. -/
  code : Option (List Object)
  /-- What a blocked operator has left on the execution stack. -/
  retry : List Object
  /-- Arguments of the operator that is running. -/
  held : List Object

/-- A session without the details. -/
structure Scene extends Portrait where
  scheduler : Scheduler
  text : String

/-- The elements of a procedure in global memory that are still to be run, and what is on the execution
stack for them.  A procedure without elements is there before it is run. -/
def Stage.Pends (σ : Stage) (code tail : List Object) : Prop :=
  ∃ p es, p.isProc = true ∧ p.bank = .globalVM ∧ σ.machine.globalVM.arrayElements p = .ok es ∧
    ((∃ k, code = es.drop k ∧ tail = p.after k) ∨ code = [] ∧ es = [] ∧ tail = [p])

/-- The context is the one that the portrait shows.  What is on the execution stack of a context that is to
run no more is of no interest. -/
structure Portrait.Depicts (σ : Stage) (p : Portrait) (c : Context) : Prop where
  id : c.id = p.id
  state : c.state = p.state
  waitingOn : c.waitingOn = p.waitingOn
  localVM : c.localVM = σ.localVM
  operands : c.stackSet.operands.Lists σ.machine.settings.operandStackLimit p.operands
  hold : c.stackSet.hold.Lists σ.machine.settings.operandStackLimit p.held
  exec : ∀ code, p.code = some code → ∃ tail, σ.Pends code tail ∧
    c.stackSet.exec.Lists σ.machine.settings.execStackLimit
      (Object.operator σ.machine.system.zombie :: tail ++ p.retry)

/-- The session is the one that the scene shows. -/
structure Scene.Depicts (σ : Stage) (v : Scene) (s : Session Builtin) : Prop where
  machine : s.toMachine = σ.machine
  scheduler : s.scheduler = v.scheduler
  output : s.output = ⟨v.text, true⟩
  context : v.toPortrait.Depicts σ s.context

namespace Scene

open Session (runTurn continued execute process releasingHold)

variable {σ : Stage} {v w w' : Scene} {Q Q' : Scene → Prop} {x : Action Builtin Unit} {n k : Nat}

/-- From every session of the scene, the action succeeds in one of the other scene. -/
def Does (σ : Stage) (x : Action Builtin Unit) (v w : Scene) : Prop :=
  ∀ s, v.Depicts σ s → ∃ t, x s = .ok () t ∧ w.Depicts σ t

/-- From every session of the scene, the action asks for a switch in a scene with the property. -/
def Yields (σ : Stage) (x : Action Builtin Unit) (v : Scene) (Q : Scene → Prop) : Prop :=
  ∀ s, v.Depicts σ s → ∃ t w, x s = .error .contextSwitch t ∧ w.Depicts σ t ∧ Q w

/-- From every session of the scene, a turn comes to one of the other scene within so many objects. -/
def Leads (σ : Stage) (n : Nat) (v w : Scene) : Prop :=
  ∀ s, v.Depicts σ s → ∃ k t, k ≤ n ∧ w.Depicts σ t ∧ ∀ budget, runTurn (k + budget) s = runTurn budget t

/-- From every session of the scene, a turn of so many objects ends with a switch in a scene with the
property. -/
def Switches (σ : Stage) (n : Nat) (v : Scene) (Q : Scene → Prop) : Prop :=
  ∀ s, v.Depicts σ s → ∃ t w, w.Depicts σ t ∧ Q w ∧ ∀ budget, n ≤ budget → runTurn budget s = (.switched, t)

/-! ## Composing -/

lemma Does.bind {f : Unit → Action Builtin Unit} (h : Does σ x v w) (hf : Does σ (f ()) w w') :
    Does σ (x >>= f) v w' := by
  intro s hs
  obtain ⟨t, hrun, ht⟩ := h s hs
  obtain ⟨u, hrun', hu⟩ := hf t ht
  exact ⟨u, (bind_ok hrun).trans hrun', hu⟩

lemma Leads.refl (σ : Stage) (v : Scene) : Leads σ 0 v v := fun s hs =>
  ⟨0, s, Nat.le_refl 0, hs, fun budget => by rw [Nat.zero_add]⟩

lemma Leads.trans (h : Leads σ n v w) (h' : Leads σ k w w') : Leads σ (n + k) v w' := by
  intro s hs
  obtain ⟨i, t, hi, ht, hrun⟩ := h s hs
  obtain ⟨j, u, hj, hu, hrun'⟩ := h' t ht
  exact ⟨i + j, u, Nat.add_le_add hi hj, hu, fun budget => by rw [Nat.add_assoc, hrun, hrun']⟩

lemma Leads.switches (h : Leads σ n v w) (h' : Switches σ k w Q) : Switches σ (n + k) v Q := by
  intro s hs
  obtain ⟨i, t, hi, ht, hrun⟩ := h s hs
  obtain ⟨u, w', hu, hQ, hrun'⟩ := h' t ht
  refine ⟨u, w', hu, hQ, fun budget hbudget => ?_⟩
  obtain ⟨rest, rfl⟩ := Nat.exists_eq_add_of_le (show i ≤ budget by omega)
  rw [hrun, hrun' rest (by omega)]

lemma Switches.mono (h : Switches σ n v Q) (hn : n ≤ k) (hQ : ∀ w, Q w → Q' w) : Switches σ k v Q' := by
  intro s hs
  obtain ⟨t, w, ht, hw, hrun⟩ := h s hs
  exact ⟨t, w, ht, hQ w hw, fun budget hbudget => hrun budget (Nat.le_trans hn hbudget)⟩

/-! ## The stacks of a session -/

lemma Depicts.setOperands {s : Session Builtin} (h : v.Depicts σ s) {operands : Stack}
    {items : List Object} (hlists : operands.Lists σ.machine.settings.operandStackLimit items) :
    Depicts σ { v with operands := items } (s.setOperands operands) where
  machine := h.machine
  scheduler := h.scheduler
  output := h.output
  context := { h.context with operands := hlists }

lemma Depicts.setHold {s : Session Builtin} (h : v.Depicts σ s) {hold : Stack} {items : List Object}
    (hlists : hold.Lists σ.machine.settings.operandStackLimit items) :
    Depicts σ { v with held := items } (s.setHold hold) where
  machine := h.machine
  scheduler := h.scheduler
  output := h.output
  context := { h.context with hold := hlists }

/-- An operand is pushed. -/
lemma does_push (obj : Object) (hroom : v.operands.length < σ.machine.settings.operandStackLimit) :
    Does σ (Session.push obj) v { v with operands := v.operands ++ [obj] } := by
  intro s hs
  obtain ⟨operands, hrun, hlists⟩ := hs.context.operands.push hroom obj
  exact ⟨s.setOperands operands, Session.onOperands_ok hrun, hs.setOperands hlists⟩

/-- The arguments of an operator that succeeds are dropped. -/
lemma Does.releasing (h : Does σ x v w) (hheld : w.held.length = n) :
    Does σ (releasingHold n x) v { w with held := [] } := by
  intro s hs
  obtain ⟨t, hrun, ht⟩ := h s hs
  obtain ⟨hold, hdrop, hlists⟩ := ht.context.hold.drop hheld.ge
  rw [hheld, Nat.sub_self, List.take_zero] at hlists
  refine ⟨t.setHold hold, ?_, ht.setHold hlists⟩
  rw [releasingHold, hrun]
  exact Session.onHold_ok hdrop

/-- So are those of one that asks for a switch. -/
lemma Yields.releasing (h : Yields σ x v Q)
    (hQ : ∀ w, Q w → w.held.length = n ∧ Q' { w with held := [] }) : Yields σ (releasingHold n x) v Q' := by
  intro s hs
  obtain ⟨t, w, hrun, ht, hw⟩ := h s hs
  obtain ⟨hheld, hw'⟩ := hQ w hw
  obtain ⟨hold, hdrop, hlists⟩ := ht.context.hold.drop hheld.ge
  rw [hheld, Nat.sub_self, List.take_zero] at hlists
  refine ⟨t.setHold hold, _, ?_, ht.setHold hlists, hw'⟩
  rw [releasingHold, hrun]
  have hcontrol : Fault.contextSwitch.isControl = true := rfl
  simp only [hcontrol, Bool.not_true, Bool.false_and, Bool.false_eq_true, if_false]
  rw [Session.onHold_ok hdrop]

/-! ## Elements of a procedure -/

/-- The procedure whose elements are still to come: the first of them is at `k`, and below it is nothing but the
operator at the bottom.  The procedure is gone after the last. -/
lemma Depicts.element {s : Session Builtin} (hs : v.Depicts σ s) (hretry : v.retry = []) {obj : Object}
    {rest : List Object} (hcode : v.code = some (obj :: rest)) :
    ∃ p k, p.isProc = true ∧ k < p.length.toNat ∧ (s.memory p.bank).arrayGet p k = .ok obj ∧
      (k + 1 < p.length.toNat → p.offset.toNat + (k + 1) * objectSize < wordBound) ∧
      s.context.stackSet.exec.Lists σ.machine.settings.execStackLimit
        ([Object.operator σ.machine.system.zombie] ++ p.after k) ∧
      (rest = [] → p.after (k + 1) = []) ∧
      ∀ exec : Stack, exec.Lists σ.machine.settings.execStackLimit
        ([Object.operator σ.machine.system.zombie] ++ p.after (k + 1)) →
          Depicts σ { v with code := some rest } (s.setExec exec) := by
  obtain ⟨tail, ⟨p, es, hproc, hbank, helements, hpends⟩, hlists⟩ := hs.context.exec _ hcode
  rcases hpends with ⟨k, hdrop, rfl⟩ | ⟨hnil, -⟩
  · have hlt : k < es.length := by
      by_contra hge
      rw [List.drop_eq_nil_of_le (Nat.le_of_not_lt hge)] at hdrop
      contradiction
    rw [List.drop_eq_getElem_cons hlt] at hdrop
    obtain ⟨rfl, rfl⟩ := List.cons.inj hdrop
    obtain ⟨hlength, hget⟩ := Memory.arrayGet_of_arrayElements helements
    have hmemory : s.memory p.bank = σ.machine.globalVM := by
      rw [hbank, ← hs.machine]
      rfl
    have hnone : v.retry = [] := hretry
    rw [hnone, List.append_nil] at hlists
    refine ⟨p, k, hproc, hlength ▸ hlt, ?_, fun hlater => ?_, hlists, fun hlast => ?_, fun exec hexec => ?_⟩
    · rw [hmemory]
      exact hget k _ (List.getElem?_eq_getElem hlt)
    · exact Memory.offset_lt_of_arrayGet (hget (k + 1) _ (List.getElem?_eq_getElem (hlength ▸ hlater)))
    · exact Object.after_of_le (hlength ▸ List.drop_eq_nil_iff.mp hlast)
    · refine ⟨hs.machine, hs.scheduler, hs.output, { hs.context with exec := fun code hrest => ?_ }⟩
      obtain rfl := Option.some.inj hrest
      refine ⟨p.after (k + 1), ⟨p, es, hproc, hbank, helements, .inl ⟨k + 1, rfl, rfl⟩⟩, ?_⟩
      rw [hnone, List.append_nil]
      exact hexec
  · contradiction

/-- The first element that is still to come is run on a stack with the rest of them. -/
lemma element_run (hexec : 3 ≤ σ.machine.settings.execStackLimit) (hretry : v.retry = []) {obj : Object}
    {rest : List Object} (hcode : v.code = some (obj :: rest)) {s : Session Builtin} (hs : v.Depicts σ s) :
    ∃ u, Depicts σ { v with code := some rest } u ∧
      ∀ budget, runTurn (obj.elementCost + budget) s = continued budget (process obj u) := by
  obtain ⟨p, k, hproc, hlt, hget, hlater, hlists, -, hgoes⟩ := hs.element hretry hcode
  obtain ⟨u, hu, hstep⟩ := Session.runTurn_element hproc hlt hget hlater hlists.wellFormed hlists.toList_eq
    (by rw [hlists.limit_eq]; exact hexec)
  refine ⟨u, ?_, hstep⟩
  rw [hu.same]
  exact hgoes _ ⟨hu.wellFormed, hu.limit.trans hlists.limit_eq, hu.items⟩

/-- **Data in a procedure** becomes an operand. -/
lemma leads_data (hexec : 3 ≤ σ.machine.settings.execStackLimit) (hretry : v.retry = [])
    {obj : Object} {rest : List Object} (hcode : v.code = some (obj :: rest))
    (hdata : obj.isData = true) (hroom : v.operands.length < σ.machine.settings.operandStackLimit) :
    Leads σ 1 v { v with operands := v.operands ++ [obj], code := some rest } := by
  intro s hs
  obtain ⟨u, hu, hstep⟩ := element_run hexec hretry hcode hs
  obtain ⟨t, hpush, ht⟩ := does_push (v := { v with code := some rest }) obj hroom u hu
  refine ⟨1, t, Nat.le_refl 1, ht, fun budget => ?_⟩
  have hcost : obj.elementCost = 1 := by rw [Object.elementCost, if_pos hdata]
  rw [← hcost, hstep, process, if_pos hdata, hpush]
  rfl

/-- **A word in a procedure** is executed. -/
lemma leads_word (hexec : 3 ≤ σ.machine.settings.execStackLimit) (hretry : v.retry = [])
    {obj : Object} {rest : List Object} (hcode : v.code = some (obj :: rest))
    (hword : obj.isData = false) (h : Does σ (execute obj) { v with code := some rest } w) : Leads σ 2 v w := by
  intro s hs
  obtain ⟨u, hu, hstep⟩ := element_run hexec hretry hcode hs
  obtain ⟨t, hexecute, ht⟩ := h u hu
  refine ⟨2, t, Nat.le_refl 2, ht, fun budget => ?_⟩
  have hcost : obj.elementCost = 2 := by rw [Object.elementCost, hword]; rfl
  rw [← hcost, hstep, process, hword, if_neg Bool.false_ne_true, hexecute]
  rfl

/-- A word that asks for a switch ends the turn. -/
lemma switches_word (hexec : 3 ≤ σ.machine.settings.execStackLimit) (hretry : v.retry = [])
    {obj : Object} {rest : List Object} (hcode : v.code = some (obj :: rest))
    (hword : obj.isData = false) (h : Yields σ (execute obj) { v with code := some rest } Q) :
    Switches σ 2 v Q := by
  intro s hs
  obtain ⟨u, hu, hstep⟩ := element_run hexec hretry hcode hs
  obtain ⟨t, w, hexecute, ht, hw⟩ := h u hu
  refine ⟨t, w, ht, hw, fun budget hbudget => ?_⟩
  have hcost : obj.elementCost = 2 := by rw [Object.elementCost, hword]; rfl
  obtain ⟨rest, rfl⟩ := Nat.exists_eq_add_of_le hbudget
  rw [← hcost, hstep, process, hword, if_neg Bool.false_ne_true, hexecute]
  rfl

end Scene

end PostScriptCore
