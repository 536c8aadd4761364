import PostScriptCore.Proofs.Machine.Contexts
import PostScriptCore.Proofs.Machine.Sentinels

/-!
# A context that detaches itself

A procedure may have the handle of its own context and the word for `detach` for its last elements.  The
context then comes to the operator at the bottom in the same turn, and this is the one that frees it.

* `Session.Advances` — one object of a turn, which does not end the context.
* `Scene.advances_data`, `Scene.advances_last` — the elements of a procedure, one object at a time.
* `Scene.execute_detach` — the word for `detach` on the handle of the running context.
* `Scene.frees_itself` — the whole turn.
-/

namespace PostScriptCore

namespace Session

variable {s t u : Session Builtin} {obj : Object} {native : Builtin} {args : List Object}

/-- The next object of the turn is executed with success and does not end the context. -/
def Advances (s t : Session Builtin) : Prop :=
  ∃ obj v, s.nextObject? = some (obj, v) ∧ v.sparesContext obj = true ∧ execute obj v = .ok () t

namespace Advances

lemma runTurn_eq (h : s.Advances t) (budget : Nat) : runTurn (budget + 1) s = runTurn budget t := by
  obtain ⟨obj, v, hnext, -, hrun⟩ := h
  rw [runTurn_succ hnext, hrun]
  rfl

lemma refrains_eq (h : s.Advances t) (budget : Nat) : refrains (budget + 1) s = refrains budget t := by
  obtain ⟨obj, v, hnext, hspares, hrun⟩ := h
  simp [refrains, hnext, hrun, hspares]

lemma performsWithin {n : Nat} (h : s.Advances t) (hperforms : t.PerformsWithin n native args u) :
    s.PerformsWithin (n + 1) native args u := by
  obtain ⟨obj, v, hnext, -, hrun⟩ := h
  exact (performsWithin_succ hnext).mpr (.inr ⟨t, hrun, hperforms⟩)

end Advances

/-- A procedure ends no context. -/
lemma sparesContext_proc (hproc : obj.isProc = true) : s.sparesContext obj = true := by
  have hdata : obj.isData = true := by rw [Object.isData, hproc, Bool.true_or]
  simp [sparesContext, called?, dispatched?_of_isData hdata]

/-- An object that detaches does not end the context. -/
lemma DetachesItself.sparesContext (h : s.DetachesItself obj) : s.sparesContext obj = true := by
  obtain ⟨-, _, _, hperforms, -⟩ := h
  rw [Session.sparesContext, hperforms.1.called?_eq]
  rfl

end Session

namespace Scene

open Session (runTurn execute refrains)

variable {σ : Stage} {v : Scene} {s : Session Builtin} {obj word : Object} {rest : List Object}

/-! ## Elements, one object at a time -/

/-- Data that is next in a procedure becomes an operand. -/
lemma advances_data (hexec : 2 ≤ σ.machine.settings.execStackLimit) (hretry : v.retry = [])
    (hcode : v.code = some (obj :: rest)) (hdata : obj.isData = true)
    (hroom : v.operands.length < σ.machine.settings.operandStackLimit) (hs : v.Depicts σ s) :
    ∃ t, s.Advances t ∧ Depicts σ { v with operands := v.operands ++ [obj], code := some rest } t := by
  obtain ⟨p, k, hproc, hlt, hget, hlater, hlists, -, hgoes⟩ := hs.element hretry hcode
  obtain ⟨view, exec, exec', hview, hnext, hwf, hlimit, hlist, hexecute⟩ := Session.nextObject?_view hproc hlt
    hget hlater hlists.wellFormed hlists.toList_eq (by rw [hlists.limit_eq]; exact hexec)
  obtain ⟨t, hpush, ht⟩ := does_push (v := { v with code := some rest }) obj hroom _
    (hgoes exec' ⟨hwf, hlimit.trans hlists.limit_eq, hlist⟩)
  rw [if_pos hdata, hpush] at hexecute
  exact ⟨t, ⟨view, _, hnext, Session.sparesContext_proc hview, hexecute⟩, ht⟩

/-- A word that is last in a procedure is next in the turn after one object, and then nothing is left of the
procedure. -/
lemma advances_last (hexec : 2 ≤ σ.machine.settings.execStackLimit) (hretry : v.retry = [])
    (hcode : v.code = some [word]) (hword : word.isData = false) (hs : v.Depicts σ s) :
    ∃ t u, s.Advances t ∧ t.nextObject? = some (word, u) ∧ Depicts σ { v with code := some [] } u ∧
      u.context.stackSet.exec.Lists σ.machine.settings.execStackLimit
        [Object.operator σ.machine.system.zombie] := by
  obtain ⟨p, k, hproc, hlt, hget, hlater, hlists, hlast, hgoes⟩ := hs.element hretry hcode
  rw [hlast rfl] at hgoes
  obtain ⟨view, exec, exec', hview, hnext, hwf, hlimit, hlist, hexecute⟩ := Session.nextObject?_view hproc hlt
    hget hlater hlists.wellFormed hlists.toList_eq (by rw [hlists.limit_eq]; exact hexec)
  rw [hlast rfl] at hlist
  have hcount : exec'.count < exec'.limit := by
    rw [← Stack.length_toList, hlist, hlimit, hlists.limit_eq]
    exact hexec
  obtain ⟨above, exec'', hschedule, hnext', hwf', hlimit', hlist'⟩ :=
    Session.nextObject?_scheduled hwf hcount s word
  rw [hword, if_neg Bool.false_ne_true, hschedule] at hexecute
  have hlists' : exec''.Lists σ.machine.settings.execStackLimit [Object.operator σ.machine.system.zombie] :=
    ⟨hwf', (hlimit'.trans hlimit).trans hlists.limit_eq, hlist'.trans hlist⟩
  exact ⟨_, _, ⟨view, _, hnext, Session.sparesContext_proc hview, hexecute⟩, hnext', hgoes exec'' hlists', hlists'⟩

/-! ## Detaching -/

/-- **The word for `detach`** on the handle of the running context exchanges the bottom. -/
lemma execute_detach (hends : σ.machine.EndsContexts)
    (hword : σ.Calls word ⟨[.type .context], 0, .detach⟩) (hid : v.id < wordBound) (hstate : v.state = .run)
    (hcode : v.code = some rest) (hheld : v.held = []) {below above : List Object}
    (hoperands : v.operands = below ++ [Object.context v.id]) (hs : v.Depicts σ s)
    (hexec : s.context.stackSet.exec.WellFormed)
    (hitems : s.context.stackSet.exec.toList = Object.operator s.system.zombie :: above) :
    s.DetachesItself word ∧ s.sparesContext word = true ∧ ∃ t, execute word s = .ok () t ∧
      t.toMachine = σ.machine ∧ t.context.stackSet.operands.WellFormed ∧ t.context.stackSet.hold.WellFormed ∧
      t.context.stackSet.exec.WellFormed ∧
      t.context.stackSet.exec.toList = Object.operator s.system.free :: above := by
  have hcount := hs.context.operands.wellFormed.count_le
  rw [hs.context.operands.limit_eq, hs.context.operands.count_eq, hoperands, List.length_append] at hcount
  have htakes : σ.Takes ⟨[.type .context], 0, .detach⟩ below [Object.context v.id] :=
    ⟨rfl, rfl, Nat.le_of_add_right_le hcount⟩
  obtain ⟨u, hu, hcall⟩ := call_run hword below [Object.context v.id] htakes hheld hoperands hs
  have hsystem : u.system = s.system := congrArg Machine.system (hu.machine.trans hs.machine.symm)
  have hself : (Object.context v.id).asContext? = some u.context.id :=
    (asContext?_context hid).trans (congrArg some hu.context.id.symm)
  have hactive : u.context.state.isActive = true := by
    rw [hu.context.state, show _ = ContextState.run from hstate]
    rfl
  obtain ⟨tail, -, hlists⟩ := hu.context.exec rest hcode
  obtain ⟨exec, hwf, hlist, hdetach⟩ := Action.detach_itself hself hactive hlists.wellFormed
    (hlists.toList_eq.trans (by rw [← hu.machine]; rfl))
  have hargs : u.context.stackSet.hold.toList = [] ++ [Object.context v.id] := hu.context.hold.toList_eq
  obtain ⟨hold, hhold, -, -, hreleased⟩ :=
    Session.releasingHold_ok hdetach hu.context.hold.wellFormed hargs (List.length_singleton ..)
  have hrun : execute word s = .ok () ((u.setExec exec).setHold hold) := hcall.trans hreleased
  have hproc : word.isProc = false := Object.isProc_of_not_isData (Bool.eq_false_iff.mp hword.1)
  have hafter : ((u.setExec exec).setHold hold).context.stackSet.exec.toList =
      Object.operator s.system.free :: (tail ++ v.retry) := hsystem ▸ hlist
  have hexchanges := Session.exchanges_execute hproc hexec hrun
  rw [hitems, hafter] at hexchanges
  obtain ⟨-, start, run, hcloses⟩ := hs.machine ▸ hends
  obtain ⟨hdetaches, hsame⟩ := hexchanges.detached_of_bottom hcloses.operator_ne
  rw [hsame] at hafter
  exact ⟨hdetaches, hdetaches.sparesContext, _, hrun, hu.machine, hu.context.operands.wellFormed, hhold, hwf,
    hafter⟩

/-- **A context that detaches itself** comes to the operator at the bottom that frees it. -/
lemma frees_itself (hends : σ.machine.EndsContexts)
    (hword : σ.Calls word ⟨[.type .context], 0, .detach⟩) (hexec : 2 ≤ σ.machine.settings.execStackLimit)
    (hid : v.id < wordBound) (hstate : v.state = .run) (hheld : v.held = []) (hretry : v.retry = [])
    (hcode : v.code = some [Object.context v.id, word])
    (hroom : v.operands.length < σ.machine.settings.operandStackLimit) (hs : v.Depicts σ s) :
    refrains 4 s = true ∧ Performed.Detaches (s.PerformsWithin 4) v.id ∧
      ∃ t, runTurn 4 s = (.switched, t) ∧ t.context.state = .free := by
  obtain ⟨s₁, hfirst, hs₁⟩ := advances_data hexec hretry hcode rfl hroom hs
  let loaded : Scene := { v with operands := v.operands ++ [Object.context v.id], code := some [word] }
  obtain ⟨s₂, u, hsecond, hnext, hu, hlists⟩ := advances_last (v := loaded) hexec hretry rfl hword.1 hs₁
  have hbottom : u.context.stackSet.exec.toList = [Object.operator u.system.zombie] :=
    hlists.toList_eq.trans (by rw [← hu.machine])
  obtain ⟨⟨-, hdetaches⟩, hspares, s₃, hrun, hmachine, hoperands, hhold, hwf, hlist⟩ :=
    execute_detach (v := { loaded with code := some [] }) hends hword hid hstate rfl hheld rfl hu
      hlists.wellFormed hbottom
  have hthird : s₂.Advances s₃ := ⟨word, u, hnext, hspares, hrun⟩
  rw [show u.system = s₃.system from congrArg Machine.system (hu.machine.trans hmachine.symm)] at hlist
  obtain ⟨exec, hempty, hfree⟩ := nextObject?_lists [] ⟨hwf, rfl, hlist⟩
  obtain ⟨t, hexecute, -, -, hfinal⟩ := Session.execute_sentinel (s := s₃.setExec exec)
    (hmachine ▸ hends) hoperands hhold True
  rw [SystemOperators.sentinel, if_pos trivial] at hexecute
  rw [ContextState.final, if_pos trivial] at hfinal
  replace hexecute : execute (Object.operator s₃.system.free) (s₃.setExec exec) = .error .contextSwitch t := hexecute
  refine ⟨?_, ?_, t, ?_, hfinal⟩
  · rw [hfirst.refrains_eq, hsecond.refrains_eq, hthird.refrains_eq]
    have hnone : (s₃.setExec exec).context.stackSet.exec.count = 0 := hempty.count_eq
    simp [refrains, hfree, hexecute, hnone]
  · obtain ⟨handle, w, hperforms, hnames⟩ := hdetaches
    refine ⟨handle, w, ?_, hnames.trans (congrArg some hu.context.id)⟩
    exact hfirst.performsWithin (hsecond.performsWithin ((Session.performsWithin_succ hnext).mpr (.inl hperforms)))
  · rw [hfirst.runTurn_eq, hsecond.runTurn_eq, hthird.runTurn_eq, Session.runTurn_succ hfree]
    exact congrArg (Session.continued 0) hexecute

end Scene

end PostScriptCore
