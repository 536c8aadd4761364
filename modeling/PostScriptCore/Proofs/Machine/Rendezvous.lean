import PostScriptCore.Proofs.Builtin.Delivery
import PostScriptCore.Proofs.Builtin.Forking
import PostScriptCore.Proofs.Machine.Permanence
import PostScriptCore.Proofs.Machine.Retirement

/-!
# Fork and join

The operands of a context reach whoever joins it, once, and it does not matter whether the join
comes before or after the context has finished: a join that comes too early is put back on the
caller's execution stack, other contexts take their turns, and when the caller has its next one it
meets the same operands with the same stacks and memory.

* `Session.joinOutcome`, `Session.outcome_dispatch_join` — what joining a finished context comes to.
* `Session.PutAside`, `Session.dispatch_early_join` — a join that comes too early.
* `World.Awaits`, `World.Spares` — what happens while the caller waits, and what that leaves alone.
* `Session.Retries`, `Session.exists_retries` — how the caller comes back to its join.
* `Session.fork_join_delivery` — the three contracts together.
-/

namespace PostScriptCore

/-! ## The outcome of a join -/

namespace Session

variable {ν α : Type} {s t : Session ν} {opcode : Nat} {below : List Object} {handle : Object}
  {target : Context}

/-- What the caller sees of an action: the fault if it fails, and its operands afterwards. -/
def outcome (x : Action ν α) (s : Session ν) : Option Fault × List Object :=
  match x s with
  | .ok _ t => (none, t.context.stackSet.operands.toList)
  | .error fault t => (some fault, t.context.stackSet.operands.toList)

lemma outcome_of_ok {x : Action ν α} {a : α} (h : x s = .ok a t) :
    outcome x s = (none, t.context.stackSet.operands.toList) := by
  rw [outcome, h]

lemma outcome_of_error {x : Action ν α} {fault : Fault} (h : x s = .error fault t) :
    outcome x s = (some fault, t.context.stackSet.operands.toList) := by
  rw [outcome, h]

instance : Decidable s.HasRoom := inferInstanceAs (Decidable (_ < _))

instance (count : Nat) : Decidable (s.FitsAbove count target) := inferInstanceAs (Decidable (_ ≤ _))

/-- The outcome of joining a finished context, from the caller's room and what can be copied. -/
def joinOutcome (s : Session ν) (below : List Object) (handle : Object) (target : Context) :
    Option Fault × List Object :=
  if s.HasRoom then
    if s.FitsAbove below.length target then
      match s.deliveries target with
      | .ok images _ => (none, below ++ Object.mark :: images)
      | .error fault _ => (some fault, below ++ Object.mark :: s.delivered target)
    else (some .stackOverflow, below)
  else (some .limitCheck, below ++ [handle])

lemma outcome_dispatch_join [NativeSet ν] (h : s.ReadyToJoin opcode below handle target) :
    outcome (dispatch opcode) s = s.joinOutcome below handle target := by
  have hends := ends_dispatch_join h
  rw [Ends] at hends
  cases hrun : dispatch opcode s with
  | ok a t =>
      rw [hrun] at hends
      obtain ⟨hroom, hfits, images, q, hcopy, -, hlist, -⟩ := hends
      rw [outcome_of_ok hrun, joinOutcome, if_pos hroom, if_pos hfits, hcopy, hlist]
  | error fault t =>
      rw [hrun] at hends
      rw [outcome_of_error hrun, joinOutcome]
      rcases hends with ⟨hroom, rfl, rfl⟩ | ⟨hroom, hfits, rfl, hfails⟩ |
        ⟨hroom, hfits, ⟨q, hcopy⟩, hfails⟩
      · rw [if_neg hroom, ← h.top]
        rfl
      · rw [if_pos hroom, if_neg hfits, hfails.operands]
      · rw [if_pos hroom, if_pos hfits, hcopy, hfails.operands]

/-- The outcome depends on the caller's memory and on the room on its stacks. -/
lemma joinOutcome_congr (hroom : s.HasRoom ↔ t.HasRoom)
    (hlimit : s.context.stackSet.operands.limit = t.context.stackSet.operands.limit)
    (hmemory : s.context.localVM = t.context.localVM) (below : List Object) (handle : Object)
    (target : Context) : s.joinOutcome below handle target = t.joinOutcome below handle target := by
  have hfits : s.FitsAbove below.length target ↔ t.FitsAbove below.length target := by
    rw [FitsAbove, FitsAbove, hlimit]
  have hdeliveries : s.deliveries target = t.deliveries target := by
    rw [deliveries, deliveries, hmemory]
  have hdelivered : s.delivered target = t.delivered target := by
    rw [delivered, delivered, hmemory]
  by_cases hroom' : t.HasRoom
  · by_cases hfits' : t.FitsAbove below.length target
    · rw [joinOutcome, joinOutcome, if_pos hroom', if_pos (hroom.mpr hroom'), if_pos hfits',
        if_pos (hfits.mpr hfits'), hdeliveries, hdelivered]
    · rw [joinOutcome, joinOutcome, if_pos hroom', if_pos (hroom.mpr hroom'), if_neg hfits',
        if_neg (mt hfits.mp hfits')]
  · rw [joinOutcome, joinOutcome, if_neg hroom', if_neg (mt hroom.mp hroom')]

end Session

/-! ## A join that comes too early -/

/-- The second context is the first with `below` left of its operands and `retry` to be executed;
its memory and the room on its stacks are the same. -/
structure Context.Suspended (c : Context) (below retry : List Object) (d : Context) : Prop where
  localVM : d.localVM = c.localVM
  operands_wf : d.stackSet.operands.WellFormed
  below : d.stackSet.operands.toList = below
  limit : d.stackSet.operands.limit = c.stackSet.operands.limit
  hold_wf : d.stackSet.hold.WellFormed
  hold : d.stackSet.hold.toList = c.stackSet.hold.toList
  hold_limit : d.stackSet.hold.limit = c.stackSet.hold.limit
  exec_wf : d.stackSet.exec.WellFormed
  retry : ∃ base, d.stackSet.exec.toList = base ++ retry

namespace Session

variable {ν : Type} {s t : Session ν} {below : List Object} {handle : Object} {target : Context}

/-- The machine can run `join` from the execution stack, and no collection changes that. -/
structure KeepsJoin [NativeSet ν] (s : Session ν) : Prop where
  offered : s.Offers s.system.join (.type .context) 0 .join
  permanent : s.operators.IsPermanent s.globalVM s.system.join
  sound : s.globalVM.Sound
  tidy : s.globalVM.Tidy
  /-- The opcode fits into an object. -/
  opcode : (Object.operator s.system.join).value.toNat = s.system.join
  /-- It is not the operator that detaching a context looks for and exchanges. -/
  ends_none : Object.operator s.system.join ≠ Object.operator s.system.zombie

/-- `join` is about to be dispatched on the handle of a context that can run or waits, and there is
room to try again. -/
structure ReadyToWait [NativeSet ν] (s : Session ν) (below : List Object) (handle : Object)
    (target : Context) : Prop extends KeepsJoin s where
  operands : s.context.stackSet.operands.WellFormed
  exec : s.context.stackSet.exec.WellFormed
  hold : s.context.stackSet.hold.WellFormed
  top : s.context.stackSet.operands.toList = below ++ [handle]
  names : handle.asContext? = some target.id
  found : s.scheduler.find? target.id = some target
  active : target.state.isActive = true
  space : s.context.stackSet.exec.count + 2 ≤ s.context.stackSet.exec.limit

/-- The caller is put aside, and everything else is as it was. -/
structure PutAside (s : Session ν) (below : List Object) (handle : Object) (t : Session ν) :
    Prop where
  world : t.toWorld = s.toWorld
  id_eq : t.context.id = s.context.id
  waits : t.context.state = .wait
  suspended : s.context.Suspended below [Object.operator s.system.join, handle] t.context

/-- Waiting puts the join and the handle on the execution stack. -/
lemma waitFor_run (hexec : s.context.stackSet.exec.WellFormed)
    (hspace : s.context.stackSet.exec.count + 2 ≤ s.context.stackSet.exec.limit) (id : Nat)
    (handle : Object) :
    ∃ exec, exec.WellFormed ∧ exec.toList =
        s.context.stackSet.exec.toList ++ [Object.operator s.system.join, handle] ∧
      exec.limit = s.context.stackSet.exec.limit ∧
      Action.waitFor id handle s = .error .contextSwitch { s.setExec exec with
        context := { (s.setExec exec).context with state := .wait, waitingOn := some id } } := by
  obtain ⟨exec, hpush, hwf, hlist, hlimit⟩ :=
    Stack.push_run hexec (by omega) (Object.operator s.system.join)
  have hcount := Stack.count_of_concat hlist
  obtain ⟨exec', hpush', hwf', hlist', hlimit'⟩ := Stack.push_run hwf (by omega) handle
  refine ⟨exec', hwf', ?_, hlimit'.trans hlimit, ?_⟩
  · rw [hlist', hlist, List.append_assoc]
    rfl
  · refine (bind_ok (t := s) rfl).trans ((bind_ok (onExec_ok hpush)).trans ?_)
    exact bind_ok (onExec_ok (s := s.setExec exec) hpush')

/-- **A join that comes too early** puts the caller aside, if there is room to hold the handle. -/
lemma dispatch_early_join [NativeSet ν] (h : s.ReadyToWait below handle target) :
    (¬ s.HasRoom → dispatch s.system.join s = .error .limitCheck s.cleared) ∧
    (s.HasRoom → ∃ t, dispatch s.system.join s = .error .contextSwitch t ∧
      s.PutAside below handle t) := by
  obtain ⟨hfull, hruns⟩ := dispatch_offered h.offered nofun (Nat.zero_le 1)
    (accepts_of_names h.names) h.operands h.hold h.top
  refine ⟨hfull, fun hroom => ?_⟩
  obtain ⟨operands, hold, hmoved, hdispatch⟩ := hruns hroom
  obtain ⟨exec, hexec, hretry, -, hwait⟩ :=
    waitFor_run (s := s.holding s.system.join operands hold) h.exec h.space target.id handle
  have hjoin : Builtin.join.run [handle] (s.holding s.system.join operands hold) =
      Action.waitFor target.id handle (s.holding s.system.join operands hold) := by
    show Action.join handle _ = _
    rw [Action.join, h.names]
    refine (bind_ok (t := s.holding s.system.join operands hold) rfl).trans ?_
    have hfound : (s.holding s.system.join operands hold).scheduler.find? target.id =
        some target := h.found
    have hactive := h.active
    cases hstate : target.state with
    | run | wait => simp only [hfound, hstate]
    | zombie | free =>
        rw [hstate] at hactive
        contradiction
  obtain ⟨hold', hwf, hheld, hlimit, hrelease⟩ :=
    releasingHold_dropped (hjoin.trans hwait) (.inl rfl) hmoved.hold_wf hmoved.held
      List.length_singleton
  rw [hdispatch, hrelease]
  exact ⟨_, rfl, rfl, rfl, rfl, rfl, hmoved.operands_wf, hmoved.below, hmoved.limit, hwf, hheld,
    hlimit.trans hmoved.hold_limit, hexec, _, hretry⟩

end Session

/-! ## While others have their turns -/

namespace World

variable {v w w' : World Builtin} {c : Context}

/-- What can happen while the context with the number has no turn: a context is spawned, or another
one has its turn. -/
inductive PassesBy (id : Nat) (w : World Builtin) : World Builtin → Prop
  | spawn (program : Object) : PassesBy id w (finalState (World.spawn program) w)
  | turn (budget : Nat) (hother : ∀ s, w.nextSession? = some s → s.context.id ≠ id) :
    PassesBy id w (finalState (runNext budget) w)

/-- Any of this, any number of times. -/
def Awaits (id : Nat) : World Builtin → World Builtin → Prop := Relation.ReflTransGen (PassesBy id)

/-- The machine still offers its operators, and an active context was left alone. -/
structure Spares (v : World Builtin) (c : Context) (w : World Builtin) : Prop where
  orderly : w.scheduler.Orderly
  operators : w.operators = v.operators
  system : w.system = v.system
  globalVM : v.globalVM.Collections w.globalVM
  found : ∃ c', w.scheduler.find? c.id = some c' ∧ c.Undisturbed v.system c'

/-- **One step of others** spares the context. -/
lemma PassesBy.spares (hstep : PassesBy c.id w w') (h : v.Spares c w)
    (hactive : c.state.isActive = true) : v.Spares c w' := by
  obtain ⟨c', hfind, hc'⟩ := h.found
  cases hstep with
  | spawn program =>
      have horderly := (orderly_spawn h.orderly program).1
      rcases spawn_cases program w with hspawn | ⟨child, hid, -, -, hspawn⟩
      · rw [hspawn] at horderly ⊢
        exact ⟨horderly, h.operators, h.system, h.globalVM, c', hfind, hc'⟩
      · rw [hspawn] at horderly ⊢
        have hlt := h.orderly.ids_lt c' (Scheduler.mem_of_find? hfind)
        have hne : c.id ≠ child.id := by
          rw [hid, ← Scheduler.id_of_find? hfind]
          exact Nat.ne_of_lt hlt
        refine ⟨horderly, h.operators, h.system, h.globalVM, c', ?_, hc'⟩
        exact (Scheduler.find?_adopt _ child c.id).trans ((if_neg hne).trans hfind)
  | turn budget hother =>
      rcases nextSession?_cases h.orderly.toRegistered budget with
        ⟨s, hnext, hopens, hrun⟩ | ⟨-, queue, hperm, hrun⟩
      · have hsame := (Session.evolves_runTurn budget hopens.running).sameMachine
        have hmachine := hopens.machine
        obtain ⟨c'', hfind', hc''⟩ := hopens.undisturbed hfind (by rw [hc'.state]; exact hactive)
          (hother s hnext).symm budget (Session.runTurn budget s).1
        rw [h.system] at hc''
        rw [finalState_of_ok hrun]
        refine ⟨hopens.orderly_endTurn budget _, ?_, ?_, ?_, c'', hfind', hc'.trans hc''⟩
        · exact hsame.operators.trans ((congrArg Machine.operators hmachine).trans h.operators)
        · exact hsame.system.trans ((congrArg Machine.system hmachine).trans h.system)
        · exact h.globalVM.trans (congrArg Machine.globalVM hmachine ▸ hsame.globalVM)
      · rw [hrun]
        exact ⟨⟨h.orderly.toRegistered.turned hperm, h.orderly.not_free⟩, h.operators, h.system,
          h.globalVM, c', hfind, hc'⟩

/-- **However long it waits**, a context is spared. -/
lemma Awaits.spares (hsteps : Awaits c.id v w) (horderly : v.scheduler.Orderly)
    (hfind : v.scheduler.find? c.id = some c) (hactive : c.state.isActive = true) :
    v.Spares c w := by
  induction hsteps with
  | refl => exact ⟨horderly, rfl, rfl, .refl _, c, hfind, .refl c⟩
  | tail _ hstep ih => exact hstep.spares ih hactive

end World

/-! ## The second attempt -/

/-- Whatever others do, the context stays as it was suspended. -/
lemma Context.Suspended.undisturbed {system : SystemOperators} {c d d' : Context}
    {below : List Object} {first : Object} {rest : List Object}
    (h : c.Suspended below (first :: rest) d) (hd : d.Undisturbed system d')
    (hfirst : first ≠ Object.operator system.zombie) : c.Suspended below (first :: rest) d' := by
  obtain ⟨base, hlist⟩ := h.retry
  obtain ⟨hexec, hcases⟩ := hd.exec h.exec_wf
  have hretry : ∃ base', d'.stackSet.exec.toList = base' ++ first :: rest := by
    rcases hcases with hsame | ⟨above, hbefore, hafter⟩
    · exact ⟨base, hsame.trans hlist⟩
    · rw [hlist] at hbefore
      cases base with
      | nil => exact absurd (List.cons.inj hbefore).1 hfirst
      | cons bottom base =>
          obtain ⟨-, rfl⟩ := List.cons.inj hbefore
          exact ⟨Object.operator system.free :: base, hafter⟩
  have hoperands : d'.stackSet.operands = d.stackSet.operands := by rw [hd.same]
  have hhold : d'.stackSet.hold = d.stackSet.hold := by rw [hd.same]
  have hlocalVM : d'.localVM = d.localVM := by rw [hd.same]
  exact ⟨hlocalVM.trans h.localVM, hoperands ▸ h.operands_wf, hoperands ▸ h.below,
    hoperands ▸ h.limit, hhold ▸ h.hold_wf, hhold ▸ h.hold, hhold ▸ h.hold_limit, hexec, hretry⟩

namespace Session

variable {ν : Type} {s : Session ν} {handle : Object}

lemma nextObject?_run (h : s.context.stackSet.exec.WellFormed) {base : List Object} {obj : Object}
    (hlist : s.context.stackSet.exec.toList = base ++ [obj]) :
    ∃ exec, exec.WellFormed ∧ exec.toList = base ∧ exec.limit = s.context.stackSet.exec.limit ∧
      s.nextObject? = some (obj, s.setExec exec) := by
  obtain ⟨exec, hpop, hwf, hbase, hlimit⟩ := Stack.pop?_run h hlist
  refine ⟨exec, hwf, hbase, hlimit, ?_⟩
  rw [nextObject?, hpop]
  rfl

/-- Executing a handle puts it on the operand stack. -/
lemma execute_handle [NativeSet ν] {id : Nat} (hnames : handle.asContext? = some id) :
    execute handle s = push handle s := by
  have hty : handle.ty = .context := beq_iff_eq.mp (accepts_of_names hnames)
  rw [execute, hty]
  split <;> rfl

/-- The session with another object being executed. -/
def setCurrent (s : Session ν) (current : Object) : Session ν :=
  { s with context := { s.context with current } }

/-- Executing an operator dispatches it as the current object. -/
lemma execute_operator [NativeSet ν] {opcode : Nat}
    (h : (Object.operator opcode).value.toNat = opcode) :
    execute (Object.operator opcode) s =
      dispatch opcode (s.setCurrent (Object.operator opcode)) := by
  show runOperator (Object.operator opcode) (Object.operator opcode).value.toNat s = _
  rw [h]
  rfl

/-- The session executes the handle and is then about to execute the join. -/
def Retries [NativeSet ν] (s : Session ν) (handle : Object) (u : Session ν) : Prop :=
  ∃ t₁ t₂, s.nextObject? = some (handle, t₁) ∧ execute handle t₁ = .ok () t₂ ∧
    t₂.nextObject? = some (Object.operator s.system.join, u)

/-- A session that was put aside comes back to its join. -/
lemma exists_retries [NativeSet ν] {id : Nat} (hnames : handle.asContext? = some id)
    (hoperands : s.context.stackSet.operands.WellFormed)
    (hroom : s.context.stackSet.operands.count < s.context.stackSet.operands.limit)
    (hexec : s.context.stackSet.exec.WellFormed) {base : List Object}
    (hlist : s.context.stackSet.exec.toList = base ++ [Object.operator s.system.join, handle]) :
    ∃ operands exec, operands.WellFormed ∧
      operands.toList = s.context.stackSet.operands.toList ++ [handle] ∧
      operands.limit = s.context.stackSet.operands.limit ∧
      s.Retries handle ((s.setOperands operands).setExec exec) := by
  have hlast : s.context.stackSet.exec.toList =
      (base ++ [Object.operator s.system.join]) ++ [handle] := by
    rw [hlist, List.append_assoc]
    rfl
  obtain ⟨exec, hwf, hbase, -, hnext⟩ := nextObject?_run hexec hlast
  obtain ⟨operands, hpush, hwf', hpushed, hlimit⟩ := Stack.push_run hoperands hroom handle
  obtain ⟨exec', -, -, -, hnext'⟩ :=
    nextObject?_run (s := (s.setExec exec).setOperands operands) hwf hbase
  refine ⟨operands, exec', hwf', hpushed, hlimit, _, _, hnext, ?_, hnext'⟩
  rw [execute_handle hnames]
  exact onOperands_ok (s := s.setExec exec) hpush

end Session

/-! ## Delivery -/

namespace Session

variable {s t v : Session Builtin} {below : List Object} {handle : Object} {id : Nat}
  {target : Context}

/-- A fork starts a child under a new number and asks for a switch, or leaves the parent and the
other contexts as they were. -/
def ForkDelivers (s : Session Builtin) : Prop :=
  ∀ opcode xs mark ys proc, s.ReadyToFork opcode xs mark ys proc →
    ∃ fault t, dispatch opcode s = .error fault t ∧
      (fault = .contextSwitch → s.Forks xs ys proc t ∧
        ∀ id ∈ s.context.id :: s.scheduler.ids, id < s.scheduler.nextId) ∧
      (fault ≠ .contextSwitch → s.LeavesParent xs mark ys proc t)

/-- A join that succeeds delivers the images of all operands above a mark and frees the finished
context, which nobody can join or detach again. -/
def JoinDelivers (s : Session Builtin) : Prop :=
  ∀ opcode below handle target, s.ReadyToJoin opcode below handle target →
    ∀ t, dispatch opcode s = .ok () t →
      (∃ images q, s.deliveries target = .ok images q ∧ t.context.localVM = q.2 ∧
        t.context.stackSet.operands.toList = below ++ Object.mark :: images) ∧
      t.scheduler.find? target.id = some target.released ∧
      ∀ u, t.Later u → ∀ handle', handle'.asContext? = some target.id →
        Action.join handle' u = .error .invalidContext u ∧
        Action.detach handle' u = .error .invalidContext u

/-- A join that comes too early is tried again in the caller's next turn.  Whatever has happened in
between, if the context has finished by then, the outcome is that of a join by the caller as it was,
issued only now. -/
def EarlyJoinAgrees (s : Session Builtin) : Prop :=
  ∀ below handle target, s.ReadyToWait below handle target →
    (s.HasRoom → ∃ t, dispatch s.system.join s = .error .contextSwitch t) ∧
    ∀ t, dispatch s.system.join s = .error .contextSwitch t →
      ∀ w, World.Awaits s.context.id (t.endTurn .switched) w →
      ∀ v, w.nextSession? = some v → v.context.id = s.context.id →
      ∀ finished, v.scheduler.find? target.id = some finished → finished.state = .zombie →
        ∃ u, v.Retries handle u ∧
          outcome (execute (Object.operator s.system.join)) u =
            outcome (dispatch s.system.join) { v with context := s.context }

lemma forkDelivers (h : s.scheduler.Hosts s.context.standing) : s.ForkDelivers := by
  intro opcode xs mark ys proc hready
  obtain ⟨fault, t, hrun, hforks, hleaves⟩ := dispatch_fork hready
  refine ⟨fault, t, hrun, fun hfault => ⟨hforks hfault, fun id hid => ?_⟩, hleaves⟩
  rcases List.mem_cons.mp hid with rfl | hid
  · exact h.id_lt
  · obtain ⟨c, hc, rfl⟩ := List.mem_map.mp hid
    exact h.registered.ids_lt c hc

lemma joinDelivers (h : s.scheduler.Hosts s.context.standing) (hrunning : s.context.state = .run) :
    s.JoinDelivers := by
  intro opcode below handle target hready t hrun
  have hends := ends_dispatch_join hready
  rw [Ends, hrun] at hends
  obtain ⟨-, -, images, q, hcopy, hmemory, hlist, hscheduler⟩ := hends
  have hreleased : t.scheduler.find? target.id = some target.released := by
    rw [hscheduler]
    exact Scheduler.find?_released hready.found
  have hacts := acts_dispatch opcode hrunning
  rw [Ends, hrun] at hacts
  have hhosts := h.effect hacts.1.effect
  have hretired : t.Retired target.id := by
    have hid : t.context.id = s.context.id := hacts.1.effect.id_eq
    refine ⟨⟨?_, fun c hc => ?_⟩, ?_⟩
    · rw [hscheduler]
      exact h.registered.ids_lt target (Scheduler.mem_of_find? hready.found)
    · rw [hreleased] at hc
      cases hc
      rfl
    · rw [hid]
      exact (h.ne_of_find? hready.found).symm
  refine ⟨⟨images, q, hcopy, hmemory, hlist⟩, hreleased, fun u hlater handle' hnames => ?_⟩
  have hretired' := hretired.later hacts.2 hhosts hlater
  exact ⟨hretired'.join hnames, hretired'.detach hnames⟩

/-- The caller in its next turn: it is as it was suspended, and the machine offers the same
operators. -/
structure Returns (s : Session Builtin) (below : List Object) (handle : Object)
    (v : Session Builtin) : Prop where
  system : v.system = s.system
  operators : v.operators = s.operators
  globalVM : s.globalVM.Collections v.globalVM
  suspended : s.context.Suspended below [Object.operator s.system.join, handle] v.context

/-- **A caller that was put aside returns** as it was, however long it has to wait. -/
lemma PutAside.returns (h : s.PutAside below handle t)
    (hhosts : t.scheduler.Hosts t.context.standing)
    (hne : Object.operator s.system.join ≠ Object.operator s.system.zombie) {w : World Builtin}
    (hawaits : World.Awaits s.context.id (t.endTurn .switched) w) (hnext : w.nextSession? = some v)
    (hid : v.context.id = s.context.id) : s.Returns below handle v := by
  have hfind : (t.endTurn .switched).scheduler.find? t.context.id = some t.context := by
    rw [find?_endTurn hhosts, if_pos rfl]
    simp [leftover, Option.filter, h.waits]
  have hmachine : (t.endTurn .switched).toMachine = s.toMachine := by
    show t.toWorld.toMachine = s.toMachine
    rw [h.world]
  rw [← h.id_eq] at hawaits hid
  have hspares := hawaits.spares (registered_enrol_leftover hhosts .switched).orderly_reap hfind
    (by rw [h.waits]; rfl)
  have hopens := World.opens_of_nextSession? hspares.orderly.toRegistered hnext
  obtain ⟨c, hc, hundisturbed⟩ := hspares.found
  obtain ⟨c', hc', hcontext, -⟩ := hopens.taken
  rw [hid, hc] at hc'
  cases hc'
  rw [hmachine] at hundisturbed
  have hsuspended := h.suspended.undisturbed hundisturbed hne
  refine ⟨?_, ?_, ?_, ?_⟩
  · rw [hopens.machine, hspares.system, hmachine]
  · rw [hopens.machine, hspares.operators, hmachine]
  · rw [hopens.machine, ← congrArg Machine.globalVM hmachine]
    exact hspares.globalVM
  · rw [hcontext]
    exact { hsuspended with }

/-- **The second attempt** has the outcome of a first one by the caller as it was. -/
lemma Returns.agrees (h : s.Returns below handle v) (hready : s.ReadyToWait below handle target)
    {finished : Context} (hfound : v.scheduler.find? target.id = some finished)
    (hzombie : finished.state = .zombie) :
    ∃ u, v.Retries handle u ∧ outcome (execute (Object.operator s.system.join)) u =
      outcome (dispatch s.system.join) { v with context := s.context } := by
  have hsuspended := h.suspended
  obtain ⟨base, hbase⟩ := hsuspended.retry
  have hspace : v.context.stackSet.operands.count < v.context.stackSet.operands.limit := by
    have hle := hready.operands.count_le
    rw [(Stack.slot_last hready.top).1] at hle
    rw [hsuspended.limit, ← Stack.length_toList, hsuspended.below]
    exact hle
  rw [← h.system] at hbase
  obtain ⟨operands, exec, hwf, hlist, hlimit, hretries⟩ :=
    exists_retries hready.names hsuspended.operands_wf hspace hsuspended.exec_wf hbase
  rw [hsuspended.below] at hlist
  refine ⟨_, hretries, ?_⟩
  have hid : finished.id = target.id := Scheduler.id_of_find? hfound
  -- both callers are ready, with the same operands and the same finished context
  have hready' : ∀ c : Context, c.stackSet.operands.WellFormed → c.stackSet.hold.WellFormed →
      c.stackSet.operands.toList = below ++ [handle] →
      ({ v with context := c } : Session Builtin).ReadyToJoin s.system.join below handle
        finished := by
    intro c hoperands hhold htop
    refine ⟨?_, hoperands, hhold, htop, hid ▸ hready.names, hid ▸ hfound, hzombie⟩
    exact hready.offered.outlasts hready.permanent hready.sound hready.tidy h.operators h.globalVM
  have hagain : (((v.setOperands operands).setExec exec).setCurrent
      (Object.operator s.system.join)).ReadyToJoin s.system.join below handle finished :=
    hready' (((v.setOperands operands).setExec exec).setCurrent _).context hwf hsuspended.hold_wf
      hlist
  rw [outcome, execute_operator hready.opcode, ← outcome, outcome_dispatch_join hagain,
    outcome_dispatch_join (hready' s.context hready.operands hready.hold hready.top)]
  apply joinOutcome_congr
  · show v.context.stackSet.hold.count < v.context.stackSet.hold.limit ↔ s.HasRoom
    rw [HasRoom, hsuspended.hold_limit, ← Stack.length_toList, hsuspended.hold, Stack.length_toList]
  · exact hlimit.trans hsuspended.limit
  · exact hsuspended.localVM

lemma earlyJoinAgrees (h : s.scheduler.Hosts s.context.standing)
    (hrunning : s.context.state = .run) : s.EarlyJoinAgrees := by
  intro below handle target hready
  obtain ⟨hfull, hwaits⟩ := dispatch_early_join hready
  refine ⟨fun hroom => (hwaits hroom).imp fun _ ht => ht.1, fun t hrun => ?_⟩
  have hroom : s.HasRoom := by
    by_contra hno
    rw [hfull hno] at hrun
    injection hrun
    contradiction
  obtain ⟨t', hrun', hput⟩ := hwaits hroom
  obtain rfl : t' = t := by
    rw [hrun'] at hrun
    cases hrun
    rfl
  have hacts := acts_dispatch s.system.join hrunning
  rw [Ends, hrun] at hacts
  intro w hawaits v hnext hid finished hfound hzombie
  have hreturns := hput.returns (h.effect hacts.effect) hready.ends_none hawaits hnext hid
  exact hreturns.agrees hready hfound hzombie

/-- **Fork and join deliver.**  In every session whose registry is in order, as it is in every turn:
a fork hands its operands to a new context or leaves everything in place; a join hands them back
once; and a join that comes too early ends as if it had been issued when the target had finished. -/
theorem fork_join_delivery (h : s.scheduler.Hosts s.context.standing)
    (hrunning : s.context.state = .run) :
    s.ForkDelivers ∧ s.JoinDelivers ∧ s.EarlyJoinAgrees :=
  ⟨forkDelivers h, joinDelivers h hrunning, earlyJoinAgrees h hrunning⟩

/-! ## The first context forks, joins and waits -/

lemma hosts_meeting (localVM : Memory) (operands : List Object) {other : Context}
    (hid : other.id = 2) (hwaits : other.state ≠ .wait) :
    (meeting localVM operands other).scheduler.Hosts
      (meeting localVM operands other).context.standing := by
  have hscheduler : (meeting localVM operands other).scheduler =
      Scheduler.empty.allocateId.2.allocateId.2.enrol other := by
    rw [Scheduler.enrol]
    cases hstate : other.state <;> simp [meeting, hstate] <;> rfl
  rw [hscheduler]
  have hnew : Scheduler.empty.allocateId.2.allocateId.2.find? other.id = none := rfl
  refine ⟨Scheduler.registered_empty.allocated.allocated.enrolled hnew ?_ fun hwait => ?_, ?_, ?_,
    fun hwait => ?_⟩
  · rw [hid]
    decide
  · exact absurd hwait hwaits
  · have hne : 1 ≠ other.id := by
      rw [hid]
      decide
    exact (Scheduler.find?_enrol _ other 1).trans (if_neg hne)
  · rw [Scheduler.nextId_enrol]
    exact show 1 < 3 by decide
  · have hrun : ContextState.run = .wait := hwait
    contradiction

lemma isPermanent_pair {id : Nat}
    (h : (Machine.pair.globalVM.cell? id).map (fun cell => cell.tag.kind.isCollectable) =
      some false) : Machine.pair.globalVM.IsPermanent id := by
  obtain ⟨cell, hcell, hkind⟩ := Option.map_eq_some_iff.mp h
  exact ⟨cell, hcell, hkind⟩

/-- The machine of a meeting keeps its `join`. -/
lemma keepsJoin_meeting (localVM : Memory) (operands : List Object) (other : Context) :
    (meeting localVM operands other).KeepsJoin := by
  have hstart : Memory.withBacking .globalVM .anonymous Settings.narrow =
      .ok (Memory.narrow .globalVM) := rfl
  have hentries : Machine.pair.globalVM.IsPermanent 1 := isPermanent_pair (by decide +kernel)
  have hentry : (Machine.pair.operators.entry Machine.pair.globalVM 0).toOption =
      some ⟨0, 2, 1⟩ := by decide +kernel
  refine ⟨offers_meeting localVM operands other, ⟨hentries, ?_⟩,
    Memory.sound_afterAll (Memory.sound_of_withBacking hstart) _,
    (Memory.tidy_of_withBacking hstart).afterAll (Memory.sound_of_withBacking hstart) (by decide),
    rfl, show Object.operator 0 ≠ Object.operator 2 by decide⟩
  rintro entry hread
  obtain rfl : ⟨0, 2, 1⟩ = entry := Except.ok.inj ((ok_of_toOption hentry).symm.trans hread)
  exact isPermanent_pair (by decide +kernel)

/-- A procedure and a string, in the local memory of the context that forks. -/
def forkingMemory : Memory :=
  (Memory.narrow .localVM).afterAll [.newString [97] [], .newArray 1 []]

/-- The first context is about to fork, with a string above the mark. -/
def forking : Session Builtin :=
  meeting forkingMemory [Object.int 5, Object.mark, Object.composite .string .localVM 1 0 1,
    (Object.composite .array .localVM 2 0 1).cvx] finishedPair

/-- The first context is about to join the second, which has finished. -/
def joining : Session Builtin :=
  meeting (Memory.narrow .localVM) [Object.int 7, Object.context 2] finishedPair

/-- The second context before it finishes: it has nothing left to execute. -/
def unfinishedPair : Context := { finishedPair with state := .run }

/-- The first context is about to join the second, which has not finished. -/
def waiting : Session Builtin :=
  meeting (Memory.narrow .localVM) [Object.int 7, Object.context 2] unfinishedPair

lemma readyToFork_forking : forking.ReadyToFork 1 [Object.int 5] Object.mark
    [Object.composite .string .localVM 1 0 1] (Object.composite .array .localVM 2 0 1).cvx := by
  have hread : (Machine.pair.operators.signatures Machine.pair.globalVM 1).toOption =
      some [Signature.ofPatterns [.proc] 1 1] := by decide +kernel
  have hlength : [Object.int 5, Object.mark, Object.composite .string .localVM 1 0 1,
    (Object.composite .array .localVM 2 0 1).cvx].length ≤ 8 := by decide
  obtain ⟨hwf, hlist, -⟩ := Stack.ofObjects_run hlength
  have hsegments : 0 < Settings.narrow.segmentSize := by decide
  exact ⟨⟨1, .fork, ok_of_toOption hread, rfl, fun _ _ => rfl⟩, hsegments, hwf,
    Stack.wellFormed_create hsegments _ _, hlist, rfl, by decide, rfl⟩

lemma readyToWait_waiting :
    waiting.ReadyToWait [Object.int 7] (Object.context 2) unfinishedPair := by
  have hlength : [Object.int 7, Object.context 2].length ≤ 8 := by decide
  obtain ⟨hwf, hlist, -⟩ := Stack.ofObjects_run hlength
  exact ⟨keepsJoin_meeting _ _ _, hwf, Stack.wellFormed_create (by decide) _ _,
    Stack.wellFormed_create (by decide) _ _, hlist, rfl, rfl, rfl, by decide⟩

/-- The second context has the turn after the first has begun to wait, and finishes. -/
lemma exists_retry {t : Session Builtin} (h : dispatch 0 waiting = .error .contextSwitch t) :
    ∃ w v finished, World.Awaits 1 (t.endTurn .switched) w ∧ w.nextSession? = some v ∧
      v.context.id = 1 ∧ v.scheduler.find? 2 = some finished ∧ finished.state = .zombie := by
  have hfirst : (((finalState (dispatch 0) waiting).endTurn .switched).nextSession?).map
      (fun s => s.context.id) = some 2 := by decide +kernel
  have hsecond : ((finalState (World.runNext 1)
      ((finalState (dispatch 0) waiting).endTurn .switched)).nextSession?).map
        (fun s => (s.context.id, (s.scheduler.find? 2).map Context.state)) =
          some (1, some .zombie) := by decide +kernel
  rw [finalState_of_error h] at hfirst hsecond
  obtain ⟨v, hnext, hv⟩ := Option.map_eq_some_iff.mp hsecond
  obtain ⟨hid, hfound⟩ := Prod.mk.inj hv
  obtain ⟨finished, hfinished, hzombie⟩ := Option.map_eq_some_iff.mp hfound
  refine ⟨_, v, finished, .single (.turn 1 fun s hs => ?_), hnext, hid, hfinished, hzombie⟩
  rw [hs] at hfirst
  have hid : s.context.id = 2 := Option.some.inj hfirst
  rw [hid]
  decide

theorem fork_join_delivery_meeting :
    (forking.ReadyToFork 1 [Object.int 5] Object.mark [Object.composite .string .localVM 1 0 1]
        (Object.composite .array .localVM 2 0 1).cvx ∧
      outcome (dispatch 1) forking = (some .contextSwitch, [Object.int 5, Object.context 3]) ∧
      forking.ForkDelivers) ∧
    (joining.ReadyToJoin 0 [Object.int 7] (Object.context 2) finishedPair ∧
      (outcome (dispatch 0) joining).1 = none ∧ joining.JoinDelivers) ∧
    waiting.ReadyToWait [Object.int 7] (Object.context 2) unfinishedPair ∧
    ∃ t w v u, dispatch 0 waiting = .error .contextSwitch t ∧
      World.Awaits 1 (t.endTurn .switched) w ∧ w.nextSession? = some v ∧
      v.Retries (Object.context 2) u ∧
      outcome (execute (Object.operator 0)) u =
        outcome (dispatch 0) { v with context := waiting.context } := by
  have hforking := fork_join_delivery (s := forking) (hosts_meeting _ _ rfl nofun) rfl
  have hjoining := fork_join_delivery (s := joining) (hosts_meeting _ _ rfl nofun) rfl
  have hwaiting := fork_join_delivery (s := waiting) (hosts_meeting _ _ rfl nofun) rfl
  obtain ⟨hwaits, hagrees⟩ := hwaiting.2.2 _ _ _ readyToWait_waiting
  obtain ⟨t, hrun⟩ := hwaits (by decide)
  obtain ⟨w, v, finished, hawaits, hnext, hid, hfound, hzombie⟩ := exists_retry hrun
  obtain ⟨u, hretries, houtcome⟩ := hagrees t hrun w hawaits v hnext hid finished hfound hzombie
  exact ⟨⟨readyToFork_forking, by decide +kernel, hforking.1⟩,
    ⟨readyToJoin_meeting _ [Object.int 7] (by decide) _ rfl rfl, by decide +kernel, hjoining.2.1⟩,
    readyToWait_waiting, t, w, v, u, hrun, hawaits, hnext, hretries, houtcome⟩

end Session

end PostScriptCore
