import PostScriptCore.Proofs.Machine.Words

/-!
# Contexts that start, wait and end, seen from outside

Objects that refer to no local storage are handed from one context to another as they are.  As long as
contexts hand over nothing else, what `fork` and `join` do is a matter of scenes.

* `Object.IsShared` — the object means the same in every context.
* `Portrait.depicts_new` — a context that has done nothing yet.
* `Scene.yields_fork` — a context that starts another one.
* `Scene.yields_join`, `Scene.leads_retry` — one that has to wait, and goes on.
* `Scene.does_join` — one that receives the operands of a finished context.
* `Scene.switches_end` — one that ends.
-/

namespace PostScriptCore

/-! ## Shared objects -/

/-- The object refers to no local storage. -/
def Object.IsShared (obj : Object) : Prop := obj.entity? = none ∨ obj.bank = .globalVM

/-- A shared object is its own copy. -/
lemma Transfer.copy_shared (source m : Memory) {obj : Object} (h : obj.IsShared) :
    copy source obj (.empty, m) = .ok obj (.empty, m) := by
  have hmap : mapObject source obj = pure obj := by
    rw [mapObject]
    rcases h with hentity | hbank
    · rw [hentity]
    · cases hentity : obj.entity? with
      | none => rfl
      | some old => exact if_pos hbank
  rw [copy, hmap]
  refine (bind_ok (t := (Transfer.empty, m)) rfl).trans ((bind_ok (t := (Transfer.empty, m)) rfl).trans ?_)
  refine bind_ok (a := ()) (t := (Transfer.empty, m)) ?_
  cases hsteps : source.entityCount + (Transfer.empty, m).1.pending.length with
  | zero => rfl
  | succ steps => rfl

lemma Transfer.copyAll_shared (source m : Memory) {objs : List Object} (h : ∀ obj ∈ objs, obj.IsShared) :
    copyAll source objs (.empty, m) = .ok objs (.empty, m) := by
  induction objs with
  | nil => rfl
  | cons obj rest ih =>
      exact copyAll_cons_ok (copy_shared source m (h obj List.mem_cons_self))
        (ih fun obj hobj => h obj (List.mem_cons_of_mem _ hobj))

namespace Action

/-- Shared objects are received as they are. -/
lemma receive_shared (source : Memory) {objs : List Object} (h : ∀ obj ∈ objs, obj.IsShared) {c : Context}
    {limit : Nat} {items : List Object} (hlists : c.stackSet.operands.Lists limit items)
    (hroom : items.length + objs.length ≤ limit) :
    ∃ operands : Stack, operands.Lists limit (items ++ objs) ∧ receive source objs (.empty, c) =
      .ok () (.empty, { c with stackSet := { c.stackSet with operands } }) := by
  induction objs generalizing c items with
  | nil => exact ⟨c.stackSet.operands, by rwa [List.append_nil], rfl⟩
  | cons obj rest ih =>
      rw [List.length_cons] at hroom
      obtain ⟨operands, hpush, hoperands⟩ := hlists.push (by omega) obj
      obtain ⟨all, hall, hreceive⟩ := ih (fun obj hobj => h obj (List.mem_cons_of_mem _ hobj))
        (c := { c with stackSet := { c.stackSet with operands } }) hoperands (by simp; omega)
      refine ⟨all, by simpa using hall, ?_⟩
      have hcopy : intoLocalVM (Transfer.copy source obj) (.empty, c) = .ok obj (.empty, c) := by
        simp only [intoLocalVM, focus, Transfer.copy_shared source c.localVM (h obj List.mem_cons_self)]
      have hpushed : ontoStackSet (StackSet.onOperands (Stack.push obj)) (.empty, c) =
          .ok () (.empty, { c with stackSet := { c.stackSet with operands } }) := by
        simp only [ontoStackSet, Context.onStackSet, StackSet.onOperands, focus, hpush]
      exact (bind_ok hcopy).trans ((bind_ok hpushed).trans hreceive)

/-- A child that is given shared objects has them on its stack and the procedure before it. -/
lemma makeChild_shared {settings : Settings} {localVM : Memory} (hsegment : 0 < settings.segmentSize)
    (hmemory : Memory.create .localVM settings = .ok localVM) (parent : Memory) (zombie id : Nat)
    {operands : List Object} (hoperands : ∀ obj ∈ operands, obj.IsShared)
    (hroom : operands.length ≤ settings.operandStackLimit) {proc : Object} (hproc : proc.IsShared)
    (hexec : 2 ≤ settings.execStackLimit) :
    ∃ top exec : Stack, top.Lists settings.operandStackLimit operands ∧
      exec.Lists settings.execStackLimit [Object.operator zombie, proc] ∧
      makeChild id settings parent zombie operands proc = .ok ⟨id, .run, localVM,
        { StackSet.create settings with operands := top, exec }, Object.null, none, none⟩ := by
  obtain ⟨top, htop, hreceive⟩ := receive_shared parent hoperands
    (c := ⟨id, .run, localVM, StackSet.create settings, Object.null, none, none⟩)
    (.create hsegment settings.operandStackLimit .stackOverflow) (by rw [List.length_nil]; omega)
  let fresh := Stack.create settings.segmentSize settings.execStackLimit .execStackOverflow
  have hfits : fresh.count + [Object.operator zombie, proc].length ≤ fresh.limit := by
    rw [← Stack.length_toList, Stack.toList_create]
    exact hexec
  obtain ⟨exec, hpush, hwf, hlist, hlimit⟩ := Stack.pushAll_run (Stack.wellFormed_create hsegment _ _) hfits
  rw [Stack.toList_create, List.nil_append] at hlist
  refine ⟨top, exec, htop, ⟨hwf, hlimit, hlist⟩, ?_⟩
  rw [makeChild, Context.create, hmemory]
  dsimp only
  have hcopy : intoLocalVM (Transfer.copy parent proc) (.empty, ⟨id, .run, localVM,
      { StackSet.create settings with operands := top }, Object.null, none, none⟩) =
      .ok proc (.empty, ⟨id, .run, localVM,
        { StackSet.create settings with operands := top }, Object.null, none, none⟩) := by
    simp only [intoLocalVM, focus, Transfer.copy_shared parent localVM hproc]
  rw [bind_ok hreceive, bind_ok hcopy]
  simp only [ontoStackSet, Context.onStackSet, StackSet.onExec, focus, StackSet.create, hpush]

end Action

/-- A procedure of which nothing has been run yet. -/
lemma Stage.pends_whole {σ : Stage} {proc : Object} {code : List Object} (hproc : proc.isProc = true)
    (hbank : proc.bank = .globalVM) (hcode : σ.machine.globalVM.arrayElements proc = .ok code) :
    σ.Pends code [proc] := by
  refine ⟨proc, code, hproc, hbank, hcode, ?_⟩
  cases code with
  | nil => exact .inr ⟨rfl, rfl, rfl⟩
  | cons obj rest =>
      have hlength := (Memory.arrayGet_of_arrayElements hcode).1
      have hty : proc.ty = .array := (Object.isProc_iff.mp hproc).1
      have hafter := (Object.isAfter_zero hty (by rw [← hlength]; exact Nat.succ_pos _)).after_eq
      exact .inl ⟨0, rfl, hafter.symm⟩

/-- **A new context** with its operands and a global procedure before it. -/
lemma Portrait.depicts_new {σ : Stage} (hsegment : 0 < σ.machine.settings.segmentSize) {proc : Object}
    {given code : List Object} (hproc : proc.isProc = true) (hbank : proc.bank = .globalVM)
    (hcode : σ.machine.globalVM.arrayElements proc = .ok code) {operands exec : Stack}
    (hoperands : operands.Lists σ.machine.settings.operandStackLimit given)
    (hexec : exec.Lists σ.machine.settings.execStackLimit [Object.operator σ.machine.system.zombie, proc])
    (id : Nat) :
    (Portrait.running id given code).Depicts σ ⟨id, .run, σ.localVM,
      { StackSet.create σ.machine.settings with operands, exec }, Object.null, none, none⟩ := by
  refine ⟨rfl, rfl, rfl, rfl, hoperands, .create hsegment _ _, fun code' hcode' => ?_⟩
  obtain rfl := Option.some.inj hcode'
  exact ⟨[proc], Stage.pends_whole hproc hbank hcode, hexec⟩

namespace Scene

open Session (runTurn continued execute)

variable {σ : Stage} {v w : Scene} {Q : Scene → Prop} {obj proc : Object} {id : Nat}
  {below given code : List Object}

/-! ## Starting -/

/-- **A context that starts another one** with shared operands on a global procedure. -/
lemma yields_fork (hmemory : Memory.create .localVM σ.machine.settings = .ok σ.localVM)
    (hsegment : 0 < σ.machine.settings.segmentSize) (hexec : 2 ≤ σ.machine.settings.execStackLimit)
    (hproc : proc.isProc = true) (hbank : proc.bank = .globalVM)
    (hcode : σ.machine.globalVM.arrayElements proc = .ok code)
    (hoperands : v.operands = below ++ Object.mark :: given)
    (hgiven : ∀ obj ∈ given, obj.IsShared ∧ obj.ty ≠ .mark)
    (hQ : ∀ child, (Portrait.running v.scheduler.nextId given code).Depicts σ child →
      Q { v with
        operands := below ++ [Object.context v.scheduler.nextId]
        scheduler := v.scheduler.allocateId.2.adopt child }) :
    Yields σ (Action.fork proc) v Q := by
  intro s hs
  have hstack := hs.context.operands
  rw [hoperands] at hstack
  have hcount := hstack.wellFormed.count_le
  rw [hstack.limit_eq, hstack.count_eq, List.length_append, List.length_cons] at hcount
  obtain ⟨top, exec, htop, hexec, hmake⟩ := Action.makeChild_shared hsegment hmemory s.context.localVM
    σ.machine.system.zombie v.scheduler.nextId (fun obj hobj => (hgiven obj hobj).1) (by omega)
    (.inr hbank) hexec
  have hmade : Action.makeChild s.scheduler.nextId s.settings s.context.localVM s.system.zombie given proc =
      .ok ⟨v.scheduler.nextId, .run, σ.localVM,
        { StackSet.create σ.machine.settings with operands := top, exec },
        Object.null, none, none⟩ := by
    rw [hs.scheduler, show s.settings = σ.machine.settings from congrArg Machine.settings hs.machine,
      show s.system = σ.machine.system from congrArg Machine.system hs.machine]
    exact hmake
  obtain ⟨operands, hwf, hlist, hlimit, hfork⟩ :=
    Action.fork_made hstack.wellFormed hstack.toList_eq rfl (fun obj hobj => (hgiven obj hobj).2) hmade
  have hlists : operands.Lists σ.machine.settings.operandStackLimit
      (below ++ [Object.context v.scheduler.nextId]) :=
    ⟨hwf, hlimit.trans hstack.limit_eq, hlist.trans (by rw [hs.scheduler])⟩
  have hchild := Portrait.depicts_new hsegment hproc hbank hcode htop hexec v.scheduler.nextId
  refine ⟨_, _, hfork, ?_, hQ _ hchild⟩
  exact ⟨hs.machine, by simp only [hs.scheduler], hs.output, (hs.setOperands hlists).context⟩

/-! ## Waiting -/

lemma asContext?_context (hid : id < wordBound) : (Object.context id).asContext? = some id :=
  congrArg some (UInt32.toNat_ofNat_of_lt' hid)

lemma join_run (hid : id < wordBound) {target : Context} (hfind : v.scheduler.find? id = some target)
    {s : Session Builtin} (hs : v.Depicts σ s) :
    (target.state.isActive = true → Action.join (Object.context id) s = Action.waitFor id (Object.context id) s) ∧
      (target.state = .zombie → Action.join (Object.context id) s = Action.deliver target s) := by
  have hfound : s.scheduler.find? id = some target := by rw [hs.scheduler, hfind]
  rw [Action.join, asContext?_context hid]
  refine ⟨fun hactive => (bind_ok (t := s) rfl).trans ?_, fun hzombie => (bind_ok (t := s) rfl).trans ?_⟩
  · cases hstate : target.state with
    | run | wait => simp only [hfound, hstate]
    | zombie | free =>
        rw [hstate] at hactive
        contradiction
  · simp only [hfound, hzombie]

/-- **A join with a context that is not finished** is put aside. -/
lemma yields_join (hid : id < wordBound) {target : Context} (hfind : v.scheduler.find? id = some target)
    (hactive : target.state.isActive = true) (hcode : v.code = some code) (hretry : v.retry = [])
    (hexec : 4 ≤ σ.machine.settings.execStackLimit)
    (hQ : Q { v with
      state := .wait
      waitingOn := some id
      retry := [Object.operator σ.machine.system.join, Object.context id] }) :
    Yields σ (Action.join (Object.context id)) v Q := by
  intro s hs
  obtain ⟨tail, hpends, hlists⟩ := hs.context.exec code hcode
  rw [show v.retry = [] from hretry, List.append_nil] at hlists
  have htail : tail.length ≤ 1 := by
    obtain ⟨p, es, -, -, -, ⟨k, -, rfl⟩ | ⟨-, -, rfl⟩⟩ := hpends
    · exact Object.length_after_le p k
    · exact Nat.le_refl 1
  obtain ⟨exec, hwf, hlist, hlimit, hwait⟩ := Session.waitFor_run hlists.wellFormed
    (by rw [hlists.count_eq, hlists.limit_eq, List.length_cons]; omega) id (Object.context id)
  refine ⟨_, _, ((join_run hid hfind hs).1 hactive).trans hwait, ?_, hQ⟩
  refine ⟨hs.machine, hs.scheduler, hs.output, { hs.context with
    state := rfl, waitingOn := rfl, exec := fun code' hcode' => ?_ }⟩
  obtain rfl := Option.some.inj (hcode.symm.trans hcode')
  have hjoin : s.system.join = σ.machine.system.join := congrArg (fun m => m.system.join) hs.machine
  rw [hlists.toList_eq, hjoin] at hlist
  exact ⟨tail, hpends, hwf, hlimit.trans hlists.limit_eq, hlist⟩

/-- **A join with a finished context** receives its operands, if they are shared. -/
lemma does_join (hid : id < wordBound) {target : Context} (hfind : v.scheduler.find? id = some target)
    (hzombie : target.state = .zombie) (hgiven : target.stackSet.operands.toList = given)
    (hshared : ∀ obj ∈ given, obj.IsShared)
    (hroom : v.operands.length + 1 + given.length ≤ σ.machine.settings.operandStackLimit) :
    Does σ (Action.join (Object.context id)) v { v with
      operands := v.operands ++ Object.mark :: given
      waitingOn := none
      scheduler := v.scheduler.update id Context.released } := by
  intro s hs
  have hstack := hs.context.operands
  have hfits : s.FitsAbove s.context.stackSet.operands.count target := by
    rw [Session.FitsAbove, hstack.count_eq, hstack.limit_eq, ← Stack.length_toList, hgiven]
    exact hroom
  have hcopies : s.deliveries target = .ok given (.empty, s.context.localVM) := by
    rw [Session.deliveries, hgiven]
    exact Transfer.copyAll_shared _ _ hshared
  have hends := Session.ends_deliver hstack.wellFormed target
  rw [(join_run hid hfind hs).2 hzombie]
  rw [Ends] at hends
  cases hrun : Action.deliver target s with
  | error fault t =>
      rw [hrun] at hends
      rcases hends with ⟨hfull, -⟩ | ⟨-, q, d, hfailed, -⟩
      · exact absurd hfits hfull
      · rw [hcopies] at hfailed
        contradiction
  | ok _ t =>
      rw [hrun] at hends
      obtain ⟨-, images, q, d, hcopied, hmemory, hreceived, rfl⟩ := hends
      rw [hcopies] at hcopied
      cases hcopied
      have hid' : target.id = id := Scheduler.id_of_find? hfind
      refine ⟨_, rfl, hs.machine, by simp only [hs.scheduler, hid'], hs.output, ?_⟩
      have hsame := hreceived.same
      refine ⟨?_, ?_, rfl, hmemory.trans hs.context.localVM, ?_, ?_, ?_⟩
      · rw [hsame]
        exact hs.context.id
      · rw [hsame]
        exact hs.context.state
      · exact ⟨hreceived.operands_wf, hreceived.limit.trans hstack.limit_eq,
          hreceived.toList.trans (congrArg (· ++ Object.mark :: given) hstack.toList_eq)⟩
      · rw [hsame]
        exact hs.context.hold
      · rw [hsame]
        exact hs.context.exec

/-! ## Going on and ending -/

/-- The top of the execution stack is taken off. -/
lemma nextObject?_lists {s : Session Builtin} {limit : Nat} (base : List Object)
    (h : s.context.stackSet.exec.Lists limit (base ++ [obj])) :
    ∃ exec : Stack, exec.Lists limit base ∧ s.nextObject? = some (obj, s.setExec exec) := by
  obtain ⟨exec, hwf, hlist, hlimit, hnext⟩ := Session.nextObject?_run h.wellFormed h.toList_eq
  exact ⟨exec, ⟨hwf, hlimit.trans h.limit_eq, hlist⟩, hnext⟩

/-- What a blocked operator has left is executed, the last object first. -/
lemma leads_retry (hcode : v.code = some code) (above : List Object) (hretry : v.retry = above ++ [obj])
    (h : Does σ (execute obj) { v with retry := above } w) : Leads σ 1 v w := by
  intro s hs
  obtain ⟨tail, hpends, hlists⟩ := hs.context.exec code hcode
  rw [show v.retry = _ from hretry, ← List.append_assoc] at hlists
  obtain ⟨exec, hexec, hnext⟩ := nextObject?_lists (_ :: tail ++ above) hlists
  obtain ⟨t, hrun, ht⟩ := h (s.setExec exec) ⟨hs.machine, hs.scheduler, hs.output, { hs.context with
    exec := fun code' hcode' => ⟨tail, Option.some.inj (hcode.symm.trans hcode') ▸ hpends, hexec⟩ }⟩
  refine ⟨1, t, Nat.le_refl 1, ht, fun budget => ?_⟩
  rw [Nat.add_comm, Session.runTurn_succ hnext, hrun]
  rfl

/-- A procedure without elements is taken off first. -/
lemma bottom_run (hcode : v.code = some []) (hretry : v.retry = []) {s : Session Builtin} (hs : v.Depicts σ s) :
    ∃ n u, n ≤ 1 ∧ Depicts σ { v with code := none } u ∧
      u.context.stackSet.exec.Lists σ.machine.settings.execStackLimit
        [Object.operator σ.machine.system.zombie] ∧
      ∀ budget, runTurn (n + budget) s = runTurn budget u := by
  obtain ⟨tail, ⟨p, es, hproc, -, helements, hpends⟩, hlists⟩ := hs.context.exec [] hcode
  have hlength := (Memory.arrayGet_of_arrayElements helements).1
  rw [show v.retry = [] from hretry, List.append_nil] at hlists
  have hend (exec : Stack) : Depicts σ { v with code := none } (s.setExec exec) :=
    ⟨hs.machine, hs.scheduler, hs.output, { hs.context with exec := by simp }⟩
  rcases hpends with ⟨k, hdrop, rfl⟩ | ⟨-, rfl, rfl⟩
  · rw [Object.after_of_le (hlength ▸ List.drop_eq_nil_iff.mp hdrop.symm)] at hlists
    exact ⟨0, s, Nat.zero_le 1, hend s.context.stackSet.exec, hlists, fun budget => by rw [Nat.zero_add]⟩
  · obtain ⟨exec, hexec, hnext⟩ := nextObject?_lists [_] hlists
    refine ⟨1, s.setExec exec, Nat.le_refl 1, hend exec, hexec, fun budget => ?_⟩
    have hstep : execute p (s.setExec exec) = .ok () (s.setExec exec) := by
      have hempty : p.length.toNat = 0 := hlength.symm
      rw [Session.execute_proc hproc, Session.step, if_pos hempty]
      rfl
    rw [Nat.add_comm, Session.runTurn_succ hnext, hstep]
    rfl

/-- **The end of a context** that has nothing left to run. -/
lemma switches_end (hzombie : σ.machine.Runs σ.machine.system.zombie ⟨[], 0, .zombie⟩) (hcode : v.code = some [])
    (hretry : v.retry = []) (hheld : v.held = [])
    (hQ : Q { v with code := none, state := .zombie, held := [] }) : Switches σ 2 v Q := by
  intro s hs
  obtain ⟨n, u, hn, hu, hlists, hrun⟩ := bottom_run hcode hretry hs
  obtain ⟨exec, -, hnext⟩ := nextObject?_lists [] hlists
  have hcount := hu.context.operands.wellFormed.count_le
  rw [hu.context.operands.limit_eq, hu.context.operands.count_eq] at hcount
  have hexecute := yields_call (v := { v with code := none }) (Stage.calls_of_runs hzombie) v.operands []
    ⟨rfl, rfl, hcount⟩ hheld (List.append_nil _).symm (yields_zombie ⟨rfl, hQ⟩)
  obtain ⟨t, w, hexec, ht, hw⟩ := hexecute (u.setExec exec)
    ⟨hu.machine, hu.scheduler, hu.output, { hu.context with exec := by simp }⟩
  refine ⟨t, w, ht, hw, fun budget hbudget => ?_⟩
  obtain ⟨rest, rfl⟩ := Nat.exists_eq_add_of_le (show n + 1 ≤ budget by omega)
  rw [Nat.add_assoc, hrun, Nat.add_comm 1, Session.runTurn_succ hnext, hexec]
  rfl

end Scene

end PostScriptCore
