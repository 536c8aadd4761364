import PostScriptCore.Proofs.Machine.SelfDetaching
import PostScriptCore.Proofs.Machine.Startup

/-!
# How contexts end

A context begins with the operator at the bottom that waits for a join.  It keeps it until it is detached,
and it ends by it, whatever its program does and however it fails.

* `Chronicle` — a world, and which of its contexts were detached and joined.
* `Chronicle.Step` — what can happen to the world: a context is spawned, has a turn, or the host changes
  what the contexts share.
* `Chronicle.InOrder`, `Chronicle.InOrder.steps` — the contexts are as they have to be.
* `Chronicle.Accounts`, `Chronicle.Accounts.steps` — a context is forgotten only if it was detached or
  joined.
* `Chronicle.contexts_end_by_sentinels` — both, for every context of every run.
-/

namespace PostScriptCore

/-! ## Steps -/

/-- A world, and which of its contexts were detached and joined so far. -/
structure Chronicle where
  world : World Builtin
  annals : Annals

/-- The world after its host has used the memory or the operators, entered names and taken the output. -/
def World.managed (w : World Builtin) (op : RegistryOp Builtin) (names : Names) (output : Output) :
    World Builtin :=
  { w with
    operators := (OperatorTable.after (w.operators, w.globalVM) op).1
    globalVM := (OperatorTable.after (w.operators, w.globalVM) op).2
    names, output }

namespace Chronicle

/-- A world without contexts. -/
def begin (machine : Machine Builtin) (accepting : Bool) : Chronicle :=
  ⟨World.ofMachine machine accepting, .blank⟩

/-- What can happen to a world whose programs do not end their contexts themselves. -/
inductive Step (c : Chronicle) : Chronicle → Prop
  | spawned (program : Object) : Step c ⟨finalState (World.spawn program) c.world, c.annals⟩
  | turned {s : Session Builtin} (budget : Nat) (hnext : c.world.nextSession? = some s)
    (hrefrains : s.refrains budget = true) {w : World Builtin}
    (hrun : World.runNext budget c.world = .ok true w) :
    Step c ⟨w, c.annals.after (s.PerformsWithin budget)⟩
  /-- No context can go on. -/
  | stopped (budget : Nat) (hnext : c.world.nextSession? = none) :
    Step c ⟨finalState (World.runNext budget) c.world, c.annals⟩
  /-- The host leaves the entities of the registry alone, and there are numbers for all entities. -/
  | managed (op : RegistryOp Builtin) (names : Names) (output : Output)
    (hspares : op.spares c.world.globalVM = true)
    (hwords : (OperatorTable.after (c.world.operators, c.world.globalVM) op).2.entityCount ≤ wordBound) :
    Step c ⟨c.world.managed op names output, c.annals⟩

/-- One step after the other. -/
def Steps : Chronicle → Chronicle → Prop := Relation.ReflTransGen Step

variable {c d : Chronicle} {s : Session Builtin}

/-! ## The contexts are as they have to be -/

/-- The registry and the operators are in order, and every context is as it has to be. -/
structure InOrder (c : Chronicle) : Prop where
  orderly : c.world.scheduler.Orderly
  ends : c.world.toMachine.EndsContexts
  covers : c.annals.Covers c.world.system c.world.scheduler

lemma inOrder_begin {machine : Machine Builtin} (h : machine.EndsContexts) (accepting : Bool) :
    (begin machine accepting).InOrder where
  orderly := Scheduler.orderly_empty
  ends := h
  covers := ⟨fun _ _ hfind => by contradiction, fun _ _ => id⟩

/-- A turn begins with contexts that are as they have to be. -/
lemma InOrder.agrees (h : c.InOrder) (hopens : c.world.Opens s) : s.Agrees c.annals := by
  have hsystem : s.system = c.world.system := congrArg Machine.system hopens.machine
  obtain ⟨d, hfind, hcontext, e, hfind', hgo⟩ := hopens.taken
  obtain rfl := Option.some.inj (hfind.symm.trans hfind')
  have hactive : d.state.isActive = true := by
    rcases hgo with hrun | ⟨hwait, -⟩
    · rw [hrun]
      rfl
    · rw [hwait]
      rfl
  have hguarded := (h.covers.contexts _ d hfind).active hactive
  refine ⟨⟨fun id e hfind => ?_, fun id hid => ?_⟩, ?_, ?_⟩
  · have hother : id ≠ s.context.id := (hopens.hosts.ne_of_find? hfind).symm
    rw [hopens.others id hother] at hfind
    rw [hsystem]
    exact h.covers.contexts id e hfind
  · rw [hopens.nextId] at hid
    exact h.covers.unborn id hid
  · rw [hsystem, hcontext]
    rw [hcontext] at hguarded
    exact ⟨hguarded.operands, hguarded.hold, hguarded.exec, hguarded.bottom⟩
  · rw [hopens.running]
    rfl

/-- How a turn of the session ends. -/
lemma InOrder.concludes (h : c.InOrder) (hopens : c.world.Opens s) {budget : Nat}
    (hrefrains : s.refrains budget = true) :
    Session.Concludes (c.annals.after (s.PerformsWithin budget)) (Session.runTurn budget s).1
      (Session.runTurn budget s).2 :=
  Session.concludes_runTurn budget (h.agrees hopens) hopens.running hopens.hosts
    (by rw [hopens.machine]; exact h.ends) hrefrains

/-- A new context begins with the operator at the bottom that waits for a join. -/
lemma guarded_spawned {w : World Builtin} (hsegment : 0 < w.settings.segmentSize) {program : Object}
    {id : Nat} {fresh : Context} {exec : Stack} (hcreate : Context.create id w.settings = .ok fresh)
    (hpush : Stack.pushAll [Object.operator w.system.zombie, program] fresh.stackSet.exec = .ok () exec) :
    Context.Guarded (Object.operator w.system.zombie)
      { fresh with stackSet := { fresh.stackSet with exec } } := by
  have hstacks := Context.stackSet_create hcreate
  have hempty (limit : Nat) (overflow : Fault) :
      (Stack.create w.settings.segmentSize limit overflow).WellFormed :=
    Stack.wellFormed_create hsegment _ _
  have hends := Stack.ends_pushAll (hempty w.settings.execStackLimit .execStackOverflow)
    [Object.operator w.system.zombie, program]
  have hexec : fresh.stackSet.exec = Stack.create w.settings.segmentSize w.settings.execStackLimit
      .execStackOverflow := congrArg StackSet.exec hstacks
  rw [hexec] at hpush
  rw [Ends, hpush] at hends
  refine ⟨?_, ?_, hends.1, ?_⟩
  · show fresh.stackSet.operands.WellFormed
    rw [hstacks]
    exact hempty _ _
  · show fresh.stackSet.hold.WellFormed
    rw [hstacks]
    exact hempty _ _
  · show exec.fromBottom? 0 = _
    rw [Stack.fromBottom?_eq_getElem?, hends.2]
    simp

lemma covers_spawned (h : c.InOrder) (program : Object) :
    c.annals.Covers c.world.system (finalState (World.spawn program) c.world).scheduler := by
  rcases World.spawn_cases program c.world with hspawn |
    ⟨child, hid, hrun, ⟨fresh, exec, hcreate, hpush, rfl⟩, hspawn⟩
  · rw [hspawn]
    exact h.covers.allocated
  · rw [hspawn]
    exact h.covers.adopted hid hrun (guarded_spawned h.ends.segments hcreate hpush)

/-- The context that had the turn is put back as the turn has left it. -/
lemma find?_concluded {a : Annals} {turn : Turn} {t : Session Builtin} (h : t.Concludes a turn)
    (hhosts : t.scheduler.Hosts t.context.standing) (id : Nat) :
    (t.endTurn turn).scheduler.find? id =
      (if id = t.context.id then some t.context else t.scheduler.find? id).filter
        fun c => c.state != .free := by
  rw [Session.find?_endTurn hhosts, Session.leftover, if_neg h.unfinished]

/-- Whatever is put back is as it has to be. -/
lemma accords_concluded {a : Annals} {turn : Turn} {t : Session Builtin} (h : t.Concludes a turn)
    {id : Nat} {d : Context}
    (hfind : (if id = t.context.id then some t.context else t.scheduler.find? id) = some d) :
    d.Accords t.system (a.detached id) (a.joined id) := by
  split_ifs at hfind with hown
  · cases hfind
    subst hown
    exact h.own.mono False.elim
  · exact h.others.contexts id d hfind

lemma covers_endTurn {a : Annals} {turn : Turn} {t : Session Builtin} (h : t.Concludes a turn)
    (hhosts : t.scheduler.Hosts t.context.standing) :
    a.Covers t.system (t.endTurn turn).scheduler := by
  refine ⟨fun id d hfind => ?_, fun id hid => ?_⟩
  · rw [find?_concluded h hhosts, Option.filter_eq_some_iff] at hfind
    exact accords_concluded h hfind.1
  · exact h.others.unborn id (Nat.le_trans (Session.renumbered_endTurn turn t).next_le hid)

lemma toMachine_spawned (program : Object) (w : World Builtin) :
    (finalState (World.spawn program) w).toMachine = w.toMachine := by
  rcases World.spawn_cases program w with hspawn | ⟨child, -, -, -, hspawn⟩ <;>
  · rw [hspawn]

/-- The turn of the next session. -/
lemma runNext_eq (h : c.InOrder) {budget : Nat} (hnext : c.world.nextSession? = some s) :
    World.runNext budget c.world =
      .ok true ((Session.runTurn budget s).2.endTurn (Session.runTurn budget s).1) := by
  rcases World.nextSession?_cases h.orderly.toRegistered budget with ⟨s', hnext', -, hrun⟩ | ⟨hnone, -⟩
  · obtain rfl := Option.some.inj (hnext.symm.trans hnext')
    exact hrun
  · rw [hnext] at hnone
    contradiction

/-- **A step keeps the contexts as they have to be.** -/
lemma InOrder.step (h : c.InOrder) (hstep : Step c d) : d.InOrder ∧ d.world.system = c.world.system := by
  cases hstep with
  | spawned program =>
      have hmachine := toMachine_spawned program c.world
      have hsystem := congrArg Machine.system hmachine
      refine ⟨⟨(World.orderly_spawn h.orderly program).1, ?_, ?_⟩, hsystem⟩
      · rw [hmachine]
        exact h.ends
      · rw [hsystem]
        exact covers_spawned h program
  | @turned s budget hnext hrefrains w hrun =>
      have hopens := World.opens_of_nextSession? h.orderly.toRegistered hnext
      have hevolves := Session.evolves_runTurn budget hopens.running
      have hsystem : s.system = c.world.system := congrArg Machine.system hopens.machine
      have hends : s.toMachine.EndsContexts := by
        rw [hopens.machine]
        exact h.ends
      have horderly := (World.orderly_runNext h.orderly budget).1
      rw [finalState_of_ok hrun] at horderly
      rw [runNext_eq h hnext] at hrun
      cases hrun
      exact ⟨⟨horderly, hends.sameMachine hevolves.sameMachine,
        covers_endTurn (h.concludes hopens hrefrains) (hevolves.hosts hopens.hosts)⟩,
        hevolves.sameMachine.system.trans hsystem⟩
  | stopped budget hnext =>
      have horderly := (World.orderly_runNext h.orderly budget).1
      rcases World.nextSession?_cases h.orderly.toRegistered budget with
        ⟨s', hnext', -⟩ | ⟨-, queue, -, hrun⟩
      · rw [hnext] at hnext'
        contradiction
      · rw [hrun] at horderly ⊢
        exact ⟨⟨horderly, h.ends, ⟨h.covers.contexts, h.covers.unborn⟩⟩, rfl⟩
  | managed op names output hspares hwords =>
      exact ⟨⟨h.orderly, h.ends.after hspares hwords rfl rfl rfl, h.covers⟩, rfl⟩

/-- **A run keeps the contexts as they have to be.** -/
lemma InOrder.steps (h : c.InOrder) (hsteps : Steps c d) :
    d.InOrder ∧ d.world.system = c.world.system := by
  induction hsteps with
  | refl => exact ⟨h, rfl⟩
  | tail _ hstep ih =>
      obtain ⟨hd, hsystem⟩ := ih.1.step hstep
      exact ⟨hd, hsystem.trans ih.2⟩

/-! ## Contexts that are forgotten -/

/-- The context is registered, or it was detached or joined. -/
def Accounts (c : Chronicle) (id : Nat) : Prop :=
  c.world.scheduler.find? id ≠ none ∨ c.annals.detached id ∨ c.annals.joined id

lemma accounts_spawned {id : Nat} {program : Object}
    (h : c.world.scheduler.find? id ≠ none) :
    (finalState (World.spawn program) c.world).scheduler.find? id ≠ none := by
  rcases World.spawn_cases program c.world with hspawn | ⟨child, -, -, -, hspawn⟩
  · rw [hspawn]
    exact h
  · rw [hspawn, Scheduler.find?_adopt]
    split_ifs
    · nofun
    · exact h

lemma accounts_endTurn {a : Annals} {turn : Turn} {t : Session Builtin} {id : Nat}
    (h : t.Concludes a turn) (hhosts : t.scheduler.Hosts t.context.standing)
    (hknown : id = t.context.id ∨ t.scheduler.find? id ≠ none) :
    Accounts ⟨t.endTurn turn, a⟩ id := by
  obtain ⟨d, hfind⟩ : ∃ d,
      (if id = t.context.id then some t.context else t.scheduler.find? id) = some d := by
    split_ifs with hown
    · exact ⟨t.context, rfl⟩
    · exact Option.ne_none_iff_exists'.mp (hknown.resolve_left hown)
  rw [Accounts, find?_concluded h hhosts, hfind]
  by_cases hfree : d.state = .free
  · exact .inr ((accords_concluded h hfind).free hfree)
  · simp [Option.filter, hfree]

/-- **A step forgets only what was detached or joined.** -/
lemma Accounts.step {id : Nat} (h : c.Accounts id) (horder : c.InOrder) (hstep : Step c d) :
    d.Accounts id := by
  cases hstep with
  | spawned program => exact h.imp_left accounts_spawned
  | @turned s budget hnext hrefrains w hrun =>
      rcases h with hfind | hgone
      · have hopens := World.opens_of_nextSession? horder.orderly.toRegistered hnext
        have hevolves := Session.evolves_runTurn budget hopens.running
        rw [runNext_eq horder hnext] at hrun
        cases hrun
        refine accounts_endTurn (horder.concludes hopens hrefrains) (hevolves.hosts hopens.hosts) ?_
        rw [hevolves.id_eq]
        by_cases hown : id = s.context.id
        · exact .inl hown
        · refine .inr (hevolves.find?_ne_none ?_)
          rw [hopens.others id hown]
          exact hfind
      · exact .inr (hgone.imp .inl .inl)
  | stopped budget hnext =>
      rcases World.nextSession?_cases horder.orderly.toRegistered budget with
        ⟨s', hnext', -⟩ | ⟨-, queue, -, hrun⟩
      · rw [hnext] at hnext'
        contradiction
      · rw [hrun]
        exact h
  | managed op names output hspares hwords => exact h

lemma Accounts.steps {id : Nat} (h : c.Accounts id) (horder : c.InOrder) (hsteps : Steps c d) :
    d.Accounts id := by
  induction hsteps with
  | refl => exact h
  | tail hbefore hstep ih => exact ih.step (horder.steps hbefore).1 hstep

/-- **Contexts end by the operator at the bottom.**  In every run of a started machine whose programs do
not end their contexts themselves, a registered context that can run or waits has at the bottom of its
execution stack exactly the operator that waits for a join, or the one that frees it if it was detached,
and otherwise it is finished and was not detached.  It is forgotten only once it was detached or joined.
Its turns do not run out of work, a turn that fails stops it, and a context that stops is free and
forgotten if it was detached, and otherwise finished and kept for a join. -/
theorem contexts_end_by_sentinels {request : SettingsRequest} {machine : Machine Builtin}
    (hstart : Machine.start request id = .ok machine) (accepting : Bool) {b l : Chronicle}
    (hbefore : Steps (begin machine accepting) b) (hsince : Steps b l) {id : Nat}
    (hborn : b.world.scheduler.find? id ≠ none) :
    (∀ c, l.world.scheduler.find? id = some c →
      c.state.isActive = true ∧ c.stackSet.exec.fromBottom? 0 =
        some (Object.operator (machine.system.sentinel (l.annals.detached id))) ∨
      c.state = .zombie ∧ ¬ l.annals.detached id) ∧
    (l.world.scheduler.find? id = none → l.annals.detached id ∨ l.annals.joined id) ∧
    ∀ s budget turn t, l.world.nextSession? = some s → s.context.id = id →
      s.refrains budget = true → Session.runTurn budget s = (turn, t) →
      World.runNext budget l.world = .ok true (t.endTurn turn) ∧ turn ≠ .finished ∧
        (∀ fault, turn = .failed fault → t.context.state.isActive = false) ∧
        (t.context.state.isActive = false →
          t.context.state = .final ((l.annals.after (s.PerformsWithin budget)).detached id) ∧
          (t.endTurn turn).scheduler.find? id =
            if t.context.state = .free then none else some t.context) := by
  obtain ⟨horder, hsystem⟩ := (inOrder_begin (Machine.endsContexts_start hstart) accepting).steps hbefore
  obtain ⟨hlater, hsystem'⟩ := horder.steps hsince
  have hsame : l.world.system = machine.system := hsystem'.trans hsystem
  refine ⟨fun c hfind => ?_, fun hnone => ?_, ?_⟩
  · have haccords := hlater.covers.contexts id c hfind
    rw [hsame] at haccords
    cases hstate : c.state with
    | run | wait => exact .inl ⟨rfl, (haccords.active (by rw [hstate]; rfl)).bottom⟩
    | zombie => exact .inr ⟨rfl, haccords.zombie hstate⟩
    | free => exact absurd hstate (hlater.orderly.not_free c (Scheduler.mem_of_find? hfind))
  · have haccounts : l.Accounts id := Accounts.steps (.inl hborn) horder hsince
    exact haccounts.resolve_left (absurd hnone)
  · rintro s budget turn t hnext rfl hrefrains hturn
    have hopens := World.opens_of_nextSession? hlater.orderly.toRegistered hnext
    have hevolves := Session.evolves_runTurn budget hopens.running
    have hconcludes := hlater.concludes hopens hrefrains
    have hrun : World.runNext budget l.world = _ := runNext_eq hlater hnext
    rw [hturn] at hconcludes hevolves hrun
    have hid : t.context.id = s.context.id := hevolves.id_eq
    refine ⟨hrun, hconcludes.unfinished, hconcludes.failed, fun hended => ⟨?_, ?_⟩⟩
    · have hown := hconcludes.own
      rw [hid] at hown
      exact hown.state_eq hended
    · rw [find?_concluded hconcludes (hevolves.hosts hopens.hosts), hid, if_pos rfl]
      by_cases hfree : t.context.state = .free <;> simp [Option.filter, hfree]

/-! ## A run with a detach -/

/-- The host stores a procedure in the global memory. -/
lemma step_stored {machine : Machine Builtin} {es : List Object} {p : Object} {k : Memory}
    (hrun : Memory.newProc es [] machine.globalVM = .ok p k) (hwords : k.entityCount ≤ wordBound)
    (accepting : Bool) : Step (begin machine accepting) (begin { machine with globalVM := k } accepting) := by
  have hafter : OperatorTable.after (machine.operators, machine.globalVM) (.memory (.newProc es [])) =
      (machine.operators, k) := by
    rw [OperatorTable.after_memory, Memory.after_of_ok rfl hrun]
  have hmanaged : (begin machine accepting).world.managed (.memory (.newProc es [])) machine.names ⟨"", accepting⟩ =
      World.ofMachine { machine with globalVM := k } accepting := by
    show ({ World.ofMachine machine accepting with
      operators := (OperatorTable.after (machine.operators, machine.globalVM) (.memory (.newProc es []))).1
      globalVM := (OperatorTable.after (machine.operators, machine.globalVM) (.memory (.newProc es []))).2 } :
        World Builtin) = _
    rw [hafter]
    rfl
  have hstep := Step.managed (c := begin machine accepting) (.memory (.newProc es [])) machine.names
    ⟨"", accepting⟩ rfl (show (OperatorTable.after (machine.operators, machine.globalVM) _).2.entityCount ≤ _ by
      rw [hafter]
      exact hwords)
  rwa [hmanaged] at hstep

/-- A machine with the standard settings has room for a procedure in which the first context detaches
itself. -/
lemma exists_detaching : ∃ (machine : Machine Builtin) (p : Object) (k : Memory) (count : Nat),
    Machine.start {} id = .ok machine ∧ machine.settings = Settings.standard ∧ count < wordBound ∧
      Memory.newProc [Object.context 1, machine.word "detach"] [] machine.globalVM = .ok p k ∧
      ({ machine with globalVM := k } : Machine Builtin).Ready count ∧
      machine.globalVM.Procured .globalVM [] [Object.context 1, machine.word "detach"] p k := by
  have hresolve : SettingsRequest.resolve {} = .ok Settings.standard := rfl
  have hroom : Settings.standard.Offers 39 1 := ⟨by decide, by decide, by decide, by decide, by decide⟩
  obtain ⟨machine, hstart, hsettings, hoffers⟩ := Machine.exists_start hresolve hroom
  have hready := Machine.ready_start hstart
  have hcount : 2 + 2 * builtinDefs.length + 1 < wordBound := by decide
  obtain ⟨p, k, hrun, -, -⟩ := (Memory.affords_newProc hready.threaded hready.inOrder
    (Nat.lt_of_le_of_lt hready.entities (by omega)) [Object.context 1, machine.word "detach"] []
    (show 2 * 16 < 4294967296 by decide) hoffers).exists_ok
  obtain ⟨hstored, hprocured⟩ := hready.stored (by omega) hrun
  exact ⟨machine, p, k, _, hstart, hsettings, hcount, hrun, hstored, hprocured⟩

/-- The first context of such a machine has the next turn, and all of the procedure before it. -/
lemma nextSession?_detaching {built : Machine Builtin} (hsettings : built.settings = Settings.standard)
    {p : Object} {code : List Object} (hproc : p.isProc = true) (hbank : p.bank = .globalVM)
    (hcode : built.globalVM.arrayElements p = .ok code) :
    ∃ (localVM : Memory) (w : World Builtin) (c : Context) (s : Session Builtin),
      World.spawn p (World.ofMachine built true) = .ok 1 w ∧ w.scheduler.find? 1 = some c ∧ c.state = .run ∧
      w.nextSession? = some s ∧
      Scene.Depicts ⟨built, localVM⟩ ⟨.running 1 [] code, s.scheduler, ""⟩ s := by
  obtain ⟨localVM, hlocal, -⟩ : ∃ m, Memory.create .localVM Settings.standard = .ok m ∧ m.Threaded ∧
      m.Offers 0 0 :=
    Memory.exists_create .localVM 0 0 (by decide) (by decide) (by decide) (by decide) (by decide) (by decide)
  rw [← hsettings] at hlocal
  have hsegment : 0 < built.settings.segmentSize := by rw [hsettings]; decide
  have hexec : 2 ≤ built.settings.execStackLimit := by rw [hsettings]; decide
  obtain ⟨exec, hwf, hlist, hlimit, hspawn⟩ :=
    World.exists_spawn (w := World.ofMachine built true) hlocal hsegment hexec p
  let c : Context := ⟨1, .run, localVM, { StackSet.create built.settings with exec }, Object.null, none, none⟩
  let w : World Builtin := { World.ofMachine built true with scheduler := Scheduler.empty.allocateId.2.adopt c }
  let s : Session Builtin := { World.ofMachine built true with scheduler := ⟨[], [], 2⟩, context := c }
  have hfind : w.scheduler.find? 1 = some c := (Scheduler.find?_adopt _ c 1).trans (if_pos rfl)
  have hnext : w.nextSession? = some s := by
    have hqueue : w.scheduler.queue = [] ++ 1 :: [] := rfl
    have hrunnable := Scheduler.nextRunnable_of_canGoOn hqueue ⟨c, hfind, .inl rfl⟩ (by simp)
    rw [World.nextSession?, hrunnable]
    rfl
  refine ⟨localVM, w, c, s, hspawn, hfind, rfl, hnext, rfl, rfl, rfl, ?_⟩
  exact Portrait.depicts_new (σ := ⟨built, localVM⟩) hsegment hproc hbank hcode (.create hsegment _ _)
    ⟨hwf, hlimit, hlist⟩ 1

/-- A context is spawned on a procedure that was stored, detaches itself in its turn, and is forgotten. -/
theorem contexts_end_by_sentinels_detaching : ∃ (machine : Machine Builtin) (b d : Chronicle) (c : Context)
    (s t : Session Builtin),
    Machine.start {} id = .ok machine ∧ Steps (begin machine true) b ∧ b.world.scheduler.find? 1 = some c ∧
    c.stackSet.exec.fromBottom? 0 = some (Object.operator (machine.system.sentinel (b.annals.detached 1))) ∧
    b.world.nextSession? = some s ∧ s.context.id = 1 ∧ s.refrains 4 = true ∧
    Session.runTurn 4 s = (.switched, t) ∧ World.runNext 4 b.world = .ok true d.world ∧ Steps b d ∧
    t.context.state = .free ∧ t.context.state = .final (d.annals.detached 1) ∧
    d.world.scheduler.find? 1 = none ∧ ¬ b.annals.detached 1 ∧ d.annals.detached 1 := by
  obtain ⟨machine, p, k, count, hstart, hsettings, hcount, hrun, hready, hprocured⟩ := exists_detaching
  let built : Machine Builtin := { machine with globalVM := k }
  have hstandard : built.settings = Settings.standard := hsettings
  obtain ⟨localVM, w, c, s, hspawn, hfind, hactive, hnext, hs⟩ :=
    nextSession?_detaching hstandard hprocured.isProc hprocured.bank_eq hprocured.elements
  let b : Chronicle := ⟨w, .blank⟩
  have hstored : Step (begin machine true) (begin built true) :=
    step_stored hrun (Nat.le_trans hready.entities (Nat.le_of_lt hcount)) true
  have hspawned : Step (begin built true) b := by
    have hstep := Step.spawned (c := begin built true) p
    rwa [show finalState (World.spawn p) (begin built true).world = w from finalState_of_ok hspawn] at hstep
  have hbefore : Steps (begin machine true) b := .tail (.single hstored) hspawned
  have hword : Stage.Calls ⟨built, localVM⟩ (machine.word "detach") ⟨[.type .context], 0, .detach⟩ :=
    Stage.calls_of_means (hready.means "detach" ⟨"detach", .detach, 0, [.type .context]⟩ rfl)
  have hends := ((inOrder_begin (Machine.endsContexts_start hstart) true).step hstored).1.ends
  obtain ⟨hrefrains, hdetaches, t, hturn, hfree⟩ := Scene.frees_itself hends hword
    (by rw [hstandard]; decide) (show 1 < wordBound by decide) rfl rfl rfl rfl
    (by rw [hstandard]; exact Nat.zero_lt_succ _) hs
  have hborn : b.world.scheduler.find? 1 ≠ none := by
    rw [hfind]
    exact Option.some_ne_none c
  obtain ⟨hbottoms, -, hturns⟩ := contexts_end_by_sentinels hstart true hbefore .refl hborn
  obtain ⟨hnextRun, -, -, hended⟩ := hturns s 4 .switched t hnext hs.context.id hrefrains hturn
  obtain ⟨hfinal, hforgotten⟩ := hended (by rw [hfree]; rfl)
  rw [if_pos hfree] at hforgotten
  have hbottom : c.stackSet.exec.fromBottom? 0 =
      some (Object.operator (machine.system.sentinel (b.annals.detached 1))) := by
    rcases hbottoms c hfind with ⟨-, hbottom⟩ | ⟨hzombie, -⟩
    · exact hbottom
    · exact nomatch hactive.symm.trans hzombie
  exact ⟨machine, b, ⟨t.endTurn .switched, Annals.blank.after (s.PerformsWithin 4)⟩, c, s, t, hstart, hbefore,
    hfind, hbottom, hnext, hs.context.id, hrefrains, hturn, hnextRun,
    .single (.turned 4 hnext hrefrains hnextRun), hfree, hfinal, hforgotten, id, .inr hdetaches⟩

end Chronicle

end PostScriptCore
