import PostScriptCore.Proofs.Machine.Lifecycle
import PostScriptCore.Proofs.Machine.Reclaim
import PostScriptCore.Proofs.Machine.Vocabulary

/-!
# Machines stay in working order

What a context executes reaches memories only by their operations, and a child begins with a memory of its
own.  So when an operator, a turn or a reclaiming of storage is looked at on its own, the memories may be
assumed to be in working order: in a machine that has been started they are, wherever its contexts have come
to.

* `Session.Upkept` — what leaves all memories in working order.
* `Builtin.upkept_run`, `Session.upkept_runTurn` — a native, and a turn.
* `World.InOrder`, `World.Step` — a world between two turns, and what can happen to it.
* `World.inOrder_of_steps` — every run of a started machine.
-/

namespace PostScriptCore

namespace Session

variable {ν : Type} {s t : Session ν}

/-- If all memories of the one session are in working order, so are those of the other. -/
def Upkept (s t : Session ν) : Prop := s.InOrder → t.InOrder

instance : Std.Refl (@Upkept ν) := ⟨fun _ h => h⟩

namespace InOrder

lemma mk' (hglobal : s.globalVM.InOrder .globalVM) (hrunning : s.context.localVM.InOrder .localVM)
    (hwaiting : ∀ c ∈ s.scheduler.contexts, c.localVM.InOrder .localVM) : s.InOrder :=
  ⟨hglobal, List.forall_mem_cons.mpr ⟨hrunning, hwaiting⟩⟩

lemma running (h : s.InOrder) : s.context.localVM.InOrder .localVM :=
  h.localVM s.context (List.mem_cons_self ..)

lemma waiting (h : s.InOrder) {c : Context} (hc : c ∈ s.scheduler.contexts) : c.localVM.InOrder .localVM :=
  h.localVM c (List.mem_cons_of_mem _ hc)

end InOrder

/-- Only what the scheduler keeps of the running context has changed. -/
lemma Upkept.of_same (hglobal : t.globalVM = s.globalVM) (hscheduler : t.scheduler = s.scheduler)
    (hrunning : t.context.localVM = s.context.localVM) : Upkept s t := fun h =>
  .mk' (hglobal ▸ h.globalVM) (hrunning ▸ h.running) fun _ hc => h.waiting (hscheduler ▸ hc)

lemma Private.upkept (h : Private s t) : Upkept s t := fun hs =>
  .mk' (h.globalVM ▸ hs.globalVM) (h.context.localVM _ hs.running) fun _ hc => hs.waiting (h.scheduler ▸ hc)

/-- What is private but for the registry. -/
lemma Private.upkept_of_registry (h : Private s { t with scheduler := s.scheduler })
    (hwaiting : s.InOrder → ∀ c ∈ t.scheduler.contexts, c.localVM.InOrder .localVM) : Upkept s t := fun hs =>
  have ht := h.upkept hs
  .mk' ht.globalVM ht.running (hwaiting hs)

/-- Contexts of a registry have been exchanged. -/
lemma InOrder.waiting_update (h : s.InOrder) {id : Nat} {f : Context → Context}
    (hf : ∀ c ∈ s.scheduler.contexts, (f c).localVM.InOrder .localVM) :
    ∀ c ∈ (s.scheduler.update id f).contexts, c.localVM.InOrder .localVM := by
  intro c hc
  obtain ⟨d, hd, rfl⟩ := List.mem_map.mp hc
  split_ifs
  · exact hf d hd
  · exact h.waiting hd

end Session

/-! ## Natives -/

lemma Context.inOrder_create {id : Nat} {settings : Settings} {c : Context}
    (h : Context.create id settings = .ok c) : c.localVM.InOrder .localVM := by
  rw [create] at h
  split at h
  · next localVM hmemory =>
    cases h
    exact Memory.inOrder_create hmemory
  · contradiction

/-- A context that is detached keeps its memory. -/
lemma Action.localVM_detached {system : SystemOperators} {target c : Context}
    (h : detached system target = .ok c) : c.localVM = target.localVM := by
  cases hactive : target.state.isActive with
  | true =>
      obtain ⟨-, exec, -, rfl⟩ := detached_active h hactive
      rfl
  | false =>
      rw [detached] at h
      cases hstate : target.state with
      | run | wait =>
          rw [hstate] at hactive
          contradiction
      | free =>
          rw [hstate] at h
          contradiction
      | zombie =>
          rw [hstate] at h
          cases h
          rfl

namespace Action

open Session

variable {ν : Type} {s : Session ν}

lemma upkept_vmReclaim (mode : Object) : Follows Upkept (vmReclaim mode : Action ν Unit) := by
  intro s
  have hswept {t : Session ν} {result : Memory → EStateM.Result Fault Memory Nat → Prop}
      (ht : Sweeps mode s t result) (hresult : ∀ roots m, result m (Memory.collect roots true false s.globalVM) →
        m = s.globalVM.after (.collect roots true false)) : Upkept s t := by
    intro hs
    have hgoes := ht.goes_on.upkept hs
    refine .mk' ?_ hgoes.running fun c hc => hgoes.waiting hc
    rcases ht.globalVM with hsame | ⟨-, hcollected⟩
    · exact hsame ▸ hs.globalVM
    · rw [hresult _ _ hcollected]
      exact hs.globalVM.after rfl
  refine Ends.mono (ends_vmReclaim mode s) (fun _ t ht => hswept ht ?_) fun _ t ht => hswept ht ?_
  · rintro roots m ⟨total, hrun⟩
    exact (Memory.after_of_ok rfl hrun).symm
  · rintro roots m ⟨fault, hrun⟩
    rw [Memory.after, MemoryOp.perform, finalState_discard, finalState_of_error hrun]

/-- A child begins with a memory of its own. -/
lemma upkept_fork (proc : Object) : Follows Upkept (fork proc : Action ν Unit) := by
  intro s
  refine Ends.mono (ends_fork proc s) (fun _ _ h => h.elim) fun _ t ⟨hprivate, hscheduler⟩ => ?_
  refine hprivate.upkept_of_registry fun hs c hc => ?_
  rcases hscheduler with h | h | ⟨operands, child, hmake, h⟩ <;> rw [h] at hc
  · exact hs.waiting hc
  · exact hs.waiting hc
  · rcases Scheduler.mem_insertOrdered hc with rfl | hc
    · obtain ⟨fresh, hcreate, hproceeds⟩ := proceeds_makeChild hmake
      exact hproceeds.localVM _ (Context.inOrder_create hcreate)
    · exact hs.waiting hc

lemma upkept_join (handle : Object) : Follows Upkept (join handle : Action ν Unit) := by
  intro s
  refine Ends.mono (ends_join handle s) (fun _ t ht => ?_) fun _ t ht hs => ?_
  · obtain ⟨hprivate, target, -, -, -, hscheduler⟩ := ht
    refine hprivate.upkept_of_registry fun hs => ?_
    rw [hscheduler]
    exact hs.waiting_update fun c hc => hs.waiting (c := c) hc
  · have hgoes := ht.goes_on.upkept hs
    exact .mk' hgoes.globalVM hgoes.running fun c hc => hgoes.waiting hc

lemma upkept_detach (handle : Object) : Follows Upkept (detach handle : Action ν Unit) := by
  intro s
  refine Ends.mono (ends_detach handle s) (fun _ t ht => ?_) fun _ t ht => ht ▸ id
  obtain ⟨target, c, -, hdetached, ht⟩ := ht
  have hmemory := localVM_detached hdetached
  rcases ht with ⟨rfl, rfl⟩ | ⟨hfind, rfl⟩
  · exact .of_same rfl rfl hmemory
  · have htarget (hs : s.InOrder) : c.localVM.InOrder .localVM :=
      hmemory ▸ hs.waiting (Scheduler.mem_of_find? hfind)
    exact Private.upkept_of_registry (.refl s) fun hs => hs.waiting_update fun _ _ => htarget hs

lemma upkept_finish (state : ContextState) : Follows Upkept (finish state : Action ν Unit) := fun _ =>
  .of_same rfl rfl rfl

end Action

/-- **Every native** leaves the memories in working order. -/
lemma Builtin.upkept_run {ν : Type} (native : Builtin) (args : List Object) :
    Follows Session.Upkept (native.run args : Action ν Unit) := by
  cases native.concerns args with
  | itself args hpersonal =>
      exact fun s => Ends.mono (private_run hpersonal args s) (fun _ _ h => h.upkept) fun _ _ h => h.upkept
  | nobody h =>
      rw [h]
      exact .throw _
  | globalVM mode => exact Action.upkept_vmReclaim mode
  | child proc => exact Action.upkept_fork proc
  | joined handle => exact Action.upkept_join handle
  | detached handle => exact Action.upkept_detach handle
  | ended => exact Action.upkept_finish .zombie
  | freed => exact Action.upkept_finish .free

/-! ## Turns -/

namespace Session

variable {s t : Session Builtin}

lemma upkept_execute (obj : Object) (s : Session Builtin) : Upkept s (finalState (execute obj) s) := by
  rcases execute_cases obj s with ⟨hprivate, -⟩ | ⟨native, args, t, need, -, hprivate, hrun⟩
  · exact hprivate.upkept
  · have hafter := private_releasingHold need (native.run args) t
    rw [finalState, hrun]
    exact fun hs => hafter.upkept (Ends.finalState (native.upkept_run args t) (hprivate.upkept hs))

lemma upkept_nextObject {obj : Object} (h : s.nextObject? = some (obj, t)) : Upkept s t := by
  rw [nextObject?] at h
  split at h
  · contradiction
  · cases h
    exact .of_same rfl rfl rfl

/-- **A turn** leaves the memories in working order, however far it comes. -/
lemma upkept_runTurn (budget : Nat) (s : Session Builtin) : Upkept s (runTurn budget s).2 := by
  induction budget generalizing s with
  | zero => exact id
  | succ budget ih =>
      rw [runTurn]
      cases hnext : s.nextObject? with
      | none => exact id
      | some next =>
          obtain ⟨obj, t⟩ := next
          intro hs
          have hexecuted := upkept_execute obj t (upkept_nextObject hnext hs)
          dsimp only
          cases hrun : execute obj t with
          | ok a u =>
              rw [finalState_of_ok hrun] at hexecuted
              exact ih u hexecuted
          | error fault u =>
              rw [finalState_of_error hrun] at hexecuted
              dsimp only
              split_ifs
              · exact hexecuted
              · have hfailed : Upkept u (fail fault u) := .of_same rfl rfl rfl
                exact hfailed hexecuted

/-- A native that runs in a turn finds the memories in working order. -/
lemma PerformsWithin.upkept {n : Nat} {native : Builtin} {args : List Object}
    (h : s.PerformsWithin n native args t) : Upkept s t := by
  obtain ⟨k, u, obj, v, -, hreached, hnext, ⟨opcode, -, hinvokes⟩, -⟩ := h
  intro hs
  have hu : u.InOrder := by
    have hturn := upkept_runTurn k s hs
    rwa [hreached] at hturn
  exact hinvokes.private.upkept (upkept_nextObject hnext hu)

end Session

/-! ## Runs -/

/-- Whether the operation leaves tags of entities to the allocator and does not choose the collector. -/
def RegistryOp.keepsOrder {ν : Type} : RegistryOp ν → Bool
  | memory op => op.keepsOrder
  | _ => true

lemma OperatorTable.upkeeps_after {ν : Type} [NativeArity ν] {op : RegistryOp ν} (hop : op.keepsOrder = true)
    (s : OperatorTable ν × Memory) : Upkeeps s (after s op) := by
  refine Ends.finalState (P := fun t => Upkeeps s t) ?_
  cases op with
  | declare name => exact Follows.map (upkeeps_declare _) _ s
  | cons name native outArity patterns => exact Follows.map (upkeeps_cons _ _ _ _) _ s
  | memory op => exact Follows.map (upkeeps_onMemory (Memory.upkept_perform op hop)) _ s

namespace World

/-- All memories are in working order between two turns. -/
structure InOrder {ν : Type} (w : World ν) : Prop where
  globalVM : w.globalVM.InOrder .globalVM
  localVM : ∀ c ∈ w.scheduler.contexts, c.localVM.InOrder .localVM

/-- What can happen to a world: a context is spawned or has a turn, and the host uses the memory and the
operators that the contexts share. -/
inductive Step (w : World Builtin) : World Builtin → Prop
  | spawned (program : Object) : Step w (finalState (spawn program) w)
  | turned (budget : Nat) : Step w (finalState (runNext budget) w)
  | managed (op : RegistryOp Builtin) (names : Names) (output : Output) (hop : op.keepsOrder = true) :
    Step w (w.managed op names output)

variable {v w : World Builtin} {s : Session Builtin}

/-- A turn begins in working order. -/
lemma InOrder.opens (h : w.InOrder) (hopens : w.Opens s) : s.InOrder := by
  obtain ⟨c, hfind, hcontext, -⟩ := hopens.taken
  refine .mk' ?_ ?_ fun d hd => ?_
  · rw [hopens.machine]
    exact h.globalVM
  · rw [hcontext]
    exact h.localVM c (Scheduler.mem_of_find? hfind)
  · have hother : d.id ≠ s.context.id := Scheduler.find?_eq_none_iff.mp hopens.hosts.absent d hd
    have hd' := (Scheduler.find?_eq_some_iff hopens.hosts.registered.ids_nodup).mpr ⟨hd, rfl⟩
    rw [hopens.others d.id hother] at hd'
    exact h.localVM d (Scheduler.mem_of_find? hd')

lemma inOrder_endTurn (h : s.InOrder) (turn : Turn) : (s.endTurn turn).InOrder := by
  refine ⟨h.globalVM, fun c hc => ?_⟩
  rcases Scheduler.mem_enrol (List.mem_filter.mp hc).1 with rfl | hc
  · rw [Session.leftover]
    split_ifs <;> exact h.running
  · exact h.waiting hc

lemma InOrder.step (h : v.InOrder) (horderly : v.scheduler.Orderly) (hstep : Step v w) :
    w.InOrder ∧ w.scheduler.Orderly := by
  cases hstep with
  | spawned program =>
      refine ⟨?_, (orderly_spawn horderly program).1⟩
      rcases spawn_cases program v with hspawn | ⟨child, -, -, ⟨c, exec, hcreate, -, rfl⟩, hspawn⟩
      · rw [hspawn]
        exact ⟨h.globalVM, h.localVM⟩
      · rw [hspawn]
        refine ⟨h.globalVM, fun d hd => ?_⟩
        rcases Scheduler.mem_insertOrdered hd with rfl | hd
        · have hcreated := Context.inOrder_create hcreate
          exact hcreated
        · exact h.localVM d hd
  | turned budget =>
      refine ⟨?_, (orderly_runNext horderly budget).1⟩
      rcases nextSession?_cases horderly.toRegistered budget with ⟨s, -, hopens, hrun⟩ | ⟨-, queue, -, hrun⟩
      · rw [finalState_of_ok hrun]
        exact inOrder_endTurn (Session.upkept_runTurn budget s (h.opens hopens)) _
      · rw [hrun]
        exact ⟨h.globalVM, h.localVM⟩
  | managed op names output hop =>
      exact ⟨⟨OperatorTable.upkeeps_after hop (v.operators, v.globalVM) _ h.globalVM, h.localVM⟩, horderly⟩

/-- **In every run of a started machine** all memories are in working order: between two turns, wherever a turn
has come to, and whenever a native runs in it. -/
theorem inOrder_of_steps {request : SettingsRequest} {machine : Machine Builtin}
    (hstart : Machine.start request id = .ok machine) (accepting : Bool)
    (hsteps : Relation.ReflTransGen Step (ofMachine machine accepting) w) :
    w.InOrder ∧ ∀ s, w.nextSession? = some s → ∀ objects,
      (Session.runTurn objects s).2.InOrder ∧
      ∀ native args t, s.PerformsWithin objects native args t → t.InOrder := by
  have hbegin : (ofMachine machine accepting).InOrder :=
    ⟨(Machine.ready_start hstart).inOrder, fun c hc => absurd hc List.not_mem_nil⟩
  obtain ⟨horder, horderly⟩ : w.InOrder ∧ w.scheduler.Orderly := by
    induction hsteps with
    | refl => exact ⟨hbegin, Scheduler.orderly_empty⟩
    | tail _ hstep ih => exact ih.1.step ih.2 hstep
  refine ⟨horder, fun s hnext objects => ?_⟩
  have hs := horder.opens (opens_of_nextSession? horderly.toRegistered hnext)
  exact ⟨Session.upkept_runTurn objects s hs, fun _ _ _ hperforms => hperforms.upkept hs⟩

end World

end PostScriptCore
