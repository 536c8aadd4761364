import PostScriptCore.Proofs.Machine.Execution
import PostScriptCore.Proofs.Machine.Rendezvous
import PostScriptCore.Proofs.Machine.SavedReferences
import PostScriptCore.Proofs.Machine.Schedule

/-!
# Contexts are isolated

While one context has its turn, it holds the whole machine.  Of the other contexts it can nevertheless
change only those that it joins or detaches, and of the global memory only what nobody can reach.

* `Context.Touched` — what a context that performs certain natives may do to another one.
* `Session.Unreached`, `Memory.Fate` — what it may do to an entity of the global memory.
* `Session.Isolates` — both, for a part of a turn; `Session.isolates_execute` for one object and
  `Session.isolates_runTurn` for any number of them, with whatever failure at the end.
* `World.turn_isolates_contexts` — a whole turn, from one world to the next.
-/

namespace PostScriptCore

/-! ## Other contexts -/

/-- What becomes of a context that is not running, if the running one performs certain natives: it is
untouched, joined or detached. -/
inductive Context.Touched (system : SystemOperators) (performed : Performed) (c : Context) :
    Context → Prop
  | untouched : Touched system performed c c
  | joined {handle : Object} {s : Session Builtin} (h : performed .join [handle] s)
    (hnames : handle.asContext? = some c.id) (hzombie : c.state = .zombie) :
    Touched system performed c
      { c with stackSet := { c.stackSet with operands := c.stackSet.operands.clear }, state := .free }
  | dropped {handle : Object} {s : Session Builtin} (h : performed .detach [handle] s)
    (hnames : handle.asContext? = some c.id) (hzombie : c.state = .zombie) :
    Touched system performed c { c with state := .free }
  | detached {handle : Object} {s : Session Builtin} (h : performed .detach [handle] s)
    (hnames : handle.asContext? = some c.id) (hactive : c.state.isActive = true) {exec : Stack}
    (hexec : Stack.replaceFromBottom 0 (Object.operator system.free) c.stackSet.exec = .ok () exec) :
    Touched system performed c { c with stackSet := { c.stackSet with exec } }

/-- Overwriting an item once more changes nothing. -/
lemma Stack.replaceFromBottom_again {s t u : Stack} {index : Nat} {obj : Object}
    (h : replaceFromBottom index obj s = .ok () t) (h' : replaceFromBottom index obj t = .ok () u) :
    u = t := by
  rw [replaceFromBottom] at h h'
  split_ifs at h h'
  cases h
  cases h'
  simp only [setSlot, Stack.mk.injEq, and_true]
  refine Array.ext_getElem? fun i => ?_
  simp only [Array.getElem?_modify]
  split_ifs
  · simp [Option.map_map, Function.comp_def]
  · rfl

namespace Context.Touched

variable {system : SystemOperators} {performed performed' : Performed} {c c' c'' : Context}

lemma mono (h : c.Touched system performed c')
    (himp : ∀ native args s, performed native args s → performed' native args s) :
    c.Touched system performed' c' := by
  cases h with
  | untouched => exact .untouched
  | joined h hnames hzombie => exact .joined (himp _ _ _ h) hnames hzombie
  | dropped h hnames hzombie => exact .dropped (himp _ _ _ h) hnames hzombie
  | detached h hnames hactive hexec => exact .detached (himp _ _ _ h) hnames hactive hexec

/-- A free context is not touched any more. -/
lemma eq_of_free (h : c.Touched system performed c') (hfree : c.state = .free) : c' = c := by
  cases h with
  | untouched => rfl
  | joined _ _ hzombie | dropped _ _ hzombie => exact absurd (hfree.symm.trans hzombie) (by decide)
  | detached _ _ hactive _ =>
      rw [hfree] at hactive
      contradiction

/-- **A context is touched at most once**, but for a second detach that changes nothing. -/
lemma trans (h : c.Touched system performed c') (h' : c'.Touched system performed c'') :
    c.Touched system performed c'' := by
  cases h with
  | untouched => exact h'
  | joined h hnames hzombie => exact h'.eq_of_free rfl ▸ .joined h hnames hzombie
  | dropped h hnames hzombie => exact h'.eq_of_free rfl ▸ .dropped h hnames hzombie
  | detached h hnames hactive hexec =>
      cases h' with
      | untouched => exact .detached h hnames hactive hexec
      | joined _ _ hzombie | dropped _ _ hzombie =>
          have hzombie : c.state = .zombie := hzombie
          rw [hzombie] at hactive
          contradiction
      | detached _ _ _ hexec' =>
          obtain rfl := Stack.replaceFromBottom_again hexec hexec'
          exact .detached h hnames hactive hexec

/-- Detaching a context that is not running. -/
lemma of_detached {handle : Object} {s : Session Builtin} (h : performed .detach [handle] s)
    (hnames : handle.asContext? = some c.id) (hdetached : Action.detached system c = .ok c') :
    c.Touched system performed c' := by
  cases hstate : c.state.isActive with
  | true =>
      obtain ⟨-, exec, hexec, rfl⟩ := Action.detached_active hdetached hstate
      exact .detached h hnames hstate hexec
  | false =>
      cases hfinished : c.state with
      | zombie =>
          rw [Action.detached, hfinished] at hdetached
          cases hdetached
          exact .dropped h hnames hfinished
      | free =>
          rw [Action.detached, hfinished] at hdetached
          contradiction
      | run | wait =>
          rw [hfinished] at hstate
          contradiction

end Context.Touched

/-! ## The global memory -/

/-- Nothing reaches the entity of the global memory: not what a collection by `2 vmreclaim` starts from,
and, if all is in order, no context at all. -/
structure Session.Unreached (s : Session Builtin) (id : Nat) : Prop where
  roots : ¬ Memory.Reaches s.globalVM s.reclaimRoots id
  contexts : s.InOrder → s.Closed → ∀ c ∈ s.contexts, ¬ c.Reaches s.globalVM .globalVM id

/-- No root of the collection is missing. -/
lemma Session.unreached_of_roots {s : Session Builtin} {id : Nat}
    (h : ¬ Memory.Reaches s.globalVM s.reclaimRoots id) : s.Unreached id := by
  refine ⟨h, fun hs hclosed c hc hreaches => h ?_⟩
  have hlocal := hs.localVM _ (List.mem_cons_self ..)
  obtain ⟨n, hcollect, hn⟩ := Memory.collect_run hlocal.sound hlocal.tidy hlocal.collector_eq
    s.context.stackSet.roots
  rw [reclaimRoots, finalState_of_ok (Action.collectLocal_ok hcollect)]
  exact CollectsLocally.reaches_globalRoots hn hs hclosed hc hreaches

/-- What becomes of an entity of the global memory, if the running context performs certain natives: it has
the tag and the bytes that it had, or it is free, because nothing reached it when `2 vmreclaim` was
performed. -/
inductive Memory.Fate (performed : Performed) (m n : Memory) (id : Nat) : Prop
  | kept (h : n.cell? id = m.cell? id)
  | freed {mode : Object} {s : Session Builtin} (h : performed .vmReclaim [mode] s)
    (hmode : mode.asInt? = some 2) (hunreached : s.Unreached id) {cell : Cell}
    (hcell : n.cell? id = some cell) (hfree : cell.isFree = true)

namespace Memory.Fate

variable {performed performed' : Performed} {m n k : Memory} {id : Nat}

lemma mono (h : Memory.Fate performed m n id)
    (himp : ∀ native args s, performed native args s → performed' native args s) :
    Memory.Fate performed' m n id := by
  cases h with
  | kept h => exact .kept h
  | freed h hmode hunreached hcell hfree => exact .freed (himp _ _ _ h) hmode hunreached hcell hfree

lemma trans (h : Memory.Fate performed m n id) (h' : Memory.Fate performed n k id) :
    Memory.Fate performed m k id := by
  cases h with
  | kept h =>
      cases h' with
      | kept h' => exact .kept (h'.trans h)
      | freed h' hmode hunreached hcell hfree => exact .freed h' hmode hunreached hcell hfree
  | freed h hmode hunreached hcell hfree =>
      cases h' with
      | kept h' => exact .freed h hmode hunreached (h'.trans hcell) hfree
      | freed _ _ _ hcell' hfree' => exact .freed h hmode hunreached hcell' hfree'

end Memory.Fate

/-- A collection that fails has done nothing. -/
lemma Memory.eq_of_collect_error {m n : Memory} (hs : m.Sound) (ht : m.Tidy) {roots : List Object}
    {fault : Fault} (h : Memory.collect roots true false m = .error fault n) : n = m := by
  cases hcollector : m.collector with
  | none =>
      rw [Memory.collect, hcollector] at h
      contradiction
  | some collector =>
      cases collector with
      | failing fault' =>
          rw [Memory.collect, hcollector] at h
          injection h with _ hsame
          exact hsame.symm
      | markSweep =>
          obtain ⟨k, hrun, -⟩ := Memory.collect_run hs ht hcollector roots
          rw [h] at hrun
          contradiction

/-! ## A part of a turn -/

namespace Session

variable {performed performed' : Performed} {s t u : Session Builtin} {obj : Object}

/-- What a part of a turn, in which certain natives are performed, leaves of the other contexts and of the
global memory. -/
structure Isolates (performed : Performed) (s t : Session Builtin) : Prop where
  system : t.system = s.system
  sound : t.globalVM.Sound
  tidy : t.globalVM.Tidy
  contexts : ∀ id c, s.scheduler.find? id = some c →
    ∃ c', t.scheduler.find? id = some c' ∧ c.Touched s.system performed c'
  entities : ∀ id cell, s.globalVM.cell? id = some cell → Memory.Fate performed s.globalVM t.globalVM id

namespace Isolates

lemma mono (h : Isolates performed s t)
    (himp : ∀ native args u, performed native args u → performed' native args u) :
    Isolates performed' s t where
  system := h.system
  sound := h.sound
  tidy := h.tidy
  contexts id c hfind := (h.contexts id c hfind).imp fun _ hc => ⟨hc.1, hc.2.mono himp⟩
  entities id cell hcell := (h.entities id cell hcell).mono himp

lemma trans (h : Isolates performed s t) (h' : Isolates performed t u) : Isolates performed s u where
  system := h'.system.trans h.system
  sound := h'.sound
  tidy := h'.tidy
  contexts id c hfind := by
    obtain ⟨c', hfind', hc'⟩ := h.contexts id c hfind
    obtain ⟨c'', hfind'', hc''⟩ := h'.contexts id c' hfind'
    exact ⟨c'', hfind'', hc'.trans (h.system ▸ hc'')⟩
  entities id cell hcell := by
    have hfate := h.entities id cell hcell
    cases hfate with
    | kept hkept => exact (Memory.Fate.kept hkept).trans (h'.entities id cell (hkept.trans hcell))
    | freed hperformed hmode hunreached hcell' hfree =>
        exact (Memory.Fate.freed hperformed hmode hunreached hcell' hfree).trans (h'.entities id _ hcell')

/-- Nothing happens but to the running context. -/
lemma of_same (hsound : s.globalVM.Sound) (htidy : s.globalVM.Tidy) (hsystem : t.system = s.system)
    (hscheduler : t.scheduler = s.scheduler) (hglobalVM : t.globalVM = s.globalVM) :
    Isolates performed s t where
  system := hsystem
  sound := hglobalVM ▸ hsound
  tidy := hglobalVM ▸ htidy
  contexts id c hfind := ⟨c, by rw [hscheduler]; exact hfind, .untouched⟩
  entities id cell _ := .kept (by rw [hglobalVM])

lemma of_private (hsound : s.globalVM.Sound) (htidy : s.globalVM.Tidy) (h : Private s t) :
    Isolates performed s t :=
  .of_same hsound htidy h.system h.scheduler h.globalVM

end Isolates

/-! ## One object -/

/-- A collection from the roots of all contexts. -/
lemma isolates_collected {mode : Object} (hsound : s.globalVM.Sound) (htidy : s.globalVM.Tidy)
    (hmode : mode.asInt? = some 2) (hperformed : performed .vmReclaim [mode] s) {total : Nat}
    (hcollect : Memory.collect s.reclaimRoots true false s.globalVM = .ok total t.globalVM)
    (hsystem : t.system = s.system) (hscheduler : t.scheduler = s.scheduler) :
    Isolates performed s t := by
  cases hcollector : s.globalVM.collector with
  | none =>
      rw [Memory.collect, hcollector] at hcollect
      injection hcollect with _ hsame
      exact .of_same hsound htidy hsystem hscheduler hsame.symm
  | some collector =>
      cases collector with
      | failing fault =>
          rw [Memory.collect, hcollector] at hcollect
          contradiction
      | markSweep =>
          obtain ⟨n, hrun, hcollected⟩ := Memory.collect_run hsound htidy hcollector s.reclaimRoots
          rw [hcollect] at hrun
          injection hrun with _ hn
          subst hn
          refine ⟨hsystem, hcollected.sound, hcollected.tidy,
            fun id c hfind => ⟨c, by rw [hscheduler]; exact hfind, .untouched⟩, fun id cell hcell => ?_⟩
          by_cases hgarbage : Memory.Garbage s.globalVM s.reclaimRoots id
          · obtain ⟨row, hid, hrow, -⟩ := Memory.row_of_cell hcell
            have hgone := hcollected.gone id row hid hrow hgarbage
            obtain ⟨-, -, -, -, hunreached⟩ := hgarbage
            exact .freed hperformed hmode (unreached_of_roots hunreached) (Memory.cell?_of_row hid hgone)
              (Memory.isFree_freedRow row)
          · exact .kept (hcollected.cell?_kept hsound hcell hgarbage)

lemma isolates_vmReclaim (mode : Object) (hsound : s.globalVM.Sound) (htidy : s.globalVM.Tidy) :
    Isolates (runs .vmReclaim [mode] s) s (finalState (Action.vmReclaim mode) s) := by
  have hends := Action.ends_vmReclaim mode s
  rw [Ends] at hends
  cases hrun : Action.vmReclaim mode s with
  | ok a t =>
      rw [hrun] at hends
      rw [finalState_of_ok hrun]
      rcases hends.globalVM with hsame | ⟨hmode, total, hcollect⟩
      · exact .of_same hsound htidy hends.goes_on.system hends.goes_on.scheduler hsame
      · exact isolates_collected hsound htidy hmode ⟨⟨rfl, rfl, rfl⟩, t, hrun⟩ hcollect
          hends.goes_on.system hends.goes_on.scheduler
  | error fault t =>
      rw [hrun] at hends
      rw [finalState_of_error hrun]
      have hsame : t.globalVM = s.globalVM := by
        rcases hends.globalVM with hsame | ⟨-, fault, hcollect⟩
        · exact hsame
        · exact Memory.eq_of_collect_error hsound htidy hcollect
      exact .of_same hsound htidy hends.goes_on.system hends.goes_on.scheduler hsame

/-- A fork adopts a context with a new number. -/
lemma isolates_fork (proc : Object) (hnew : s.scheduler.find? s.scheduler.nextId = none)
    (hsound : s.globalVM.Sound) (htidy : s.globalVM.Tidy) :
    Isolates performed s (finalState (Action.fork proc) s) := by
  refine Ends.finalState (Ends.mono (Action.ends_fork proc s) (fun _ _ h => h.elim)
    fun _ t ⟨hprivate, hscheduler⟩ => ⟨hprivate.system, ?_, ?_, fun id c hfind => ⟨c, ?_, .untouched⟩, ?_⟩)
  · exact (show t.globalVM = s.globalVM from hprivate.globalVM) ▸ hsound
  · exact (show t.globalVM = s.globalVM from hprivate.globalVM) ▸ htidy
  · rcases hscheduler with hscheduler | hscheduler | ⟨operands, child, hchild, hscheduler⟩
    · rw [hscheduler]
      exact hfind
    · rw [hscheduler]
      exact hfind
    · have hid : child.id = s.scheduler.nextId := congrArg Standing.id (Action.standing_makeChild hchild)
      have hne : id ≠ child.id := by
        rintro rfl
        rw [hid, hnew] at hfind
        contradiction
      rw [hscheduler, Scheduler.find?_adopt, if_neg hne]
      exact hfind
  · exact fun id cell _ => .kept (congrArg (Memory.cell? · id) hprivate.globalVM)

/-- What becomes of the contexts in the registry, if one of them is changed. -/
lemma contexts_updated {system : SystemOperators} {registry : Scheduler} {target : Context}
    (hfind : registry.find? target.id = some target) {f : Context → Context}
    (hid : ∀ c : Context, c.id = target.id → (f c).id = target.id)
    (htouched : target.Touched system performed (f target)) {id : Nat} {c : Context}
    (hc : registry.find? id = some c) :
    ∃ c', (registry.update target.id f).find? id = some c' ∧ c.Touched system performed c' := by
  rw [Scheduler.find?_update hid]
  split_ifs with htarget
  · subst htarget
    rw [hfind] at hc ⊢
    cases hc
    exact ⟨_, rfl, htouched⟩
  · exact ⟨c, hc, .untouched⟩

lemma isolates_join (handle : Object) (hsound : s.globalVM.Sound) (htidy : s.globalVM.Tidy) :
    Isolates (runs .join [handle] s) s (finalState (Action.join handle) s) := by
  have hends := Action.ends_join handle s
  rw [Ends] at hends
  cases hrun : Action.join handle s with
  | ok a t =>
      rw [hrun] at hends
      rw [finalState_of_ok hrun]
      obtain ⟨hprivate, target, hnames, hfind, hzombie, hscheduler⟩ := hends
      have hglobalVM : t.globalVM = s.globalVM := hprivate.globalVM
      refine ⟨hprivate.system, hglobalVM ▸ hsound, hglobalVM ▸ htidy, fun id c hc => ?_,
        fun id cell _ => .kept (by rw [hglobalVM])⟩
      rw [hscheduler]
      exact contexts_updated (f := Context.released) hfind (fun _ h => h)
        (.joined ⟨⟨rfl, rfl, rfl⟩, t, hrun⟩ hnames hzombie) hc
  | error fault t =>
      rw [hrun] at hends
      rw [finalState_of_error hrun]
      exact .of_same hsound htidy hends.goes_on.system hends.goes_on.scheduler hends.goes_on.globalVM

lemma isolates_detach (handle : Object) (hsound : s.globalVM.Sound) (htidy : s.globalVM.Tidy) :
    Isolates (runs .detach [handle] s) s (finalState (Action.detach handle) s) := by
  have hends := Action.ends_detach handle s
  rw [Ends] at hends
  cases hrun : Action.detach handle s with
  | ok a t =>
      rw [hrun] at hends
      rw [finalState_of_ok hrun]
      obtain ⟨target, c', hnames, hdetached, ⟨-, rfl⟩ | ⟨hfind, rfl⟩⟩ := hends
      · exact .of_same hsound htidy rfl rfl rfl
      · have hid : c'.id = target.id := (Action.standing_detached hdetached).2.1
        refine ⟨rfl, hsound, htidy, fun id c hc => ?_, fun id cell _ => .kept rfl⟩
        exact contexts_updated hfind (fun _ _ => hid)
          (.of_detached ⟨⟨rfl, rfl, rfl⟩, _, hrun⟩ hnames hdetached) hc
  | error fault t =>
      rw [hrun] at hends
      rw [finalState_of_error hrun, show t = s from hends]
      exact .of_same hsound htidy rfl rfl rfl

/-- **A native isolates**, whether it succeeds or fails. -/
lemma isolates_run (native : Builtin) (args : List Object) (s : Session Builtin)
    (hnew : s.scheduler.find? s.scheduler.nextId = none) (hsound : s.globalVM.Sound)
    (htidy : s.globalVM.Tidy) :
    Isolates (runs native args s) s (finalState (native.run args) s) := by
  have hprivate {t : Session Builtin} (h : Private s t) : Isolates (runs native args s) s t :=
    .of_private hsound htidy h
  cases native.concerns args with
  | itself args hpersonal => exact hprivate (Ends.finalState (Builtin.private_run hpersonal args s))
  | nobody hrefused =>
      have hrun : native.run args s = .error .invalidSignature s := congrFun (hrefused Builtin) s
      rw [finalState_of_error hrun]
      exact hprivate (.refl s)
  | globalVM mode => exact isolates_vmReclaim mode hsound htidy
  | child proc => exact isolates_fork proc hnew hsound htidy
  | joined handle => exact isolates_join handle hsound htidy
  | detached handle => exact isolates_detach handle hsound htidy
  | ended => exact .of_same hsound htidy rfl rfl rfl
  | freed => exact .of_same hsound htidy rfl rfl rfl

/-- **Executing an object isolates.** -/
lemma isolates_execute (obj : Object) (s : Session Builtin)
    (hnew : s.scheduler.find? s.scheduler.nextId = none) (hsound : s.globalVM.Sound)
    (htidy : s.globalVM.Tidy) :
    Isolates (s.Performs obj) s (finalState (execute obj) s) := by
  rcases execute_cases obj s with ⟨hprivate, -⟩ | ⟨native, args, t, need, hcalls, hprivate, hrun⟩
  · exact .of_private hsound htidy hprivate
  · have hbefore : Isolates (s.Performs obj) s t := .of_private hsound htidy hprivate
    have hnative := isolates_run native args t (by rw [hprivate.scheduler]; exact hnew) hbefore.sound
      hbefore.tidy
    have hafter := private_releasingHold need (native.run args) t
    have hfinal : finalState (execute obj) s = finalState (releasingHold need (native.run args)) t := by
      rw [finalState, finalState, hrun]
    rw [hfinal, hcalls.performs_eq]
    rw [hcalls.performs_eq] at hbefore
    exact hbefore.trans (hnative.trans (.of_private hnative.sound hnative.tidy hafter))

/-! ## Turns -/

/-- **A turn isolates**, however it ends. -/
lemma isolates_runTurn (budget : Nat) {s : Session Builtin} (hrunning : s.context.state = .run)
    (hhosts : s.scheduler.Hosts s.context.standing) (hsound : s.globalVM.Sound)
    (htidy : s.globalVM.Tidy) : Isolates (s.PerformsWithin budget) s (runTurn budget s).2 := by
  induction budget generalizing s with
  | zero => exact .of_private hsound htidy (.refl s)
  | succ budget ih =>
      cases hnext : s.nextObject? with
      | none =>
          rw [runTurn, hnext]
          exact .of_private hsound htidy (.refl s)
      | some next =>
          obtain ⟨obj, v⟩ := next
          have hquiet := quiet_of_nextObject? hnext
          have hv : v.toWorld = s.toWorld := by
            rw [nextObject?] at hnext
            split at hnext
            · contradiction
            · cases hnext
              rfl
          have hsame : Isolates (s.PerformsWithin (budget + 1)) s v :=
            .of_same hsound htidy (congrArg (·.system) hv) (congrArg (·.scheduler) hv)
              (congrArg (·.globalVM) hv)
          have hvhosts : v.scheduler.Hosts v.context.standing := by
            rw [hquiet.scheduler, hquiet.standing]
            exact hhosts
          have hstep := (isolates_execute obj v hvhosts.registered.find?_nextId hsame.sound hsame.tidy).mono
            fun native args t h => (performsWithin_succ (n := budget) hnext).mpr (.inl h)
          have hacts := acts_execute obj (hquiet.running hrunning)
          rw [Ends] at hacts
          rw [runTurn, hnext]
          dsimp only
          cases hrun : execute obj v with
          | ok a w =>
              rw [hrun] at hacts
              rw [finalState_of_ok hrun] at hstep
              have hrest := ih hacts.2 (hvhosts.effect hacts.1.effect) hstep.sound hstep.tidy
              have hwithin : ∀ native args t, w.PerformsWithin budget native args t →
                  s.PerformsWithin (budget + 1) native args t := fun native args t h =>
                (performsWithin_succ hnext).mpr (.inr ⟨w, hrun, h⟩)
              exact hsame.trans (hstep.trans (hrest.mono hwithin))
          | error fault w =>
              rw [finalState_of_error hrun] at hstep
              dsimp only
              split_ifs
              · exact hsame.trans hstep
              · exact hsame.trans (hstep.trans (.of_same hstep.sound hstep.tidy rfl rfl rfl))

end Session

namespace World

/-- **Contexts are isolated.**  Whatever a context does in its turn, and however the turn ends, every other
registered context is as it was, unless the turn performed a join or a detach of it with success: then a
finished one is free, its operands cleared if it was joined, and is forgotten when the turn ends; of an
active one the bottom element of its execution stack was exchanged.  Every live entity of the global memory
has the tag and the bytes that it had, unless nothing reached it when the turn performed `2 vmreclaim`. -/
theorem turn_isolates_contexts {w : World Builtin} {s : Session Builtin} (hw : w.scheduler.Registered)
    (hsound : w.globalVM.Sound) (htidy : w.globalVM.Tidy) (hnext : w.nextSession? = some s)
    (budget : Nat) :
    ∃ turn t, Session.runTurn budget s = (turn, t) ∧ runNext budget w = .ok true (t.endTurn turn) ∧
      (∀ id c, id ≠ s.context.id → w.scheduler.find? id = some c →
        ∃ c', t.scheduler.find? id = some c' ∧ c.Touched w.system (s.PerformsWithin budget) c' ∧
          (t.endTurn turn).scheduler.find? id = if c'.state = .free then none else some c') ∧
      ∀ id cell, w.globalVM.cell? id = some cell → cell.isFree = false →
        Memory.Fate (s.PerformsWithin budget) w.globalVM (t.endTurn turn).globalVM id := by
  rcases nextSession?_cases hw budget with ⟨s', hs', hopens, hrun⟩ | ⟨hnone, -⟩
  · obtain rfl := Option.some.inj (hnext.symm.trans hs')
    have hglobalVM : s.globalVM = w.globalVM := congrArg Machine.globalVM hopens.machine
    have hsystem : s.system = w.system := congrArg Machine.system hopens.machine
    have hisolates := Session.isolates_runTurn budget hopens.running hopens.hosts
      (hglobalVM ▸ hsound) (hglobalVM ▸ htidy)
    have hevolves := Session.evolves_runTurn budget hopens.running
    refine ⟨_, _, rfl, hrun, fun id c hother hfind => ?_, fun id cell hcell _ => ?_⟩
    · obtain ⟨c', hfind', htouched⟩ := hisolates.contexts id c ((hopens.others id hother).trans hfind)
      refine ⟨c', hfind', hsystem ▸ htouched, ?_⟩
      rw [Session.find?_endTurn (hevolves.hosts hopens.hosts), hevolves.id_eq, if_neg hother, hfind']
      by_cases hfree : c'.state = .free <;> simp [Option.filter, hfree]
    · rw [← hglobalVM] at hcell ⊢
      exact hisolates.entities id cell hcell
  · rw [hnext] at hnone
    contradiction

/-- A context that is about to join the second one. -/
def joiner : Context :=
  { id := 1
    state := .run
    localVM := Memory.narrow .localVM
    stackSet := { StackSet.create Settings.narrow with
      operands := Stack.ofObjects [Object.int 7, Object.context 2]
      exec := Stack.ofObjects [Object.operator 0] }
    current := Object.null
    restoreArity := none
    waitingOn := none }

/-- The second context has finished, and a third one has not. -/
def joinWorld : World Builtin :=
  { Machine.pair with
    scheduler := (((Scheduler.empty.allocateId.2.adopt joiner).allocateId.2.enrol
      Session.finishedPair).allocateId.2.adopt { Session.finishedPair with id := 3, state := .run })
    output := ⟨"", true⟩ }

lemma registered_joinWorld : joinWorld.scheduler.Registered := by
  have hfirst : (Scheduler.empty.allocateId.2.adopt joiner).Registered :=
    Scheduler.registered_empty.adopted rfl rfl
  have hsecond : ((Scheduler.empty.allocateId.2.adopt joiner).allocateId.2.enrol
      Session.finishedPair).Registered := hfirst.allocated.enrolled rfl (by decide) nofun
  exact hsecond.adopted rfl rfl

/-- The machine has no operator that detaches. -/
lemma not_detach_of_pair {s t : Session Builtin} {args : List Object}
    (h : s.operators = Machine.pair.operators) : ¬ s.PerformsWithin 1 .detach args t := by
  rintro ⟨k, u, obj, v, hk, hreached, hnext, ⟨opcode, -, signature, -, -, hnative, -⟩, -⟩
  obtain rfl : k = 0 := by omega
  cases hreached
  rw [(Session.quiet_of_nextObject? hnext).operators, h] at hnative
  have hmem : Builtin.detach ∈ Machine.pair.operators.natives := Array.mem_of_getElem? hnative
  simp [Machine.pair] at hmem

/-- The second context is joined and forgotten; the third one is as it was. -/
theorem turn_isolates_contexts_join :
    joinWorld.scheduler.Registered ∧ joinWorld.globalVM.Sound ∧ joinWorld.globalVM.Tidy ∧
      ∃ s w, joinWorld.nextSession? = some s ∧ s.context.id = 1 ∧ runNext 1 joinWorld = .ok true w ∧
        (∃ handle t, s.PerformsWithin 1 .join [handle] t ∧ handle.asContext? = some 2) ∧
        joinWorld.scheduler.find? 2 = some Session.finishedPair ∧ w.scheduler.find? 2 = none ∧
        ∃ c, joinWorld.scheduler.find? 3 = some c ∧ w.scheduler.find? 3 = some c := by
  have hkeeps := Session.keepsJoin_meeting Memory.vacant [] Session.finishedPair
  have hturn : joinWorld.nextSession?.map (fun s => (s.context.id,
      ((Session.runTurn 1 s).2.scheduler.find? 2).map fun c => (c.state, c.stackSet.operands.count))) =
      some (1, some (.free, 0)) := by decide +kernel
  obtain ⟨s, hnext, hturn⟩ := Option.map_eq_some_iff.mp hturn
  obtain ⟨hid, hsecond⟩ := Prod.mk.inj hturn
  obtain ⟨turn, t, hrun, hends, hcontexts, -⟩ :=
    turn_isolates_contexts registered_joinWorld hkeeps.sound hkeeps.tidy hnext 1
  rw [hrun] at hsecond
  obtain ⟨c, hfind, hc⟩ := Option.map_eq_some_iff.mp hsecond
  obtain ⟨hfree, hcount⟩ := Prod.mk.inj hc
  obtain ⟨c₂, hfind₂, htouched₂, hends₂⟩ :=
    hcontexts 2 Session.finishedPair (by rw [hid]; decide) rfl
  obtain rfl := Option.some.inj (hfind.symm.trans hfind₂)
  rw [if_pos hfree] at hends₂
  obtain ⟨c₃, -, htouched₃, hends₃⟩ :=
    hcontexts 3 { Session.finishedPair with id := 3, state := .run } (by rw [hid]; decide) rfl
  refine ⟨registered_joinWorld, hkeeps.sound, hkeeps.tidy, s, _, hnext, hid, hends, ?_, rfl, hends₂, ?_⟩
  · cases htouched₂ with
    | untouched => exact absurd hfree (by decide)
    | joined hperformed hnames hzombie => exact ⟨_, _, hperformed, hnames⟩
    | dropped hperformed hnames hzombie => exact absurd hcount (by decide +kernel)
    | detached hperformed hnames hactive hexec => exact absurd hactive (by decide)
  · have hmachine := (opens_of_nextSession? registered_joinWorld hnext).machine
    have hoperators : s.operators = Machine.pair.operators := congrArg Machine.operators hmachine
    cases htouched₃ with
    | untouched => exact ⟨_, rfl, hends₃⟩
    | joined hperformed hnames hzombie => exact absurd hzombie (by decide)
    | dropped hperformed hnames hzombie => exact absurd hzombie (by decide)
    | detached hperformed hnames hactive hexec => exact absurd hperformed (not_detach_of_pair hoperators)

end World

end PostScriptCore
