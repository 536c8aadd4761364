import PostScriptCore.Proofs.Builtin.Storage
import PostScriptCore.Proofs.Context.Reachability

/-!
# Reclaiming storage under all contexts

`vmreclaim` runs in one context, but the global memory belongs to all of them: what it frees there must
be out of reach of the running context, which is not in the registry, and of every registered one, also
by way of their local memories.

* `Session.InOrder`, `Session.Closed` — what is assumed of a machine: its memories are in working order, as
  they always are, nothing that a context can reach is missing, and global storage holds no local composites.
* `Session.Reclaims` — what `vmreclaim` is for: it takes nothing that a context can reach, and in its
  second mode it takes all of the global memory that nobody holds on to.
* `Action.vmReclaim_run` — the native does that.
* `Session.reclaim_keeps_what_contexts_reach` — dispatching the operator does.
-/

namespace PostScriptCore

open Memory

namespace Session

variable {ν : Type} {s t : Session ν}

/-- All contexts: the running one, and those that wait in the registry. -/
def contexts (s : Session ν) : List Context := s.context :: s.scheduler.contexts

/-- All memories are in working order, as they are in every run of a started machine. -/
structure InOrder (s : Session ν) : Prop where
  globalVM : s.globalVM.InOrder .globalVM
  localVM : ∀ c ∈ s.contexts, c.localVM.InOrder .localVM

/-- Every entity that a context can reach is live, and no global array or dictionary stores a local
composite. -/
structure Closed (s : Session ν) : Prop where
  live : ∀ c ∈ s.contexts, ∀ bank id, c.Reaches s.globalVM bank id →
    Live (c.memory s.globalVM bank) id
  global : ∀ id, ∀ obj ∈ s.globalVM.storedComposites id, obj.bank = .globalVM

/-- What live arrays and dictionaries in the local memories store. -/
def storedLocally (s : Session ν) : List Object :=
  s.contexts.flatMap fun c => c.localVM.allStoredComposites

/-- The second session is the first after storage was reclaimed.  No context is harmed; in the second
mode a global entity with storage is free unless a context can reach it, or what a local array or
dictionary still stores does, or a pinned entity. -/
structure Reclaims (mode : Int) (s t : Session ν) : Prop where
  scheduler : t.scheduler = s.scheduler
  globalVM : mode = 1 → t.globalVM = s.globalVM
  running : s.context.Unharmed s.globalVM t.context t.globalVM
  waiting : ∀ c ∈ s.scheduler.contexts, c.Unharmed s.globalVM c t.globalVM
  stored : ∀ obj ∈ t.storedLocally, obj ∈ s.storedLocally
  storedGlobally : ∀ id, ∀ obj ∈ t.globalVM.storedComposites id,
    obj ∈ s.globalVM.storedComposites id
  freed : mode = 2 → ∀ id row, s.globalVM.rows[id]? = some row → 0 < row.size →
    row.tag.kind.isCollectable = true →
    (∀ c ∈ s.contexts, ¬ c.Reaches s.globalVM .globalVM id) →
    ¬ Memory.Reaches s.globalVM t.storedLocally id →
    ∃ row', t.globalVM.rows[id]? = some row' ∧ row'.isFree = true

/-! ## The two collections -/

/-- The session with other memories. -/
def withMemories (s : Session ν) (localVM globalVM : Memory) : Session ν :=
  { s with context := { s.context with localVM }, globalVM }

/-- The roots of a collection of the global memory. -/
def globalRoots (s : Session ν) : List Object := s.context.roots ++ s.scheduler.roots

/-- The running context's local memory has been collected. -/
def CollectsLocally (s : Session ν) (n : Memory) : Prop :=
  Collected s.context.localVM (Garbage s.context.localVM s.context.stackSet.roots) n

namespace CollectsLocally

variable {n g : Memory} {id : Nat}

/-- What the running context reaches in its local memory is no garbage. -/
lemma not_garbage (hs : s.InOrder) (hclosed : s.Closed)
    (hreach : s.context.Reaches s.globalVM .localVM id) :
    ¬ Garbage s.context.localVM s.context.stackSet.roots id :=
  fun ⟨_, _, _, _, hnot⟩ => hnot (hreach.within_localVM (hs.localVM _ (List.mem_cons_self ..))
    hclosed.global rfl)

/-- The running context keeps what it reaches in its local memory. -/
lemma survives (h : s.CollectsLocally n) (hs : s.InOrder) (hclosed : s.Closed)
    (hreach : s.context.Reaches s.globalVM .localVM id) : Survives s.context.localVM n id := by
  have hlocal := hs.localVM s.context (List.mem_cons_self ..)
  exact Collected.survives hlocal.sound h (hreach.within_localVM hlocal hclosed.global rfl)
    (hclosed.live _ (List.mem_cons_self ..) _ _ hreach)

/-- What is stored in the entities that the running context reaches is stored there afterwards. -/
lemma mem_allStoredComposites (h : s.CollectsLocally n) (hs : s.InOrder) (hclosed : s.Closed)
    (hreach : s.context.Reaches s.globalVM .localVM id) {obj : Object}
    (hobj : obj ∈ s.context.localVM.storedComposites id) : obj ∈ n.allStoredComposites := by
  have hlocal := hs.localVM s.context (List.mem_cons_self ..)
  exact (Memory.mem_allStoredComposites h.sound h.tidy.plainHead).mpr
    ⟨id, (h.mem_storedComposites_iff hlocal.sound hlocal.tidy).mpr
      ⟨hobj, not_garbage hs hclosed hreach⟩⟩

/-- **No root is missed.**  What any context reaches in the global memory is reached from the roots that
are left after the collection of the local memory. -/
lemma reaches_globalRoots (h : s.CollectsLocally n) (hs : s.InOrder) (hclosed : s.Closed)
    {c : Context} (hc : c ∈ s.contexts) (hreach : c.Reaches s.globalVM .globalVM id) :
    s.globalVM.Reaches (s.withMemories n s.globalVM).globalRoots id := by
  rcases List.mem_cons.mp hc with rfl | hwaiting
  · refine hreach.within_globalVM hs.globalVM (fun obj hobj => ?_) (fun id hid obj hobj => ?_) rfl
    · exact List.mem_append_left _ (List.mem_append_left _ hobj)
    · exact List.mem_append_left _
        (List.mem_append_right _ (h.mem_allStoredComposites hs hclosed hid hobj))
  · have hroots : ∀ obj ∈ c.roots, obj ∈ (s.withMemories n s.globalVM).globalRoots := fun obj hobj =>
      List.mem_append_right _ (List.mem_flatMap.mpr ⟨c, hwaiting, hobj⟩)
    have hlocal := hs.localVM c hc
    refine hreach.within_globalVM hs.globalVM (fun obj hobj => ?_) (fun id _ obj hobj => ?_) rfl
    · exact hroots obj (List.mem_append_left _ hobj)
    · exact hroots obj (List.mem_append_right _
        ((Memory.mem_allStoredComposites hlocal.sound hlocal.tidy.plainHead).mpr ⟨id, hobj⟩))

/-- **No root is made up.**  What the roots reach is reached by a context, or from what the local
memories store or pins hold. -/
lemma reached_of_globalRoots (hs : s.InOrder)
    (hreach : s.globalVM.Reaches (s.withMemories n s.globalVM).globalRoots id) :
    (∃ c ∈ s.contexts, c.Reaches s.globalVM .globalVM id) ∨
      s.globalVM.Reaches (s.withMemories n s.globalVM).storedLocally id := by
  induction hreach with
  | @root obj id hmem hbank hid =>
      have hreaches {c : Context} (hroot : obj ∈ c.stackSet.roots) :
          c.Reaches s.globalVM .globalVM id := by
        have : c.Reaches s.globalVM obj.bank id := .root hroot hid
        rwa [hbank, hs.globalVM.bank_eq] at this
      have hstored {c : Context} (hc : c ∈ (s.withMemories n s.globalVM).contexts)
          (hobj : obj ∈ c.localVM.allStoredComposites) :
          s.globalVM.Reaches (s.withMemories n s.globalVM).storedLocally id :=
        .root (List.mem_flatMap.mpr ⟨c, hc, hobj⟩) hbank hid
      rcases List.mem_append.mp hmem with hrunning | hwaiting
      · rcases List.mem_append.mp hrunning with hroot | hobj
        · exact .inl ⟨s.context, List.mem_cons_self .., hreaches hroot⟩
        · exact .inr (hstored (List.mem_cons_self ..) hobj)
      · obtain ⟨c, hc, hobj⟩ := List.mem_flatMap.mp hwaiting
        rcases List.mem_append.mp hobj with hroot | hobj
        · exact .inl ⟨c, List.mem_cons_of_mem _ hc, hreaches hroot⟩
        · exact .inr (hstored (List.mem_cons_of_mem _ hc) hobj)
  | pin hrow hpin => exact .inr (.pin hrow hpin)
  | @stored parent child _ hrefers ih =>
      refine ih.imp ?_ fun hstored => .stored hstored hrefers
      rintro ⟨c, hc, hparent⟩
      obtain ⟨row, index, obj, hrow, hholds, hindex, hslot, hbank, hid⟩ := hrefers
      have hcomposite : obj.isComposite = true := by
        by_contra hnot
        rw [Object.entity?, if_neg hnot] at hid
        contradiction
      have hmem := (mem_storedComposites hs.globalVM.sound hs.globalVM.tidy.plainHead).mpr
        ⟨row, index, hrow, hholds, hindex, hslot, hcomposite⟩
      have : c.Reaches s.globalVM obj.bank child := .stored hparent hmem hid
      rw [hbank, hs.globalVM.bank_eq] at this
      exact ⟨c, hc, this⟩

/-- The entities of the global memory that a context reaches are no garbage. -/
lemma not_garbage_global (h : s.CollectsLocally n) (hs : s.InOrder) (hclosed : s.Closed)
    {c : Context} (hc : c ∈ s.contexts) (hreach : c.Reaches s.globalVM .globalVM id) :
    ¬ Garbage s.globalVM (s.withMemories n s.globalVM).globalRoots id :=
  fun ⟨_, _, _, _, hnot⟩ => hnot (h.reaches_globalRoots hs hclosed hc hreach)

/-- What the collection of the local memory does to the running context, if the global memory keeps
what the context reaches. -/
lemma unharmed_running (h : s.CollectsLocally n) (hs : s.InOrder) (hclosed : s.Closed)
    (hglobal : ∀ id, s.context.Reaches s.globalVM .globalVM id → Survives s.globalVM g id ∧
      ∀ obj, obj ∈ g.storedComposites id ↔ obj ∈ s.globalVM.storedComposites id) :
    s.context.Unharmed s.globalVM (s.withMemories n g).context g where
  reaches_iff := by
    refine Context.reaches_iff_of_stored (fun _ _ _ => Iff.rfl) fun bank id hreach obj => ?_
    cases bank with
    | localVM =>
        have hlocal := hs.localVM s.context (List.mem_cons_self ..)
        exact (h.mem_storedComposites_iff hlocal.sound hlocal.tidy).trans
          (and_iff_left (not_garbage hs hclosed hreach))
    | globalVM => exact (hglobal id hreach).2 obj
  survives := by
    intro bank id hreach
    cases bank with
    | localVM => exact h.survives hs hclosed hreach
    | globalVM => exact (hglobal id hreach).1

/-- A context that waits keeps its local memory. -/
lemma unharmed_waiting (hclosed : s.Closed) {c : Context} (hc : c ∈ s.contexts)
    (hglobal : ∀ id, c.Reaches s.globalVM .globalVM id → Survives s.globalVM g id ∧
      ∀ obj, obj ∈ g.storedComposites id ↔ obj ∈ s.globalVM.storedComposites id) :
    c.Unharmed s.globalVM c g where
  reaches_iff := by
    refine Context.reaches_iff_of_stored (fun _ _ _ => Iff.rfl) fun bank id hreach obj => ?_
    cases bank with
    | localVM => exact Iff.rfl
    | globalVM => exact (hglobal id hreach).2 obj
  survives := by
    intro bank id hreach
    cases bank with
    | localVM => exact (hclosed.live c hc _ _ hreach).survives
    | globalVM => exact (hglobal id hreach).1

/-- Collecting the local memory adds nothing to what the local memories store. -/
lemma storedLocally_subset (h : s.CollectsLocally n) (hs : s.InOrder) {obj : Object}
    (hobj : obj ∈ (s.withMemories n g).storedLocally) : obj ∈ s.storedLocally := by
  obtain ⟨c, hc, hobj⟩ := List.mem_flatMap.mp hobj
  rcases List.mem_cons.mp hc with rfl | hwaiting
  · have hlocal := hs.localVM s.context (List.mem_cons_self ..)
    obtain ⟨id, hid⟩ := (Memory.mem_allStoredComposites h.sound h.tidy.plainHead).mp hobj
    have hbefore := ((h.mem_storedComposites_iff hlocal.sound hlocal.tidy).mp hid).1
    exact List.mem_flatMap.mpr ⟨s.context, List.mem_cons_self ..,
      (Memory.mem_allStoredComposites hlocal.sound hlocal.tidy.plainHead).mpr ⟨id, hbefore⟩⟩
  · exact List.mem_flatMap.mpr ⟨c, List.mem_cons_of_mem _ hwaiting, hobj⟩

/-- The first mode leaves the global memory alone. -/
lemma reclaims_one (h : s.CollectsLocally n) (hs : s.InOrder) (hclosed : s.Closed) :
    Reclaims 1 s (s.withMemories n s.globalVM) := by
  have hglobal {c : Context} (hc : c ∈ s.contexts) (id : Nat)
      (hreach : c.Reaches s.globalVM .globalVM id) : Survives s.globalVM s.globalVM id ∧
        ∀ obj, obj ∈ s.globalVM.storedComposites id ↔ obj ∈ s.globalVM.storedComposites id :=
    ⟨(hclosed.live c hc _ _ hreach).survives, fun _ => Iff.rfl⟩
  exact ⟨rfl, fun _ => rfl, h.unharmed_running hs hclosed (hglobal (List.mem_cons_self ..)),
    fun c hc => unharmed_waiting hclosed (List.mem_cons_of_mem _ hc)
      (hglobal (List.mem_cons_of_mem _ hc)),
    fun _ hobj => h.storedLocally_subset hs hobj, fun _ _ hobj => hobj, nofun⟩

/-- The second mode collects the global memory from what the first has left. -/
lemma reclaims_two (h : s.CollectsLocally n) (hs : s.InOrder) (hclosed : s.Closed)
    (hg : Collected s.globalVM
      (Garbage s.globalVM (s.withMemories n s.globalVM).globalRoots) g) :
    Reclaims 2 s (s.withMemories n g) := by
  have hglobal {c : Context} (hc : c ∈ s.contexts) (id : Nat)
      (hreach : c.Reaches s.globalVM .globalVM id) : Survives s.globalVM g id ∧
        ∀ obj, obj ∈ g.storedComposites id ↔ obj ∈ s.globalVM.storedComposites id :=
    ⟨hg.survives hs.globalVM.sound (h.reaches_globalRoots hs hclosed hc hreach)
        (hclosed.live c hc _ _ hreach),
      fun _ => (hg.mem_storedComposites_iff hs.globalVM.sound hs.globalVM.tidy).trans
        (and_iff_left (h.not_garbage_global hs hclosed hc hreach))⟩
  refine ⟨rfl, nofun, h.unharmed_running hs hclosed (hglobal (List.mem_cons_self ..)),
    fun c hc => unharmed_waiting hclosed (List.mem_cons_of_mem _ hc)
      (hglobal (List.mem_cons_of_mem _ hc)),
    fun _ hobj => h.storedLocally_subset hs hobj, fun _ _ hobj =>
      ((hg.mem_storedComposites_iff hs.globalVM.sound hs.globalVM.tidy).mp hobj).1,
    fun _ id row hrow hsize hkind hcontexts hstored => ?_⟩
  have hid : id ≠ 0 := by
    rintro rfl
    obtain ⟨head, hhead, hzero⟩ := hs.globalVM.sound.head
    obtain rfl := Option.some.inj (hrow.symm.trans hhead)
    omega
  have hgarbage : Garbage s.globalVM (s.withMemories n s.globalVM).globalRoots id := by
    refine ⟨row, hrow, hsize, hkind, fun hreach => ?_⟩
    rcases reached_of_globalRoots hs hreach with ⟨c, hc, hreach⟩ | hreach
    · exact hcontexts c hc hreach
    · exact hstored hreach
  exact ⟨_, hg.gone id row hid hrow hgarbage, isFree_freedRow row⟩

end CollectsLocally

end Session

/-! ## The native -/

namespace Action

open Session

variable {ν : Type} {s : Session ν}

lemma collectLocal_ok {n : Memory} {total : Nat}
    (h : Memory.collect s.context.stackSet.roots true false s.context.localVM = .ok total n) :
    onContext Context.collectLocal s = .ok total (s.withMemories n s.globalVM) := by
  have hfocus : Context.onLocalVM (Memory.collect s.context.stackSet.roots true false) s.context =
      .ok total { s.context with localVM := n } := by
    simp only [Context.onLocalVM, focus, h]
  have hrun : Context.collectLocal s.context = .ok total { s.context with localVM := n } :=
    (bind_ok (t := s.context) rfl).trans hfocus
  simp only [onContext, focus, hrun]
  rfl

lemma onGlobalVM_ok {α : Type} {x : MemoryM α} {a : α} {g : Memory}
    (h : x s.globalVM = .ok a g) : onGlobalVM x s = .ok a { s with globalVM := g } := by
  simp only [onGlobalVM, focus, h]

/-- In its second mode the native collects both memories, the global one from the roots that the first
collection has left. -/
lemma vmReclaim_two (hlocal : s.context.localVM.InOrder .localVM)
    (hglobal : s.globalVM.InOrder .globalVM) {obj : Object} (hobj : obj.asInt? = some 2) :
    ∃ n g total, Memory.collect s.context.stackSet.roots true false s.context.localVM = .ok total n ∧
      s.CollectsLocally n ∧
      g = s.globalVM.after (.collect (s.withMemories n s.globalVM).globalRoots true false) ∧
      Collected s.globalVM (Garbage s.globalVM (s.withMemories n s.globalVM).globalRoots) g ∧
      vmReclaim obj s = .ok () (s.withMemories n g) := by
  obtain ⟨n, hcollect, hn⟩ := collect_run hlocal.sound hlocal.tidy hlocal.collector_eq
    s.context.stackSet.roots
  obtain ⟨g, hcollect', hg⟩ := collect_run hglobal.sound hglobal.tidy hglobal.collector_eq
    (s.withMemories n s.globalVM).globalRoots
  have hfirst := discard_ok (collectLocal_ok hcollect)
  have hsecond : discard (onGlobalVM (Memory.collect
      (s.withMemories n s.globalVM).globalRoots true false)) (s.withMemories n s.globalVM) =
      .ok () (s.withMemories n g) := discard_ok (onGlobalVM_ok hcollect')
  have hafter : s.globalVM.after (.collect (s.withMemories n s.globalVM).globalRoots true false) = g :=
    Memory.after_of_ok rfl hcollect'
  refine ⟨n, g, _, hcollect, hn, hafter.symm, hg, ?_⟩
  rw [vmReclaim, hobj]
  dsimp only
  rw [if_neg (by decide), if_neg (by decide)]
  refine (bind_ok hfirst).trans ?_
  rw [if_pos rfl]
  exact (bind_ok (t := s.withMemories n s.globalVM) rfl).trans hsecond

/-- **The native reclaims storage**, and it never fails. -/
lemma vmReclaim_run (hs : s.InOrder) (hclosed : s.Closed) {obj : Object} {mode : Int}
    (hobj : obj.asInt? = some mode) (hmode : mode = 1 ∨ mode = 2) :
    ∃ t, vmReclaim obj s = .ok () t ∧ Reclaims mode s t ∧
      t.context.stackSet = s.context.stackSet := by
  have hlocal := hs.localVM s.context (List.mem_cons_self ..)
  rcases hmode with rfl | rfl
  · obtain ⟨n, hcollect, hn⟩ := collect_run hlocal.sound hlocal.tidy hlocal.collector_eq
      s.context.stackSet.roots
    have hfirst := discard_ok (collectLocal_ok hcollect)
    rw [vmReclaim, hobj]
    dsimp only
    rw [if_neg (by decide), if_neg (by decide)]
    exact ⟨_, (bind_ok hfirst).trans rfl, CollectsLocally.reclaims_one hn hs hclosed, rfl⟩
  · obtain ⟨n, g, -, -, hn, -, hg, hrun⟩ := vmReclaim_two hlocal hs.globalVM hobj
    exact ⟨_, hrun, CollectsLocally.reclaims_two hn hs hclosed hg, rfl⟩

end Action

namespace Session

variable {ν : Type} {s t u : Session ν}

/-! ## The dispatch -/

/-- The sessions differ in nothing that a collection looks at. -/
structure SameStorage (s u : Session ν) : Prop where
  scheduler : u.scheduler = s.scheduler
  globalVM : u.globalVM = s.globalVM
  localVM : u.context.localVM = s.context.localVM
  roots : ∀ obj id, obj.entity? = some id →
    (obj ∈ u.context.stackSet.roots ↔ obj ∈ s.context.stackSet.roots)

namespace SameStorage

lemma memory_eq (h : SameStorage s u) (bank : Bank) :
    u.context.memory u.globalVM bank = s.context.memory s.globalVM bank := by
  cases bank with
  | localVM => exact h.localVM
  | globalVM => exact h.globalVM

lemma reaches_iff (h : SameStorage s u) (bank : Bank) (id : Nat) :
    u.context.Reaches u.globalVM bank id ↔ s.context.Reaches s.globalVM bank id :=
  Context.reaches_iff_of_stored h.roots (fun bank id _ obj => by rw [h.memory_eq bank]) bank id

/-- Every context of the one session stands for one of the other. -/
lemma exists_context (h : SameStorage s u) {c : Context} (hc : c ∈ u.contexts) :
    ∃ d ∈ s.contexts, (∀ bank, c.memory u.globalVM bank = d.memory s.globalVM bank) ∧
      ∀ bank id, c.Reaches u.globalVM bank id ↔ d.Reaches s.globalVM bank id := by
  rcases List.mem_cons.mp hc with rfl | hwaiting
  · exact ⟨s.context, List.mem_cons_self .., h.memory_eq, h.reaches_iff⟩
  · rw [h.scheduler] at hwaiting
    exact ⟨c, List.mem_cons_of_mem _ hwaiting, fun _ => by rw [h.globalVM],
      fun _ _ => by rw [h.globalVM]⟩

lemma inOrder (h : SameStorage s u) (hs : s.InOrder) : u.InOrder where
  globalVM := h.globalVM ▸ hs.globalVM
  localVM := by
    intro c hc
    obtain ⟨d, hd, hmemory, -⟩ := h.exists_context hc
    have hlocal : c.localVM = d.localVM := hmemory .localVM
    exact hlocal ▸ hs.localVM d hd

lemma closed (h : SameStorage s u) (hs : s.Closed) : u.Closed where
  live := by
    intro c hc bank id hreach
    obtain ⟨d, hd, hmemory, hreaches⟩ := h.exists_context hc
    rw [hmemory]
    exact hs.live d hd bank id ((hreaches bank id).mp hreach)
  global := h.globalVM ▸ hs.global

lemma storedLocally_eq (h : SameStorage s u) : u.storedLocally = s.storedLocally := by
  rw [storedLocally, contexts, List.flatMap_cons, h.localVM, h.scheduler]
  rfl

end SameStorage

lemma Reclaims.congr {mode : Int} {v : Session ν} (h : Reclaims mode u t) (hsu : SameStorage s u)
    (htv : SameStorage t v) : Reclaims mode s v where
  scheduler := htv.scheduler.trans (h.scheduler.trans hsu.scheduler)
  globalVM := fun hmode => htv.globalVM.trans ((h.globalVM hmode).trans hsu.globalVM)
  running := by
    refine ⟨fun bank id => (htv.reaches_iff bank id).trans
      ((h.running.reaches_iff bank id).trans (hsu.reaches_iff bank id)), fun bank id hreach => ?_⟩
    rw [htv.memory_eq, ← hsu.memory_eq]
    exact h.running.survives bank id ((hsu.reaches_iff bank id).mpr hreach)
  waiting := by
    intro c hc
    rw [htv.globalVM, ← hsu.globalVM]
    exact h.waiting c (hsu.scheduler ▸ hc)
  stored := by
    rw [htv.storedLocally_eq, ← hsu.storedLocally_eq]
    exact h.stored
  storedGlobally := by
    rw [htv.globalVM, ← hsu.globalVM]
    exact h.storedGlobally
  freed := by
    intro hmode id row hrow hsize hkind hcontexts hstored
    rw [htv.globalVM]
    rw [htv.storedLocally_eq, ← hsu.globalVM] at hstored
    refine h.freed hmode id row (hsu.globalVM ▸ hrow) hsize hkind (fun c hc hreach => ?_) hstored
    obtain ⟨d, hd, -, hreaches⟩ := hsu.exists_context hc
    exact hcontexts d hd ((hreaches _ _).mp hreach)

/-- After reclaiming storage nothing is missing either. -/
lemma Reclaims.closed {mode : Int} (h : Reclaims mode s t) (hs : s.Closed) : t.Closed where
  live := by
    intro c hc bank id hreach
    rcases List.mem_cons.mp hc with rfl | hwaiting
    · exact (h.running.survives bank id ((h.running.reaches_iff bank id).mp hreach)).live
    · have hkept := h.waiting c (h.scheduler ▸ hwaiting)
      exact (hkept.survives bank id ((hkept.reaches_iff bank id).mp hreach)).live
  global := fun id obj hobj => hs.global id obj (h.storedGlobally id obj hobj)

lemma ty_of_asInt? {obj : Object} {z : Int} (h : obj.asInt? = some z) : obj.ty = .integer := by
  rw [Object.asInt?, Object.payload?] at h
  split at h
  · next hty => exact hty
  · contradiction

/-- An integer is no composite. -/
lemma ne_of_asInt? {obj x : Object} {z : Int} {id : Nat} (h : obj.asInt? = some z)
    (hx : x.entity? = some id) : x ≠ obj := by
  rintro rfl
  rw [Object.entity?, Object.isComposite, ty_of_asInt? h] at hx
  contradiction

/-- Holding an integer hides no composite and adds none. -/
lemma sameStorage_holding (opcode : Nat) {operands hold : Stack} {below : List Object}
    {obj : Object} {z : Int} (hobj : obj.asInt? = some z)
    (hlist : s.context.stackSet.operands.toList = below ++ [obj])
    (hmoved : s.Moved below obj operands hold) :
    SameStorage s (s.holding opcode operands hold) where
  scheduler := rfl
  globalVM := rfl
  localVM := rfl
  roots := by
    intro x id hid
    have hne := ne_of_asInt? hobj hid
    simp only [holding, StackSet.roots, hmoved.below, hmoved.held, hlist, List.mem_append,
      List.mem_singleton, hne, or_false]

/-- `vmreclaim` is about to be dispatched with the given mode. -/
structure ReadyToReclaim [NativeSet ν] (s : Session ν) (opcode : Nat) (mode : Int) : Prop where
  registered : s.Offers opcode (.type .integer) 0 .vmReclaim
  operands : s.context.stackSet.operands.WellFormed
  hold : s.context.stackSet.hold.WellFormed
  top : ∃ below obj, s.context.stackSet.operands.toList = below ++ [obj] ∧ obj.asInt? = some mode

/-- **Reclaiming storage harms no context.**  Whenever every entity that a context can reach is live and
no global array or dictionary stores a local composite, `1 vmreclaim` and `2 vmreclaim` succeed if there
is room to hold their operand.  Every context then reaches what it reached, across both memories, and all
of it is as it was.  After `2 vmreclaim` a global string, array, dictionary or file with storage is free
unless a context reaches it, or it is reached from what the local memories store or from a pinned
entity. -/
theorem reclaim_keeps_what_contexts_reach [NativeSet ν] {opcode : Nat} {mode : Int}
    (hready : s.ReadyToReclaim opcode mode) (hmode : mode = 1 ∨ mode = 2) (hs : s.InOrder)
    (hclosed : s.Closed) :
    (¬ s.HasRoom → dispatch opcode s = .error .limitCheck s.cleared) ∧
    (s.HasRoom → ∃ t, dispatch opcode s = .ok () t ∧ Reclaims mode s t) := by
  obtain ⟨below, obj, hlist, hobj⟩ := hready.top
  have haccepts : (Pattern.type .integer).accepts obj = true := by
    rw [Pattern.accepts, ty_of_asInt? hobj]
    rfl
  obtain ⟨hrefused, hruns⟩ := dispatch_offered hready.registered nofun (Nat.zero_le 1) haccepts
    hready.operands hready.hold hlist
  refine ⟨hrefused, fun hroom => ?_⟩
  obtain ⟨operands, hold, hmoved, hdispatch⟩ := hruns hroom
  have hsame := sameStorage_holding opcode hobj hlist hmoved
  obtain ⟨t, hrun, hreclaims, hstacks⟩ :=
    Action.vmReclaim_run (hsame.inOrder hs) (hsame.closed hclosed) hobj hmode
  have hheld : t.context.stackSet.hold.toList = s.context.stackSet.hold.toList ++ [obj] := by
    rw [hstacks]
    exact hmoved.held
  have hnative : Builtin.vmReclaim.run [obj] (s.holding opcode operands hold) = .ok () t := hrun
  obtain ⟨hold', hwf, hlist', -, hrelease⟩ :=
    releasingHold_ok hnative (by rw [hstacks]; exact hmoved.hold_wf) hheld List.length_singleton
  refine ⟨_, hdispatch.trans hrelease, hreclaims.congr hsame ⟨rfl, rfl, rfl, fun x id hid => ?_⟩⟩
  have hne := ne_of_asInt? hobj hid
  simp only [setHold, StackSet.roots, hlist', hheld, List.mem_append, List.mem_singleton, hne,
    or_false]

/-! ## Two contexts that share global storage -/

/-- A fresh memory that collects by mark and sweep. -/
def freshMemory (bank : Bank) : Memory :=
  match Memory.create bank Settings.standard with
  | .ok m => m
  | .error _ => Memory.vacant

/-- The registration of `vmreclaim` and three strings. -/
def threeStrings : List MemoryOp :=
  [.tableAlloc entrySize (Tag.ofKind .system), .tableAlloc signatureSize (Tag.ofKind .system),
    .put 1 0 (OperatorEntry.encode ⟨0, 2, 1⟩),
    .put 2 0 (Signature.ofPatterns [.type .integer] 0 0).encode,
    .newString [97] [], .newString [98] [], .newString [99] []]

/-- A local array that stores a global string. -/
def arrayOf (string : Nat) : List MemoryOp :=
  [.newArray 1 [], .writeObject 1 0 (Object.composite .string .globalVM string 0 1)]

/-- A context with a local array that stores a global string, and above it an operand of its own. -/
def holder (id string : Nat) (obj : Object) : Context where
  id := id
  state := .run
  localVM := (freshMemory .localVM).afterAll (arrayOf string)
  stackSet := { StackSet.create Settings.standard with
    operands := ⟨#[#[Object.composite .array .localVM 1 0 1, obj]], 0, 2, 2, 8, .stackOverflow⟩ }
  current := Object.null
  restoreArity := none
  waitingOn := none

/-- A machine with `vmreclaim` as its only operator.  The running context and a waiting one hold a
global string each, by way of a local array, and a third string is garbage. -/
def sharing : Session Builtin where
  settings := Settings.standard
  globalVM := (freshMemory .globalVM).afterAll threeStrings
  names := Names.empty
  operators := ⟨1, 1, [(0, 0)], #[.vmReclaim]⟩
  system := ⟨0, 0, 0⟩
  scheduler := { Scheduler.empty with contexts := [holder 1 4 Object.null], nextId := 2 }
  output := ⟨"", true⟩
  context := holder 0 3 (Object.int 2)

lemma inOrder_freshMemory (bank : Bank) {run : List MemoryOp}
    (hrun : ∀ op ∈ run, op.keepsOrder = true) : ((freshMemory bank).afterAll run).InOrder bank := by
  have hcreate : create bank Settings.standard = .ok (freshMemory bank) := by cases bank <;> rfl
  exact (inOrder_create hcreate).afterAll hrun

lemma inOrder_sharing : sharing.InOrder where
  globalVM := inOrder_freshMemory .globalVM (by decide)
  localVM := by
    intro c hc
    have hlocal (string : Nat) : ((freshMemory .localVM).afterAll (arrayOf string)).InOrder .localVM :=
      inOrder_freshMemory .localVM fun op hop => by
        rcases List.mem_cons.mp hop with rfl | hop
        · rfl
        · obtain rfl := List.mem_singleton.mp hop
          rfl
    rcases List.mem_cons.mp hc with rfl | hc
    · exact hlocal 3
    · obtain rfl := List.mem_singleton.mp hc
      exact hlocal 4

/-- No row of the global memory is pinned or stores anything. -/
lemma plain_sharing {id : Nat} {row : Row} (hrow : sharing.globalVM.rows[id]? = some row) :
    row.tag.kind.holdsObjects = false ∧ row.mark.refcount.val = 0 := by
  have hall : ∀ row ∈ sharing.globalVM.rows.toList,
      row.tag.kind.holdsObjects = false ∧ row.mark.refcount.val = 0 := by decide +kernel
  exact hall row (List.mem_of_getElem? (by rwa [Array.getElem?_toList]))

lemma not_stored_sharing {id : Nat} {obj : Object} :
    obj ∉ sharing.globalVM.storedComposites id := by
  intro hobj
  obtain ⟨row, -, hrow, hholds, -⟩ := (mem_storedComposites inOrder_sharing.globalVM.sound
    inOrder_sharing.globalVM.tidy.plainHead).mp hobj
  exact Bool.false_ne_true ((plain_sharing hrow).1.symm.trans hholds)

/-- What the local array stores. -/
lemma storedComposites_arrayOf :
    ((freshMemory .localVM).afterAll (arrayOf 3)).storedComposites 1 =
        [Object.composite .string .globalVM 3 0 1] ∧
      ((freshMemory .localVM).afterAll (arrayOf 4)).storedComposites 1 =
        [Object.composite .string .globalVM 4 0 1] := by decide +kernel

lemma toList_holder (id string : Nat) (obj : Object) :
    (holder id string obj).stackSet.operands.toList =
      [Object.composite .array .localVM 1 0 1] ++ [obj] := by
  simp [holder, Stack.toList, Stack.count, Stack.slot, List.range_succ]

lemma roots_holder (id string : Nat) (obj : Object) :
    (holder id string obj).stackSet.roots = [Object.composite .array .localVM 1 0 1, obj] := by
  rw [StackSet.roots, toList_holder]
  rfl

/-- A context reaches its array and the string that this stores. -/
lemma reaches_holder {id string entity : Nat} {obj : Object} {bank : Bank} (hobj : obj.entity? = none)
    (hstored : ((freshMemory .localVM).afterAll (arrayOf string)).storedComposites 1 =
      [Object.composite .string .globalVM string 0 1])
    (hstring : (Object.composite .string .globalVM string 0 1).entity? = some string) :
    (holder id string obj).Reaches sharing.globalVM bank entity ↔
      bank = .localVM ∧ entity = 1 ∨ bank = .globalVM ∧ entity = string := by
  have hroot : Object.composite .array .localVM 1 0 1 ∈ (holder id string obj).stackSet.roots := by
    rw [roots_holder]
    exact List.mem_cons_self ..
  have harray : (holder id string obj).Reaches sharing.globalVM .localVM 1 := .root hroot rfl
  constructor
  · intro hreach
    induction hreach with
    | root hmem hid =>
        rw [roots_holder] at hmem
        rcases List.mem_cons.mp hmem with rfl | hmem
        · exact .inl ⟨rfl, (Option.some.inj hid).symm⟩
        · obtain rfl := List.mem_singleton.mp hmem
          exact absurd (hobj.symm.trans hid) nofun
    | stored _ hmem hid ih =>
        rcases ih with ⟨rfl, rfl⟩ | ⟨rfl, rfl⟩
        · obtain rfl := List.mem_singleton.mp (hstored ▸ hmem)
          exact .inr ⟨rfl, Option.some.inj (hid.symm.trans hstring)⟩
        · exact absurd hmem not_stored_sharing
  · rintro (⟨rfl, rfl⟩ | ⟨rfl, hentity⟩)
    · exact harray
    · rw [hentity]
      have hmem : Object.composite .string .globalVM string 0 1 ∈
          ((freshMemory .localVM).afterAll (arrayOf string)).storedComposites 1 :=
        hstored.symm ▸ List.mem_singleton.mpr rfl
      exact .stored harray hmem hstring

lemma reaches_sharing {bank : Bank} {id : Nat} :
    (sharing.context.Reaches sharing.globalVM bank id ↔
      bank = .localVM ∧ id = 1 ∨ bank = .globalVM ∧ id = 3) ∧
    ((holder 1 4 Object.null).Reaches sharing.globalVM bank id ↔
      bank = .localVM ∧ id = 1 ∨ bank = .globalVM ∧ id = 4) :=
  ⟨reaches_holder rfl storedComposites_arrayOf.1 rfl,
    reaches_holder rfl storedComposites_arrayOf.2 rfl⟩

lemma closed_sharing : sharing.Closed where
  live := by
    have hlive {m : Memory} {id : Nat} (h : m.rows[id]?.map Row.isFree = some false) : Live m id :=
      Option.map_eq_some_iff.mp h
    have harray (string : Nat) (hstring : string = 3 ∨ string = 4) :
        Live ((freshMemory .localVM).afterAll (arrayOf string)) 1 := by
      rcases hstring with rfl | rfl
      · exact hlive (by decide +kernel)
      · exact hlive (by decide +kernel)
    have hstring (id : Nat) (hid : id = 3 ∨ id = 4) : Live sharing.globalVM id := by
      rcases hid with rfl | rfl
      · exact hlive (by decide +kernel)
      · exact hlive (by decide +kernel)
    intro c hc bank id hreach
    rcases List.mem_cons.mp hc with rfl | hc
    · rcases reaches_sharing.1.mp hreach with ⟨rfl, rfl⟩ | ⟨rfl, rfl⟩
      · exact harray 3 (.inl rfl)
      · exact hstring 3 (.inl rfl)
    · obtain rfl := List.mem_singleton.mp hc
      rcases reaches_sharing.2.mp hreach with ⟨rfl, rfl⟩ | ⟨rfl, rfl⟩
      · exact harray 4 (.inr rfl)
      · exact hstring 4 (.inr rfl)
  global := fun _ _ hobj => absurd hobj not_stored_sharing

lemma readyToReclaim_sharing : sharing.ReadyToReclaim 0 2 where
  registered := by
    have hread : (sharing.operators.signatures sharing.globalVM 0).toOption =
        some [Signature.ofPatterns [.type .integer] 0 0] := by decide +kernel
    refine ⟨0, .vmReclaim, ?_, rfl, fun _ _ => rfl⟩
    revert hread
    generalize sharing.operators.signatures sharing.globalVM 0 = found
    intro hread
    cases found with
    | ok found => rw [Option.some.inj hread]
    | error fault => contradiction
  operands := by
    refine ⟨Nat.two_pos, fun i segment hi => ?_, Nat.one_pos, Nat.le_refl 2,
      fun _ => Nat.two_pos, show 0 * 2 + 2 ≤ 8 by decide⟩
    rcases Nat.eq_zero_or_pos i with rfl | hpos
    · obtain rfl := Option.some.inj hi
      rfl
    · rw [sharing, holder, Array.getElem?_eq_none (Nat.succ_le_of_lt hpos)] at hi
      contradiction
  hold := Stack.wellFormed_create (by decide) _ _
  top := ⟨[Object.composite .array .localVM 1 0 1], Object.int 2, toList_holder .., rfl⟩

/-- The local memories store the first two strings. -/
lemma reached_of_storedLocally_sharing {roots : List Object} (hroots : ∀ obj ∈ roots, obj ∈ sharing.storedLocally)
    {id : Nat} (h : Memory.Reaches sharing.globalVM roots id) : id = 3 ∨ id = 4 := by
  have hall : ∀ obj ∈ sharing.storedLocally, obj.entity? = some 3 ∨ obj.entity? = some 4 := by
    decide +kernel
  induction h with
  | root hmem _ hid =>
      exact (hall _ (hroots _ hmem)).imp (fun h => Option.some.inj (hid.symm.trans h))
        fun h => Option.some.inj (hid.symm.trans h)
  | pin hrow hpin => exact absurd hpin ((plain_sharing hrow).2 ▸ Nat.lt_irrefl 0)
  | stored _ hrefers =>
      obtain ⟨row, _, _, hrow, hholds, _⟩ := hrefers
      exact absurd ((plain_sharing hrow).1.symm.trans hholds) Bool.false_ne_true

/-- The strings that the two contexts hold survive, and the third one is free. -/
theorem reclaim_keeps_what_contexts_reach_sharing :
    sharing.ReadyToReclaim 0 2 ∧ sharing.InOrder ∧ sharing.Closed ∧ sharing.HasRoom ∧
      ∃ t, dispatch 0 sharing = .ok () t ∧ Reclaims 2 sharing t ∧
        Survives sharing.globalVM t.globalVM 3 ∧ Survives sharing.globalVM t.globalVM 4 ∧
        ∃ row, t.globalVM.rows[5]? = some row ∧ row.isFree = true := by
  have hroom : sharing.HasRoom := show 0 < 500 by decide
  obtain ⟨t, hrun, h⟩ := (reclaim_keeps_what_contexts_reach readyToReclaim_sharing (.inr rfl)
    inOrder_sharing closed_sharing).2 hroom
  refine ⟨readyToReclaim_sharing, inOrder_sharing, closed_sharing, hroom, t, hrun, h,
    h.running.survives .globalVM 3 (reaches_sharing.1.mpr (.inr ⟨rfl, rfl⟩)),
    (h.waiting _ (List.mem_singleton.mpr rfl)).survives .globalVM 4
      (reaches_sharing.2.mpr (.inr ⟨rfl, rfl⟩)), ?_⟩
  have hgarbage : sharing.globalVM.rows[5]?.map (fun row => (decide (0 < row.size),
      row.tag.kind.isCollectable)) = some (true, true) := by decide +kernel
  obtain ⟨row, hrow, hfacts⟩ := Option.map_eq_some_iff.mp hgarbage
  obtain ⟨hsize, hkind⟩ := Prod.mk.inj hfacts
  refine h.freed rfl 5 row hrow (of_decide_eq_true hsize) hkind (fun c hc hreach => ?_) fun hreach => ?_
  · rcases List.mem_cons.mp hc with rfl | hc
    · exact absurd (reaches_sharing.1.mp hreach) (by decide)
    · obtain rfl := List.mem_singleton.mp hc
      exact absurd (reaches_sharing.2.mp hreach) (by decide)
  · exact absurd (reached_of_storedLocally_sharing h.stored hreach) (by decide)

end Session

end PostScriptCore
