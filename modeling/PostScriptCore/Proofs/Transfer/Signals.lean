import PostScriptCore.Proofs.Step
import PostScriptCore.Transfer
import Mathlib.Tactic.SplitIfs

/-!
# Copying asks for no switch

Control signals travel through the same channel as errors.  A memory that looks for free storage in
its own list never sends one, and so no copy into it does: a context that asks for a switch does so
of its own accord.

* `Errs` — a result that is no control signal.
* `Faultless` — a step that keeps an invariant and, if it fails, fails with an error.
* `Transfer.faultless_copy` — copying is such a step.
-/

namespace PostScriptCore

variable {α β σ τ : Type}

/-- The result is an answer or an error, and no control signal. -/
def Errs (x : Except Fault α) : Prop := ∀ fault, x = .error fault → fault.isControl = false

/-- The step keeps the invariant and fails only with errors. -/
def Faultless (I : σ → Prop) (x : EStateM Fault σ α) : Prop :=
  ∀ s, I s → Ends x s (fun _ t => I t) fun fault _ => fault.isControl = false

namespace Faultless

variable {I : σ → Prop}

lemma pure (a : α) : Faultless I (Pure.pure a : EStateM Fault σ α) := fun _ hs => hs

lemma bind {x : EStateM Fault σ α} {f : α → EStateM Fault σ β} (hx : Faultless I x)
    (hf : ∀ a, Faultless I (f a)) : Faultless I (x >>= f) := fun s hs =>
  Ends.bind (Ends.mono (hx s hs) (fun a t ht => hf a t ht) fun _ _ hfault => hfault)

lemma query {f : σ → Except Fault α} (hf : ∀ s, Errs (f s)) : Faultless I (PostScriptCore.query f) :=
  fun s hs => Ends.query (fun _ _ => hs) fun fault hfault => hf s fault hfault

lemma get : Faultless I (MonadState.get : EStateM Fault σ σ) := fun _ hs => hs

lemma modifyGet {f : σ → α × σ} (hf : ∀ s, I s → I (f s).2) :
    Faultless I (MonadState.modifyGet f : EStateM Fault σ α) := fun s hs => hf s hs

lemma focus {J : τ → Prop} {view : σ → τ} {update : τ → σ → σ} {vacant : τ}
    {x : EStateM Fault τ α} (hx : Faultless J x) (hview : ∀ s, I s → J (view s))
    (hupdate : ∀ s part, I s → J part → I (update part (update vacant s))) :
    Faultless I (PostScriptCore.focus view update vacant x) := fun s hs =>
  Ends.focus (Ends.mono (hx (view s) (hview s hs)) (fun _ part hpart => hupdate s part hs hpart)
    fun _ _ hfault => hfault)

lemma discard {x : EStateM Fault σ α} (hx : Faultless I x) :
    Faultless I (Functor.discard x) := by
  intro s hs
  have hends := hx s hs
  rw [Ends] at hends ⊢
  cases hrun : x s with
  | ok a t =>
      rw [hrun] at hends
      rw [discard_ok hrun]
      exact hends
  | error fault t =>
      rw [hrun] at hends
      rw [discard_error hrun]
      exact hends

end Faultless

namespace Arena

lemma isControl_obstacle? {a : Arena} {offset count : Nat} {fault : Fault}
    (h : a.obstacle? offset count = some fault) : fault.isControl = false := by
  rw [obstacle?] at h
  split_ifs at h <;> cases h <;> rfl

lemma errs_init (backing : Backing) (initial pageSize limit : Nat) :
    Errs (init backing initial pageSize limit) := by
  intro fault h
  rw [init] at h
  split at h
  · cases h
    rfl
  · split_ifs at h
    · cases h
      rfl
    · split at h <;> cases h
      rfl

lemma errs_read (a : Arena) (offset count : Nat) : Errs (a.read offset count) := by
  intro fault h
  rw [read] at h
  split at h
  · next hobstacle =>
    cases h
    exact isControl_obstacle? hobstacle
  · contradiction

lemma faultless_write (offset : Nat) (bytes : List UInt8) :
    Faultless (fun _ => True) (write offset bytes) := by
  intro a _
  rw [Ends, write]
  cases hobstacle : a.obstacle? offset bytes.length with
  | none => trivial
  | some fault => exact isControl_obstacle? hobstacle

lemma faultless_zero (offset count : Nat) : Faultless (fun _ => True) (zero offset count) := by
  intro a _
  rw [Ends, zero]
  cases hobstacle : a.obstacle? offset count with
  | none => trivial
  | some fault => exact isControl_obstacle? hobstacle

lemma faultless_grow (extra : Nat) : Faultless (fun _ => True) (grow extra) := by
  intro a _
  rw [Ends, grow]
  cases pages extra a.pageSize with
  | none => rfl
  | some extra =>
      dsimp only
      split_ifs <;> first | rfl | trivial

lemma faultless_alloc (size : Nat) : Faultless (fun _ => True) (alloc size) := by
  intro a _
  rw [Ends, alloc]
  split_ifs
  · cases alignUp size arenaAlign with
    | none => rfl
    | some size =>
        dsimp only
        split_ifs
        · rfl
        · have hgrow := faultless_grow (a.used + size - a.max) a trivial
          rw [Ends] at hgrow
          cases hrun : grow (a.used + size - a.max) a with
          | ok _ b => trivial
          | error fault b =>
              rw [hrun] at hgrow
              exact hgrow
        · trivial
  · rfl

end Arena

namespace Memory

/-- The memory looks for free storage in its own list. -/
def SearchesList (m : Memory) : Prop := m.policy = .firstFit

lemma errs_create (bank : Bank) (settings : Settings) : Errs (create bank settings) := by
  intro fault h
  rw [create, withBacking] at h
  cases hinit : Arena.init .anonymous settings.initialArenaSize settings.pageSize
      settings.maxArenaSize with
  | ok arena =>
      rw [hinit] at h
      contradiction
  | error fault' =>
      rw [hinit] at h
      cases h
      exact Arena.errs_init _ _ _ _ _ hinit

lemma searchesList_create {bank : Bank} {settings : Settings} {m : Memory}
    (h : create bank settings = .ok m) : m.SearchesList := by
  rw [create, withBacking] at h
  cases hinit : Arena.init .anonymous settings.initialArenaSize settings.pageSize
      settings.maxArenaSize with
  | ok arena =>
      rw [hinit] at h
      cases h
      rfl
  | error fault =>
      rw [hinit] at h
      contradiction

variable (m : Memory) (id offset count : Nat)

/-! ## Reading -/

lemma errs_row : Errs (m.row id) := by
  intro fault h
  rw [row] at h
  split at h <;> cases h
  rfl

lemma errs_checkedAddress : Errs (m.checkedAddress id offset count) := by
  intro fault h
  rw [checkedAddress] at h
  split at h
  · next hrow =>
    cases h
    exact m.errs_row id _ hrow
  · split_ifs at h <;> cases h <;> rfl

lemma errs_bytesAt : Errs (m.bytesAt id offset count) := by
  intro fault h
  rw [bytesAt] at h
  split at h
  · exact m.arena.errs_read _ _ fault h
  · next haddress =>
    cases h
    exact m.errs_checkedAddress id offset count _ haddress

lemma errs_storage : Errs (m.storage id) := by
  intro fault h
  rw [storage] at h
  split at h
  · next hrow =>
    cases h
    exact m.errs_row id _ hrow
  · split at h
    · next haddress =>
      cases h
      exact m.errs_checkedAddress id _ _ _ haddress
    · split at h
      · next hobstacle =>
        cases h
        exact Arena.isControl_obstacle? hobstacle
      · contradiction

lemma errs_bytes : Errs (m.bytes id) := by
  intro fault h
  rw [bytes] at h
  split at h
  · contradiction
  · next hstorage =>
    cases h
    exact m.errs_storage id _ hstorage

lemma errs_readWord : Errs (m.readWord id offset) := by
  intro fault h
  rw [readWord] at h
  split at h
  · contradiction
  · next hbytes =>
    cases h
    exact m.errs_bytesAt id offset 4 _ hbytes

lemma errs_readObject : Errs (m.readObject id offset) := by
  intro fault h
  rw [readObject] at h
  split at h
  · unfold Object.decode at h
    split at h
    · split at h <;> cases h
      rfl
    · cases h
      rfl
  · next hbytes =>
    cases h
    exact m.errs_bytesAt id offset objectSize _ hbytes

lemma errs_pendingSnapshot : Errs (m.pendingSnapshot id) := by
  intro fault h
  rw [pendingSnapshot] at h
  split_ifs at h
  split at h
  · next hrow =>
    cases h
    exact m.errs_row id _ hrow
  · split_ifs at h
    split at h
    · contradiction
    · next hread =>
      cases h
      exact m.arena.errs_read _ _ _ hread

lemma errs_freeHead : Errs m.freeHead := by
  intro fault h
  rw [freeHead] at h
  split at h
  · contradiction
  · next hrow =>
    cases h
    exact m.errs_row 0 _ hrow

lemma errs_findCandidate (wanted steps previous cursor : Nat) :
    Errs (m.findCandidate wanted steps previous cursor) := by
  induction steps generalizing previous cursor with
  | zero =>
      intro fault h
      rw [findCandidate] at h
      split_ifs at h
      cases h
      rfl
  | succ steps ih =>
      intro fault h
      rw [findCandidate] at h
      split_ifs at h
      split at h
      · next hrow =>
        cases h
        exact m.errs_row cursor _ hrow
      · next hlink =>
        cases h
        exact m.errs_readWord cursor 0 _ hlink
      · split_ifs at h
        exact ih _ _ fault h

/-! ## Writing -/

lemma faultless_onArena {x : EStateM Fault Arena α} (hx : Faultless (fun _ => True) x) :
    Faultless SearchesList (onArena x) :=
  .focus hx (fun _ _ => trivial) fun _ _ hs _ => hs

lemma faultless_modifyRow (f : Row → Row) : Faultless SearchesList (modifyRow id f) :=
  .modifyGet fun _ hs => hs

lemma faultless_touch : Faultless SearchesList (touch id) := by
  refine .bind (.query fun m => m.errs_pendingSnapshot id) fun pending => ?_
  cases pending with
  | none => exact .pure ()
  | some snapshot =>
      exact .bind (.modifyGet fun _ hs => hs) fun _ => .bind .get fun _ => faultless_modifyRow id _

lemma faultless_changeRow (f : Row → Row) : Faultless SearchesList (changeRow id f) :=
  .bind (faultless_touch id) fun _ => .bind (.discard (.query fun m => m.errs_row id)) fun _ =>
    faultless_modifyRow id f

lemma faultless_setMark (mark : Mark) : Faultless SearchesList (setMark id mark) :=
  .bind (.discard (.query fun m => m.errs_row id)) fun _ => faultless_modifyRow id _

lemma faultless_put (bytes : List UInt8) : Faultless SearchesList (put id offset bytes) :=
  .bind (.query fun m => m.errs_checkedAddress id offset _) fun _ =>
    .bind (faultless_touch id) fun _ => faultless_onArena (Arena.faultless_write _ bytes)

lemma faultless_putZeros : Faultless SearchesList (putZeros id) :=
  .bind (.query fun m => m.errs_row id) fun _ =>
    .bind (.query fun m => m.errs_checkedAddress id _ _) fun _ =>
      .bind (faultless_touch id) fun _ => faultless_onArena (Arena.faultless_zero _ _)

lemma faultless_reuse (tag : Tag) : Faultless SearchesList (reuse id tag) :=
  .bind (faultless_changeRow id _) fun _ => .bind (faultless_putZeros id) fun _ =>
    .bind .get fun _ => faultless_setMark id _

lemma faultless_writeLink (previous next : Nat) :
    Faultless SearchesList (writeLink previous next) := by
  rw [writeLink]
  split_ifs
  · exact faultless_changeRow 0 _
  · exact faultless_put previous 0 _

lemma faultless_countMiss : Faultless SearchesList countMiss := by
  intro m hm
  rw [Ends, countMiss]
  split_ifs <;> exact hm

lemma errs_search (m : Memory) (size : Nat) :
    Errs (match alignUp size arenaAlign with
      | none => .error .vmFull
      | some wanted =>
        match m.freeHead with
        | .ok head => m.findCandidate wanted m.entityCount 0 head
        | .error fault => .error fault) := by
  intro fault h
  split at h
  · cases h
    rfl
  · split at h
    · exact m.errs_findCandidate _ _ _ _ fault h
    · next hhead =>
      cases h
      exact m.errs_freeHead _ hhead

lemma faultless_firstFit (size : Nat) (tag : Tag) : Faultless SearchesList (firstFit size tag) := by
  refine .bind (.query fun m => m.errs_search size) fun found => ?_
  cases found with
  | none => exact faultless_countMiss
  | some candidate =>
      exact .bind (faultless_writeLink _ _) fun _ => .bind (faultless_reuse _ tag) fun _ =>
        .bind (.modifyGet fun _ hs => hs) fun _ => .pure _

lemma faultless_findStorage (size : Nat) (tag : Tag) :
    Faultless SearchesList (findStorage size tag) := by
  intro m hm
  have hfirst := faultless_firstFit size tag m hm
  rw [SearchesList] at hm
  rw [Ends] at hfirst ⊢
  simp only [findStorage, hm]
  exact hfirst

lemma faultless_tableAlloc (size : Nat) (tag : Tag) :
    Faultless SearchesList (tableAlloc size tag) := by
  refine .bind (.query fun m => ?_) fun size => ?_
  · intro fault h
    split at h
    · cases h
      rfl
    · split_ifs at h
      cases h
      rfl
  · dsimp only
    split_ifs
    · exact .bind (fun _ hs => hs) fun _ => .modifyGet fun _ hs => hs
    · exact .bind (faultless_onArena (Arena.faultless_alloc size)) fun _ =>
        .modifyGet fun _ hs => hs

lemma faultless_allocateWithoutGc (size : Nat) (tag : Tag) :
    Faultless SearchesList (allocateWithoutGc size tag) := by
  refine .bind (faultless_findStorage size tag) fun fit => ?_
  cases fit with
  | reused id => exact .pure id
  | miss => exact faultless_tableAlloc size tag
  | needsCollection => exact faultless_tableAlloc size tag

end Memory

namespace Transfer

/-! ## Copying -/

/-- The target looks for free storage in its own list. -/
def IntoList (s : Transfer × Memory) : Prop := s.2.SearchesList

lemma faultless_onTarget {x : MemoryM α} (hx : Faultless Memory.SearchesList x) :
    Faultless IntoList (onTarget x) :=
  .focus hx (fun _ hs => hs) fun _ _ _ hpart => hpart

lemma faultless_modifyTransfer (f : Transfer → Transfer) : Faultless IntoList (modifyTransfer f) :=
  .modifyGet fun _ hs => hs

lemma errs_duplicate (table : ResourceTable) (slot : Nat) : Errs (table.duplicate slot) := by
  intro fault h
  rw [ResourceTable.duplicate, ResourceTable.get] at h
  split at h <;> cases h
  rfl

variable (source : Memory)

lemma faultless_fill (old fresh : Nat) (row : Row) :
    Faultless IntoList (fill source old fresh row) := by
  rw [fill]
  split_ifs
  · refine .bind (.query fun _ => source.errs_readWord old 0) fun slot => ?_
    refine .bind (.query fun _ => errs_duplicate source.resources slot) fun handle => ?_
    refine .bind (faultless_onTarget (.modifyGet fun _ hs => hs)) fun slot => ?_
    exact faultless_onTarget (Memory.faultless_put fresh 0 _)
  · refine .bind (.query fun _ => source.errs_bytes old) fun bytes => ?_
    exact faultless_onTarget (Memory.faultless_put fresh 0 _)
  · exact .pure ()

lemma faultless_mapEntity (old : Nat) : Faultless IntoList (mapEntity source old) := by
  refine .bind .get fun s => ?_
  split
  · exact .pure _
  · refine .bind (.query fun _ => source.errs_row old) fun row => ?_
    refine .bind (faultless_onTarget (Memory.faultless_allocateWithoutGc _ _)) fun fresh => ?_
    refine .bind (faultless_fill source old fresh row) fun _ => ?_
    exact .bind (faultless_modifyTransfer _) fun _ => .pure _

lemma faultless_mapObject (obj : Object) : Faultless IntoList (mapObject source obj) := by
  rw [mapObject]
  split
  · exact .pure _
  · split_ifs
    · exact .pure _
    · exact .bind (faultless_mapEntity source _) fun _ => .pure _

lemma faultless_redirectSlots (fresh : Nat) (offsets : List Nat) :
    Faultless IntoList (redirectSlots source fresh offsets) := by
  induction offsets with
  | nil => exact .pure ()
  | cons offset rest ih =>
      refine .bind (.query fun s => s.2.errs_readObject fresh offset) fun slot => ?_
      dsimp only
      split_ifs
      · refine .bind (faultless_mapObject source slot) fun image => ?_
        exact .bind (faultless_onTarget (Memory.faultless_put fresh offset _)) fun _ => ih
      · exact ih

lemma faultless_drain (steps : Nat) : Faultless IntoList (drain source steps) := by
  induction steps with
  | zero => exact .pure ()
  | succ steps ih =>
      refine .bind .get fun s => ?_
      split
      · exact .pure ()
      · refine .bind (faultless_modifyTransfer _) fun _ => ?_
        refine .bind (.query fun s => s.2.errs_row _) fun row => ?_
        exact .bind (faultless_redirectSlots source _ _) fun _ => ih

/-- **A copy fails only with an error**, if the target looks for free storage in its own list. -/
lemma faultless_copy (obj : Object) : Faultless IntoList (copy source obj) :=
  .bind (faultless_mapObject source obj) fun _ => .bind .get fun _ =>
    .bind (faultless_drain source _) fun _ => .pure _

lemma faultless_copyAll (objs : List Object) : Faultless IntoList (copyAll source objs) := by
  induction objs with
  | nil => exact .pure []
  | cons obj rest ih =>
      exact .bind (faultless_copy source obj) fun _ => .bind ih fun _ => .pure _

end Transfer

end PostScriptCore
