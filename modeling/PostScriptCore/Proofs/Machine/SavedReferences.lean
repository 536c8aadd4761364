import PostScriptCore.Proofs.Machine.Reclaim
import PostScriptCore.Proofs.Memory.Dropping

/-!
# References that a restore brings back

A local array may store a global string.  While a save level is open the array can be overwritten or
freed, and then only the level remembers the reference.  Collections of the global memory do not ask the
save levels, so that the restore may bring back a reference to an entity that is gone.

* `SessionOp` — what may happen in a machine while the level is open.
* `Session.RefersTo` — what the local memory of the running context refers to.
* `SessionOp.Loses` — the operation collects the global memory, itself or for an allocation, from roots that
  do not reach an entity.
* `Session.sheltered_after` — one operation that does not lose an entity leaves it as it was.
* `Session.stays_gone` — an entity that was lost does not come back, though its number may.
* `Session.restore_keeps_global_references_iff` — a restore brings its references back alive exactly if
  none of them was lost meanwhile.
-/

namespace PostScriptCore

/-- What may happen in a machine while a level of the running context's memory is open. -/
inductive SessionOp
  | locally (op : MemoryOp)
  | globally (op : MemoryOp)
  /-- The running context moves objects about on its stacks. -/
  | moving (stackSet : StackSet)
  /-- Other contexts come, work and go. -/
  | waiting (scheduler : Scheduler)
  /-- The running context executes `2 vmreclaim`. -/
  | reclaim
  /-- Another context does, so that the global memory is collected from its roots. -/
  | reclaimElsewhere (roots : List Object)

namespace Session

variable {ν : Type} {s t base opened : Session ν} {id : Nat}

/-- The session after something happened. -/
def after (s : Session ν) : SessionOp → Session ν
  | .locally op => { s with context := { s.context with localVM := s.context.localVM.after op } }
  | .globally op => { s with globalVM := s.globalVM.after op }
  | .moving stackSet => { s with context := { s.context with stackSet } }
  | .waiting scheduler => { s with scheduler }
  | .reclaim => finalState (Action.vmReclaim (Object.int 2)) s
  | .reclaimElsewhere roots => { s with globalVM := s.globalVM.after (.collect roots true false) }

/-- The session after several things happened. -/
def afterAll (s : Session ν) (run : List SessionOp) : Session ν := run.foldl after s

/-- The roots of the second collection of `2 vmreclaim`: the stacks, what the local memories still store
once the running context's has been collected, and nothing that a save level remembers. -/
def reclaimRoots (s : Session ν) : List Object :=
  (finalState (onContext Context.collectLocal) s).globalRoots

/-- Some operation of a run has a property, where it takes place. -/
def Sometimes (P : Session ν → SessionOp → Prop) : Session ν → List SessionOp → Prop
  | _, [] => False
  | s, op :: rest => P s op ∨ Sometimes P (s.after op) rest

/-- Every operation of a run has a property, where it takes place. -/
def Always (P : Session ν → SessionOp → Prop) : Session ν → List SessionOp → Prop
  | _, [] => True
  | s, op :: rest => P s op ∧ Always P (s.after op) rest

/-- A live array or dictionary in the local memory of the running context stores a composite over the
global entity. -/
def RefersTo (s : Session ν) (id : Nat) : Prop :=
  ∃ obj ∈ s.context.localVM.allStoredComposites, obj.bank = .globalVM ∧ obj.entity? = some id

end Session

namespace SessionOp

variable {ν : Type}

/-- What is done to the local memory of the running context. -/
def localOps (s : Session ν) : SessionOp → List MemoryOp
  | locally op => [op]
  | reclaim => [.collect s.context.stackSet.roots true false]
  | _ => []

/-- What is done to the global memory. -/
def globalOps (s : Session ν) : SessionOp → List MemoryOp
  | globally op => [op]
  | reclaim => [.collect s.reclaimRoots true false]
  | reclaimElsewhere roots => [.collect roots true false]
  | _ => []

/-- The operation leaves the levels up to `outer` and the one above it open.  In the global memory it may
collect, also for an allocation and from whatever roots, but nothing frees a shared entity by hand, and no
free entity is written. -/
def Permitted (outer : Nat) (shared : Nat → Prop) (s : Session ν) : SessionOp → Prop
  | locally op => op.keepsOrder = true ∧ op.staysAbove (outer + 1) = true
  | globally op =>
    op.keepsOrder = true ∧ ∀ id, shared id → op.Confined (Memory.shelterTerms id True) s.globalVM
  | _ => True

/-- The global memory is collected, by `vmreclaim` or for an allocation, and the entity is garbage. -/
def Loses (id : Nat) (s : Session ν) : SessionOp → Prop
  | globally op => op.Drops id s.globalVM
  | reclaim => Memory.Garbage s.globalVM s.reclaimRoots id
  | reclaimElsewhere roots => Memory.Garbage s.globalVM roots id
  | _ => False

/-- The number of the entity is handed out by an allocation. -/
def HandsOut (id : Nat) (s : Session ν) : SessionOp → Prop
  | globally op => op.allocation? s.globalVM = some id
  | _ => False

/-- The entity is written. -/
def Writes (id : Nat) (_ : Session ν) : SessionOp → Prop
  | globally op => op.Writes id
  | _ => False

end SessionOp

namespace Session

variable {ν : Type} {s t base opened : Session ν} {id : Nat}

/-! ## One operation -/

/-- What a run between two levels relies on. -/
structure Underway (base s : Session ν) : Prop where
  leads : Memory.Leads base.context.localVM s.context.localVM
  localVM : s.context.localVM.InOrder .localVM
  globalVM : s.globalVM.InOrder .globalVM

/-- `2 vmreclaim` is two collections. -/
lemma after_reclaim (hlocal : s.context.localVM.InOrder .localVM)
    (hglobal : s.globalVM.InOrder .globalVM) :
    ∃ n g, s.after .reclaim = s.withMemories n g ∧
      n = s.context.localVM.after (.collect s.context.stackSet.roots true false) ∧
      g = s.globalVM.after (.collect s.reclaimRoots true false) ∧
      Memory.Collected s.globalVM (Memory.Garbage s.globalVM s.reclaimRoots) g := by
  obtain ⟨n, g, total, hcollect, -, hafter, hg, hrun⟩ :=
    Action.vmReclaim_two hlocal hglobal (rfl : (Object.int 2).asInt? = some 2)
  have hroots : (s.withMemories n s.globalVM).globalRoots = s.reclaimRoots := by
    rw [reclaimRoots, finalState_of_ok (Action.collectLocal_ok hcollect)]
  rw [hroots] at hafter hg
  refine ⟨n, g, finalState_of_ok hrun, ?_, hafter, hg⟩
  exact (Memory.after_of_ok rfl hcollect).symm

/-- **What an operation does to the two memories.** -/
lemma memories_after (hlocal : s.context.localVM.InOrder .localVM)
    (hglobal : s.globalVM.InOrder .globalVM) (op : SessionOp) :
    (s.after op).context.localVM = s.context.localVM.afterAll (op.localOps s) ∧
      (s.after op).globalVM = s.globalVM.afterAll (op.globalOps s) := by
  cases op with
  | reclaim =>
      obtain ⟨n, g, hafter, rfl, rfl, -⟩ := after_reclaim hlocal hglobal
      rw [hafter]
      exact ⟨rfl, rfl⟩
  | _ => exact ⟨rfl, rfl⟩

lemma Underway.after {outer : Nat} {shared : Nat → Prop} (h : Underway base s)
    (houter : base.context.localVM.level = outer) {op : SessionOp} (hop : op.Permitted outer shared s) :
    Underway base (s.after op) := by
  subst houter
  obtain ⟨hlocal, hglobal⟩ := memories_after h.localVM h.globalVM op
  refine ⟨hlocal ▸ h.leads.afterAll ?_, hlocal ▸ h.localVM.afterAll ?_, hglobal ▸ h.globalVM.afterAll ?_⟩
  all_goals
    intro mop hmem
    cases op <;> simp only [SessionOp.localOps, SessionOp.globalOps, List.mem_singleton,
      List.not_mem_nil] at hmem
  · exact hmem ▸ hop.2
  · exact hmem ▸ rfl
  · exact hmem ▸ hop.1
  · exact hmem ▸ rfl
  · exact hmem ▸ hop.1
  · exact hmem ▸ rfl
  · exact hmem ▸ rfl

/-- **What is not lost stays as it was.** -/
lemma sheltered_after {b : Memory} {outer : Nat} {shared : Nat → Prop} {written : Prop}
    (hs : Underway base s) (h : b.Sheltered id written s.globalVM) {op : SessionOp}
    (hop : op.Permitted outer shared s) (hid : shared id) (hkept : ¬ op.Loses id s)
    (hwrites : op.Writes id s → written) : b.Sheltered id written (s.after op).globalVM := by
  rw [(memories_after hs.localVM hs.globalVM op).2]
  have hcollect (roots : List Object) (hreached : ¬ Memory.Garbage s.globalVM roots id) :
      b.Sheltered id written (s.globalVM.after (.collect roots true false)) :=
    Memory.sustains_sheltered.after h ⟨trivial, by rintro _ _ _ ⟨⟩ _ _; exact hreached⟩
  cases op with
  | globally op => exact Memory.sustains_sheltered.after h ((hop.2 id hid).meets hkept hwrites)
  | reclaim => exact hcollect _ hkept
  | reclaimElsewhere roots => exact hcollect roots hkept
  | _ => exact h

/-- What is lost is gone, unless its number is handed out at once. -/
lemma gone_of_loses (hs : Underway base s) {op : SessionOp} (hlost : op.Loses id s)
    (hnew : ¬ op.HandsOut id s) (tag : Tag) : ¬ (s.after op).globalVM.Holds id tag := by
  rw [(memories_after hs.localVM hs.globalVM op).2]
  cases op with
  | globally mop => exact Memory.gone_of_drops hs.globalVM hlost hnew tag
  | reclaim => exact Memory.gone_of_collected hs.globalVM hlost tag
  | reclaimElsewhere roots => exact Memory.gone_of_collected hs.globalVM hlost tag
  | _ => exact hlost.elim

/-- **What is gone does not come back**, unless its number is handed out. -/
lemma stays_gone {outer : Nat} {shared : Nat → Prop} (hs : Underway base s) {op : SessionOp}
    (hop : op.Permitted outer shared s) (hid : shared id) (hnew : ¬ op.HandsOut id s) {tag : Tag}
    (hgone : ¬ s.globalVM.Holds id tag) : ¬ (s.after op).globalVM.Holds id tag := by
  have hstep : ∀ mop : MemoryOp, mop.isPlain = true → mop.allocation? s.globalVM ≠ some id →
      ¬ (s.globalVM.after mop).Holds id tag := fun mop hplain hnot hholds =>
    hgone ((Memory.moves_after hs.globalVM.sound hplain).holds hs.globalVM.sound hnot hholds)
  rw [(memories_after hs.localVM hs.globalVM op).2]
  cases op with
  | globally mop =>
      refine hstep mop ?_ hnew
      have hconfined := hop.2 id hid
      cases mop with
      | setTag => exact hconfined.elim
      | save => exact hconfined.elim
      | restore => exact hconfined.elim
      | _ => rfl
  | reclaim => exact hstep (.collect s.reclaimRoots true false) rfl (Option.some_ne_none id).symm
  | reclaimElsewhere roots =>
      exact hstep (.collect roots true false) rfl (Option.some_ne_none id).symm
  | _ => exact hgone

/-! ## Runs -/

section Runs

variable {outer : Nat} {shared : Nat → Prop} {run : List SessionOp}

lemma Underway.afterAll (h : Underway base s) (houter : base.context.localVM.level = outer)
    (hrun : s.Always (SessionOp.Permitted outer shared) run) : Underway base (s.afterAll run) := by
  induction run generalizing s with
  | nil => exact h
  | cons op rest ih => exact ih (h.after houter hrun.1) hrun.2

/-- A run that never loses an entity leaves it as it was, and never hands it out. -/
lemma sheltered_afterAll {b : Memory} {written : Prop} (hs : Underway base s)
    (houter : base.context.localVM.level = outer) (h : b.Sheltered id written s.globalVM)
    (hrun : s.Always (SessionOp.Permitted outer shared) run) (hid : shared id)
    (hkept : ¬ s.Sometimes (SessionOp.Loses id) run)
    (hwrites : s.Sometimes (SessionOp.Writes id) run → written) :
    b.Sheltered id written (s.afterAll run).globalVM ∧
      ¬ s.Sometimes (SessionOp.HandsOut id) run := by
  induction run generalizing s with
  | nil => exact ⟨h, not_false⟩
  | cons op rest ih =>
      rw [Sometimes, not_or] at hkept
      have hnext := sheltered_after hs h hrun.1 hid hkept.1 fun hw => hwrites (.inl hw)
      obtain ⟨hafter, hnot⟩ := ih (hs.after houter hrun.1) hnext hrun.2 hkept.2
        fun hw => hwrites (.inr hw)
      refine ⟨hafter, ?_⟩
      rintro (hnew | hlater)
      · cases op with
        | globally mop =>
            exact h.not_handed_out ((hrun.1.2 _ hid).meets hkept.1 fun _ => trivial) hnew
        | _ => exact hnew
      · exact hnot hlater

/-- A run that hands the number out to nobody leaves what is gone gone, -/
lemma gone_afterAll (hs : Underway base s) (houter : base.context.localVM.level = outer)
    (hrun : s.Always (SessionOp.Permitted outer shared) run) (hid : shared id)
    (hnew : ¬ s.Sometimes (SessionOp.HandsOut id) run) {tag : Tag} (hgone : ¬ s.globalVM.Holds id tag) :
    ¬ (s.afterAll run).globalVM.Holds id tag := by
  induction run generalizing s with
  | nil => exact hgone
  | cons op rest ih =>
      rw [Sometimes, not_or] at hnew
      exact ih (hs.after houter hrun.1) hrun.2 hnew.2 (stays_gone hs hrun.1 hid hnew.1 hgone)

/-- and if it loses the entity, that is gone in the end. -/
lemma gone_of_sometimes_loses (hs : Underway base s) (houter : base.context.localVM.level = outer)
    (hrun : s.Always (SessionOp.Permitted outer shared) run) (hid : shared id)
    (hnew : ¬ s.Sometimes (SessionOp.HandsOut id) run) (hlost : s.Sometimes (SessionOp.Loses id) run)
    (tag : Tag) : ¬ (s.afterAll run).globalVM.Holds id tag := by
  induction run generalizing s with
  | nil => exact hlost.elim
  | cons op rest ih =>
      rw [Sometimes, not_or] at hnew
      rcases hlost with hlost | hlost
      · exact gone_afterAll (hs.after houter hrun.1) houter hrun.2 hid hnew.2
          (gone_of_loses hs hlost hnew.1 tag)
      · exact ih (hs.after houter hrun.1) hrun.2 hnew.2 hlost

end Runs

end Session

/-! ## The references -/

namespace Memory

variable {m n : Memory}

/-- Memories that are alike store the same composites. -/
lemma Alike.mem_allStoredComposites {bank : Bank} (h : Alike m n) (hm : m.InOrder bank)
    (hn : n.InOrder bank) {obj : Object} :
    obj ∈ n.allStoredComposites ↔ obj ∈ m.allStoredComposites := by
  rw [Memory.mem_allStoredComposites hm.sound hm.tidy.plainHead,
    Memory.mem_allStoredComposites hn.sound hn.tidy.plainHead]
  have hstored : ∀ {k l : Memory} {id : Nat}, k.InOrder bank → l.InOrder bank → Alike k l →
      obj ∈ k.storedComposites id → obj ∈ l.storedComposites id := by
    intro k l id hk hl halike hobj
    obtain ⟨row, index, hrow, hholds, hindex, hslot, hcomposite⟩ :=
      (mem_storedComposites hk.sound hk.tidy.plainHead).mp hobj
    have hid := ne_zero_of_holdsObjects hk.tidy.plainHead hrow hholds
    obtain ⟨row', hrow', hplain⟩ := Option.map_eq_some_iff.mp
      ((halike.outline id).symm.trans (outline_of_row hrow))
    have htag : row'.tag = row.tag := by rw [← row'.plain_tag, hplain, row.plain_tag]
    have hsize : row'.size = row.size := by rw [← row'.plain_size, hplain, row.plain_size]
    have hbytes := bytes_ok hk.sound hid hrow
    refine (mem_storedComposites hl.sound hl.tidy.plainHead).mpr
      ⟨row', index, hrow', htag ▸ hholds, hsize ▸ hindex, ?_, hcomposite⟩
    rw [slot?_of_bytes ((halike.bytes hk.sound hl.sound id).trans hbytes), ← slot?_of_bytes hbytes]
    exact hslot
  exact exists_congr fun id => ⟨hstored hn hm h.symm, hstored hm hn h⟩

end Memory

namespace Session

variable {ν : Type} {s t base opened : Session ν} {id : Nat}

/-- `save` opens a level and leaves the global memory alone. -/
lemma save_opens (h : Action.save s = .ok () t) :
    s.context.localVM.level < Mark.maxLevel ∧ t.context.localVM = s.context.localVM.opened ∧
      t.globalVM = s.globalVM := by
  have hends : Ends Action.save s
      (fun _ t => s.context.localVM.level < Mark.maxLevel ∧
        t.context.localVM = s.context.localVM.opened ∧ t.globalVM = s.globalVM)
      fun _ _ => True := by
    by_cases hlevel : s.context.localVM.level < Mark.maxLevel
    · refine Ends.bind (Ends.of_ok (onLocalVM_ok (Memory.save_run hlevel)) ?_)
      show Ends (onContext (Context.onStackSet (StackSet.onOperands _))) _ _ _
      refine Ends.focus (Ends.focus (Ends.focus ?_))
      exact Ends.always (fun _ _ => ⟨hlevel, rfl, rfl⟩) fun _ _ => trivial
    · refine Ends.bind ?_
      show Ends (onContext (Context.onLocalVM _)) _ _ _
      refine Ends.focus (Ends.focus ?_)
      exact Ends.of_error (Memory.save_error hlevel) trivial
  rw [Ends, h] at hends
  exact hends

/-- If `restore` succeeds, it has closed the level. -/
lemma restore_closes (hs : s.context.localVM.Sound) {obj : Object} {level : Nat}
    (hsave : obj.asSave? = some level) (h : Action.restore obj s = .ok () t) : t = s.restored level := by
  by_cases hrefused : ¬ (level ≠ 0 ∧ level ≤ s.context.localVM.level) ∨ s.SomeVanishes level
  · rw [restore_refuses hs hsave hrefused] at h
    contradiction
  · rw [not_or, not_not] at hrefused
    rw [restore_restores hs hsave hrefused.1 hrefused.2] at h
    injection h with _ h
    exact h.symm

/-- Both memories are in working order, and everything that the local memory refers to in the global
one is live. -/
structure Grounded (s : Session ν) : Prop where
  localVM : s.context.localVM.InOrder .localVM
  globalVM : s.globalVM.InOrder .globalVM
  settled : s.globalVM.Settled
  live : ∀ id, s.RefersTo id → ∃ cell, s.globalVM.cell? id = some cell ∧ cell.isFree = false

/-- A level that was just opened leads back. -/
lemma Grounded.underway (h : base.Grounded) (hsave : Action.save base = .ok () opened) :
    Underway base opened := by
  obtain ⟨hlevel, hlocal, hglobal⟩ := save_opens hsave
  refine ⟨?_, ?_, hglobal ▸ h.globalVM⟩
  · rw [hlocal]
    exact Memory.leads_opened h.localVM.sound hlevel
  · have horder : (base.context.localVM.after .save).InOrder .localVM := h.localVM.after rfl
    rw [Memory.after_save, if_pos hlevel] at horder
    rw [hlocal]
    exact horder

/-- Restoring the level brings the local memory back. -/
lemma Underway.restored (h : Underway base s) :
    Memory.Alike base.context.localVM (s.restored (base.context.localVM.level + 1)).context.localVM ∧
      (s.restored (base.context.localVM.level + 1)).context.localVM.InOrder .localVM := by
  have habove := h.leads.above
  have hcount : s.context.localVM.level - (base.context.localVM.level + 1) + 1 =
      s.context.localVM.level - base.context.localVM.level := by omega
  have halike := h.leads.alike
  have horder : (s.context.localVM.after (.restore (base.context.localVM.level + 1))).InOrder
      .localVM := h.localVM.after rfl
  rw [Memory.after_restore h.localVM.sound, if_pos ⟨Nat.succ_ne_zero _, habove⟩] at horder
  rw [← hcount] at halike
  exact ⟨halike, horder⟩

/-- After a run the global entity is the one that it was: live, with the same tag, not handed out in
between, and with the same bytes unless it was written. -/
structure SameSince (opened : Session ν) (run : List SessionOp) (id : Nat) (t : Session ν) : Prop where
  tag : ∃ tag, opened.globalVM.Holds id tag ∧ t.globalVM.Holds id tag
  bytes : ¬ opened.Sometimes (SessionOp.Writes id) run →
    t.globalVM.bytes id = opened.globalVM.bytes id
  same : ¬ opened.Sometimes (SessionOp.HandsOut id) run

/-- **When a restore brings its references back alive.**  Let a level be opened while all that the local
memory refers to in the global one is live.  Whatever is then done in the local memory, on the stacks and
by other contexts, and however the global memory is allocated from, written and reclaimed, a successful
restore of the level brings back exactly the references of then.  The entities that they refer to are what
they were if and only if every collection in between, for `2 vmreclaim` or for an allocation, reached them
from elsewhere: a save level keeps nothing alive. -/
theorem restore_keeps_global_references_iff {obj : Object} {run : List SessionOp}
    (hbase : base.Grounded) (hsave : Action.save base = .ok () opened)
    (hrun : opened.Always (SessionOp.Permitted base.context.localVM.level base.RefersTo) run)
    (hobj : obj.asSave? = some (base.context.localVM.level + 1))
    (hrestore : Action.restore obj (opened.afterAll run) = .ok () t) :
    (∀ id, t.RefersTo id ↔ base.RefersTo id) ∧
      ((∀ id, t.RefersTo id → SameSince opened run id t) ↔
        ∀ id, base.RefersTo id → ¬ opened.Sometimes (SessionOp.Loses id) run) := by
  have hopened := hbase.underway hsave
  have hend := hopened.afterAll rfl hrun
  obtain rfl := restore_closes hend.leads.sound hobj hrestore
  obtain ⟨halike, horder⟩ := hend.restored
  have hrefers : ∀ id, ((opened.afterAll run).restored (base.context.localVM.level + 1)).RefersTo id ↔
      base.RefersTo id := fun id => exists_congr fun obj => and_congr_left fun _ =>
    halike.mem_allStoredComposites hbase.localVM horder
  refine ⟨hrefers, ?_, fun hkept id hid => ?_⟩
  · intro hsame id hid hlost
    have hsame := hsame id ((hrefers id).mpr hid)
    obtain ⟨tag, -, hthen⟩ := hsame.tag
    exact gone_of_sometimes_loses hopened rfl hrun hid hsame.same hlost tag hthen
  · have hid := (hrefers id).mp hid
    obtain ⟨cell, hcell, hlive⟩ := hbase.live id hid
    have hstart : opened.globalVM.Sheltered id (opened.Sometimes (SessionOp.Writes id) run)
        opened.globalVM := by
      rw [(save_opens hsave).2.2]
      exact hbase.settled.sheltered hcell hlive
    obtain ⟨hsheltered, hnew⟩ := sheltered_afterAll hopened rfl hstart hrun hid (hkept id hid) fun h => h
    exact ⟨hsheltered.holds, fun hnot => hsheltered.bytes hopened.globalVM.sound hnot, hnew⟩

/-! ## An array that is overwritten -/

/-- What is on a stack is a root of both collections. -/
lemma mem_reclaimRoots (hlocal : s.context.localVM.InOrder .localVM) {obj : Object}
    (hobj : obj ∈ s.context.stackSet.roots) : obj ∈ s.reclaimRoots := by
  obtain ⟨n, hcollect, -⟩ := Memory.collect_run hlocal.sound hlocal.tidy hlocal.collector_eq
    s.context.stackSet.roots
  rw [reclaimRoots, finalState_of_ok (Action.collectLocal_ok hcollect)]
  exact List.mem_append_left _ (List.mem_append_left _ hobj)

lemma refersTo_sharing : sharing.RefersTo id ↔ id = 3 := by
  have hstored : sharing.context.localVM.allStoredComposites =
      [Object.composite .string .globalVM 3 0 1] := by decide +kernel
  have hentity : (Object.composite .string .globalVM 3 0 1).entity? = some 3 := rfl
  rw [RefersTo, hstored]
  constructor
  · rintro ⟨obj, hobj, -, hid⟩
    obtain rfl := List.mem_singleton.mp hobj
    exact Option.some.inj (hid.symm.trans hentity)
  · rintro rfl
    exact ⟨_, List.mem_singleton.mpr rfl, rfl, hentity⟩

lemma settled_sharing : sharing.globalVM.Settled where
  sound := inOrder_sharing.globalVM.sound
  limit := by decide +kernel
  bound := by decide +kernel
  head := by decide +kernel
  tidy := inOrder_sharing.globalVM.tidy
  orderly := by
    have hstart : Memory.withBacking .globalVM .anonymous Settings.standard = .ok _ := rfl
    have hrun := (Memory.layered_of_withBacking hstart).afterAll
      (by decide +kernel : Memory.respectsAll _ (.useCollector .markSweep :: threeStrings) = true)
    exact hrun.orderly

lemma grounded_sharing : sharing.Grounded where
  localVM := inOrder_sharing.localVM _ (List.mem_cons_self ..)
  globalVM := inOrder_sharing.globalVM
  settled := settled_sharing
  live := by
    intro id hid
    obtain rfl := refersTo_sharing.mp hid
    have hlive : (sharing.globalVM.cell? 3).map Cell.isFree = some false := by decide +kernel
    exact Option.map_eq_some_iff.mp hlive

/-- The level is open, and nothing on the stacks would vanish with it. -/
def restorable (s : Session ν) (level : Nat) : Bool :=
  level != 0 && decide (level ≤ s.context.localVM.level) &&
    !s.context.stackSet.roots.any (Action.isNewerThan s.context.localVM level)

lemma restore_of_restorable (hs : s.context.localVM.Sound) {obj : Object} {level : Nat}
    (hobj : obj.asSave? = some level) (h : s.restorable level = true) :
    Action.restore obj s = .ok () (s.restored level) := by
  simp only [restorable, Bool.and_eq_true, bne_iff_ne, decide_eq_true_eq, Bool.not_eq_true'] at h
  refine restore_restores hs hobj h.1 fun hvanishes => ?_
  rw [(someVanishes_iff hs h.1).mp hvanishes] at h
  exact Bool.false_ne_true h.2.symm

/-- The session after `save`. -/
def openedSharing : Session Builtin := finalState Action.save sharing

lemma save_sharing : Action.save sharing = .ok () openedSharing := rfl

/-- The reference is overwritten, and the global memory reclaimed. -/
def overwritingRun : List SessionOp := [.locally (.writeObject 1 0 Object.null), .reclaim]

/-- The same, but before the global memory is reclaimed the string is put on the operand stack. -/
def holdingRun : List SessionOp :=
  [.locally (.writeObject 1 0 Object.null),
    .moving { StackSet.create Settings.standard with
      operands := ⟨#[#[Object.composite .string .globalVM 3 0 1, Object.null]], 0, 2, 2, 8,
        .stackOverflow⟩ },
    .reclaim]

lemma level_sharing : sharing.context.localVM.level = 0 := by decide +kernel

/-- The array still refers to the string, which was kept. -/
theorem restore_keeps_global_references_iff_held :
    sharing.Grounded ∧ Action.save sharing = .ok () openedSharing ∧
      openedSharing.Always (SessionOp.Permitted 0 sharing.RefersTo) holdingRun ∧
      ∃ t, Action.restore (Object.save 1) (openedSharing.afterAll holdingRun) = .ok () t ∧
        t.RefersTo 3 ∧ SameSince openedSharing holdingRun 3 t := by
  have hopened := grounded_sharing.underway save_sharing
  have hpermitted : openedSharing.Always (SessionOp.Permitted 0 sharing.RefersTo) holdingRun :=
    ⟨⟨rfl, rfl⟩, trivial, trivial, trivial⟩
  have hend := hopened.afterAll level_sharing hpermitted
  have hrestore : Action.restore (Object.save 1) (openedSharing.afterAll holdingRun) =
      .ok () ((openedSharing.afterAll holdingRun).restored 1) :=
    restore_of_restorable hend.leads.sound rfl (by decide +kernel)
  obtain ⟨hrefers, hiff⟩ := restore_keeps_global_references_iff grounded_sharing save_sharing
    (level_sharing ▸ hpermitted) (level_sharing ▸ rfl) hrestore
  have hkept : ∀ id, sharing.RefersTo id → ¬ openedSharing.Sometimes (SessionOp.Loses id) holdingRun := by
    intro id hid
    obtain rfl := refersTo_sharing.mp hid
    rintro (hlost | hlost | hlost | hlost)
    · exact hlost
    · exact hlost
    · have hbefore := (hopened.after level_sharing hpermitted.1).after level_sharing hpermitted.2.1
      obtain ⟨row, -, -, -, hnot⟩ := hlost
      exact hnot (.root (mem_reclaimRoots hbefore.localVM (by decide +kernel :
        Object.composite .string .globalVM 3 0 1 ∈ _)) rfl rfl)
    · exact hlost
  have hstored := (hrefers 3).mpr (refersTo_sharing.mpr rfl)
  exact ⟨grounded_sharing, save_sharing, hpermitted, _, hrestore, hstored, hiff.mpr hkept 3 hstored⟩

/-- The array refers to the string again, and the string is free. -/
theorem restore_revives_dangling_reference :
    sharing.Grounded ∧ Action.save sharing = .ok () openedSharing ∧
      openedSharing.Always (SessionOp.Permitted 0 sharing.RefersTo) overwritingRun ∧
      ∃ t, Action.restore (Object.save 1) (openedSharing.afterAll overwritingRun) = .ok () t ∧
        t.RefersTo 3 ∧ ∃ row, t.globalVM.rows[3]? = some row ∧ row.isFree = true := by
  have hpermitted : openedSharing.Always (SessionOp.Permitted 0 sharing.RefersTo) overwritingRun :=
    ⟨⟨rfl, rfl⟩, trivial, trivial⟩
  have hend := (grounded_sharing.underway save_sharing).afterAll level_sharing hpermitted
  have hrestore : Action.restore (Object.save 1) (openedSharing.afterAll overwritingRun) =
      .ok () ((openedSharing.afterAll overwritingRun).restored 1) :=
    restore_of_restorable hend.leads.sound rfl (by decide +kernel)
  have hstored : ((openedSharing.afterAll overwritingRun).restored 1).context.localVM.allStoredComposites =
      [Object.composite .string .globalVM 3 0 1] := by decide +kernel
  have hfree : ((openedSharing.afterAll overwritingRun).restored 1).globalVM.rows[3]?.map Row.isFree =
      some true := by decide +kernel
  exact ⟨grounded_sharing, save_sharing, hpermitted, _, hrestore,
    ⟨_, hstored ▸ List.mem_singleton.mpr rfl, rfl, rfl⟩, Option.map_eq_some_iff.mp hfree⟩

end Session

end PostScriptCore
