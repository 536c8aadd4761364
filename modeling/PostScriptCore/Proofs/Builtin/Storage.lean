import PostScriptCore.Builtin.Basic
import PostScriptCore.Proofs.Machine.Dispatch
import PostScriptCore.Proofs.Memory.History

/-!
# What `restore` leaves on the stacks

`restore` has to refuse if an object on a stack would be left without its allocation.  It looks for
entities that vanish from the table with the level; an entity that was freed and handed out again
since the level was opened stays in the table and goes unnoticed.

* `Session.dispatch_restore` — what a dispatch of `restore` does.
* `Session.LeavesNothingDangling` — what `restore` is for.
* `Session.restore_leaves_nothing_dangling_iff` — when it does that.
-/

namespace PostScriptCore

/-- The object is a composite over an entity of the local memory. -/
def Object.NamesLocal (obj : Object) (id : Nat) : Prop :=
  obj.bank = .localVM ∧ obj.entity? = some id

/-- The level is open, and restoring it takes the entity from the table. -/
def Memory.Vanishes (m : Memory) (level id : Nat) : Prop :=
  ∃ n, Memory.restore level m = .ok () n ∧ n.entityCount ≤ id

namespace Session

variable {ν : Type}

/-- The objects on the four stacks of the running context. -/
def stacked (s : Session ν) : List Object := s.context.stackSet.roots

/-- The opcode is that of `restore`, with its one signature and its native. -/
def IsRestore [NativeSet ν] (s : Session ν) (opcode : Nat) : Prop :=
  ∃ number native,
    s.operators.signatures s.globalVM opcode =
      .ok [Signature.ofPatterns [.type .save] 0 number] ∧
    s.operators.natives[number]? = some native ∧
    ∀ call args, NativeSet.run native call args = Builtin.restore.run args

/-- `restore` is about to be dispatched on a save object, and every local composite on a stack is
live. -/
structure ReadyToRestore [NativeSet ν] (s : Session ν) (opcode level : Nat) : Prop where
  registered : s.IsRestore opcode
  operands : s.context.stackSet.operands.WellFormed
  hold : s.context.stackSet.hold.WellFormed
  top : ∃ below obj, s.context.stackSet.operands.toList = below ++ [obj] ∧
    obj.asSave? = some level
  live : ∀ obj ∈ s.stacked, ∀ id, obj.NamesLocal id → ∃ tag, s.context.localVM.Holds id tag

/-- Some local composite on a stack names an entity that vanishes with the level. -/
def SomeVanishes (s : Session ν) (level : Nat) : Prop :=
  ∃ obj ∈ s.stacked, ∃ id, obj.NamesLocal id ∧ s.context.localVM.Vanishes level id

/-! ## The native -/

lemma isNewerThan_iff {m : Memory} {level : Nat} {obj : Object} :
    Action.isNewerThan m level obj = true ↔
      ∃ id, obj.NamesLocal id ∧ m.createdAfter id level = true := by
  rw [Action.isNewerThan]
  split
  · next id hbank hid =>
    refine ⟨fun h => ⟨id, ⟨hbank, hid⟩, h⟩, ?_⟩
    rintro ⟨id', ⟨-, hid'⟩, h⟩
    obtain rfl := Option.some.inj (hid.symm.trans hid')
    exact h
  · next hnot =>
    refine ⟨(nomatch ·), ?_⟩
    rintro ⟨id, ⟨hbank, hid⟩, -⟩
    exact (hnot id hbank hid).elim

lemma vanishes_iff {m : Memory} (hs : m.Sound) {level id : Nat} :
    m.Vanishes level id ↔ (level ≠ 0 ∧ level ≤ m.level) ∧ m.createdAfter id level = true := by
  by_cases h : level ≠ 0 ∧ level ≤ m.level
  · rw [Memory.Vanishes, Memory.createdAfter_iff hs h.1 h.2, Memory.restore_run hs h.1 h.2]
    refine ⟨?_, fun hle => ⟨_, rfl, hle.2⟩⟩
    rintro ⟨n, hrun, hle⟩
    injection hrun with _ hn
    subst hn
    exact ⟨h, hle⟩
  · refine ⟨?_, fun h' => absurd h'.1 h⟩
    rintro ⟨n, hrun, -⟩
    rw [Memory.restore_error (by omega)] at hrun
    contradiction

/-- A save object is no composite. -/
lemma not_namesLocal_of_asSave? {obj : Object} {level id : Nat} (h : obj.asSave? = some level) :
    ¬ obj.NamesLocal id := by
  rintro ⟨-, hid⟩
  rw [Object.asSave?, Object.payload?] at h
  split at h
  · next hty =>
    rw [Object.entity?, Object.isComposite, hty] at hid
    exact nomatch hid
  · contradiction

lemma onLocalVM_ok {α : Type} {x : MemoryM α} {s : Session ν} {a : α} {m : Memory}
    (h : x s.context.localVM = .ok a m) :
    onLocalVM x s = .ok a { s with context := { s.context with localVM := m } } := by
  simp only [onLocalVM, onContext, Context.onLocalVM, focus, h]

/-- The session after `restore` has closed the level. -/
def restored (s : Session ν) (level : Nat) : Session ν :=
  { s with
    context := { s.context with
      localVM := Memory.closed^[s.context.localVM.level - level + 1] s.context.localVM } }

lemma someVanishes_iff {s : Session ν} (hs : s.context.localVM.Sound) {level : Nat}
    (hopen : level ≠ 0 ∧ level ≤ s.context.localVM.level) :
    s.SomeVanishes level ↔
      s.context.stackSet.roots.any (Action.isNewerThan s.context.localVM level) = true := by
  rw [List.any_eq_true]
  refine exists_congr fun obj => and_congr_right fun _ => ?_
  rw [isNewerThan_iff]
  refine exists_congr fun id => and_congr_right fun _ => ?_
  rw [vanishes_iff hs, and_iff_right hopen]

/-- The native refuses a level that is not open and a stack object that would vanish. -/
lemma restore_refuses {s : Session ν} (hs : s.context.localVM.Sound) {obj : Object} {level : Nat}
    (hsave : obj.asSave? = some level)
    (h : ¬ (level ≠ 0 ∧ level ≤ s.context.localVM.level) ∨ s.SomeVanishes level) :
    Action.restore obj s = .error .invalidRestore s := by
  rw [Action.restore, hsave]
  refine (bind_ok (t := s) rfl).trans ?_
  dsimp only
  by_cases hopen : level ≠ 0 ∧ level ≤ s.context.localVM.level
  · have hskip : ¬ (level = 0 ∨ s.context.localVM.level < level) := by omega
    have hseen := (someVanishes_iff hs hopen).mp (h.resolve_left (not_not_intro hopen))
    rw [if_neg hskip, if_pos hseen]
    rfl
  · have hstop : level = 0 ∨ s.context.localVM.level < level := by omega
    rw [if_pos hstop]
    rfl

lemma restore_restores {s : Session ν} (hs : s.context.localVM.Sound) {obj : Object} {level : Nat}
    (hsave : obj.asSave? = some level)
    (hopen : level ≠ 0 ∧ level ≤ s.context.localVM.level) (h : ¬ s.SomeVanishes level) :
    Action.restore obj s = .ok () (s.restored level) := by
  have hskip : ¬ (level = 0 ∨ s.context.localVM.level < level) := by omega
  have hunseen := mt (someVanishes_iff hs hopen).mpr h
  rw [Action.restore, hsave]
  refine (bind_ok (t := s) rfl).trans ?_
  dsimp only
  rw [if_neg hskip, if_neg hunseen]
  exact onLocalVM_ok (Memory.restore_run hs hopen.1 hopen.2)

/-! ## The dispatch -/

/-- Holding the save object hides no composite and adds none. -/
lemma someVanishes_holding {s : Session ν} {opcode level : Nat} {operands hold : Stack}
    {below : List Object} {obj : Object} (hsave : obj.asSave? = some level)
    (hlist : s.context.stackSet.operands.toList = below ++ [obj]) (hbelow : operands.toList = below)
    (hheld : hold.toList = s.context.stackSet.hold.toList ++ [obj]) :
    (s.holding opcode operands hold).SomeVanishes level ↔ s.SomeVanishes level := by
  have hmem : ∀ x id, Object.NamesLocal x id →
      (x ∈ (s.holding opcode operands hold).stacked ↔ x ∈ s.stacked) := by
    intro x id hnames
    have hne : x ≠ obj := by
      rintro rfl
      exact not_namesLocal_of_asSave? hsave hnames
    simp only [stacked, holding, StackSet.roots, hbelow, hheld, hlist, List.mem_append,
      List.mem_singleton, hne, or_false]
  refine exists_congr fun x => ⟨?_, ?_⟩
  · rintro ⟨hx, id, hnames, hvanishes⟩
    exact ⟨(hmem x id hnames).mp hx, id, hnames, hvanishes⟩
  · rintro ⟨hx, id, hnames, hvanishes⟩
    exact ⟨(hmem x id hnames).mpr hx, id, hnames, hvanishes⟩

/-- **What dispatching `restore` does.**  Without room for its argument, or if the native refuses,
the local memory stays as it was; otherwise the level is closed and every stack keeps what it held
below the save object. -/
lemma dispatch_restore [NativeSet ν] {s : Session ν} {opcode level : Nat}
    (hs : s.context.localVM.Sound) (h : s.ReadyToRestore opcode level) :
    (¬ s.HasRoom → ∃ t, dispatch opcode s = .error .limitCheck t) ∧
    (s.HasRoom → ¬ (level ≠ 0 ∧ level ≤ s.context.localVM.level) ∨ s.SomeVanishes level →
      ∃ t, dispatch opcode s = .error .invalidRestore t ∧
        t.context.localVM = s.context.localVM) ∧
    (s.HasRoom → level ≠ 0 ∧ level ≤ s.context.localVM.level → ¬ s.SomeVanishes level →
      ∃ t, dispatch opcode s = .ok () t ∧ (∀ obj ∈ t.stacked, obj ∈ s.stacked) ∧
        t.context.localVM = (s.restored level).context.localVM) := by
  obtain ⟨number, native, hsignatures, hnative, hrun⟩ := h.registered
  obtain ⟨below, obj, hlist, hsave⟩ := h.top
  have haccepts : (Pattern.type .save).accepts obj = true := by
    rw [Object.asSave?, Object.payload?] at hsave
    split at hsave
    · next hty => exact beq_iff_eq.mpr hty
    · contradiction
  have hselect := OperatorTable.select_of_signatures hsignatures
    (Signature.isChosen_unary hlist haccepts)
  obtain ⟨hroom, hfull⟩ :=
    checkRoom_unary h.operands hlist (.type .save) (Nat.zero_le 1) number
  refine ⟨fun hno => ⟨_, dispatch_refused hselect (hfull hno)⟩, fun hyes hrefuse => ?_,
    fun hyes hopen hkeeps => ?_⟩
  · obtain ⟨operands, hold, ⟨-, hbelow, -, hhold, hheld, -⟩, hdispatch⟩ :=
      dispatch_moved hselect hnative nofun h.operands h.hold hlist (hroom hyes)
    have hrefuse' : ¬ (level ≠ 0 ∧ level ≤ s.context.localVM.level) ∨
        (s.holding opcode operands hold).SomeVanishes level :=
      hrefuse.imp_right (someVanishes_holding hsave hlist hbelow hheld).mpr
    have hbody := restore_refuses (s := s.holding opcode operands hold) hs hsave hrefuse'
    have hcount := (Stack.slot_last hheld).1
    obtain ⟨hold', hrelease⟩ := releasingHold_error hbody hhold
      (by simp only [holding]; omega)
    rw [hdispatch, hrun]
    exact ⟨_, hrelease, rfl⟩
  · obtain ⟨operands, hold, ⟨-, hbelow, -, hhold, hheld, -⟩, hdispatch⟩ :=
      dispatch_moved hselect hnative nofun h.operands h.hold hlist (hroom hyes)
    have hkeeps' : ¬ (s.holding opcode operands hold).SomeVanishes level :=
      mt (someVanishes_holding hsave hlist hbelow hheld).mp hkeeps
    have hbody := restore_restores (s := s.holding opcode operands hold) hs hsave hopen hkeeps'
    obtain ⟨hold', -, hlist', -, hrelease⟩ := releasingHold_ok hbody hhold hheld
      List.length_singleton
    rw [hdispatch, hrun]
    refine ⟨_, hrelease, fun x hx => ?_, rfl⟩
    simp only [stacked, setHold, restored, holding, StackSet.roots, hbelow, hlist', hlist,
      List.mem_append] at hx ⊢
    rcases hx with ((hx | hx) | hx) | hx
    · exact .inl (.inl (.inl (.inl hx)))
    · exact .inl (.inl (.inr hx))
    · exact .inl (.inr hx)
    · exact .inr hx

/-! ## What is left on the stacks -/

/-- The level is open, and some local composite on a stack names an entity that was allocated since
it was opened. -/
def Dangles (s : Session ν) (level : Nat) (log : List Grant) : Prop :=
  (level ≠ 0 ∧ level ≤ s.context.localVM.level) ∧
    ∃ obj ∈ s.stacked, ∃ id, obj.NamesLocal id ∧ Memory.AllocatedSince log level id

/-- After success every local composite on a stack names an entity that was not allocated since the
level was opened and is live with its old tag.  If one would be left dangling, the operator refuses
and leaves the local memory alone. -/
structure LeavesNothingDangling [NativeSet ν] (s : Session ν) (opcode level : Nat)
    (log : List Grant) : Prop where
  kept : ∀ t, dispatch opcode s = .ok () t → ∀ obj ∈ t.stacked, ∀ id, obj.NamesLocal id →
    ¬ Memory.AllocatedSince log level id ∧
      ∃ tag, s.context.localVM.Holds id tag ∧ t.context.localVM.Holds id tag
  refused : s.Dangles level log → ∃ t, dispatch opcode s = .error .invalidRestore t ∧
    t.context.localVM = s.context.localVM

variable {s : Session ν} {opcode level : Nat} {log : List Grant}

/-- What was not allocated since the level was opened outlives it. -/
lemma holds_restored (hs : s.context.localVM.Sound) (htraced : s.context.localVM.Traced log)
    (hopen : level ≠ 0 ∧ level ≤ s.context.localVM.level) {id : Nat} {tag : Tag}
    (hnot : ¬ Memory.AllocatedSince log level id) (hm : s.context.localVM.Holds id tag) :
    (s.restored level).context.localVM.Holds id tag := by
  obtain ⟨outer, rfl⟩ := Nat.exists_eq_succ_of_ne_zero hopen.1
  have hundone := htraced.holds_undone (Nat.le_of_succ_le hopen.2) hnot hm
  have hcount : s.context.localVM.level - outer =
      s.context.localVM.level - (outer + 1) + 1 := by omega
  rw [hcount] at hundone
  exact (Memory.alike_iterate_closed _ hs).holds hundone

variable [NativeSet ν]

/-- The operator has to see the dangling object: if it does not, it goes through. -/
lemma LeavesNothingDangling.noticed (h : s.LeavesNothingDangling opcode level log)
    (hs : s.context.localVM.Sound) (hready : s.ReadyToRestore opcode level)
    (hdangles : s.Dangles level log) : s.HasRoom ∧ s.SomeVanishes level := by
  obtain ⟨hfull, -, hcloses⟩ := dispatch_restore hs hready
  obtain ⟨t, hrun, -⟩ := h.refused hdangles
  have hroom : s.HasRoom := by
    by_contra hno
    obtain ⟨t', hrun'⟩ := hfull hno
    rw [hrun] at hrun'
    exact nomatch hrun'
  refine ⟨hroom, ?_⟩
  by_contra hkeeps
  obtain ⟨t', hrun', -⟩ := hcloses hroom hdangles.1 hkeeps
  rw [hrun] at hrun'
  exact nomatch hrun'

/-- A noticed dangling object is enough. -/
lemma leavesNothingDangling_of_noticed (hs : s.context.localVM.Sound)
    (htraced : s.context.localVM.Traced log) (hready : s.ReadyToRestore opcode level)
    (h : s.Dangles level log → s.HasRoom ∧ s.SomeVanishes level) :
    s.LeavesNothingDangling opcode level log := by
  obtain ⟨hfull, hrefuses, hcloses⟩ := dispatch_restore hs hready
  refine ⟨fun t hrun obj hobj id hnames => ?_, fun hdangles => ?_⟩
  · by_cases hroom : s.HasRoom
    · by_cases hrefuse : ¬ (level ≠ 0 ∧ level ≤ s.context.localVM.level) ∨ s.SomeVanishes level
      · obtain ⟨t', hrun', -⟩ := hrefuses hroom hrefuse
        rw [hrun] at hrun'
        exact nomatch hrun'
      · rw [not_or, not_not] at hrefuse
        obtain ⟨hopen, hkeeps⟩ := hrefuse
        obtain ⟨t', hrun', hstacked, hmemory⟩ := hcloses hroom hopen hkeeps
        rw [hrun] at hrun'
        injection hrun' with _ ht
        subst ht
        have hnot : ¬ Memory.AllocatedSince log level id := fun hsince =>
          hkeeps (h ⟨hopen, obj, hstacked obj hobj, id, hnames, hsince⟩).2
        obtain ⟨tag, hlive⟩ := hready.live obj (hstacked obj hobj) id hnames
        refine ⟨hnot, tag, hlive, ?_⟩
        rw [hmemory]
        exact holds_restored hs htraced hopen hnot hlive
    · obtain ⟨t', hrun'⟩ := hfull hroom
      rw [hrun] at hrun'
      exact nomatch hrun'
  · obtain ⟨hroom, hvanishes⟩ := h hdangles
    exact hrefuses hroom (.inr hvanishes)

/-- **When `restore` leaves nothing dangling.**  Let a local memory be reached by any run, with any
objects on the stacks as long as they are live.  Then `restore` does what it is for exactly if, where
some stack object was allocated since the level was opened, there is room to hold the argument and
some stack object vanishes from the table.  An entity that was recycled since, at a number that the
table already had when the level was opened, does not vanish. -/
theorem restore_leaves_nothing_dangling_iff {bank : Bank} {backing : Backing} {settings : Settings}
    {start : Memory} (hstart : Memory.withBacking bank backing settings = .ok start)
    {run : List MemoryOp} (hrun : ∀ op ∈ run, op.keepsTags = true)
    (hmemory : s.context.localVM = start.afterAll run) (hready : s.ReadyToRestore opcode level) :
    s.LeavesNothingDangling opcode level (start.granted [] run) ↔
      (s.Dangles level (start.granted [] run) → s.HasRoom ∧ s.SomeVanishes level) := by
  have hs₀ := Memory.sound_of_withBacking hstart
  have hs : s.context.localVM.Sound := by
    rw [hmemory]
    exact Memory.sound_afterAll hs₀ run
  have htraced : s.context.localVM.Traced (start.granted [] run) := by
    rw [hmemory]
    exact (Memory.traced_of_level (Memory.level_of_withBacking hstart) []).afterAll hs₀ hrun
  exact ⟨fun h hdangles => h.noticed hs hready hdangles,
    leavesNothingDangling_of_noticed hs htraced hready⟩

/-! ## A string that vanishes and one that was recycled -/

section RestoreOnly

variable (localVM : Memory) (obj : Object)

/-- A machine with `restore` as its only operator, and an object below a save object. -/
def restoreOnly : Session Builtin where
  settings := Settings.standard
  globalVM :=
    match Memory.withBacking .globalVM .anonymous Settings.standard with
    | .ok m => m.afterAll
        [.tableAlloc entrySize (Tag.ofKind .system), .tableAlloc signatureSize (Tag.ofKind .system),
          .put 1 0 (OperatorEntry.encode ⟨0, 2, 1⟩),
          .put 2 0 (Signature.ofPatterns [.type .save] 0 0).encode]
    | .error _ => Memory.vacant
  names := Names.empty
  operators := ⟨1, 1, [(0, 0)], #[.restore]⟩
  system := ⟨0, 0, 0⟩
  scheduler := Scheduler.empty
  output := ⟨"", true⟩
  context :=
    { id := 0
      state := .run
      localVM
      stackSet := { StackSet.create Settings.standard with
        operands := ⟨#[#[obj, Object.save 1]], 0, 2, 2, 8, .stackOverflow⟩ }
      current := Object.null
      restoreArity := none
      waitingOn := none }

lemma isRestore_restoreOnly : (restoreOnly localVM obj).IsRestore 0 := by
  have hread : ((restoreOnly Memory.vacant Object.null).operators.signatures
      (restoreOnly Memory.vacant Object.null).globalVM 0).toOption =
        some [Signature.ofPatterns [.type .save] 0 0] := by decide +kernel
  refine ⟨0, .restore, ?_, rfl, fun _ _ => rfl⟩
  show OperatorTable.signatures ⟨1, 1, [(0, 0)], #[Builtin.restore]⟩
    (restoreOnly Memory.vacant Object.null).globalVM 0 = _
  revert hread
  show Except.toOption (OperatorTable.signatures ⟨1, 1, [(0, 0)], #[Builtin.restore]⟩
    (restoreOnly Memory.vacant Object.null).globalVM 0) = _ → _
  generalize OperatorTable.signatures _ _ _ = found
  intro hread
  cases found with
  | ok found => rw [Option.some.inj hread]
  | error fault => contradiction

lemma toList_restoreOnly :
    (restoreOnly localVM obj).context.stackSet.operands.toList = [obj] ++ [Object.save 1] := by
  simp [restoreOnly, Stack.toList, Stack.count, Stack.slot, List.range_succ]

lemma stacked_restoreOnly : (restoreOnly localVM obj).stacked = [obj, Object.save 1] := by
  rw [stacked, StackSet.roots, toList_restoreOnly]
  rfl

lemma readyToRestore_restoreOnly
    (hlive : ∀ id, obj.NamesLocal id → ∃ tag, localVM.Holds id tag) :
    (restoreOnly localVM obj).ReadyToRestore 0 1 where
  registered := isRestore_restoreOnly localVM obj
  operands := by
    refine ⟨Nat.two_pos, fun i segment hi => ?_, Nat.one_pos, Nat.le_refl 2,
      fun _ => Nat.two_pos, show 0 * 2 + 2 ≤ 8 by decide⟩
    rcases Nat.eq_zero_or_pos i with rfl | hpos
    · obtain rfl := Option.some.inj hi
      rfl
    · rw [restoreOnly, Array.getElem?_eq_none (Nat.succ_le_of_lt hpos)] at hi
      contradiction
  hold := Stack.wellFormed_create (by decide) _ _
  top := ⟨[obj], Object.save 1, toList_restoreOnly localVM obj, rfl⟩
  live := by
    intro x hx id hnames
    rw [stacked_restoreOnly] at hx
    rcases List.mem_cons.mp hx with rfl | hx
    · exact hlive id hnames
    · obtain rfl := List.mem_singleton.mp hx
      have hsave : (Object.save 1).asSave? = some 1 := rfl
      exact absurd hnames (not_namesLocal_of_asSave? hsave)

end RestoreOnly

/-- Entity 1 as a string on the operand stack, after a run. -/
def stringAfter (run : List MemoryOp) : Session Builtin :=
  restoreOnly (Memory.freshLocal.afterAll run) (Object.composite .string .localVM 1 0 1)

lemma mem_stacked_stringAfter (run : List MemoryOp) :
    Object.composite .string .localVM 1 0 1 ∈ (stringAfter run).stacked := by
  rw [stringAfter, stacked_restoreOnly]
  exact List.mem_cons_self ..

lemma readyToRestore_stringAfter {run : List MemoryOp}
    (h : (Memory.freshLocal.afterAll run).rows[1]?.map Row.tag = some (Tag.ofKind .string)) :
    (stringAfter run).ReadyToRestore 0 1 := by
  refine readyToRestore_restoreOnly _ _ ?_
  rintro id ⟨-, hid⟩
  obtain rfl : 1 = id := Option.some.inj hid
  obtain ⟨row, hrow, htag⟩ := Option.map_eq_some_iff.mp h
  refine ⟨Tag.ofKind .string, row, hrow, ?_, htag⟩
  rw [Row.isFree, htag]
  rfl

/-- A string that is newer than the level: the level stays open. -/
def newerRun : List MemoryOp := [.save, .newString [108] []]

theorem restore_leaves_nothing_dangling_newer_string :
    (stringAfter newerRun).ReadyToRestore 0 1 ∧
      (stringAfter newerRun).Dangles 1 (Memory.freshLocal.granted [] newerRun) ∧
      (stringAfter newerRun).LeavesNothingDangling 0 1 (Memory.freshLocal.granted [] newerRun) := by
  have hready : (stringAfter newerRun).ReadyToRestore 0 1 :=
    readyToRestore_stringAfter (by decide +kernel)
  have hlog : Memory.freshLocal.granted [] newerRun = [⟨1, 1⟩] := by decide +kernel
  have hlevel : (Memory.freshLocal.afterAll newerRun).level = 1 := by decide +kernel
  have hopen : 1 ≠ 0 ∧ 1 ≤ (Memory.freshLocal.afterAll newerRun).level := by
    rw [hlevel]
    decide
  have hvanishes : (Memory.freshLocal.afterAll newerRun).Vanishes 1 1 :=
    (vanishes_iff (Memory.sound_freshLocal newerRun)).mpr ⟨hopen, by decide +kernel⟩
  refine ⟨hready, ⟨hopen, _, mem_stacked_stringAfter _, 1, ⟨rfl, rfl⟩, ?_⟩, ?_⟩
  · rw [hlog]
    exact ⟨_, List.mem_cons_self .., Nat.le_refl 1, rfl⟩
  · refine (restore_leaves_nothing_dangling_iff Memory.withBacking_freshLocal (by decide) rfl
      hready).mpr fun _ => ⟨show 0 < 500 by decide, ?_⟩
    exact ⟨_, mem_stacked_stringAfter _, 1, ⟨rfl, rfl⟩, hvanishes⟩

/-- A string in an entity that was free when the level was opened. -/
def recyclingRun : List MemoryOp := [.newString [108] [], .free 1, .save, .newString [108] []]

theorem restore_leaves_recycled_string_dangling :
    (stringAfter recyclingRun).ReadyToRestore 0 1 ∧
      ¬ (stringAfter recyclingRun).LeavesNothingDangling 0 1
        (Memory.freshLocal.granted [] recyclingRun) := by
  have hready : (stringAfter recyclingRun).ReadyToRestore 0 1 :=
    readyToRestore_stringAfter (by decide +kernel)
  have hlog : Memory.freshLocal.granted [] recyclingRun = [⟨1, 1⟩, ⟨0, 1⟩] := by decide +kernel
  have hlevel : (Memory.freshLocal.afterAll recyclingRun).level = 1 := by decide +kernel
  have hopen : 1 ≠ 0 ∧ 1 ≤ (Memory.freshLocal.afterAll recyclingRun).level := by
    rw [hlevel]
    decide
  have hs : (stringAfter recyclingRun).context.localVM.Sound := Memory.sound_freshLocal recyclingRun
  refine ⟨hready, fun h => ?_⟩
  have hdangles : (stringAfter recyclingRun).Dangles 1
      (Memory.freshLocal.granted [] recyclingRun) := by
    refine ⟨hopen, _, mem_stacked_stringAfter _, 1, ⟨rfl, rfl⟩, ?_⟩
    rw [hlog]
    exact ⟨_, List.mem_cons_self .., Nat.le_refl 1, rfl⟩
  obtain ⟨-, hvanishes⟩ := h.noticed hs hready hdangles
  rw [someVanishes_iff hs hopen] at hvanishes
  revert hvanishes
  decide +kernel

end Session

end PostScriptCore
