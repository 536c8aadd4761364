import PostScriptCore.Proofs.Machine.Schedule
import PostScriptCore.Proofs.Machine.Start
import PostScriptCore.Proofs.Operator.Room

/-!
# Starting succeeds

A machine starts if its settings leave room for the built-in operators.  What is left of the room is
there for programs.

* `Machine.affords_registerAll` — registering definitions one after the other.
* `Settings.Offers`, `Machine.startCost` — how much room a machine needs to start.
* `Machine.exists_start` — with so much room it starts, and the rest of the room is left.
* `World.exists_spawn` — a context is spawned if there is memory for it.
-/

namespace PostScriptCore

namespace Machine

open OperatorTable
open Memory (Offers Spends)

variable {ν : Type}

/-! ## Registering in order -/

/-- The table is stored, and it has no more than so many names and natives. -/
def Holds (count : Nat) (s : OperatorTable ν × Memory) : Prop :=
  ∃ ls, OperatorTable.Settled 0 (fun t m => t = s.1 ∧ Stores t m ls) s ∧
    (ls = [] → OperatorTable.HasRoom s.1 s.2) ∧ ls.length ≤ count ∧ s.1.natives.size ≤ count

section Registering

variable [NativeArity ν] {s : OperatorTable ν × Memory} {count : Nat}

/-- A registration adds at most one name and one native. -/
lemma affords_cons_holds {name : Nat} (outArity : Nat) {native : ν} {patterns : List Pattern}
    (hname : name < wordBound) (harity : NativeArity.arity native = patterns.length)
    (hpatterns : patterns.length ≤ maxArity) (h : Holds count s) (hroom : Offers (consCost count) 2 s.2) :
    Affords Prod.snd (consCost count) 2 (OperatorTable.cons name native outArity patterns) s
      fun _ u => Holds (count + 1) u := by
  obtain ⟨ls, hsettled, hfirst, hlength, hnatives⟩ := h
  refine Ends.mono ((affords_cons hname harity hpatterns hsettled hfirst hlength hnatives hroom).knowing
    (within_cons hname hsettled)) (fun opcode u hu => ⟨hu.1, ?_⟩) fun _ _ hu => hu
  obtain ⟨hspends, hu⟩ := hu
  obtain ⟨⟨l, hl, -⟩, list, number, hstores⟩ := hu.here (hroom.spend (b := 0) (r := 0) hspends)
  have hcount := length_declared_le ls name
  have hlength' : (appended (declared ls name) opcode list
      ⟨⟨patterns, UInt8.ofNat outArity, native⟩, number⟩).length = (declared ls name).length :=
    List.length_modify ..
  refine ⟨_, ⟨hu.threaded, hu.rows_le, fun _ => ⟨rfl, hstores⟩⟩, fun hnone => ?_, by omega, ?_⟩
  · -- the name that was registered is listed
    have hdeclared : declared ls name = [] :=
      List.eq_nil_of_length_eq_zero (by rw [← hlength', hnone]; rfl)
    rw [declared] at hdeclared
    split at hdeclared
    · next hmem => simp [hdeclared] at hmem
    · simp at hdeclared
  · have hsum := Memory.sum_map_modify (fun l : Listing ν => l.registrations.length)
      (fun l => extended l list ⟨⟨patterns, UInt8.ofNat outArity, native⟩, number⟩) _ opcode l hl
    have hbefore : ((declared ls name).map fun l => l.registrations.length).sum = s.1.natives.size := by
      rw [(hsettled.here hroom).2.total, declared]
      split <;> simp
    have hone : (extended l list ⟨⟨patterns, UInt8.ofNat outArity, native⟩, number⟩).registrations.length =
        l.registrations.length + 1 := List.length_append
    have htotal := hstores.total
    rw [appended] at htotal
    omega

/-- **Registering definitions in order** succeeds if there is room for all of them. -/
lemma affords_registerAll {defs : List (OperatorDef ν)}
    (hdefs : ∀ d ∈ defs, NativeArity.arity d.native = d.patterns.length ∧ d.patterns.length ≤ maxArity)
    {names : Names} (hnames : names.size + defs.length ≤ wordBound) {bound : Nat}
    (hbound : count + defs.length ≤ bound + 1) (h : Holds count s)
    (hroom : Offers (defs.length * consCost bound) (defs.length * 2) s.2) :
    Affords (fun s => s.2.2) (defs.length * consCost bound) (defs.length * 2) (registerAll defs)
      (names, s) fun _ _ => True := by
  induction defs generalizing names s count with
  | nil =>
      rw [List.length_nil, Nat.zero_mul, Nat.zero_mul]
      exact .pure trivial
  | cons d rest ih =>
      rw [List.length_cons] at hnames hbound hroom ⊢
      obtain ⟨⟨harity, hpatterns⟩, hrest⟩ := List.forall_mem_cons.mp hdefs
      obtain ⟨hid, hsize⟩ := names.intern_bounds d.name
      have hcost : consCost count ≤ consCost bound :=
        Nat.add_le_add (entryCost_mono (by omega)) (signatureCost_mono (by omega))
      rw [Nat.succ_mul, Nat.succ_mul, Nat.add_comm, Nat.add_comm (rest.length * 2)] at hroom ⊢
      have hcons := affords_cons_holds d.outArity (show (names.intern d.name).1 < wordBound by omega) harity
        hpatterns h (hroom.mono (Nat.le_trans hcost (Nat.le_add_right _ _)) (Nat.le_add_right _ _))
      refine Affords.after (P := fun id t => id = (names.intern d.name).1 ∧ t = ((names.intern d.name).2, s))
        (.of_ok rfl (.refl _) ⟨rfl, rfl⟩) fun id t _ ht => ?_
      obtain ⟨rfl, rfl⟩ := ht
      have hhere : Affords (fun s => s.2.2) (consCost bound) 2
          (focus Prod.snd (fun part s => (s.1, part)) (OperatorTable.vacant, Memory.vacant)
            (OperatorTable.cons (names.intern d.name).1 d.native d.outArity d.patterns))
          ((names.intern d.name).2, s) fun _ t => ∃ u, t = ((names.intern d.name).2, u) ∧ Holds (count + 1) u :=
        (hcons.mono hcost (Nat.le_refl 2) fun _ _ hu => hu).focus rfl fun _ => rfl
      refine hhere.discard.bind fun _ t ht hheld => ?_
      obtain ⟨-, u, rfl, hheld⟩ := hheld
      exact ih hrest (by omega) (by omega) hheld (hroom.spend ht)

end Registering

/-! ## A fresh table -/

/-- **A table** is created if there is room for its entries. -/
lemma affords_create {m : Memory} (h : m.Threaded) (hroom : Offers (32 * entrySize + 7) 1 m) :
    Affords id (32 * entrySize + 7) 1 (OperatorTable.create : MemoryM (OperatorTable ν)) m
      fun t n => Holds 0 (t, n) := by
  have hentries := (Memory.affords_allocateWithoutGc h (Tag.ofKind .system) hroom).knowing
    (Memory.secures_allocateWithoutGc (h.secures (P := fun _ => False) fun _ hid => hid.elim) _ _)
  refine Affords.mono (P := fun t n => Holds 0 (t, n)) (.bind (b := 0) (r := 0) hentries fun entries n _ hn => ?_)
    (Nat.le_refl _) (Nat.le_refl _) fun _ _ hn => hn
  obtain ⟨hsecures, hsupplies⟩ := hn
  obtain ⟨row, h0, hrow, hsize, htag, -⟩ := hsupplies.owned
  have hcell := Memory.cell?_of_row h0 hrow
  refine .pure ⟨[], ⟨hsecures.toThreaded, Nat.zero_le _, fun _ =>
    ⟨rfl, stores_nil rfl rfl rfl hcell (by simp [htag])⟩⟩, fun _ => ⟨_, hcell, ?_⟩, Nat.le_refl 0, Nat.le_refl 0⟩
  rw [Image.length_read]
  simp only [entrySize] at hsize ⊢
  omega

/-! ## Machines -/

/-- An operator that the log has a definition for has an opcode. -/
lemma exists_requiredOpcode {names : Names} {operators : OperatorTable Builtin} {m : Memory}
    {tried sure : List Nat} {log : List (Nat × Definition Builtin)}
    (h : operators.Represents m tried sure log) {text : String} {d : Definition Builtin}
    (hfirst : firstOf names log text = some d) :
    ∃ opcode, requiredOpcode names operators text = .ok opcode := by
  rw [firstOf] at hfirst
  cases hname : names.lookup? text with
  | none =>
      rw [hname] at hfirst
      contradiction
  | some name =>
      rw [hname, Option.bind_some] at hfirst
      cases hopcode : operators.lookup? name with
      | none =>
          rw [h.absent name hopcode] at hfirst
          contradiction
      | some opcode => exact ⟨opcode, by rw [requiredOpcode, opcodeOf?, hname, Option.bind_some, hopcode]⟩

/-- The bytes that the built-in operators need at most. -/
def startCost : Nat :=
  32 * entrySize + 7 + builtinDefs.length * consCost (builtinDefs.length - 1)

/-- The rows that the built-in operators need at most. -/
def startRows : Nat := 1 + builtinDefs.length * 2

end Machine

/-- The settings leave room for the built-in operators and for so much more. -/
structure Settings.Offers (bytes rows : Nat) (settings : Settings) : Prop where
  arena : settings.initialArenaSize + settings.pageSize ≤ settings.maxArenaSize
  storage : Machine.startCost + bytes + settings.pageSize ≤ settings.maxArenaSize
  arenaLimit : settings.maxArenaSize < wordBound
  table : 1 + Machine.startRows + rows ≤ settings.maxEntities
  limit : settings.maxEntities ≤ wordBound

namespace Memory

/-- A fresh memory has the room that its settings leave. -/
lemma exists_create (bank : Bank) {settings : Settings} (bytes rows : Nat)
    (hsize : settings.initialArenaSize ≠ 0)
    (harena : settings.initialArenaSize + settings.pageSize ≤ settings.maxArenaSize)
    (hstorage : bytes + settings.pageSize ≤ settings.maxArenaSize)
    (hword : settings.maxArenaSize < wordBound) (htable : 1 + rows ≤ settings.maxEntities)
    (hlimit : settings.maxEntities ≤ wordBound) :
    ∃ m, create bank settings = .ok m ∧ m.Threaded ∧ Offers bytes rows m := by
  obtain ⟨capacity, hcapacity⟩ : ∃ capacity,
      alignUp settings.initialArenaSize settings.pageSize = some capacity := exists_alignUp (by omega)
  have hle := alignUp_le hcapacity
  let arena : Arena :=
    ⟨Image.blank capacity, true, false, 0, capacity, settings.pageSize, settings.maxArenaSize⟩
  have hinit : Arena.init .anonymous settings.initialArenaSize settings.pageSize settings.maxArenaSize =
      .ok arena := by
    rw [Arena.init, Arena.pages, if_neg hsize, hcapacity]
    exact if_neg (by omega)
  let m : Memory :=
    { arena, rows := #[Row.head], maxEntities := settings.maxEntities, bank
      policy := .firstFit, collector := none
      gcPeriod := settings.gcPeriod, gcCountdown := settings.gcPeriod
      saves := [], resources := ResourceTable.empty }
  have hback : withBacking bank .anonymous settings = .ok m := by rw [withBacking, hinit]
  refine ⟨{ m with collector := some .markSweep }, by rw [create, hback], ?_, ?_⟩
  · have hthreaded : (m.after (.useCollector .markSweep)).Threaded := (threaded_of_withBacking hback).after rfl
    exact hthreaded
  · refine ⟨rfl, ?_, hword, htable, hlimit⟩
    show 0 + bytes + settings.pageSize ≤ settings.maxArenaSize
    omega

end Memory

namespace Machine

open OperatorTable
open Memory (Offers Spends)

lemma initialArenaSize_ne_zero {request : SettingsRequest} {settings : Settings}
    (h : request.resolve = .ok settings) : settings.initialArenaSize ≠ 0 := by
  rw [SettingsRequest.resolve] at h
  cases hproblem : request.overStandard.problem? with
  | some problem =>
      rw [hproblem] at h
      contradiction
  | none =>
      rw [hproblem] at h
      obtain rfl := Except.ok.inj h
      rw [Settings.problem?] at hproblem
      split_ifs at hproblem with hzero
      exact fun h0 => hzero (.inr h0)

/-- **A machine starts** if its settings leave room for the built-in operators, and what is left of the
room is there afterwards. -/
theorem exists_start {request : SettingsRequest} {settings : Settings} {bytes rows : Nat}
    (hsettings : request.resolve = .ok settings) (hroom : settings.Offers bytes rows) :
    ∃ m : Machine Builtin, start request id = .ok m ∧ m.settings = settings ∧ m.globalVM.Offers bytes rows := by
  obtain ⟨globalVM, hmemory, hthreaded, hoffers⟩ := Memory.exists_create .globalVM
    (startCost + bytes) (startRows + rows) (initialArenaSize_ne_zero hsettings)
    hroom.arena hroom.storage hroom.arenaLimit
    (Nat.add_assoc 1 startRows rows ▸ hroom.table) hroom.limit
  simp only [startCost, startRows, Nat.add_assoc] at hoffers
  obtain ⟨table, k, htable, hspends, hholds⟩ := (affords_create (ν := Builtin) hthreaded
    (hoffers.mono (by omega) (Nat.le_add_right _ _))).exists_ok
  have hk : Offers (builtinDefs.length * consCost (builtinDefs.length - 1) + bytes)
      (builtinDefs.length * 2 + rows) k :=
    Offers.spend (hoffers.mono (by omega) (Nat.le_refl _)) hspends
  have haffords : Affords (fun s => s.2.2) (builtinDefs.length * consCost (builtinDefs.length - 1))
      (builtinDefs.length * 2) (registerAll builtinDefs) (Names.empty, table, k) fun _ _ => True :=
    affords_registerAll (by decide) (by decide) (by decide) hholds
      (hk.mono (Nat.le_add_right _ _) (Nat.le_add_right _ _))
  obtain ⟨_, ⟨names, operators, n⟩, hregister, hspends', -⟩ := haffords.exists_ok
  have hn : Offers bytes rows n := hk.spend hspends'
  obtain ⟨hfresh, -⟩ := isFresh_create hmemory htable
  obtain ⟨rfl, hafter, hlog, -⟩ := registerAll_run (by decide) (by decide) hregister
  have hspares := sparesAll_registrations (table, k) .empty builtinDefs
  have hreads := hfresh.represents hspares (by rw [← hafter]; exact hn.count_le)
  rw [← hafter, hlog] at hreads
  have hopcode (text : String) (d : OperatorDef Builtin)
      (hfind : (builtinDefs.find? fun d => d.name == text) = some d) :
      ∃ opcode, requiredOpcode (namesAfter .empty builtinDefs) operators text = .ok opcode :=
    exists_requiredOpcode hreads (firstOf_builtinDefs hfind)
  obtain ⟨zombie, hzombie⟩ := hopcode ".zombie" ⟨".zombie", .zombie, 0, []⟩ rfl
  obtain ⟨free, hfree⟩ := hopcode ".free" ⟨".free", .free, 0, []⟩ rfl
  obtain ⟨join, hjoin⟩ := hopcode "join" ⟨"join", .join, 0, [.type .context]⟩ rfl
  refine ⟨⟨settings, n, namesAfter .empty builtinDefs, operators, ⟨zombie, free, join⟩⟩, ?_, rfl, hn⟩
  have hdefs : builtinDefs.map (fun d => ⟨d.name, id d.native, d.outArity, d.patterns⟩) = builtinDefs :=
    List.map_id _
  rw [start, hsettings, hdefs]
  dsimp only
  rw [hmemory]
  dsimp only
  rw [build, htable]
  dsimp only
  rw [hregister]
  dsimp only
  rw [hzombie, hfree, hjoin]
  rfl

end Machine

/-- **A context is spawned** if its memory can be created and its execution stack has room for the program
and the operator below it. -/
lemma World.exists_spawn {ν : Type} {w : World ν} {localVM : Memory}
    (hmemory : Memory.create .localVM w.settings = .ok localVM) (hsegment : 0 < w.settings.segmentSize)
    (hexec : 2 ≤ w.settings.execStackLimit) (program : Object) :
    ∃ exec : Stack, exec.WellFormed ∧ exec.toList = [Object.operator w.system.zombie, program] ∧
      exec.limit = w.settings.execStackLimit ∧
      spawn program w = .ok w.scheduler.nextId { w with
        scheduler := w.scheduler.allocateId.2.adopt ⟨w.scheduler.nextId, .run, localVM,
          { StackSet.create w.settings with exec }, Object.null, none, none⟩ } := by
  have hempty : (StackSet.create w.settings).exec.WellFormed := Stack.wellFormed_create hsegment _ _
  have hcount : (StackSet.create w.settings).exec.count = 0 := by
    rw [← Stack.length_toList]
    exact congrArg List.length (Stack.toList_create _ _ _)
  have hroom : (StackSet.create w.settings).exec.count +
      [Object.operator w.system.zombie, program].length ≤ (StackSet.create w.settings).exec.limit := by
    rw [hcount]
    exact hexec
  obtain ⟨exec, hpush, hwf, hlist, hlimit⟩ := Stack.pushAll_run hempty hroom
  refine ⟨exec, hwf, hlist.trans ?_, hlimit, ?_⟩
  · exact congrArg (· ++ _) (Stack.toList_create _ _ _)
  · have hcreate : Context.create w.scheduler.nextId w.settings =
        .ok ⟨w.scheduler.nextId, .run, localVM, StackSet.create w.settings, Object.null, none, none⟩ := by
      rw [Context.create, hmemory]
    have hnew : newContext w = .ok
        ⟨w.scheduler.nextId, .run, localVM, StackSet.create w.settings, Object.null, none, none⟩
        { w with scheduler := w.scheduler.allocateId.2 } :=
      query_ok (f := fun v : World ν => Context.create w.scheduler.nextId v.settings) hcreate
    refine (bind_ok hnew).trans ((bind_ok (x := get) rfl).trans ?_)
    dsimp only
    rw [hpush]
    rfl

end PostScriptCore
