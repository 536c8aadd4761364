import PostScriptCore.Machine.Start
import PostScriptCore.Proofs.Machine.Failure
import PostScriptCore.Proofs.Memory.Capacity

/-!
# What a machine is started with

A machine is started by registering the built-in operators, one after the other, on a fresh table.  So the
registry of a started machine is what a run has made of it, and the log of that run is the list of
built-in definitions.

* `OperatorTable.lengthens_cons` — a registration adds at most two entities.
* `Machine.registrations`, `Machine.registerAll_run` — the registrations as a run with its log.
* `Machine.Reached`, `Machine.Closes` — a machine whose registry a run has made.
* `Machine.builtinsOf`, `Machine.reached_start` — a machine that has been started, and what is registered there.
* `Machine.endsContexts_start` — a machine that has been started can end contexts.
-/

namespace PostScriptCore

namespace OperatorTable

variable {ν α : Type}

/-! ## How many entities are used -/

/-- The number of entities in the memory that holds the table. -/
def rowCount (s : OperatorTable ν × Memory) : Nat := s.2.entityCount

lemma lengthens_onMemory {bound : Nat} {x : MemoryM α}
    (hx : Follows (Lengthens Memory.entityCount bound) x) :
    Follows (Lengthens rowCount bound) (onMemory x : OperatorTableM ν α) := fun s =>
  Ends.focus (Ends.mono (hx s.2) (fun _ _ h => h) fun _ _ h => h)

lemma lengthens_put (id offset : Nat) (bytes : List UInt8) :
    Follows (Lengthens rowCount 0) (onMemory (Memory.put id offset bytes) : OperatorTableM ν Unit) :=
  lengthens_onMemory (Memory.lengthens_of_fixed (Memory.follows_put id offset bytes))

lemma lengthens_writeEntry (opcode : Nat) (entry : OperatorEntry) :
    Follows (Lengthens rowCount 0) (writeEntry opcode entry : OperatorTableM ν Unit) :=
  lengthens_after .get fun _ => lengthens_put _ _ _

lemma lengthens_modifyTable (f : OperatorTable ν → OperatorTable ν) :
    Follows (Lengthens rowCount 0) (modifyTable f) := fun _ => Nat.le_refl _

lemma lengthens_reserveEntry : Follows (Lengthens rowCount 1) (reserveEntry : OperatorTableM ν Unit) := by
  refine lengthens_after .get fun s => ?_
  dsimp only
  split
  · exact .throw_bind _
  · refine lengthens_after (.query _) fun row => ?_
    split
    · exact lengthens_bind (lengthens_onMemory (Memory.lengthens_reallocWithoutGc _ _))
        (fun _ => lengthens_modifyTable _) rfl
    · exact .pure _

lemma lengthens_declare (name : Nat) :
    Follows (Lengthens rowCount 1) (declare name : OperatorTableM ν Nat) := by
  refine lengthens_after .get fun s => ?_
  split
  · exact .pure _
  · refine lengthens_bind (n := 0) lengthens_reserveEntry (fun _ => ?_) rfl
    exact lengthens_after .get fun _ => lengthens_after (lengthens_writeEntry _ _) fun _ =>
      lengthens_after (lengthens_modifyTable _) fun _ => .pure _

lemma lengthens_reserveSignature (entry : OperatorEntry) :
    Follows (Lengthens rowCount 1) (reserveSignature entry : OperatorTableM ν Nat) := by
  rw [reserveSignature]
  split
  · exact lengthens_onMemory (Memory.lengthens_allocateWithoutGc _ _)
  · refine lengthens_after (.query _) fun row => ?_
    split
    · split
      · exact .throw_bind _
      · exact lengthens_onMemory (Memory.lengthens_reallocWithoutGc _ _)
    · exact .pure _

/-- **A registration** adds at most an entity for the entries and one for the signatures. -/
lemma lengthens_cons [NativeArity ν] (name : Nat) (native : ν) (outArity : Nat)
    (patterns : List Pattern) :
    Follows (Lengthens rowCount 2) (cons name native outArity patterns : OperatorTableM ν Nat) := by
  rw [cons]
  split
  · exact .throw_bind _
  · refine lengthens_bind (n := 1) (lengthens_declare name) (fun opcode => ?_) rfl
    refine lengthens_after (.query _) fun entry => ?_
    refine lengthens_bind (n := 0) (lengthens_reserveSignature entry) (fun list => ?_) rfl
    exact lengthens_after .get fun _ => lengthens_after (lengthens_put _ _ _) fun _ =>
      lengthens_after (lengthens_modifyTable _) fun _ =>
        lengthens_after (lengthens_writeEntry _ _) fun _ => .pure _

end OperatorTable

/-! ## Registering in order -/

namespace Machine

open OperatorTable

variable {ν : Type}

/-- The definitions as operations of a run, their names numbered as they come. -/
def registrations : Names → List (OperatorDef ν) → List (RegistryOp ν)
  | _, [] => []
  | names, d :: rest =>
    .cons (UInt32.ofNat (names.intern d.name).1) d.native (UInt8.ofNat d.outArity) d.patterns ::
      registrations (names.intern d.name).2 rest

/-- The names after the definitions. -/
def namesAfter (names : Names) (defs : List (OperatorDef ν)) : Names :=
  defs.foldl (fun names d => (names.intern d.name).2) names

/-- The log of registrations that all succeed. -/
def logOf (ops : List (RegistryOp ν)) : List (Nat × Definition ν) := ops.flatMap fun op => op.logs (some 0)

section Run

variable [NativeArity ν]

/-- One registration after the other is a run, and if they succeed, it logs them all. -/
lemma registerAll_run {defs : List (OperatorDef ν)} (hout : ∀ d ∈ defs, d.outArity < 256)
    {names names' : Names} (hnames : names.size + defs.length ≤ wordBound)
    {s s' : OperatorTable ν × Memory}
    (hrun : registerAll defs (names, s) = .ok () (names', s')) :
    names' = namesAfter names defs ∧ s' = afterAll s (registrations names defs) ∧
      registered s (registrations names defs) = logOf (registrations names defs) ∧
      s'.2.entityCount ≤ s.2.entityCount + 2 * defs.length := by
  induction defs generalizing names s with
  | nil =>
      cases hrun
      exact ⟨rfl, rfl, rfl, Nat.le_refl _⟩
  | cons d rest ih =>
      obtain ⟨hid, hsize⟩ := names.intern_bounds d.name
      rw [List.length_cons] at hnames
      generalize hintern : names.intern d.name = interned at hid hsize
      obtain ⟨id, names₁⟩ := interned
      dsimp only at hid hsize
      have hword : id < wordBound := by omega
      let op : RegistryOp ν := .cons (UInt32.ofNat id) d.native (UInt8.ofNat d.outArity) d.patterns
      have hops : registrations names (d :: rest) = op :: registrations names₁ rest := by
        rw [registrations, hintern]
      have hperform : op.perform = some <$> OperatorTable.cons id d.native d.outArity d.patterns := by
        have hname : (UInt32.ofNat id).toNat = id := UInt32.toNat_ofNat_of_lt' hword
        have harity : (UInt8.ofNat d.outArity).toNat = d.outArity :=
          UInt8.toNat_ofNat_of_lt' (hout d List.mem_cons_self)
        simp only [op, RegistryOp.perform, hname, harity]
      have hfirst : registerAll (d :: rest) (names, s) = (do
          discard <| focus Prod.snd (fun part s => (s.1, part)) (OperatorTable.vacant, Memory.vacant)
            (OperatorTable.cons id d.native d.outArity d.patterns)
          registerAll rest) (names₁, s) :=
        bind_ok (congrArg (fun p : Nat × Names => EStateM.Result.ok p.1 (p.2, s)) hintern)
      rw [hfirst] at hrun
      have hcount := lengthens_cons id d.native d.outArity d.patterns s
      rw [Ends] at hcount
      cases hcons : OperatorTable.cons id d.native d.outArity d.patterns s with
      | error fault t =>
          rw [bind_error (discard_error (by simp only [focus, hcons]; rfl))] at hrun
          cases hrun
      | ok opcode t =>
          rw [bind_ok (discard_ok (by simp only [focus, hcons]; rfl))] at hrun
          rw [hcons] at hcount
          obtain ⟨hnames', hafter, hlog, hcount'⟩ :=
            ih (fun d hd => hout d (List.mem_cons_of_mem _ hd)) (by omega) hrun
          have hop : op.perform s = .ok (some opcode) t := by
            rw [hperform]
            show EStateM.map _ _ s = _
            rw [EStateM.map, hcons]
          have hanswer : op.opcode? s = some opcode := by rw [RegistryOp.opcode?, answer?, hop]; rfl
          refine ⟨?_, ?_, ?_, ?_⟩
          · rw [hnames', namesAfter, namesAfter, List.foldl_cons, hintern]
          · rw [hops, hafter]
            show _ = afterAll (after s op) _
            rw [after, finalState_of_ok hop]
          · rw [hops, registered, hanswer, after, finalState_of_ok hop, hlog]
            rfl
          · rw [List.length_cons]
            simp only [Lengthens, rowCount] at hcount
            omega

end Run

/-! ## The operators that end contexts -/

/-- The first definition that the log has for a text. -/
def firstOf (names : Names) (log : List (Nat × Definition ν)) (text : String) : Option (Definition ν) :=
  (names.lookup? text).bind fun name => (definitionsOf name log).head?

lemma lookups_of_requiredOpcode {names : Names} {operators : OperatorTable ν} {text : String} {opcode : Nat}
    (h : requiredOpcode names operators text = .ok opcode) :
    ∃ name, names.lookup? text = some name ∧ operators.lookup? name = some opcode := by
  cases hopcode : opcodeOf? names operators text with
  | none =>
      rw [requiredOpcode, hopcode] at h
      contradiction
  | some found =>
      rw [requiredOpcode, hopcode] at h
      obtain rfl := Except.ok.inj h
      exact Option.bind_eq_some_iff.mp hopcode

variable {m n : Machine Builtin}

/-- The operators are those that a run has registered on a fresh table. -/
structure Reached (start : OperatorTable Builtin × Memory) (run : List (RegistryOp Builtin))
    (m : Machine Builtin) : Prop where
  fresh : IsFresh start
  spares : sparesAll start run = true
  words : (afterAll start run).2.entityCount ≤ wordBound
  registry : (m.operators, m.globalVM) = afterAll start run

/-- An opcode stands for what the log has under its name. -/
lemma Reached.definitionsAt_of_lookup? {start : OperatorTable Builtin × Memory}
    {run : List (RegistryOp Builtin)} (h : Reached start run m) {name opcode : Nat}
    (hlookup : m.operators.lookup? name = some opcode) (log : List (Nat × Definition Builtin)) :
    definitionsAt m.operators log opcode = definitionsOf name log := by
  have hregistry : m.operators = (afterAll start run).1 := congrArg Prod.fst h.registry
  rw [hregistry] at hlookup ⊢
  exact h.fresh.definitionsAt_of_lookup? h.spares h.words hlookup log

lemma Reached.head?_definitionsAt {start : OperatorTable Builtin × Memory}
    {run : List (RegistryOp Builtin)} (h : Reached start run m) {names : Names} {text : String}
    {opcode : Nat} (hrequired : requiredOpcode names m.operators text = .ok opcode)
    (log : List (Nat × Definition Builtin)) :
    (definitionsAt m.operators log opcode).head? = firstOf names log text := by
  obtain ⟨name, hname, hopcode⟩ := lookups_of_requiredOpcode hrequired
  rw [h.definitionsAt_of_lookup? hopcode, firstOf, hname, Option.bind_some]

/-- Among them, those that end contexts come to do so. -/
structure Closes (start : OperatorTable Builtin × Memory) (run : List (RegistryOp Builtin))
    (m : Machine Builtin) : Prop extends Reached start run m where
  zombie : (definitionsAt m.operators (registered start run) m.system.zombie).head? =
    some ⟨[], 0, .zombie⟩
  free : (definitionsAt m.operators (registered start run) m.system.free).head? = some ⟨[], 0, .free⟩

/-- Contexts can be created on the machine, and its operators that end them do so. -/
structure EndsContexts (m : Machine Builtin) : Prop where
  segments : 0 < m.settings.segmentSize
  registry : ∃ start run, Closes start run m

lemma segmentSize_pos {request : SettingsRequest} {settings : Settings}
    (h : request.resolve = .ok settings) : 0 < settings.segmentSize := by
  rw [SettingsRequest.resolve] at h
  cases hproblem : request.overStandard.problem? with
  | some problem =>
      rw [hproblem] at h
      contradiction
  | none =>
      rw [hproblem] at h
      obtain rfl := Except.ok.inj h
      rw [Settings.problem?] at hproblem
      split_ifs at hproblem with _ _ _ _ _ hsegment
      exact Nat.pos_of_ne_zero hsegment

/-- The table of a machine that has just been started. -/
lemma isFresh_create {settings : Settings} {m n : Memory} {table : OperatorTable ν}
    (hm : Memory.create .globalVM settings = .ok m) (htable : OperatorTable.create m = .ok table n) :
    IsFresh (table, n) ∧ n.entityCount ≤ 2 := by
  rw [Memory.create] at hm
  cases hback : Memory.withBacking .globalVM .anonymous settings with
  | error fault =>
      rw [hback] at hm
      contradiction
  | ok m₀ =>
      rw [hback] at hm
      obtain rfl := Except.ok.inj hm
      refine ⟨⟨.globalVM, .anonymous, settings, m₀, [.useCollector .markSweep], hback, rfl, htable⟩, ?_⟩
      have hone : m₀.entityCount = 1 := by
        rw [Memory.withBacking] at hback
        split at hback
        · obtain rfl := Except.ok.inj hback
          rfl
        · contradiction
      have hcount := Memory.lengthens_allocateWithoutGc (32 * entrySize) (Tag.ofKind .system)
        { m₀ with collector := some .markSweep }
      rw [Ends] at hcount
      cases hrun : Memory.allocateWithoutGc (32 * entrySize) (Tag.ofKind .system)
          { m₀ with collector := some .markSweep } with
      | error fault k =>
          rw [OperatorTable.create, bind_error hrun] at htable
          contradiction
      | ok entries k =>
          rw [hrun] at hcount
          rw [OperatorTable.create, bind_ok hrun] at htable
          cases htable
          exact Nat.le_trans hcount (Nat.succ_le_succ hone.le)

/-- What is registered by a definition. -/
def definitionOf (d : OperatorDef ν) : Definition ν := ⟨d.patterns, UInt8.ofNat d.outArity, d.native⟩

/-- The built-in definitions under a name, in the order in which they are tried. -/
def builtinsOf (text : String) : List (Definition Builtin) :=
  (builtinDefs.filter fun d => d.name == text).map definitionOf

/-- The log of the built-in operators has their definitions under their names. -/
lemma exists_name_builtinDefs {text : String} (h : text ∈ builtinDefs.map OperatorDef.name) :
    ∃ name, (namesAfter .empty builtinDefs).lookup? text = some name ∧
      definitionsOf name (logOf (registrations .empty builtinDefs)) = builtinsOf text := by
  have hall : ∀ text ∈ builtinDefs.map OperatorDef.name,
      ((namesAfter .empty builtinDefs).lookup? text).map
          (fun name => definitionsOf name (logOf (registrations .empty builtinDefs))) =
        some (builtinsOf text) := by
    decide +kernel
  exact Option.map_eq_some_iff.mp (hall text h)

/-- What the log has for a built-in operator begins with the first definition of its name. -/
lemma firstOf_builtinDefs {text : String} {d : OperatorDef Builtin}
    (h : (builtinDefs.find? fun d => d.name == text) = some d) :
    firstOf (namesAfter .empty builtinDefs) (logOf (registrations .empty builtinDefs)) text =
      some (definitionOf d) := by
  have hname := List.find?_some h
  rw [beq_iff_eq] at hname
  obtain ⟨name, hlookup, hdefinitions⟩ :=
    exists_name_builtinDefs (List.mem_map.mpr ⟨d, List.mem_of_find?_eq_some h, hname⟩)
  rw [firstOf, hlookup, Option.bind_some, hdefinitions, builtinsOf, List.head?_map, List.head?_filter, h]
  rfl

lemma start_cases {request : SettingsRequest} (h : start request id = .ok m) :
    ∃ settings globalVM, request.resolve = .ok settings ∧
      Memory.create .globalVM settings = .ok globalVM ∧ build settings globalVM builtinDefs = .ok m := by
  have hdefs : builtinDefs.map (fun d => ⟨d.name, id d.native, d.outArity, d.patterns⟩) = builtinDefs :=
    List.map_id _
  rw [start, hdefs] at h
  split at h
  · contradiction
  · next settings hsettings =>
    split at h
    · contradiction
    · next globalVM hmemory => exact ⟨settings, globalVM, hsettings, hmemory, h⟩

lemma build_cases {settings : Settings} {globalVM : Memory} {defs : List (OperatorDef Builtin)}
    (h : build settings globalVM defs = .ok m) :
    ∃ table k names, OperatorTable.create globalVM = .ok table k ∧
      registerAll defs (Names.empty, table, k) = .ok () (names, m.operators, m.globalVM) ∧
      requiredOpcode names m.operators ".zombie" = .ok m.system.zombie ∧
      requiredOpcode names m.operators ".free" = .ok m.system.free ∧
      requiredOpcode names m.operators "join" = .ok m.system.join ∧
      m.names = names ∧ m.settings = settings := by
  rw [build] at h
  split at h
  · contradiction
  · next table k htable =>
    split at h
    · contradiction
    · next names operators final hregister =>
      cases hzombie : requiredOpcode names operators ".zombie" with
      | error fault =>
          rw [hzombie] at h
          contradiction
      | ok zombie =>
          cases hfree : requiredOpcode names operators ".free" with
          | error fault =>
              rw [hzombie, hfree] at h
              contradiction
          | ok free =>
              cases hjoin : requiredOpcode names operators "join" with
              | error fault =>
                  rw [hzombie, hfree, hjoin] at h
                  contradiction
              | ok join =>
                  rw [hzombie, hfree, hjoin] at h
                  cases h
                  exact ⟨table, k, names, htable, hregister, hzombie, hfree, hjoin, rfl, rfl⟩

/-- Registrations leave the system storage alone. -/
lemma sparesAll_registrations (s : OperatorTable Builtin × Memory) (names : Names)
    (defs : List (OperatorDef Builtin)) : sparesAll s (registrations names defs) = true := by
  induction defs generalizing s names with
  | nil => rfl
  | cons d rest ih =>
      rw [registrations, sparesAll, ih]
      rfl

/-- A machine that has been started has registered the built-in operators. -/
lemma reached_start {request : SettingsRequest} (h : start request id = .ok m) :
    ∃ origin, Reached origin (registrations .empty builtinDefs) m ∧
      registered origin (registrations .empty builtinDefs) = logOf (registrations .empty builtinDefs) ∧
      m.names = namesAfter .empty builtinDefs ∧ m.globalVM.entityCount ≤ 2 + 2 * builtinDefs.length := by
  obtain ⟨settings, globalVM, -, hmemory, hbuild⟩ := start_cases h
  obtain ⟨table, k, names, htable, hregister, -, -, -, hnames, -⟩ := build_cases hbuild
  obtain ⟨hfresh, hrows⟩ := isFresh_create hmemory htable
  obtain ⟨rfl, hafter, hlog, hcount⟩ := registerAll_run (by decide) (by decide) hregister
  have hentities : m.globalVM.entityCount ≤ 2 + 2 * builtinDefs.length :=
    Nat.le_trans hcount (Nat.add_le_add_right hrows _)
  refine ⟨(table, k), ⟨hfresh, sparesAll_registrations _ _ _, ?_, hafter⟩, hlog, hnames, hentities⟩
  rw [← hafter]
  exact Nat.le_trans hentities (by decide)

/-- **A machine that has been started** ends contexts. -/
lemma endsContexts_start {request : SettingsRequest} (h : start request id = .ok m) :
    m.EndsContexts := by
  obtain ⟨settings, globalVM, hsettings, -, hbuild⟩ := start_cases h
  obtain ⟨table, k, names, -, -, hzombie, hfree, -, rfl, rfl⟩ := build_cases hbuild
  obtain ⟨origin, hreached, hlog, hnames, -⟩ := reached_start h
  rw [hnames] at hzombie hfree
  refine ⟨segmentSize_pos hsettings, origin, registrations .empty builtinDefs, hreached, ?_, ?_⟩
  · rw [hlog, hreached.head?_definitionsAt hzombie]
    exact firstOf_builtinDefs (d := ⟨".zombie", .zombie, 0, []⟩) rfl
  · rw [hlog, hreached.head?_definitionsAt hfree]
    exact firstOf_builtinDefs (d := ⟨".free", .free, 0, []⟩) rfl

/-! ## What keeps them -/

namespace Reached

variable {start : OperatorTable Builtin × Memory} {run : List (RegistryOp Builtin)}

lemma opcode_lt (h : Reached start run m) {opcode : Nat} {d : Definition Builtin}
    (hfirst : (definitionsAt m.operators (registered start run) opcode).head? = some d) :
    opcode < wordBound := by
  have hsettled := h.fresh.settled_afterAll h.spares
  obtain ⟨ls, hstores, -⟩ := hsettled.holds h.words
  have hsize := hstores.size_lt hsettled.threaded.sound
  rw [← h.registry] at hsize
  refine Nat.lt_trans ?_ hsize
  by_contra hge
  have hregistry : m.operators = (afterAll start run).1 := congrArg Prod.fst h.registry
  have hnone : m.operators.name? opcode = none := by
    rw [hregistry, hstores.name?_eq, List.getElem?_eq_none, Option.map_none]
    rw [← hstores.size, ← hregistry]
    exact Nat.le_of_not_lt hge
  rw [definitionsAt, hnone] at hfirst
  contradiction

/-- An operator that has a first definition keeps it. -/
lemma head?_after (h : Reached start run m) {op : RegistryOp Builtin}
    (hspares : sparesAll start (run ++ [op]) = true)
    (hwords : (afterAll start (run ++ [op])).2.entityCount ≤ wordBound) {opcode : Nat}
    {d : Definition Builtin}
    (hfirst : (definitionsAt m.operators (registered start run) opcode).head? = some d) :
    (definitionsAt (afterAll start (run ++ [op])).1 (registered start (run ++ [op])) opcode).head? =
      some d := by
  cases hname : m.operators.name? opcode with
  | none =>
      rw [definitionsAt, hname] at hfirst
      contradiction
  | some name =>
      rw [definitionsAt, hname] at hfirst
      have hafter : afterAll start (run ++ [op]) = after (afterAll start run) op := afterAll_append ..
      have hlookup : (afterAll start run).1.lookup? name = some opcode := by
        rw [← h.fresh.name?_eq_some_iff h.spares h.words, ← h.registry]
        exact hname
      have hextends := h.fresh.extends hspares hwords
      have hkept := hextends.lookup name opcode hlookup
      rw [← hafter] at hkept
      dsimp only at hfirst
      rw [h.fresh.definitionsAt_of_lookup? hspares hwords hkept, registered_append, definitionsOf_append,
        List.head?_append, hfirst]
      rfl

end Reached

namespace Closes

variable {start : OperatorTable Builtin × Memory} {run : List (RegistryOp Builtin)}

/-- The two operators are different objects. -/
lemma operator_ne (h : Closes start run m) :
    Object.operator m.system.zombie ≠ Object.operator m.system.free := by
  intro hsame
  have hvalue : (Object.operator m.system.zombie).value.toNat =
      (Object.operator m.system.free).value.toNat := by rw [hsame]
  have hopcode : m.system.zombie = m.system.free :=
    (UInt32.toNat_ofNat_of_lt' (h.opcode_lt h.zombie)).symm.trans
      (hvalue.trans (UInt32.toNat_ofNat_of_lt' (h.opcode_lt h.free)))
  have hfirst := h.zombie
  rw [hopcode, h.free] at hfirst
  contradiction

/-- Collections of the global memory keep it. -/
lemma collected (h : Closes start run m) (hoperators : n.operators = m.operators)
    (hsystem : n.system = m.system) (hcollections : m.globalVM.Collections n.globalVM) :
    ∃ more, Closes start (run ++ more) n := by
  have hbefore : (afterAll start run).1 = m.operators := congrArg Prod.fst h.registry.symm
  have hglobalVM : (afterAll start run).2 = m.globalVM := congrArg Prod.snd h.registry.symm
  obtain ⟨more, hspares, hafter, hlog, hcount⟩ :=
    Session.exists_run_of_collections h.fresh h.spares (hglobalVM ▸ hcollections)
  refine ⟨more, ⟨h.fresh, hspares, ?_, ?_⟩, ?_, ?_⟩
  · rw [hafter, hcount]
    exact h.words
  · rw [hafter, hoperators, hbefore]
  · rw [hlog, hoperators, hsystem]
    exact h.zombie
  · rw [hlog, hoperators, hsystem]
    exact h.free

end Closes

/-- **What a host does with the memory and the operators keeps it**, as long as it leaves the entities of
the registry alone. -/
lemma EndsContexts.after (h : m.EndsContexts) {op : RegistryOp Builtin}
    (hspares : op.spares m.globalVM = true)
    (hwords : (after (m.operators, m.globalVM) op).2.entityCount ≤ wordBound)
    (hafter : (n.operators, n.globalVM) = after (m.operators, m.globalVM) op)
    (hsettings : n.settings = m.settings) (hsystem : n.system = m.system) : n.EndsContexts := by
  obtain ⟨hsegments, start, run, hcloses⟩ := h
  have hrun : afterAll start (run ++ [op]) = (n.operators, n.globalVM) := by
    rw [afterAll_append, ← hcloses.registry]
    exact hafter.symm
  have hspares' : sparesAll start (run ++ [op]) = true := by
    rw [sparesAll_append, hcloses.spares, ← hcloses.registry, sparesAll, hspares]
    rfl
  have hwords' : (afterAll start (run ++ [op])).2.entityCount ≤ wordBound := by
    rw [hrun, hafter]
    exact hwords
  refine ⟨hsettings ▸ hsegments, start, run ++ [op], ⟨hcloses.fresh, hspares', hwords', hrun.symm⟩, ?_, ?_⟩
  · rw [hsystem, show n.operators = (afterAll start (run ++ [op])).1 from congrArg Prod.fst hrun.symm]
    exact hcloses.head?_after hspares' hwords' hcloses.zombie
  · rw [hsystem, show n.operators = (afterAll start (run ++ [op])).1 from congrArg Prod.fst hrun.symm]
    exact hcloses.head?_after hspares' hwords' hcloses.free

/-- **A turn keeps it.** -/
lemma EndsContexts.sameMachine {s t : Session Builtin} (h : s.toMachine.EndsContexts)
    (hst : Session.SameMachine s t) : t.toMachine.EndsContexts := by
  obtain ⟨hsegments, start, run, hcloses⟩ := h
  obtain ⟨more, hcloses'⟩ := hcloses.collected (n := t.toMachine) hst.operators hst.system hst.globalVM
  exact ⟨by rw [hst.settings]; exact hsegments, start, run ++ more, hcloses'⟩

end Machine

end PostScriptCore
