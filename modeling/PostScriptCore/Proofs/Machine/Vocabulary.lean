import PostScriptCore.Proofs.Machine.Startup
import PostScriptCore.Proofs.Memory.Procedure

/-!
# The words of a machine

A machine that has been started knows the names of the built-in operators, and under each name the
definition that was registered first comes first.  Interning such a name again changes nothing, and storing
procedures in the global memory changes no operator.

* `Machine.Runs`, `Machine.Means` — what an opcode and an executable name come to.
* `Machine.word` — the executable name of a text.
* `Machine.Ready` — a machine that programs can be built on.
* `Machine.ready_start` — a machine that has been started is ready.
* `Machine.Ready.stored` — it still is when a procedure has been stored.
-/

namespace PostScriptCore

open OperatorTable

/-! ## The memory of the registry stays in working order -/

namespace OperatorTable

variable {ν α : Type}

/-- The memory that holds the table is left in working order. -/
def Upkeeps (s t : OperatorTable ν × Memory) : Prop := Memory.Upkept s.2 t.2

instance : Std.Refl (@Upkeeps ν) where
  refl s := Std.Refl.refl (r := Memory.Upkept) s.2

instance : IsTrans (OperatorTable ν × Memory) Upkeeps where
  trans _ _ _ h h' := IsTrans.trans (r := Memory.Upkept) _ _ _ h h'

lemma upkeeps_onMemory {x : MemoryM α} (hx : Follows Memory.Upkept x) :
    Follows Upkeeps (onMemory x : OperatorTableM ν α) := fun s =>
  Ends.focus (Ends.mono (hx s.2) (fun _ _ h => h) fun _ _ h => h)

lemma upkeeps_put (id offset : Nat) (bytes : List UInt8) :
    Follows Upkeeps (onMemory (Memory.put id offset bytes) : OperatorTableM ν Unit) :=
  upkeeps_onMemory (Memory.upkept_perform (.put id offset bytes) rfl)

lemma upkeeps_allocateWithoutGc (size : Nat) (tag : Tag) :
    Follows Upkeeps (onMemory (Memory.allocateWithoutGc size tag) : OperatorTableM ν Nat) :=
  upkeeps_onMemory (.of_discard (Memory.upkept_perform (.allocateWithoutGc size tag) rfl))

lemma upkeeps_reallocWithoutGc (id size : Nat) :
    Follows Upkeeps (onMemory (Memory.reallocWithoutGc id size) : OperatorTableM ν Nat) :=
  upkeeps_onMemory (.of_discard (Memory.upkept_perform (.reallocWithoutGc id size) rfl))

lemma upkeeps_modifyTable (f : OperatorTable ν → OperatorTable ν) : Follows Upkeeps (modifyTable f) :=
  .modify fun s => Std.Refl.refl (r := Memory.Upkept) s.2

lemma upkeeps_declare (name : Nat) : Follows Upkeeps (declare name : OperatorTableM ν Nat) := by
  refine .bind .get fun s => ?_
  split
  · exact .pure _
  · refine .bind ?_ fun _ => .bind .get fun _ => .bind (.bind .get fun _ => upkeeps_put _ _ _) fun _ =>
      .bind (upkeeps_modifyTable _) fun _ => .pure _
    refine .bind .get fun s => .ite (.throw_bind _) (.bind (.query _) fun row => .ite ?_ (.pure _))
    exact .bind (upkeeps_reallocWithoutGc _ _) fun _ => upkeeps_modifyTable _

lemma upkeeps_reserveSignature (entry : OperatorEntry) :
    Follows Upkeeps (reserveSignature entry : OperatorTableM ν Nat) := by
  refine .ite (upkeeps_allocateWithoutGc _ _) (.bind (.query _) fun row => .ite ?_ (.pure _))
  exact .ite (.throw_bind _) (upkeeps_reallocWithoutGc _ _)

lemma upkeeps_cons [NativeArity ν] (name : Nat) (native : ν) (outArity : Nat) (patterns : List Pattern) :
    Follows Upkeeps (cons name native outArity patterns : OperatorTableM ν Nat) := by
  refine .ite (.throw_bind _) (.bind (upkeeps_declare name) fun opcode => .bind (.query _) fun entry => ?_)
  refine .bind (upkeeps_reserveSignature entry) fun list => .bind .get fun s => ?_
  refine .bind (upkeeps_put _ _ _) fun _ => .bind (upkeeps_modifyTable _) fun _ => ?_
  exact .bind (.bind .get fun _ => upkeeps_put _ _ _) fun _ => .pure _

end OperatorTable

namespace Machine

/-! ## Started machines -/

variable {m n : Machine Builtin} {text : String} {opcode count : Nat} {d : Definition Builtin}

/-- Registering operators leaves the memory in working order. -/
lemma upkeeps_registerAll {names names' : Names} {s s' : OperatorTable Builtin × Memory}
    {defs : List (OperatorDef Builtin)} (h : registerAll defs (names, s) = .ok () (names', s')) :
    Upkeeps s s' := by
  induction defs generalizing names s with
  | nil =>
      cases h
      exact Std.Refl.refl (r := Memory.Upkept) _
  | cons d rest ih =>
      have hcons := upkeeps_cons (names.intern d.name).1 d.native d.outArity d.patterns s
      rw [Ends] at hcons
      have hfirst : registerAll (d :: rest) (names, s) = (do
          discard <| focus Prod.snd (fun part s => (s.1, part)) (OperatorTable.vacant, Memory.vacant)
            (OperatorTable.cons (names.intern d.name).1 d.native d.outArity d.patterns)
          registerAll rest) ((names.intern d.name).2, s) := rfl
      rw [hfirst] at h
      cases hrun : OperatorTable.cons (names.intern d.name).1 d.native d.outArity d.patterns s with
      | error fault t =>
          rw [bind_error (discard_error (by simp only [focus, hrun]; rfl))] at h
          cases h
      | ok opcode t =>
          rw [bind_ok (discard_ok (by simp only [focus, hrun]; rfl))] at h
          rw [hrun] at hcons
          exact IsTrans.trans (r := Memory.Upkept) _ _ _ hcons (ih h)

/-- The first definition of the opcode. -/
def Runs (m : Machine Builtin) (opcode : Nat) (d : Definition Builtin) : Prop :=
  ∃ start run, Reached start run m ∧ (definitionsAt m.operators (registered start run) opcode).head? = some d

/-- The executable name stands for an operator with this first definition. -/
def Means (m : Machine Builtin) (word : Object) (d : Definition Builtin) : Prop :=
  ∃ name opcode, word = Object.executableName name ∧ name < wordBound ∧
    m.operators.lookup? name = some opcode ∧ m.Runs opcode d

/-- The executable name of a text. -/
def word (m : Machine Builtin) (text : String) : Object :=
  Object.executableName ((m.names.lookup? text).getD 0)

/-- Programs can be built on the machine: its global memory is in working order, with at most so many
entities, and it knows the built-in operators. -/
structure Ready (count : Nat) (m : Machine Builtin) : Prop where
  segments : 0 < m.settings.segmentSize
  threaded : m.globalVM.Threaded
  inOrder : m.globalVM.InOrder .globalVM
  entities : m.globalVM.entityCount ≤ count
  interned : ∀ text d, (builtinDefs.find? fun d => d.name == text) = some d →
    ∃ name, m.names.lookup? text = some name
  means : ∀ text d, (builtinDefs.find? fun d => d.name == text) = some d →
    m.Means (m.word text) (definitionOf d)
  zombie : m.Runs m.system.zombie ⟨[], 0, .zombie⟩
  join : m.Runs m.system.join ⟨[.type .context], 0, .join⟩

lemma Runs.opcode_lt (h : m.Runs opcode d) : opcode < wordBound := by
  obtain ⟨start, run, hreached, hfirst⟩ := h
  exact hreached.opcode_lt hfirst

/-- **A machine that has been started** is ready. -/
theorem ready_start {request : SettingsRequest} (h : start request id = .ok m) :
    m.Ready (2 + 2 * builtinDefs.length) := by
  obtain ⟨settings, globalVM, hsettings, hmemory, hbuild⟩ := start_cases h
  obtain ⟨table, k, names, htable, hregister, hzombie, -, hjoin, rfl, rfl⟩ := build_cases hbuild
  obtain ⟨origin, hreached, hlog, hnames, hentities⟩ := reached_start h
  have horder : m.globalVM.InOrder .globalVM := by
    have hcreated : Follows Memory.Upkept (OperatorTable.create : MemoryM (OperatorTable Builtin)) :=
      .bind (.of_discard (Memory.upkept_perform (.allocateWithoutGc _ _) rfl)) fun _ => .pure _
    have htable' := hcreated globalVM
    rw [Ends, htable] at htable'
    exact upkeeps_registerAll hregister _ (htable' _ (Memory.inOrder_create hmemory))
  have hreads := hreached.fresh.represents hreached.spares hreached.words
  rw [← hreached.registry, hlog] at hreads
  rw [hnames] at hzombie hjoin
  have hruns {text : String} {opcode : Nat} {d : OperatorDef Builtin}
      (hfind : (builtinDefs.find? fun d => d.name == text) = some d)
      (hopcode : requiredOpcode (namesAfter .empty builtinDefs) m.operators text = .ok opcode) :
      m.Runs opcode (definitionOf d) := by
    refine ⟨_, _, hreached, ?_⟩
    rw [hlog, hreached.head?_definitionsAt hopcode]
    exact firstOf_builtinDefs hfind
  refine
    { segments := segmentSize_pos hsettings
      threaded := by
        have hthreaded := (hreached.fresh.settled_afterAll hreached.spares).threaded
        rwa [← hreached.registry] at hthreaded
      inOrder := horder
      entities := hentities
      interned := fun text d hfind => ?_
      means := fun text d hfind => ?_
      zombie := hruns (d := ⟨".zombie", .zombie, 0, []⟩) rfl hzombie
      join := hruns (d := ⟨"join", .join, 0, [.type .context]⟩) rfl hjoin }
  all_goals
    obtain ⟨opcode, hopcode⟩ := exists_requiredOpcode hreads (firstOf_builtinDefs hfind)
    obtain ⟨name, hname, hlookup⟩ := lookups_of_requiredOpcode hopcode
    rw [← hnames] at hname
  · exact ⟨name, hname⟩
  · refine ⟨name, opcode, by rw [word, hname, Option.getD_some], ?_, hlookup, hruns hfind hopcode⟩
    have hsize : (namesAfter .empty builtinDefs).size ≤ wordBound := by decide +kernel
    exact Nat.lt_of_lt_of_le (Names.lookup?_lt hname) (hnames ▸ hsize)

/-! ## Storing procedures -/

/-- What the memory is used for besides leaves the operators as they are. -/
lemma Runs.stored (h : m.Runs opcode d) {es roots : List Object} {p : Object} {k : Memory}
    (hrun : Memory.newProc es roots m.globalVM = .ok p k) (hcount : k.entityCount ≤ wordBound) :
    ({ m with globalVM := k } : Machine Builtin).Runs opcode d := by
  obtain ⟨start, run, hreached, hfirst⟩ := h
  have hafter : after (m.operators, m.globalVM) (.memory (.newProc es roots)) = (m.operators, k) := by
    rw [after_memory, Memory.after_of_ok rfl hrun]
  have hrun' : afterAll start (run ++ [.memory (.newProc es roots)]) = (m.operators, k) := by
    rw [afterAll_append, ← hreached.registry]
    exact hafter
  have hspares : sparesAll start (run ++ [.memory (.newProc es roots)]) = true := by
    rw [sparesAll_append, hreached.spares]
    rfl
  have hwords : (afterAll start (run ++ [.memory (.newProc es roots)])).2.entityCount ≤ wordBound := by
    rw [hrun']
    exact hcount
  refine ⟨start, run ++ [.memory (.newProc es roots)], ⟨hreached.fresh, hspares, hwords, hrun'.symm⟩, ?_⟩
  have hkept := hreached.head?_after hspares hwords hfirst
  rwa [hrun'] at hkept

/-- **A machine stays ready** when a procedure is stored. -/
lemma Ready.stored (h : m.Ready count) (hcount : count < wordBound) {es roots : List Object} {p : Object}
    {k : Memory} (hrun : Memory.newProc es roots m.globalVM = .ok p k) :
    ({ m with globalVM := k } : Machine Builtin).Ready (count + 1) ∧
      m.globalVM.Procured .globalVM roots es p k := by
  have hprocured : m.globalVM.Procured .globalVM roots es p k := by
    have hends := Memory.ends_newProc h.threaded h.inOrder (Nat.lt_of_le_of_lt h.entities hcount) es roots
    rwa [Ends, hrun] at hends
  have hentities : k.entityCount ≤ count + 1 :=
    Nat.le_trans hprocured.count (Nat.succ_le_succ h.entities)
  have hthreaded : k.Threaded := by
    have hafter : (m.globalVM.after (.newProc es roots)).Threaded := h.threaded.after rfl
    rwa [Memory.after_of_ok rfl hrun] at hafter
  have hruns {opcode : Nat} {d : Definition Builtin} (hopcode : m.Runs opcode d) :
      ({ m with globalVM := k } : Machine Builtin).Runs opcode d :=
    hopcode.stored hrun (Nat.le_trans hentities hcount)
  refine ⟨⟨h.segments, hthreaded, hprocured.inOrder, hentities, h.interned, fun text d hfind => ?_,
    hruns h.zombie, hruns h.join⟩, hprocured⟩
  obtain ⟨name, opcode, hword, hlt, hlookup, hopcode⟩ := h.means text d hfind
  exact ⟨name, opcode, hword, hlt, hlookup, hruns hopcode⟩

end Machine

end PostScriptCore
