import PostScriptCore.Builtin.Basic
import PostScriptCore.Proofs.Memory.Bystanders
import PostScriptCore.Proofs.Operator.Registration

/-!
# The registry refines a map

A run declares names and registers definitions for them, while others use the same memory.  Whatever
moves in storage, reading the table gives, for every name, the definitions that were registered for it
successfully, in order.

* `RegistryOp` — what a run is made of.
* `OperatorTable.registered` — the log of successful registrations.
* `OperatorTable.Advances` — what one operation does to the listings.
* `OperatorTable.Represents` — the table reads as the log says.
* `OperatorTable.Extends` — one more operation leaves in place what is registered.
* `OperatorTable.registry_refines_map` — both, for every run.
* `OperatorTable.registry_loses_signatures` — writing into a free entity can take a list away.
-/

namespace PostScriptCore

/-- An operation of a run. -/
inductive RegistryOp (ν : Type)
  | declare (name : UInt32)
  | cons (name : UInt32) (native : ν) (outArity : UInt8) (patterns : List Pattern)
  /-- Somebody else uses the memory. -/
  | memory (op : MemoryOp)

namespace RegistryOp

variable {ν : Type}

/-- The name that an operation declares or registers a definition for. -/
def name? : RegistryOp ν → Option Nat
  | declare name | cons name .. => some name.toNat
  | memory _ => none

/-- What an operation adds to the log if it answers an opcode. -/
def logs : RegistryOp ν → Option Nat → List (Nat × Definition ν)
  | cons name native outArity patterns, some _ => [(name.toNat, ⟨patterns, outArity, native⟩)]
  | _, _ => []

/-- The name that is certainly declared if the operation answers an opcode. -/
def establishes (op : RegistryOp ν) (answer : Option Nat) : List Nat :=
  if answer.isSome then op.name?.toList else []

/-- Whether the operation leaves system entities, save levels and free entities to the registry and
the allocator. -/
def spares (m : Memory) : RegistryOp ν → Bool
  | memory op => op.spares m
  | _ => true

variable [NativeArity ν]

/-- Runs an operation; the two on the registry answer an opcode. -/
def perform : RegistryOp ν → OperatorTableM ν (Option Nat)
  | declare name => some <$> OperatorTable.declare name.toNat
  | cons name native outArity patterns =>
    some <$> OperatorTable.cons name.toNat native outArity.toNat patterns
  | memory op => (fun _ => none) <$> OperatorTable.onMemory op.perform

/-- The opcode that an operation answers, if it succeeds. -/
def opcode? (op : RegistryOp ν) (s : OperatorTable ν × Memory) : Option Nat :=
  (answer? op.perform s).join

end RegistryOp

namespace OperatorTable

variable {ν : Type}

/-! ## The log -/

/-- The definitions that a log has for a name. -/
def definitionsOf (name : Nat) (log : List (Nat × Definition ν)) : List (Definition ν) :=
  (log.filter fun entry => entry.1 == name).map Prod.snd

/-- What a log has for the name of an opcode; an opcode without a name has nothing. -/
def definitionsAt (t : OperatorTable ν) (log : List (Nat × Definition ν)) (opcode : Nat) :
    List (Definition ν) :=
  match t.name? opcode with
  | some name => definitionsOf name log
  | none => []

lemma definitionsOf_append (name : Nat) (log more : List (Nat × Definition ν)) :
    definitionsOf name (log ++ more) = definitionsOf name log ++ definitionsOf name more := by
  simp [definitionsOf]

lemma definitionsOf_singleton (name other : Nat) (d : Definition ν) :
    definitionsOf name [(other, d)] = if other = name then [d] else [] := by
  by_cases h : other = name <;> simp [definitionsOf, h]

lemma definitionsOf_eq_nil {name : Nat} {log : List (Nat × Definition ν)}
    (h : name ∉ log.map Prod.fst) : definitionsOf name log = [] := by
  rw [definitionsOf, List.map_eq_nil_iff, List.filter_eq_nil_iff]
  rintro entry hentry he
  exact h (List.mem_map.mpr ⟨entry, hentry, by simpa using he⟩)

section Run

variable [NativeArity ν]

/-- The registry after an operation, whatever its outcome. -/
def after (s : OperatorTable ν × Memory) (op : RegistryOp ν) : OperatorTable ν × Memory :=
  finalState op.perform s

/-- The registry after a run. -/
def afterAll (s : OperatorTable ν × Memory) (run : List (RegistryOp ν)) :
    OperatorTable ν × Memory :=
  run.foldl after s

/-- Whether every operation of a run spares what the registry relies on. -/
def sparesAll : OperatorTable ν × Memory → List (RegistryOp ν) → Bool
  | _, [] => true
  | s, op :: rest => op.spares s.2 && sparesAll (after s op) rest

/-- The log of a run: what was registered successfully, in order. -/
def registered : OperatorTable ν × Memory → List (RegistryOp ν) → List (Nat × Definition ν)
  | _, [] => []
  | s, op :: rest => op.logs (op.opcode? s) ++ registered (after s op) rest

/-- The names that a run has declared or registered something for with success. -/
def established : OperatorTable ν × Memory → List (RegistryOp ν) → List Nat
  | _, [] => []
  | s, op :: rest => op.establishes (op.opcode? s) ++ established (after s op) rest

lemma sparesAll_append {s : OperatorTable ν × Memory} {run more : List (RegistryOp ν)} :
    sparesAll s (run ++ more) = (sparesAll s run && sparesAll (afterAll s run) more) := by
  induction run generalizing s with
  | nil => simp [sparesAll, afterAll]
  | cons op rest ih => simp [sparesAll, afterAll, ih, Bool.and_assoc]

lemma afterAll_append (s : OperatorTable ν × Memory) (run more : List (RegistryOp ν)) :
    afterAll s (run ++ more) = afterAll (afterAll s run) more :=
  List.foldl_append

lemma registered_append (s : OperatorTable ν × Memory) (run more : List (RegistryOp ν)) :
    registered s (run ++ more) = registered s run ++ registered (afterAll s run) more := by
  induction run generalizing s with
  | nil => rfl
  | cons op rest ih =>
      rw [List.cons_append, registered, registered, ih, List.append_assoc]
      rfl

end Run

/-! ## One operation -/

/-- What an operation does to the listings. -/
inductive Advances (ls : List (Listing ν)) : RegistryOp ν → Option Nat → List (Listing ν) → Prop
  | memory (op : MemoryOp) : Advances ls (.memory op) none ls
  | declared {name : UInt32} {opcode : Nat}
      (hat : NameAt (declared ls name.toNat) opcode name.toNat) :
      Advances ls (.declare name) (some opcode) (declared ls name.toNat)
  | undeclared {name : UInt32} : Advances ls (.declare name) none ls
  | appended {name : UInt32} {native : ν} {outArity : UInt8} {patterns : List Pattern}
      {opcode list number : Nat} (hat : NameAt (declared ls name.toNat) opcode name.toNat) :
      Advances ls (.cons name native outArity patterns) (some opcode)
        (appended (declared ls name.toNat) opcode list ⟨⟨patterns, outArity, native⟩, number⟩)
  | refused {name : UInt32} {native : ν} {outArity : UInt8} {patterns : List Pattern}
      {ls' : List (Listing ν)} (hls : ls' = ls ∨ ls' = declared ls name.toNat) :
      Advances ls (.cons name native outArity patterns) none ls'

variable {rows : Nat} {s : OperatorTable ν × Memory} {ls ls' : List (Listing ν)}

/-- What an operation of the table does, told by its answer and by the state it ends in. -/
lemma Within.finalState {α : Type} {x : OperatorTableM ν α} {P : α → Condition ν}
    {E : Condition ν} (h : Within rows x s P E) :
    Settled rows (fun t m => (∃ a, answer? x s = some a ∧ P a t m) ∨ answer? x s = none ∧ E t m)
      (finalState x s) := by
  rw [Within, Ends] at h
  split at h
  · next a u hrun =>
    rw [PostScriptCore.finalState, answer?, hrun]
    exact h.mono fun hP => .inl ⟨a, rfl, hP⟩
  · next hrun =>
    rw [PostScriptCore.finalState, answer?, hrun]
    exact h.mono fun hE => .inr ⟨rfl, hE⟩

lemma finalState_onMemory {α : Type} (x : MemoryM α) (s : OperatorTable ν × Memory) :
    finalState (onMemory x : OperatorTableM ν α) s = (s.1, finalState x s.2) := by
  rw [finalState, finalState, onMemory, focus]
  cases x s.2 <;> rfl

lemma join_map_none {α : Type} (a : Option α) :
    (a.map fun _ => (none : Option Nat)).join = none := by
  cases a <;> rfl

section Memory

variable [NativeArity ν]

lemma after_memory (s : OperatorTable ν × Memory) (op : MemoryOp) :
    after s (.memory op) = (s.1, s.2.after op) := by
  rw [after, RegistryOp.perform, finalState_map, finalState_onMemory]
  rfl

lemma opcode?_memory (s : OperatorTable ν × Memory) (op : MemoryOp) :
    (RegistryOp.memory op).opcode? s = none := by
  rw [RegistryOp.opcode?, RegistryOp.perform, answer?_map, join_map_none]

end Memory

/-- Others who use the memory leave the registry alone. -/
lemma settled_after_memory (h : Settled rows (fun t m => t = s.1 ∧ Stores t m ls) s)
    {op : MemoryOp} (hop : op.spares s.2 = true) :
    Settled rows (fun t m => Stores t m ls) (s.1, s.2.after op) := by
  have hsecures {P : Nat → Prop}
      (hP : ∀ id, P id → ∃ cell, s.2.cell? id = some cell ∧ cell.tag.kind = .system) :
      Memory.Secures P s.2 (s.2.after op) :=
    (h.threaded.secures hP).after hop
  have hthreaded := hsecures (P := fun _ => False) nofun
  refine ⟨hthreaded.toThreaded, Nat.le_trans h.rows_le hthreaded.count, fun hm => ?_⟩
  obtain ⟨-, hstores⟩ := h.holds (Nat.le_trans hthreaded.count hm)
  exact hstores.congr fun id hid =>
    (hsecures (P := IsPlace s.1 ls) fun _ hplace => hstores.system hplace).kept hm id hid

section Step

variable [NativeArity ν]

/-- **One operation advances the listings**, whether it succeeds or fails. -/
lemma settled_after (h : Settled rows (fun t m => t = s.1 ∧ Stores t m ls) s) {op : RegistryOp ν}
    (hop : op.spares s.2 = true) :
    Settled rows (fun t m => ∃ ls', Stores t m ls' ∧ Advances ls op (op.opcode? s) ls')
      (after s op) := by
  cases op with
  | declare name =>
      rw [after, RegistryOp.opcode?, RegistryOp.perform, finalState_map, answer?_map]
      refine (within_declare name.toNat_lt h).finalState.mono ?_
      rintro (⟨opcode, hrun, hstores, hat⟩ | ⟨hrun, hstores⟩)
      · rw [hrun]
        exact ⟨_, hstores, .declared hat⟩
      · rw [hrun]
        exact ⟨_, hstores, .undeclared⟩
  | cons name native outArity patterns =>
      rw [after, RegistryOp.opcode?, RegistryOp.perform, finalState_map, answer?_map]
      refine (within_cons name.toNat_lt h).finalState.mono ?_
      rintro (⟨opcode, hrun, hat, list, number, hstores⟩ | ⟨hrun, hstores⟩)
      · rw [hrun]
        rw [UInt8.ofNat_toNat] at hstores
        exact ⟨_, hstores, .appended hat⟩
      · rw [hrun]
        rcases hstores with hstores | hstores
        · exact ⟨_, hstores, .refused (.inl rfl)⟩
        · exact ⟨_, hstores, .refused (.inr rfl)⟩
  | memory op =>
      rw [after_memory, opcode?_memory]
      exact (settled_after_memory h hop).mono fun hstores => ⟨ls, hstores, .memory op⟩

end Step

/-! ## What a run has recorded -/

/-- The listings hold what the log says; `tried` are the names that operations were given, `sure` the
ones that some operation succeeded for. -/
structure Recorded (ls : List (Listing ν)) (tried sure : List Nat)
    (log : List (Nat × Definition ν)) : Prop where
  definitions : ∀ l ∈ ls, l.definitions = definitionsOf l.name log
  logged : ∀ name ∈ log.map Prod.fst, name ∈ ls.map Listing.name
  sure : ∀ name ∈ sure, name ∈ ls.map Listing.name
  tried : ∀ name ∈ ls.map Listing.name, name ∈ tried

/-- Nothing has been registered. -/
lemma Recorded.nil : Recorded ([] : List (Listing ν)) [] [] [] where
  definitions := by simp
  logged := by simp
  sure := by simp
  tried := by simp

section Recorded

variable {tried sure : List Nat} {log : List (Nat × Definition ν)} {name opcode : Nat}

lemma Recorded.definitionsAt (h : Recorded ls tried sure log) {t : OperatorTable ν} {m : Memory}
    (hlists : Lists t m ls) {l : Listing ν} (hl : ls[opcode]? = some l) :
    definitionsAt t log opcode = l.definitions := by
  have hname : t.name? opcode = some l.name := by rw [hlists.name?_eq, hl, Option.map_some]
  rw [OperatorTable.definitionsAt, hname, h.definitions l (mem_of_getElem? hl)]

lemma mem_names_declared {other : Nat} :
    other ∈ (declared ls name).map Listing.name ↔ other ∈ ls.map Listing.name ∨ other = name := by
  by_cases h : name ∈ ls.map Listing.name
  · rw [declared_of_mem h]
    refine ⟨.inl, ?_⟩
    rintro (hmem | rfl)
    · exact hmem
    · exact h
  · rw [declared_of_not_mem h, List.map_append, List.mem_append, List.map_singleton,
      List.mem_singleton]

lemma Recorded.mono (h : Recorded ls tried sure log) {tried' sure' : List Nat}
    (htried : tried ⊆ tried') (hsure : sure' ⊆ sure) : Recorded ls tried' sure' log :=
  ⟨h.definitions, h.logged, fun _ hmem => h.sure _ (hsure hmem),
    fun _ hmem => htried (h.tried _ hmem)⟩

lemma Recorded.declared (h : Recorded ls tried sure log) (name : Nat) :
    Recorded (declared ls name) (tried ++ [name]) (sure ++ [name]) log where
  definitions := by
    by_cases hname : name ∈ ls.map Listing.name
    · rw [declared_of_mem hname]
      exact h.definitions
    · rw [declared_of_not_mem hname]
      refine forall_mem_concat h.definitions ?_
      exact (definitionsOf_eq_nil fun hmem => hname (h.logged _ hmem)).symm
  logged other hmem := mem_names_declared.mpr (.inl (h.logged other hmem))
  sure other hmem := by
    rw [mem_names_declared]
    simp only [List.mem_append, List.mem_singleton] at hmem
    exact hmem.imp_left (h.sure other)
  tried other hmem := by
    rw [mem_names_declared] at hmem
    simp only [List.mem_append, List.mem_singleton]
    exact hmem.imp_left (h.tried other)

lemma Recorded.appended (h : Recorded ls tried sure log) (hnodup : (ls.map Listing.name).Nodup)
    (hat : NameAt ls opcode name) (list number : Nat) (d : Definition ν) :
    Recorded (appended ls opcode list ⟨d, number⟩) tried sure (log ++ [(name, d)]) where
  definitions := by
    obtain ⟨l, hl, rfl⟩ := hat
    refine forall_mem_appended hl (fun j l' hj hne => ?_) ?_
    · have hother : l.name ≠ l'.name := by
        intro he
        have hlt : j < (ls.map Listing.name).length := by
          rw [List.length_map]
          exact (List.getElem?_eq_some_iff.mp hj).1
        exact hne ((List.getElem?_inj hlt hnodup).mp (by simp [hl, hj, he]))
      rw [h.definitions l' (mem_of_getElem? hj), definitionsOf_append, definitionsOf_singleton,
        if_neg hother, List.append_nil]
    · rw [extended, Listing.definitions, List.map_append, ← Listing.definitions,
        h.definitions l (mem_of_getElem? hl), definitionsOf_append, definitionsOf_singleton, if_pos rfl,
        List.map_singleton]
  logged other hmem := by
    obtain ⟨l, hl, rfl⟩ := hat
    rw [map_name_appended]
    simp only [List.map_append, List.map_singleton, List.mem_append, List.mem_singleton] at hmem
    rcases hmem with hmem | rfl
    · exact h.logged other hmem
    · exact List.mem_map.mpr ⟨l, mem_of_getElem? hl, rfl⟩
  sure := by
    rw [map_name_appended]
    exact h.sure
  tried := by
    rw [map_name_appended]
    exact h.tried

/-- **One operation keeps the record**, if what it logs is added to it. -/
lemma Recorded.advance (h : Recorded ls tried sure log) {op : RegistryOp ν} {answer : Option Nat}
    (hadvances : Advances ls op answer ls') (hnodup : (ls'.map Listing.name).Nodup) :
    Recorded ls' (tried ++ op.name?.toList) (sure ++ op.establishes answer)
      (log ++ op.logs answer) := by
  cases hadvances with
  | memory op => simpa [RegistryOp.name?, RegistryOp.establishes, RegistryOp.logs] using h
  | @declared name opcode hat =>
      simpa [RegistryOp.name?, RegistryOp.establishes, RegistryOp.logs] using
        h.declared name.toNat
  | @undeclared name =>
      have hmono := h.mono (List.subset_append_left tried [name.toNat]) (List.Subset.refl sure)
      simpa [RegistryOp.name?, RegistryOp.establishes, RegistryOp.logs] using hmono
  | @appended name native outArity patterns opcode list number hat =>
      rw [map_name_appended] at hnodup
      exact (h.declared name.toNat).appended hnodup hat list number ⟨patterns, outArity, native⟩
  | @refused name native outArity patterns ls' hls =>
      have hmono : Recorded ls' (tried ++ [name.toNat]) sure log := by
        rcases hls with rfl | rfl
        · exact h.mono (List.subset_append_left tried _) (List.Subset.refl sure)
        · exact (h.declared name.toNat).mono (List.Subset.refl _) (List.subset_append_left sure _)
      simpa [RegistryOp.name?, RegistryOp.establishes, RegistryOp.logs] using hmono

end Recorded

/-- The registry is stored, and its listings hold what the log says. -/
def Tracks (tried sure : List Nat) (log : List (Nat × Definition ν)) : Condition ν := fun t m =>
  ∃ ls, Stores t m ls ∧ Recorded ls tried sure log

/-- The names that the operations of a run were given. -/
def triedIn (run : List (RegistryOp ν)) : List Nat := run.filterMap RegistryOp.name?

section Run

variable [NativeArity ν]

lemma settled_tracks_after {tried sure : List Nat} {log : List (Nat × Definition ν)}
    (h : Settled rows (Tracks tried sure log) s) {op : RegistryOp ν} (hop : op.spares s.2 = true) :
    Settled s.2.entityCount (Tracks (tried ++ op.name?.toList)
      (sure ++ op.establishes (op.opcode? s)) (log ++ op.logs (op.opcode? s))) (after s op) := by
  by_cases hm : s.2.entityCount ≤ wordBound
  · obtain ⟨ls, hstores, hrecorded⟩ := h.holds hm
    refine (settled_after ⟨h.threaded, Nat.le_refl _, fun _ => ⟨rfl, hstores⟩⟩ hop).mono ?_
    rintro ⟨ls', hstores', hadvances⟩
    exact ⟨ls', hstores', hrecorded.advance hadvances hstores'.nodup⟩
  · have hhere : Settled s.2.entityCount (fun t m => t = s.1 ∧ Stores t m []) s :=
      ⟨h.threaded, Nat.le_refl _, fun hbound => absurd hbound hm⟩
    have hafter := settled_after hhere hop
    exact ⟨hafter.threaded, hafter.rows_le, fun hbound =>
      absurd (Nat.le_trans hafter.rows_le hbound) hm⟩

/-- **So does a run.** -/
lemma settled_tracks_afterAll {tried sure : List Nat} {log : List (Nat × Definition ν)}
    (h : Settled rows (Tracks tried sure log) s) {run : List (RegistryOp ν)}
    (hrun : sparesAll s run = true) :
    Settled s.2.entityCount (Tracks (tried ++ triedIn run) (sure ++ established s run)
      (log ++ registered s run)) (afterAll s run) := by
  induction run generalizing s rows tried sure log with
  | nil =>
      simp only [triedIn, established, registered, List.filterMap_nil, List.append_nil]
      exact ⟨h.threaded, Nat.le_refl _, h.holds⟩
  | cons op rest ih =>
      rw [sparesAll, Bool.and_eq_true] at hrun
      have hop := settled_tracks_after h hrun.1
      have hrest := ih hop hrun.2
      have htried : triedIn (op :: rest) = op.name?.toList ++ triedIn rest := by
        cases hname : op.name? <;> simp [triedIn, hname]
      rw [htried, established, registered, ← List.append_assoc, ← List.append_assoc,
        ← List.append_assoc]
      exact ⟨hrest.threaded, Nat.le_trans hop.rows_le hrest.rows_le, hrest.holds⟩

end Run

/-! ## A fresh table -/

/-- The table has just been created, in a memory that may have been in use before. -/
def IsFresh (s : OperatorTable ν × Memory) : Prop :=
  ∃ bank backing settings m₀ earlier, Memory.withBacking bank backing settings = .ok m₀ ∧
    m₀.sparesAll earlier = true ∧ create (m₀.afterAll earlier) = .ok s.1 s.2

/-- A table without names is stored in any system entity. -/
lemma stores_nil {t : OperatorTable ν} {m : Memory} {cell : Cell} (hsize : t.size = 0)
    (hbyName : t.byName = []) (hnatives : t.natives = #[]) (hcell : m.cell? t.entries = some cell)
    (hsystem : cell.tag.kind = .system) : Stores t m [] where
  size := hsize
  byName := hbyName
  nodup := List.nodup_nil
  word := by simp
  begins := by simp
  empty := by simp
  off_entries := by simp
  apart := by simp
  native := by simp
  total := by rw [hnatives]; rfl
  enters := ⟨cell, hcell, hsystem, .nil⟩

/-- A fresh table has no names. -/
lemma IsFresh.settled (h : IsFresh s) : Settled 0 (Tracks [] [] []) s := by
  obtain ⟨t, m⟩ := s
  obtain ⟨bank, backing, settings, m₀, earlier, hstart, hearlier, hcreate⟩ := h
  have hbefore := ((Memory.threaded_of_withBacking hstart).secures (P := fun _ => False)
    fun _ hid => hid.elim).afterAll hearlier
  have hallocated := Memory.secures_allocateWithoutGc hbefore (32 * entrySize) (Tag.ofKind .system)
  rw [Keeps, Ends] at hallocated
  split at hallocated
  · next entries k hrun =>
    rw [create, bind_ok hrun] at hcreate
    injection hcreate with ht hk
    subst ht hk
    obtain ⟨hsecures, hsupplies⟩ := hallocated
    obtain ⟨row, h0, hrow, -, htag, -⟩ := hsupplies.owned
    exact ⟨hsecures.toThreaded, Nat.zero_le _, fun _ =>
      ⟨[], stores_nil rfl rfl rfl (Memory.cell?_of_row h0 hrow) (by simp [htag]), .nil⟩⟩
  · next hrun =>
    rw [create, bind_error hrun] at hcreate
    contradiction

/-! ## Reading -/

section Reading

/-- The signature stands for the definition. -/
def Describes (natives : Array ν) (d : Definition ν) (signature : Signature) : Prop :=
  signature.inArity.toNat = d.patterns.length ∧ (∀ i, signature.pattern? i = d.patterns[i]?) ∧
    signature.outArity = d.outArity ∧ natives[signature.native]? = some d.native

/-- Read through its operations, the table is the finite map from names to the definitions that the
log has for them.  Its names are among those that were tried, and those that are sure are there. -/
structure Represents (t : OperatorTable ν) (m : Memory) (tried sure : List Nat)
    (log : List (Nat × Definition ν)) : Prop where
  sure : ∀ name ∈ sure, ∃ opcode, t.lookup? name = some opcode
  tried : ∀ name opcode, t.lookup? name = some opcode → name ∈ tried
  dense : ∀ opcode, opcode < t.size ↔ ∃ name, t.lookup? name = some opcode
  nameOf : ∀ name opcode, t.lookup? name = some opcode → t.nameOf m opcode = .ok name
  signatures : ∀ name opcode, t.lookup? name = some opcode → ∃ signatures,
    t.signatures m opcode = .ok signatures ∧
      List.Forall₂ (Describes t.natives) (definitionsOf name log) signatures
  absent : ∀ name, t.lookup? name = none → definitionsOf name log = []

/-- What an operation leaves of the table that it met.  Opcodes stay, lists are only added to, and
only by a success for their own name; if the operation fails, there is at most one new name, and it
has an empty list. -/
structure Extends (op : RegistryOp ν) (answer : Option Nat) (s u : OperatorTable ν × Memory) :
    Prop where
  lookup : ∀ name opcode, s.1.lookup? name = some opcode → u.1.lookup? name = some opcode
  answered : ∀ opcode, answer = some opcode →
    ∃ name, op.name? = some name ∧ u.1.lookup? name = some opcode
  signatures : ∀ opcode signatures, s.1.signatures s.2 opcode = .ok signatures →
    ∃ more, u.1.signatures u.2 opcode = .ok (signatures ++ more) ∧
      (answer ≠ some opcode → more = [])
  fresh : ∀ name opcode, u.1.lookup? name = some opcode → s.1.lookup? name = some opcode ∨
    op.name? = some name ∧ opcode = s.1.size ∧
      (answer = none → u.1.signatures u.2 opcode = .ok [])

variable {t : OperatorTable ν} {m : Memory} {name opcode : Nat} {l : Listing ν}

lemma Lists.describes (h : Lists t m ls) (hl : l ∈ ls) :
    List.Forall₂ (Describes t.natives) l.definitions l.signatures := by
  rw [Listing.definitions, Listing.signatures, List.forall₂_map_left_iff, List.forall₂_map_right_iff,
    List.forall₂_same]
  intro r hr
  obtain ⟨hlength, hnative⟩ := h.native l hl r hr
  exact ⟨Signature.toNat_inArity_ofPatterns hlength .., Signature.pattern?_ofPatterns hlength,
    by simp [Registration.signature, Signature.ofPatterns], hnative⟩

lemma Stores.represents (h : Stores t m ls) (hs : m.Sound) (hm : m.entityCount ≤ wordBound)
    {tried sure : List Nat} {log : List (Nat × Definition ν)}
    (hrecorded : Recorded ls tried sure log) : Represents t m tried sure log where
  sure name hname := by
    cases hlookup : t.lookup? name with
    | some opcode => exact ⟨opcode, rfl⟩
    | none => exact absurd (hrecorded.sure name hname) (h.lookup?_eq_none_iff.mp hlookup)
  tried name opcode hlookup := by
    obtain ⟨l, hl, rfl⟩ := h.lookup?_eq_some_iff.mp hlookup
    exact hrecorded.tried l.name (List.mem_map.mpr ⟨l, mem_of_getElem? hl, rfl⟩)
  dense opcode := by
    simp only [h.lookup?_eq_some_iff, h.size]
    constructor
    · intro hlt
      exact ⟨_, _, List.getElem?_eq_getElem hlt, rfl⟩
    · rintro ⟨name, l, hl, -⟩
      exact (List.getElem?_eq_some_iff.mp hl).1
  nameOf name opcode hlookup := by
    obtain ⟨l, hl, rfl⟩ := h.lookup?_eq_some_iff.mp hlookup
    exact h.nameOf hs hm hl
  signatures name opcode hlookup := by
    obtain ⟨l, hl, rfl⟩ := h.lookup?_eq_some_iff.mp hlookup
    have hmem := mem_of_getElem? hl
    refine ⟨l.signatures, h.signatures hs hm hl, ?_⟩
    rw [← hrecorded.definitions l hmem]
    exact h.describes hmem
  absent name hlookup := by
    refine definitionsOf_eq_nil fun hmem => ?_
    exact h.lookup?_eq_none_iff.mp hlookup (hrecorded.logged name hmem)

lemma getElem?_declared (hl : ls[opcode]? = some l) : (declared ls name)[opcode]? = some l := by
  rw [declared]
  split
  · exact hl
  · rw [List.getElem?_append_left (List.getElem?_eq_some_iff.mp hl).1, hl]

lemma of_getElem?_declared (hl : (declared ls name)[opcode]? = some l) :
    ls[opcode]? = some l ∨ l = ⟨name, 0, []⟩ ∧ opcode = ls.length := by
  rw [declared] at hl
  split at hl
  · exact .inl hl
  · rw [List.getElem?_append] at hl
    split at hl
    · exact .inl hl
    · next hge =>
      obtain ⟨hlast, rfl⟩ : opcode - ls.length = 0 ∧ ⟨name, 0, []⟩ = l := by
        simpa [List.getElem?_singleton] using hl
      exact .inr ⟨rfl, by omega⟩

lemma of_getElem?_appended {list : Nat} {r : Registration ν} {j : Nat} {l' : Listing ν}
    (hl : (appended ls opcode list r)[j]? = some l') :
    ∃ l, ls[j]? = some l ∧ (j = opcode ∧ l' = extended l list r ∨ j ≠ opcode ∧ l' = l) := by
  rw [getElem?_appended] at hl
  split at hl
  · next he =>
    obtain ⟨l, hl, rfl⟩ := Option.map_eq_some_iff.mp hl
    exact ⟨l, ‹_›, .inl ⟨he.symm, rfl⟩⟩
  · next hne => exact ⟨l', hl, .inr ⟨Ne.symm hne, rfl⟩⟩

variable {op : RegistryOp ν} {answer : Option Nat}

/-- A listing stays where it is, and only a success for its own name makes it longer. -/
lemma Advances.kept (h : Advances ls op answer ls') (hl : ls[opcode]? = some l) :
    ∃ l' more, ls'[opcode]? = some l' ∧ l'.name = l.name ∧
      l'.registrations = l.registrations ++ more ∧ (answer ≠ some opcode → more = []) := by
  have hsame (hls : ls'[opcode]? = some l) : ∃ l' more, ls'[opcode]? = some l' ∧ l'.name = l.name ∧
      l'.registrations = l.registrations ++ more ∧ (answer ≠ some opcode → more = []) :=
    ⟨l, [], hls, rfl, (List.append_nil _).symm, fun _ => rfl⟩
  cases h with
  | memory op => exact hsame hl
  | undeclared => exact hsame hl
  | declared hat => exact hsame (getElem?_declared hl)
  | refused hls =>
      rcases hls with rfl | rfl
      · exact hsame hl
      · exact hsame (getElem?_declared hl)
  | @appended name native outArity patterns answered list number hat =>
      by_cases he : answered = opcode
      · subst he
        refine ⟨extended l list ⟨⟨patterns, outArity, native⟩, number⟩, _, ?_, rfl, rfl,
          fun hne => absurd rfl hne⟩
        rw [getElem?_appended, if_pos rfl, getElem?_declared hl, Option.map_some]
      · refine hsame ?_
        rw [getElem?_appended, if_neg he]
        exact getElem?_declared hl

/-- A name that was not listed before is the one of the operation, and comes last. -/
lemma Advances.fresh (h : Advances ls op answer ls') (hl : ls'[opcode]? = some l) :
    NameAt ls opcode l.name ∨
      op.name? = some l.name ∧ opcode = ls.length ∧ (answer = none → l.registrations = []) := by
  cases h with
  | memory op => exact .inl ⟨l, hl, rfl⟩
  | undeclared => exact .inl ⟨l, hl, rfl⟩
  | declared hat =>
      rcases of_getElem?_declared hl with hl | ⟨rfl, hlast⟩
      · exact .inl ⟨l, hl, rfl⟩
      · exact .inr ⟨rfl, hlast, fun _ => rfl⟩
  | refused hls =>
      rcases hls with rfl | rfl
      · exact .inl ⟨l, hl, rfl⟩
      · rcases of_getElem?_declared hl with hl | ⟨rfl, hlast⟩
        · exact .inl ⟨l, hl, rfl⟩
        · exact .inr ⟨rfl, hlast, fun _ => rfl⟩
  | @appended name _ _ _ _ _ _ hat =>
      obtain ⟨l', hl', hname⟩ : ∃ l', (OperatorTable.declared ls name.toNat)[opcode]? = some l' ∧
          l.name = l'.name := by
        obtain ⟨l', hl', ⟨-, rfl⟩ | ⟨-, rfl⟩⟩ := of_getElem?_appended hl
        · exact ⟨l', hl', rfl⟩
        · exact ⟨l, hl', rfl⟩
      rw [hname]
      rcases of_getElem?_declared hl' with hl' | ⟨rfl, hlast⟩
      · exact .inl ⟨l', hl', rfl⟩
      · exact .inr ⟨rfl, hlast, nofun⟩

lemma Advances.answered (h : Advances ls op answer ls') (hanswer : answer = some opcode) :
    ∃ name, op.name? = some name ∧ NameAt ls' opcode name := by
  cases h with
  | memory op => contradiction
  | undeclared => contradiction
  | refused => contradiction
  | declared hat =>
      obtain rfl := Option.some.inj hanswer
      exact ⟨_, rfl, hat⟩
  | appended hat =>
      obtain rfl := Option.some.inj hanswer
      obtain ⟨l, hl, hname⟩ := hat
      refine ⟨_, rfl, ?_⟩
      rw [NameAt, getElem?_appended, if_pos rfl, hl]
      exact ⟨_, rfl, hname⟩

lemma Stores.extends {s u : OperatorTable ν × Memory} (hs : Stores s.1 s.2 ls)
    (hu : Stores u.1 u.2 ls') (hsounds : s.2.Sound) (hsoundu : u.2.Sound)
    (hms : s.2.entityCount ≤ wordBound) (hmu : u.2.entityCount ≤ wordBound)
    (h : Advances ls op answer ls') : Extends op answer s u where
  lookup name opcode hlookup := by
    obtain ⟨l, hl, rfl⟩ := hs.lookup?_eq_some_iff.mp hlookup
    obtain ⟨l', -, hl', hname, -⟩ := h.kept hl
    exact hu.lookup?_eq_some_iff.mpr ⟨l', hl', hname⟩
  answered opcode hanswer := by
    obtain ⟨name, hname, hat⟩ := h.answered hanswer
    exact ⟨name, hname, hu.lookup?_eq_some_iff.mpr hat⟩
  signatures opcode signatures hsignatures := by
    obtain ⟨l, hl, rfl⟩ := hs.listing_of_signatures hsounds hms hsignatures
    obtain ⟨l', more, hl', -, hregistrations, hmore⟩ := h.kept hl
    refine ⟨more.map Registration.signature, ?_, fun hne => by rw [hmore hne, List.map_nil]⟩
    rw [hu.signatures hsoundu hmu hl', Listing.signatures, hregistrations, List.map_append,
      Listing.signatures]
  fresh name opcode hlookup := by
    obtain ⟨l', hl', rfl⟩ := hu.lookup?_eq_some_iff.mp hlookup
    rw [hs.lookup?_eq_some_iff, hs.size]
    refine (h.fresh hl').imp_right ?_
    rintro ⟨hname, hlast, hempty⟩
    refine ⟨hname, hlast, fun hnone => ?_⟩
    rw [hu.signatures hsoundu hmu hl', Listing.signatures, hempty hnone, List.map_nil]

end Reading

/-! ## Every run -/

variable [NativeArity ν] {run : List (RegistryOp ν)} {name opcode : Nat}

/-- **A run of a fresh table** leaves it stored, with what the run has registered. -/
lemma IsFresh.settled_afterAll (h : IsFresh s) (hrun : sparesAll s run = true) :
    Settled s.2.entityCount (Tracks (triedIn run) (established s run) (registered s run))
      (afterAll s run) :=
  settled_tracks_afterAll h.settled hrun

/-- After a run, a name has the opcode that has the name. -/
lemma IsFresh.name?_eq_some_iff (h : IsFresh s) (hrun : sparesAll s run = true)
    (hwords : (afterAll s run).2.entityCount ≤ wordBound) :
    (afterAll s run).1.name? opcode = some name ↔ (afterAll s run).1.lookup? name = some opcode := by
  obtain ⟨ls, hstores, -⟩ := (h.settled_afterAll hrun).holds hwords
  exact hstores.name?_eq_some_iff

/-- An opcode stands for what the log has under its name. -/
lemma IsFresh.definitionsAt_of_lookup? (h : IsFresh s) (hrun : sparesAll s run = true)
    (hwords : (afterAll s run).2.entityCount ≤ wordBound)
    (hlookup : (afterAll s run).1.lookup? name = some opcode) (log : List (Nat × Definition ν)) :
    definitionsAt (afterAll s run).1 log opcode = definitionsOf name log := by
  rw [definitionsAt, (h.name?_eq_some_iff hrun hwords).mpr hlookup]

/-- An operation between two others met a table that was stored, and left one. -/
lemma IsFresh.extends (h : IsFresh s) {before rest : List (RegistryOp ν)} {op : RegistryOp ν}
    (hrun : sparesAll s (before ++ op :: rest) = true)
    (hwords : (afterAll s (before ++ op :: rest)).2.entityCount ≤ wordBound) :
    Extends op (op.opcode? (afterAll s before)) (afterAll s before)
      (after (afterAll s before) op) := by
  rw [sparesAll_append, sparesAll, Bool.and_eq_true, Bool.and_eq_true] at hrun
  obtain ⟨hbefore, hop, hrest⟩ := hrun
  rw [afterAll_append] at hwords
  have hmet := h.settled_afterAll hbefore
  have hleft := settled_tracks_after hmet hop
  have hend := settled_tracks_afterAll hleft hrest
  have hwordsu := Nat.le_trans hend.rows_le hwords
  have hwordss := Nat.le_trans hleft.rows_le hwordsu
  obtain ⟨ls, hstores, -⟩ := hmet.holds hwordss
  obtain ⟨ls', hstores', hadvances⟩ :=
    (settled_after ⟨hmet.threaded, Nat.le_refl _, fun _ => ⟨rfl, hstores⟩⟩ hop).holds hwordsu
  exact hstores.extends hstores' hmet.threaded.sound hleft.threaded.sound hwordss hwordsu hadvances

/-- The table reads as the map that the run has registered. -/
lemma IsFresh.represents (h : IsFresh s) (hrun : sparesAll s run = true)
    (hwords : (afterAll s run).2.entityCount ≤ wordBound) :
    Represents (afterAll s run).1 (afterAll s run).2 (triedIn run) (established s run) (registered s run) := by
  have hsettled := h.settled_afterAll hrun
  obtain ⟨ls, hstores, hrecorded⟩ := hsettled.holds hwords
  exact hstores.represents hsettled.threaded.sound hwords hrecorded

/-- **The registry refines a map.**  After any run that writes neither to system entities nor to free
ones, as long as entity numbers are words, the table reads as the finite map from names to what was
registered for them with success, in order; and each operation of the run left in place what it met. -/
theorem registry_refines_map (h : IsFresh s) (hrun : sparesAll s run = true)
    (hwords : (afterAll s run).2.entityCount ≤ wordBound) :
    Represents (afterAll s run).1 (afterAll s run).2 (triedIn run)
        (established s run) (registered s run) ∧
      ∀ before op rest, run = before ++ op :: rest →
        Extends op (op.opcode? (afterAll s before)) (afterAll s before)
          (after (afterAll s before) op) := by
  refine ⟨h.represents hrun hwords, ?_⟩
  rintro before op rest rfl
  exact h.extends hrun hwords

/-- A fresh registry in a fresh global memory. -/
def freshRegistry : OperatorTable Builtin × Memory :=
  match Memory.withBacking .globalVM .anonymous Settings.standard with
  | .ok m =>
    match create m with
    | .ok t n => (t, n)
    | .error _ n => (vacant, n)
  | .error _ => (vacant, Memory.vacant)

lemma isFresh_freshRegistry : IsFresh freshRegistry :=
  ⟨.globalVM, .anonymous, Settings.standard, _, [], rfl, rfl, rfl⟩

/-- A list of signatures outgrows its entity while a string comes and goes; a name gets its definition
after it was declared, one registration is refused, and the memory is collected. -/
def growingRun : List (RegistryOp Builtin) :=
  [.cons 7 .intAdd 1 [.type .integer, .type .integer], .memory (.newString [1, 2, 3] []),
    .cons 7 .realAdd 1 [.float, .float], .memory (.free 3), .cons 7 .exch 2 [.any, .any],
    .declare 40, .cons 40 .index 1 [.type .integer], .cons 41 .dup 2 [],
    .memory (.collect [] true false)]

/-- What the run registers. -/
def growingLog : List (Nat × Definition Builtin) :=
  [(7, ⟨[.type .integer, .type .integer], 1, .intAdd⟩), (7, ⟨[.float, .float], 1, .realAdd⟩),
    (7, ⟨[.any, .any], 2, .exch⟩), (40, ⟨[.type .integer], 1, .index⟩)]

/-- What the run comes to, evaluated together, so that the bytes of the memory are computed once. -/
lemma growingRun_registers :
    sparesAll freshRegistry growingRun = true ∧
      (afterAll freshRegistry growingRun).2.entityCount ≤ wordBound ∧
      (afterAll freshRegistry growingRun).1.byName = [(7, 0), (40, 1)] ∧
      registered freshRegistry growingRun = growingLog := by
  decide +kernel

theorem registry_refines_map_growing :
    IsFresh freshRegistry ∧ sparesAll freshRegistry growingRun = true ∧
      (afterAll freshRegistry growingRun).2.entityCount ≤ wordBound ∧
      registered freshRegistry growingRun = growingLog ∧
      Represents (afterAll freshRegistry growingRun).1 (afterAll freshRegistry growingRun).2
        (triedIn growingRun) (established freshRegistry growingRun)
        (registered freshRegistry growingRun) ∧
      ∀ before op rest, growingRun = before ++ op :: rest →
        Extends op (op.opcode? (afterAll freshRegistry before)) (afterAll freshRegistry before)
          (after (afterAll freshRegistry before) op) := by
  obtain ⟨hspares, hwords, -, hlog⟩ := growingRun_registers
  have hrefines := registry_refines_map isFresh_freshRegistry hspares hwords
  exact ⟨isFresh_freshRegistry, hspares, hwords, hlog, hrefines⟩

/-- A freed string is given the number of the only signature list as its link, before two more strings
are asked for. -/
def relinkingRun : List (RegistryOp Builtin) :=
  [.cons 7 .intAdd 1 [.type .integer, .type .integer], .memory (.newString (List.replicate 8 0) []),
    .memory (.free 3), .memory (.put 3 0 (wordBytes 2)), .memory (.newString (List.replicate 8 0) []),
    .memory (.newString (List.replicate 8 0) [])]

/-- What the run comes to, evaluated together as well. -/
lemma relinkingRun_registers :
    (∀ count ≤ 6, (afterAll freshRegistry (relinkingRun.take count)).2.isSystem 3 = false) ∧
      registered freshRegistry relinkingRun = [(7, ⟨[.type .integer, .type .integer], 1, .intAdd⟩)] ∧
      (afterAll freshRegistry relinkingRun).1.lookup? 7 = some 0 ∧
      (afterAll freshRegistry (relinkingRun.take 5)).1.signatures
        (afterAll freshRegistry (relinkingRun.take 5)).2 0 =
          .ok [Signature.ofPatterns [.type .integer, .type .integer] 1 0] ∧
      (afterAll freshRegistry relinkingRun).1.signatures (afterAll freshRegistry relinkingRun).2 0 =
        .ok [Signature.decode (List.replicate signatureSize 0)] := by
  decide +kernel

/-- **What is written to free storage reaches a signature list.**  The only entity that is freed or written
to is never a system one, but the second string is handed out in the place of the list, and what was
registered is gone. -/
theorem registry_loses_signatures :
    IsFresh freshRegistry ∧
      (∀ op, RegistryOp.memory op ∈ relinkingRun → op.subject? = none ∨ op.subject? = some 3) ∧
      (∀ count ≤ 6, (afterAll freshRegistry (relinkingRun.take count)).2.isSystem 3 = false) ∧
      registered freshRegistry relinkingRun = [(7, ⟨[.type .integer, .type .integer], 1, .intAdd⟩)] ∧
      (afterAll freshRegistry relinkingRun).1.lookup? 7 = some 0 ∧
      (afterAll freshRegistry (relinkingRun.take 5)).1.signatures
        (afterAll freshRegistry (relinkingRun.take 5)).2 0 =
          .ok [Signature.ofPatterns [.type .integer, .type .integer] 1 0] ∧
      (afterAll freshRegistry relinkingRun).1.signatures (afterAll freshRegistry relinkingRun).2 0 =
        .ok [Signature.decode (List.replicate signatureSize 0)] ∧
      ¬ Represents (afterAll freshRegistry relinkingRun).1 (afterAll freshRegistry relinkingRun).2
        (triedIn relinkingRun) (established freshRegistry relinkingRun)
        (registered freshRegistry relinkingRun) := by
  obtain ⟨hsystem, hlog, hlookup, hbefore, hafter⟩ := relinkingRun_registers
  refine ⟨isFresh_freshRegistry, by simp [relinkingRun, MemoryOp.subject?], hsystem, hlog, hlookup, hbefore,
    hafter, fun hrepresents => ?_⟩
  obtain ⟨signatures, hread, hdescribes⟩ := hrepresents.signatures 7 0 hlookup
  rw [hafter] at hread
  obtain rfl := Except.ok.inj hread
  rw [hlog, definitionsOf_singleton, if_pos rfl, List.forall₂_cons] at hdescribes
  exact absurd hdescribes.1.1 (by decide)

end OperatorTable

end PostScriptCore
