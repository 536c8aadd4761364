import PostScriptCore.Proofs.Machine.Startup

/-!
# What stays under the built-in names

A machine that has been started has under every built-in name the built-in definitions, in the order in which
they are tried.  Whatever is stored, declared or registered afterwards, they are all that is there, unless
something is registered under that very name.

* `OperatorTable.IsFresh.lookup?_afterAll` — an opcode stays that of its name.
* `Machine.Continues` — a session on a machine that has been used since it was started.
* `Machine.exists_builtin_opcode` — what a dispatch finds there under a built-in name.
-/

namespace PostScriptCore

open OperatorTable

namespace OperatorTable

variable {ν : Type} [NativeArity ν] {start : OperatorTable ν × Memory} {name opcode : Nat}

/-- An opcode stays that of its name, whatever else is done. -/
lemma IsFresh.lookup?_afterAll (h : IsFresh start) {run more : List (RegistryOp ν)}
    (hspares : sparesAll start (run ++ more) = true)
    (hwords : (afterAll start (run ++ more)).2.entityCount ≤ wordBound)
    (hlookup : (afterAll start run).1.lookup? name = some opcode) :
    (afterAll start (run ++ more)).1.lookup? name = some opcode := by
  induction more generalizing run with
  | nil => rwa [List.append_nil]
  | cons op rest ih =>
      have hkept := (h.extends hspares hwords).lookup name opcode hlookup
      rw [List.append_cons] at hspares hwords ⊢
      refine ih hspares hwords ?_
      rw [afterAll_append]
      exact hkept

end OperatorTable

namespace Machine

variable {m : Machine Builtin} {text : String}

/-- The session runs on the machine, whose memory and registry may have been used since.  Nothing was
registered under the text. -/
structure Continues (m : Machine Builtin) (text : String) (more : List (RegistryOp Builtin))
    (s : Session Builtin) : Prop where
  spares : sparesAll (m.operators, m.globalVM) more = true
  words : (afterAll (m.operators, m.globalVM) more).2.entityCount ≤ wordBound
  registry : (s.operators, s.globalVM) = afterAll (m.operators, m.globalVM) more
  untouched : ∀ entry ∈ registered (m.operators, m.globalVM) more, m.names.lookup? text ≠ some entry.1

/-- **A built-in name** has an opcode once the machine is started, and from then on it stands for the built-in
definitions. -/
theorem exists_builtin_opcode {request : SettingsRequest} (hstart : start request id = .ok m)
    (htext : text ∈ builtinDefs.map OperatorDef.name) :
    ∃ opcode, requiredOpcode m.names m.operators text = .ok opcode ∧
      ∀ more s, m.Continues text more s → ∃ origin run, Reached origin run s.toMachine ∧
        definitionsAt s.operators (registered origin run) opcode = builtinsOf text := by
  obtain ⟨origin, hreached, hlog, hnames, -⟩ := reached_start hstart
  obtain ⟨name, hname, hdefinitions⟩ := exists_name_builtinDefs htext
  rw [← hnames] at hname
  rw [← hlog] at hdefinitions
  have hreads := hreached.fresh.represents hreached.spares hreached.words
  rw [← hreached.registry] at hreads
  have hopcode : ∃ opcode, m.operators.lookup? name = some opcode := by
    cases hlookup : m.operators.lookup? name with
    | some opcode => exact ⟨opcode, rfl⟩
    | none =>
        obtain ⟨d, hd, rfl⟩ := List.mem_map.mp htext
        have hmem : definitionOf d ∈ builtinsOf d.name :=
          List.mem_map_of_mem (List.mem_filter.mpr ⟨hd, beq_self_eq_true d.name⟩)
        rw [← hdefinitions, hreads.absent name hlookup] at hmem
        contradiction
  obtain ⟨opcode, hlookup⟩ := hopcode
  refine ⟨opcode, by rw [requiredOpcode, opcodeOf?, hname, Option.bind_some, hlookup], fun more s hs => ?_⟩
  have hafter : afterAll origin (registrations .empty builtinDefs ++ more) = (s.operators, s.globalVM) := by
    rw [afterAll_append, ← hreached.registry, hs.registry]
  have hspares : sparesAll origin (registrations .empty builtinDefs ++ more) = true := by
    rw [sparesAll_append, hreached.spares, ← hreached.registry, hs.spares]
    rfl
  have hwords : (afterAll origin (registrations .empty builtinDefs ++ more)).2.entityCount ≤ wordBound := by
    rw [hafter, hs.registry]
    exact hs.words
  have hfound : (afterAll origin (registrations .empty builtinDefs)).1.lookup? name = some opcode := by
    rw [← hreached.registry]
    exact hlookup
  have hkept := hreached.fresh.lookup?_afterAll hspares hwords hfound
  rw [hafter] at hkept
  have hmore : definitionsOf name (registered (m.operators, m.globalVM) more) = [] := by
    refine definitionsOf_eq_nil fun hmem => ?_
    obtain ⟨entry, hentry, hsame⟩ := List.mem_map.mp hmem
    exact hs.untouched entry hentry (hsame ▸ hname)
  have hlater : Reached origin (registrations .empty builtinDefs ++ more) s.toMachine :=
    ⟨hreached.fresh, hspares, hwords, hafter.symm⟩
  refine ⟨origin, registrations .empty builtinDefs ++ more, hlater, ?_⟩
  rw [hlater.definitionsAt_of_lookup? hkept, registered_append, definitionsOf_append, hdefinitions,
    ← hreached.registry, hmore, List.append_nil]

end Machine

end PostScriptCore
