import PostScriptCore.Builtin.Basic
import PostScriptCore.Memory.Text

/-!
# Starting a machine

* `Machine.start` — resolves the settings, creates the global memory and registers the built-in
  operators, whose natives are embedded in the machine's own by a function.
* `Machine.opcode?`, `Machine.cons`, `Machine.declare` — operators by name.
* `Machine.summary` — one line about a machine.
-/

namespace PostScriptCore

/-- One line about a table of names. -/
def Names.summary (names : Names) : String :=
  recordText "Names" [("len", toString names.size)]

namespace Machine

variable {ν : Type}

/-- Registers definitions in order.  The state is the names, and the table with its memory. -/
def registerAll [NativeArity ν] :
    List (OperatorDef ν) → EStateM Fault (Names × OperatorTable ν × Memory) Unit
  | [] => pure ()
  | d :: rest => do
    let name ← modifyGet fun s =>
      let (id, names) := s.1.intern d.name
      (id, (names, s.2))
    discard <| focus Prod.snd (fun part s => (s.1, part)) (OperatorTable.vacant, Memory.vacant)
      (OperatorTable.cons name d.native d.outArity d.patterns)
    registerAll rest

/-- The opcode of a text, given the names and the table. -/
def opcodeOf? (names : Names) (operators : OperatorTable ν) (text : String) : Option Nat :=
  (names.lookup? text).bind operators.lookup?

/-- The opcode of an operator that has to exist. -/
def requiredOpcode (names : Names) (operators : OperatorTable ν) (text : String) :
    Except Fault Nat :=
  match opcodeOf? names operators text with
  | some opcode => .ok opcode
  | none => .error .unregistered

/-- A machine over a global memory, with the given operators registered. -/
def build [NativeArity ν] (settings : Settings) (globalVM : Memory)
    (defs : List (OperatorDef ν)) : Except Fault (Machine ν) :=
  match OperatorTable.create globalVM with
  | .error fault _ => .error fault
  | .ok table globalVM =>
    match registerAll defs (Names.empty, table, globalVM) with
    | .error fault _ => .error fault
    | .ok _ (names, operators, globalVM) => do
      let zombie ← requiredOpcode names operators ".zombie"
      let free ← requiredOpcode names operators ".free"
      let join ← requiredOpcode names operators "join"
      return { settings, globalVM, names, operators, system := ⟨zombie, free, join⟩ }

/-- Starts a machine.  Settings that no machine could work with are a `limitcheck`. -/
def start [NativeArity ν] (request : SettingsRequest) (builtin : Builtin → ν) :
    Except Fault (Machine ν) :=
  match request.resolve with
  | .error _ => .error .limitCheck
  | .ok settings =>
    match Memory.create .globalVM settings with
    | .error fault => .error fault
    | .ok globalVM =>
      build settings globalVM
        (builtinDefs.map fun d => ⟨d.name, builtin d.native, d.outArity, d.patterns⟩)

/-- The opcode of an operator name. -/
def opcode? (machine : Machine ν) (text : String) : Option Nat :=
  opcodeOf? machine.names machine.operators text

/-- The number of a text, entering it if it is new. -/
def intern (text : String) : EStateM Fault (Machine ν) Nat :=
  modifyGet fun machine =>
    let (id, names) := machine.names.intern text
    (id, { machine with names })

/-- Runs an operation of the operator table. -/
@[inline] def onOperators {α : Type} (x : OperatorTableM ν α) : EStateM Fault (Machine ν) α :=
  focus (fun machine => (machine.operators, machine.globalVM))
    (fun part machine => { machine with operators := part.1, globalVM := part.2 })
    (OperatorTable.vacant, Memory.vacant) x

/-- The opcode of a text, which is declared without signatures if it is new. -/
def declare (text : String) : EStateM Fault (Machine ν) Nat := do
  let name ← intern text
  onOperators (OperatorTable.declare name)

/-- Appends a signature to the operator named by a text. -/
def cons [NativeArity ν] (text : String) (native : ν) (outArity : Nat) (patterns : List Pattern) :
    EStateM Fault (Machine ν) Nat := do
  let name ← intern text
  onOperators (OperatorTable.cons name native outArity patterns)

/-- Runs an operation of the global memory. -/
@[inline] def onGlobalVM {α : Type} (x : MemoryM α) : EStateM Fault (Machine ν) α :=
  focus Machine.globalVM (fun globalVM machine => { machine with globalVM }) Memory.vacant x

/-- One line about a machine. -/
def summary (machine : Machine ν) : String :=
  recordText "Vm"
    [("global", machine.globalVM.summary),
      ("names", machine.names.summary),
      ("operators", recordText "OperatorTable"
        [("entries", toString machine.operators.size),
          ("natives", toString machine.operators.natives.size)])]

end Machine

end PostScriptCore
