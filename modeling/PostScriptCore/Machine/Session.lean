import PostScriptCore.Context.Scheduler
import PostScriptCore.Operator.Table

/-!
# The state an operator works on

* `Machine` — what all contexts share: the global memory, the names and the operators.
* `World` — a machine with the scheduler and the output.
* `Session` — a world with the one context that is running.
* `Action` — an operation on a session.  Operators are actions; a failure or a control signal keeps
  the session reached so far.
* `NativeSet` — what the natives of a machine do.
-/

namespace PostScriptCore

/-- Where printed text goes. -/
structure Output where
  text : String
  /-- Whether text is accepted at all. -/
  accepting : Bool

/-- The operators that the machinery of contexts refers to itself. -/
structure SystemOperators where
  /-- Ends a context that waits to be joined. -/
  zombie : Nat
  /-- Ends a detached context. -/
  free : Nat
  join : Nat
  deriving DecidableEq

/-- What all contexts share. -/
structure Machine (ν : Type) where
  settings : Settings
  globalVM : Memory
  names : Names
  operators : OperatorTable ν
  system : SystemOperators

/-- A machine with its scheduler and its output. -/
structure World (ν : Type) extends Machine ν where
  scheduler : Scheduler
  output : Output

/-- A world with the running context. -/
structure Session (ν : Type) extends World ν where
  context : Context

/-- An operation on a session. -/
abbrev Action (ν : Type) := EStateM Fault (Session ν)

/-- What the natives of a machine do.  `run` is given a way to dispatch an opcode in turn and the
operands, the deepest first. -/
class NativeSet (ν : Type) extends NativeArity ν where
  run : ν → (Nat → Action ν Unit) → List Object → Action ν Unit

namespace Session

variable {ν : Type} {α : Type}

/-! ## Parts of a session -/

/-- Runs an operation of the running context. -/
@[inline] def onContext (x : EStateM Fault Context α) : Action ν α :=
  focus Session.context (fun context s => { s with context }) Context.vacant x

/-- Runs an operation of the operand stack. -/
@[inline] def onOperands (x : EStateM Fault Stack α) : Action ν α :=
  onContext (Context.onStackSet (StackSet.onOperands x))

/-- Runs an operation of the execution stack. -/
@[inline] def onExec (x : EStateM Fault Stack α) : Action ν α :=
  onContext (Context.onStackSet (StackSet.onExec x))

/-- Runs an operation of the dictionary stack. -/
@[inline] def onDicts (x : EStateM Fault Stack α) : Action ν α :=
  onContext (Context.onStackSet (StackSet.onDicts x))

/-- Runs an operation of the stack of held arguments. -/
@[inline] def onHold (x : EStateM Fault Stack α) : Action ν α :=
  onContext (Context.onStackSet (StackSet.onHold x))

/-- Runs an operation of the running context's local memory. -/
@[inline] def onLocalVM (x : MemoryM α) : Action ν α := onContext (Context.onLocalVM x)

/-- Runs an operation of the global memory. -/
@[inline] def onGlobalVM (x : MemoryM α) : Action ν α :=
  focus (fun s => s.globalVM) (fun globalVM s => { s with globalVM }) Memory.vacant x

/-- Runs an operation of the memory of a bank. -/
def onBank (bank : Bank) (x : MemoryM α) : Action ν α :=
  match bank with
  | .localVM => onLocalVM x
  | .globalVM => onGlobalVM x

/-- The memory of a bank. -/
def memory (s : Session ν) : Bank → Memory
  | .localVM => s.context.localVM
  | .globalVM => s.globalVM

/-- Changes the running context. -/
def modifyContext (f : Context → Context) : Action ν Unit :=
  modify fun s => { s with context := f s.context }

/-- Changes the scheduler. -/
def modifyScheduler (f : Scheduler → Scheduler) : Action ν Unit :=
  modify fun s => { s with scheduler := f s.scheduler }

/-- Puts an operand on the stack. -/
def push (obj : Object) : Action ν Unit := onOperands (Stack.push obj)

/-- The number of a text, entering it if it is new. -/
def intern (text : String) : Action ν Nat :=
  modifyGet fun s =>
    let (id, names) := s.names.intern text
    (id, { s with names })

end Session

end PostScriptCore
