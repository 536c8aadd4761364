import PostScriptCore.Memory.Composite
import PostScriptCore.Stack

/-!
# Contexts

A context is a cooperative thread: a local memory of its own and four stacks.  Contexts never run at
the same time; a context runs until an operator hands control away.

* `StackSet` — operands, procedures being executed, dictionaries, and the arguments of the running
  operator.
* `Context` — the stacks, the local memory and what the machine remembers about the running
  operator.
* `StackSet.roots`, `Context.roots` — what keeps storage alive.
* `StackSet.onOperands`, `Context.onStackSet`, `Context.onLocalVM`, … — operations of a part.
-/

namespace PostScriptCore

/-- Where a context is in its life. -/
inductive ContextState
  | run
  /-- Blocked in a join until its target has finished. -/
  | wait
  /-- Finished, with operands kept for a join. -/
  | zombie
  /-- Ready to be forgotten. -/
  | free
  deriving DecidableEq

/-- Whether a context in the state still has something to do. -/
def ContextState.isActive : ContextState → Bool
  | run | wait => true
  | zombie | free => false

/-- The state's name, for listings. -/
def ContextState.label : ContextState → String
  | run => "Run"
  | wait => "Wait"
  | zombie => "Zombie"
  | free => "Free"

/-- The state with a name. -/
def ContextState.ofLabel? (label : String) : Option ContextState :=
  [run, wait, zombie, free].find? fun state => state.label == label

/-- The four stacks of a context. -/
structure StackSet where
  operands : Stack
  exec : Stack
  dicts : Stack
  /-- Arguments of the running operator. -/
  hold : Stack

namespace StackSet

/-- Empty stacks with the limits of the settings. -/
def create (settings : Settings) : StackSet where
  operands := Stack.create settings.segmentSize settings.operandStackLimit .stackOverflow
  exec := Stack.create settings.segmentSize settings.execStackLimit .execStackOverflow
  dicts := Stack.create settings.segmentSize settings.dictStackLimit .dictStackOverflow
  hold := Stack.create settings.segmentSize settings.operandStackLimit .limitCheck

/-- Runs an operation of the operand stack. -/
@[inline] def onOperands {α : Type} (x : EStateM Fault Stack α) : EStateM Fault StackSet α :=
  focus StackSet.operands (fun operands s => { s with operands }) Stack.vacant x

/-- Runs an operation of the execution stack. -/
@[inline] def onExec {α : Type} (x : EStateM Fault Stack α) : EStateM Fault StackSet α :=
  focus StackSet.exec (fun exec s => { s with exec }) Stack.vacant x

/-- Runs an operation of the dictionary stack. -/
@[inline] def onDicts {α : Type} (x : EStateM Fault Stack α) : EStateM Fault StackSet α :=
  focus StackSet.dicts (fun dicts s => { s with dicts }) Stack.vacant x

/-- Runs an operation of the stack of held arguments. -/
@[inline] def onHold {α : Type} (x : EStateM Fault Stack α) : EStateM Fault StackSet α :=
  focus StackSet.hold (fun hold s => { s with hold }) Stack.vacant x

/-- Stacks without room, which stand in for stacks that are being worked on. -/
def vacant : StackSet := ⟨Stack.vacant, Stack.vacant, Stack.vacant, Stack.vacant⟩

/-- Every object on a stack. -/
def roots (s : StackSet) : List Object :=
  s.operands.toList ++ s.exec.toList ++ s.dicts.toList ++ s.hold.toList

end StackSet

/-- A cooperative thread of execution. -/
structure Context where
  id : Nat
  state : ContextState
  localVM : Memory
  stackSet : StackSet
  /-- The object that is being executed. -/
  current : Object
  /-- How many operands the running operator took, if a failure is to give them back. -/
  restoreArity : Option Nat
  /-- The context a blocked join waits for. -/
  waitingOn : Option Nat

namespace Context

/-- A fresh context. -/
def create (id : Nat) (settings : Settings) : Except Fault Context :=
  match Memory.create .localVM settings with
  | .ok localVM =>
    .ok ⟨id, .run, localVM, StackSet.create settings, Object.null, none, none⟩
  | .error fault => .error fault

/-- Objects of a context that keep global storage alive: its stacks and what its local storage
refers to. -/
def roots (c : Context) : List Object := c.stackSet.roots ++ c.localVM.allStoredComposites

/-- Runs an operation of the stacks. -/
@[inline] def onStackSet {α : Type} (x : EStateM Fault StackSet α) : EStateM Fault Context α :=
  focus Context.stackSet (fun stackSet c => { c with stackSet }) StackSet.vacant x

/-- Runs an operation of the local memory. -/
@[inline] def onLocalVM {α : Type} (x : MemoryM α) : EStateM Fault Context α :=
  focus Context.localVM (fun localVM c => { c with localVM }) Memory.vacant x

/-- A context without storage, which stands in for a context that is being worked on. -/
def vacant : Context := ⟨0, .free, Memory.vacant, StackSet.vacant, Object.null, none, none⟩

/-- Collects the local memory, with the stacks as roots. -/
def collectLocal : EStateM Fault Context Nat := do
  let roots := (← get).stackSet.roots
  onLocalVM (Memory.collect roots true false)

/-- The name of a context in messages. -/
def label (c : Context) : String := "ctx" ++ toString c.id

end Context

end PostScriptCore
