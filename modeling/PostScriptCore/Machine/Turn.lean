import PostScriptCore.Machine.Dispatch
import PostScriptCore.Memory.Composite

/-!
# Turns

A turn runs the objects on a context's execution stack until an operator hands control away, nothing
is left, or something fails.

* `Session.step` — runs the first element of a procedure and schedules the rest.
* `Session.execute` — runs one object.
* `Session.fail` — gives back the operands of a failed operator, reports the error and retires the
  context.
* `Session.runTurn` — a whole turn.  Programs can run for ever, so a turn gets a budget of objects.
-/

namespace PostScriptCore

/-- How a turn ended. -/
inductive Turn
  /-- An operator asked to run another context. -/
  | switched
  /-- Nothing is left on the execution stack. -/
  | finished
  | failed (fault : Fault)
  /-- The budget is used up. -/
  | unfinished
  deriving DecidableEq

namespace Session

variable {ν : Type}

/-- Runs the first element of a procedure and leaves the rest on the execution stack.  Literals and
procedures inside a procedure are data. -/
def step (proc : Object) : Action ν Unit := do
  if proc.length.toNat = 0 then return
  let first ← query fun s => (s.memory proc.bank).arrayGet proc 0
  if 1 < proc.length.toNat then
    let rest ← query fun _ => proc.interval 1 (proc.length.toNat - 1) objectSize
    onExec (Stack.push rest)
  if first.isProc || !first.executable then push first else onExec (Stack.push first)

/-- Dispatches an operator as the object being executed. -/
def runOperator [NativeSet ν] (current : Object) (opcode : Nat) : Action ν Unit := do
  modifyContext fun c => { c with current }
  dispatch opcode

/-- Runs one object. -/
def execute [NativeSet ν] (obj : Object) : Action ν Unit := do
  if !obj.executable then push obj
  else
    match obj.ty with
    | .operator => runOperator obj obj.value.toNat
    | .name =>
      match (← get).operators.lookup? obj.value.toNat with
      | some opcode => runOperator (Object.operator opcode) opcode
      | none => throw .unregistered
    | .array => step obj
    | .null => pure ()
    | _ => push obj

/-- Puts the `arity` topmost held arguments back on the operand stack, as far as there is room. -/
def giveBack (arity : Nat) (stackSet : StackSet) : StackSet :=
  match Stack.pushAll (stackSet.hold.topmost arity) stackSet.operands with
  | .ok _ operands => { stackSet with operands }
  | .error _ operands => { stackSet with operands }

/-- Gives back the operands of a failed operator, pushes the name of the error if there is room,
and retires the context. -/
def fail (fault : Fault) (s : Session ν) : Session ν :=
  let (nameId, names) := s.names.intern fault.errorName
  let stackSet := s.context.stackSet
  let stackSet :=
    match s.context.restoreArity with
    | some arity => giveBack arity stackSet
    | none => stackSet
  let operands :=
    match Stack.push (Object.name nameId) stackSet.operands with
    | .ok _ operands => operands
    | .error _ operands => operands
  let detached := stackSet.exec.fromBottom? 0 = some (Object.operator s.system.free)
  { s with
    names
    context := { s.context with
      state := if detached then .free else .zombie
      restoreArity := none
      stackSet := { stackSet with
        operands, hold := stackSet.hold.clear, exec := stackSet.exec.clear } } }

/-- Takes the next object off the execution stack. -/
def nextObject? (s : Session ν) : Option (Object × Session ν) :=
  match s.context.stackSet.exec.pop? with
  | none => none
  | some (obj, exec) =>
    let stackSet := { s.context.stackSet with exec }
    some (obj, { s with context := { s.context with stackSet } })

/-- Runs the context until it switches, runs out of work, fails, or has executed `budget`
objects. -/
def runTurn [NativeSet ν] : Nat → Session ν → Turn × Session ν
  | 0, s => (.unfinished, s)
  | budget + 1, s =>
    match s.nextObject? with
    | none => (.finished, s)
    | some (obj, s) =>
      match execute obj s with
      | .ok _ s => runTurn budget s
      | .error fault s => if fault.isControl then (.switched, s) else (.failed fault, s.fail fault)

end Session

end PostScriptCore
