import PostScriptCore.Machine.Session

/-!
# Dispatch

Dispatch picks the first signature of an operator that the operands fit, moves the operands to the
hold stack and runs the native.  After a failure the held operands stay there, so that the failing
context can give them back; otherwise they are dropped.

* `Session.takeOperands` — pops operands, the deepest first in the result.
* `Session.invoke` — runs the native of a chosen signature.
* `Session.dispatch` — a whole dispatch.
-/

namespace PostScriptCore.Session

variable {ν : Type}

/-- Pops `n` operands; the deepest comes first. -/
def takeOperands : Nat → EStateM Fault Stack (List Object)
  | 0 => pure []
  | n + 1 => do
    let obj ← Stack.popOr .stackUnderflow
    let deeper ← takeOperands n
    return deeper ++ [obj]

/-- Refuses a signature whose results would not fit on the operand stack, or whose arguments would
not fit on the hold stack. -/
def checkRoom (s : Session ν) (signature : Signature) : Except Fault Unit :=
  let stackSet := s.context.stackSet
  let need := signature.inArity.toNat
  if stackSet.operands.limit < stackSet.operands.count - need + signature.outArity.toNat then
    .error .stackOverflow
  else if stackSet.hold.limit < stackSet.hold.count + need then .error .limitCheck
  else .ok ()

/-- Runs `body` and drops the `need` held arguments, unless it fails and they are to be given
back. -/
def releasingHold (need : Nat) (body : Action ν Unit) : Action ν Unit := fun s =>
  match body s with
  | .ok _ s => onHold (Stack.drop need) s
  | .error fault s =>
    if !fault.isControl && s.context.restoreArity.isSome then .error fault s
    else
      match onHold (Stack.drop need) s with
      | .ok _ s => .error fault s
      | .error fault s => .error fault s

/-- Moves the operands of a signature to the hold stack.  They are to be given back after a failure
only if the operator is the object being executed. -/
def holdOperands (opcode : Nat) (signature : Signature) : Action ν (List Object) := do
  let need := signature.inArity.toNat
  onOperands signature.promote
  let args ← onOperands (takeOperands need)
  onHold (Stack.pushAll args)
  modifyContext fun c =>
    { c with restoreArity := if c.current.asOpcode? = some opcode then some need else none }
  return args

/-- Runs the native of a chosen signature. -/
def invoke [NativeSet ν] (call : Nat → Action ν Unit) (opcode : Nat) (signature : Signature) :
    Action ν Unit := do
  query fun s => s.checkRoom signature
  let args ← holdOperands opcode signature
  match (← get).operators.natives[signature.native]? with
  | none => throw .unregistered
  | some native => releasingHold signature.inArity.toNat (NativeSet.run native call args)

/-- Dispatches an operator; natives may dispatch in turn, `depth` levels deep. -/
def dispatchNested [NativeSet ν] : Nat → Nat → Action ν Unit
  | 0, _ => throw .limitCheck
  | depth + 1, opcode => do
    modifyContext fun c => { c with restoreArity := none }
    let signature ← query fun s =>
      s.operators.select s.globalVM s.context.stackSet.operands opcode
    invoke (dispatchNested depth) opcode signature

/-- Dispatches an operator on the operand stack.  A native that dispatches in turn keeps its own
arguments on the hold stack, so the room there bounds the nesting. -/
def dispatch [NativeSet ν] (opcode : Nat) : Action ν Unit := do
  let depth := (← get).context.stackSet.hold.limit + 1
  dispatchNested depth opcode

end PostScriptCore.Session
