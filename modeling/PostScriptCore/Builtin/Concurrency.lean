import PostScriptCore.Machine.Session
import PostScriptCore.Transfer

/-!
# Context operators

`fork`, `join`, `yield`, `detach`, `currentcontext` and the two operators at the bottom of a
context's execution stack that end it.  Whatever needs another context to make progress reports a
context switch and leaves the rest to the scheduler.
-/

namespace PostScriptCore.Action

variable {ν : Type}

/-- A context that is being filled by a transfer. -/
abbrev ReceiverM := EStateM Fault (Transfer × Context)

/-- Runs a transfer into the context's local memory. -/
@[inline] def intoLocalVM {α : Type} (x : TransferM α) : ReceiverM α :=
  focus (fun s => (s.1, s.2.localVM)) (fun part s => (part.1, { s.2 with localVM := part.2 }))
    (Transfer.empty, Memory.vacant) x

/-- Runs an operation of the context's stacks. -/
@[inline] def ontoStackSet (x : EStateM Fault StackSet Unit) : ReceiverM Unit :=
  focus Prod.snd (fun c s => (s.1, c)) Context.vacant (Context.onStackSet x)

/-- Copies objects of another local memory onto the operand stack, in order. -/
def receive (source : Memory) : List Object → ReceiverM Unit
  | [] => pure ()
  | obj :: rest => do
    let image ← intoLocalVM (Transfer.copy source obj)
    ontoStackSet (StackSet.onOperands (Stack.push image))
    receive source rest

/-- A child of a context: its operands are copies of `operands`, and it will execute a copy of
`proc` above the operator that ends it. -/
def makeChild (id : Nat) (settings : Settings) (parent : Memory) (zombie : Nat)
    (operands : List Object) (proc : Object) : Except Fault Context :=
  match Context.create id settings with
  | .error fault => .error fault
  | .ok child =>
    let filled : ReceiverM Unit := do
      receive parent operands
      let body ← intoLocalVM (Transfer.copy parent proc)
      ontoStackSet (StackSet.onExec (Stack.pushAll [Object.operator zombie, body]))
    match filled (Transfer.empty, child) with
    | .ok _ s => .ok s.2
    | .error fault _ => .error fault

/-- Starts a child on a procedure, with the operands down to the topmost mark. -/
def fork (proc : Object) : Action ν Unit := do
  let count ← query fun s => s.context.stackSet.operands.countToMark
  let id ← modifyGet fun s =>
    let (id, scheduler) := s.scheduler.allocateId
    (id, { s with scheduler })
  let child ← query fun s =>
    makeChild id s.settings s.context.localVM s.system.zombie
      (s.context.stackSet.operands.topmost count) proc
  Session.onOperands (Stack.drop (count + 1))
  Session.push (Object.context id)
  Session.modifyScheduler fun scheduler => scheduler.adopt child
  throw .contextSwitch

/-- Pushes a mark and above it copies of the operands of a finished context, which is then free. -/
def deliver (target : Context) : Action ν Unit := do
  let operands := (← get).context.stackSet.operands
  if operands.limit < operands.count + 1 + target.stackSet.operands.count then
    throw .stackOverflow
  Session.push Object.mark
  focus (fun s => (Transfer.empty, s.context)) (fun part s => { s with context := part.2 })
    (Transfer.empty, Context.vacant) (receive target.localVM target.stackSet.operands.toList)
  Session.modifyScheduler fun scheduler => scheduler.update target.id fun c =>
    { c with stackSet := { c.stackSet with operands := c.stackSet.operands.clear }, state := .free }
  Session.modifyContext fun c => { c with waitingOn := none }

/-- Waits for a context to finish: the join is put back on the execution stack, to be tried again
when the scheduler resumes the caller. -/
def waitFor (id : Nat) (handle : Object) : Action ν Unit := do
  let join := (← get).system.join
  Session.onExec (Stack.push (Object.operator join))
  Session.onExec (Stack.push handle)
  Session.modifyContext fun c => { c with state := .wait, waitingOn := some id }
  throw .contextSwitch

/-- Receives the operands of a context once it has finished. -/
def join (handle : Object) : Action ν Unit := do
  match handle.asContext? with
  | none => throw .typeCheck
  | some id =>
    match (← get).scheduler.find? id with
    | none => throw .invalidContext
    | some target =>
      match target.state with
      | .zombie => deliver target
      | .free => throw .invalidContext
      | .run | .wait => waitFor id handle

/-- What detaching does to a context: a finished one is freed, and the operator at the bottom of an
active one is exchanged for the one that frees it. -/
def detached (system : SystemOperators) (c : Context) : Except Fault Context :=
  match c.state with
  | .zombie => .ok { c with state := .free }
  | .free => .error .invalidContext
  | .run | .wait =>
    if c.stackSet.exec.fromBottom? 0 = some (Object.operator system.zombie) then
      match Stack.replaceFromBottom 0 (Object.operator system.free) c.stackSet.exec with
      | .ok _ exec => .ok { c with stackSet := { c.stackSet with exec } }
      | .error fault _ => .error fault
    else .error .invalidContext

/-- Lets a context free itself when it finishes instead of waiting for a join. -/
def detach (handle : Object) : Action ν Unit := do
  match handle.asContext? with
  | none => throw .typeCheck
  | some id =>
    let s ← get
    if id = s.context.id then
      let c ← query fun s => detached s.system s.context
      Session.modifyContext fun _ => c
    else
      match s.scheduler.find? id with
      | none => throw .invalidContext
      | some target =>
        let c ← query fun s => detached s.system target
        Session.modifyScheduler fun scheduler => scheduler.update id fun _ => c

/-- Pushes the handle of the running context. -/
def currentContext : Action ν Unit := do
  Session.push (Object.context (← get).context.id)

/-- Ends the running context in the given state. -/
def finish (state : ContextState) : Action ν Unit := do
  Session.modifyContext fun c => { c with state }
  throw .contextSwitch

end PostScriptCore.Action
