import PostScriptCore.Machine.Start

/-!
# Operators a host can add

A host may register natives of its own beside the built-in ones.  These give programs access to the
elements of composites, to the dictionary stack and to conditional execution, and there is a family
that only shows how dispatch treats arguments, failures and control signals.

* `HostOperator` — the natives, the built-in ones included.
* `HostOperator.run` — what they do.
* `HostOperator.ofName?` — the natives by name.
-/

namespace PostScriptCore

namespace Action

variable {ν : Type}

/-- `n` bytes that run through the alphabet again and again. -/
def alphabet (n : Nat) : List UInt8 := (List.range n).map fun i => UInt8.ofNat (97 + i % 26)

/-- A count or an index: an integer that is not negative. -/
def natural (obj : Object) : Action ν Nat :=
  match obj.asInt? with
  | some z => if z < 0 then throw .rangeCheck else pure z.toNat
  | none => throw .rangeCheck

/-- Pushes a composite made in the local memory; the stacks are the roots. -/
def makeLocal (n : Object) (make : Nat → List Object → MemoryM Object) : Action ν Unit := do
  let n ← natural n
  let roots := (← get).context.stackSet.roots
  let obj ← Session.onLocalVM (make n roots)
  Session.push obj

/-- Pushes an array made in the global memory; the objects of all contexts are the roots. -/
def makeGlobal (n : Object) : Action ν Unit := do
  let n ← natural n
  let s ← get
  let roots := s.context.roots ++ s.scheduler.roots
  let obj ← Session.onGlobalVM (Memory.newArray n roots)
  Session.push obj

/-- Pushes the value under a key, or the element at an index. -/
def fetch (obj key : Object) : Action ν Unit := do
  if obj.ty = .dict then
    let value ← query fun s => (s.memory obj.bank).dictGet? obj key
    Session.push (value.getD Object.null)
  else
    let index ← natural key
    let value ← query fun s => (s.memory obj.bank).arrayGet obj index
    Session.push value

/-- Stores a value under a key, or at an index. -/
def store (obj key value : Object) : Action ν Unit := do
  if obj.ty = .dict then Session.onBank obj.bank (Memory.dictPut obj key value)
  else
    let index ← natural key
    Session.onBank obj.bank (Memory.arrayPut obj index value)

/-- Pushes a narrower view of a composite. -/
def narrow (obj first count : Object) : Action ν Unit := do
  let first ← natural first
  let count ← natural count
  let stride := if obj.ty = .array then objectSize else 1
  let view ← query fun _ => obj.interval first count stride
  Session.push view

/-- Executes a procedure if a truth value says so. -/
def executeIf (condition proc : Object) : Action ν Unit :=
  match condition.asBool? with
  | none => throw .typeCheck
  | some true => Session.onExec (Stack.push proc)
  | some false => pure ()

/-- Pushes the name of an object's type. -/
def pushTypeName (obj : Object) : Action ν Unit := do
  let id ← Session.intern obj.ty.typeName
  Session.push (Object.executableName id)

/-- Pushes the operands and dispatches an operator on them. -/
def dispatchOn (call : Nat → Action ν Unit) (operator : String) (args : List Object) :
    Action ν Unit := do
  pushAll args
  match (← get).toMachine.opcode? operator with
  | some opcode => call opcode
  | none => throw .unregistered

/-- Takes a further operand from the stack and pushes both. -/
def takeAnother (a : Object) : Action ν Unit := do
  let b ← Session.onOperands (Stack.popOr .stackUnderflow)
  pushAll [a, b]

/-- Removes the topmost dictionary from the dictionary stack. -/
def leaveDict : Action ν Unit := discard <| Session.onDicts (Stack.popOr .dictStackUnderflow)

end Action

/-- Natives of a host. -/
inductive HostOperator
  | builtin (native : Builtin)
  /-- Pushes its arguments back in order. -/
  | echo (arity : Nat)
  /-- Pushes its arguments back in reverse order. -/
  | reversed (arity : Nat)
  /-- Fails with a `rangecheck`. -/
  | failing (arity : Nat)
  /-- Asks to run another context. -/
  | switching (arity : Nat)
  /-- Reports that it waits for input or output. -/
  | blocked
  /-- Hands control to the caller of the machine. -/
  | yielding
  /-- Pushes its first argument and then fails. -/
  | halfway
  /-- Takes one operand more than its signature says. -/
  | popMore
  /-- Dispatches `add` on its arguments. -/
  | nested
  | makeString
  | makeArray
  | makeDict
  | makeGlobalArray
  | fetch
  | store
  | getInterval
  | beginDict
  | endDict
  | exec
  | conditional
  | typeOf
  deriving DecidableEq

namespace HostOperator

/-- How many operands a native takes. -/
def arity : HostOperator → Nat
  | builtin native => native.arity
  | echo n | reversed n | failing n | switching n => n
  | endDict => 0
  | blocked | yielding | popMore | makeString | makeArray | makeDict | makeGlobalArray
  | beginDict | exec | typeOf => 1
  | halfway | nested | fetch | conditional => 2
  | store | getInterval => 3

/-- The natives without a choice of arity, by name. -/
def named : List (String × HostOperator) :=
  [("blocked", blocked), ("ycaller", yielding), ("halfway", halfway), ("popmore", popMore),
    ("nested", nested), ("mkstr", makeString), ("mkarr", makeArray), ("mkdict", makeDict),
    ("gmkarr", makeGlobalArray), ("get", fetch), ("put", store), ("getinterval", getInterval),
    ("begin", beginDict), ("end", endDict), ("exec", exec), ("if", conditional), ("type", typeOf)]

/-- The natives that exist for every arity, by name. -/
def families : List (String × HostOperator) :=
  (List.range (maxArity + 1)).flatMap fun n =>
    [("echo" ++ toString n, echo n), ("rev" ++ toString n, reversed n),
      ("fail" ++ toString n, failing n), ("switch" ++ toString n, switching n)]

/-- The native with a name. -/
def ofName? (name : String) : Option HostOperator := (named ++ families).lookup name

/-- The body of a native, on its operands. -/
def run {ν : Type} (call : Nat → Action ν Unit) : HostOperator → List Object → Action ν Unit
  | builtin native, args => native.run args
  | echo _, args => Action.pushAll args
  | reversed _, args => Action.pushAll args.reverse
  | failing _, _ => throw .rangeCheck
  | switching _, _ => throw .contextSwitch
  | blocked, _ => throw .blockedIo
  | yielding, _ => throw .yieldToCaller
  | halfway, [a, _] => do
    Session.push a
    throw .limitCheck
  | popMore, [a] => Action.takeAnother a
  | nested, [a, b] => Action.dispatchOn call "add" [a, b]
  | makeString, [n] =>
    Action.makeLocal n fun n roots => Memory.newStringOf n (fun _ => Action.alphabet n) roots
  | makeArray, [n] => Action.makeLocal n Memory.newArray
  | makeDict, [n] => Action.makeLocal n Memory.newDict
  | makeGlobalArray, [n] => Action.makeGlobal n
  | fetch, [obj, key] => Action.fetch obj key
  | store, [obj, key, value] => Action.store obj key value
  | getInterval, [obj, first, count] => Action.narrow obj first count
  | beginDict, [dict] => Session.onDicts (Stack.push dict)
  | endDict, [] => Action.leaveDict
  | exec, [obj] => Session.onExec (Stack.push obj)
  | conditional, [condition, proc] => Action.executeIf condition proc
  | typeOf, [obj] => Action.pushTypeName obj
  | _, _ => throw .invalidSignature

end HostOperator

instance : NativeSet HostOperator where
  arity := HostOperator.arity
  run native call args := native.run call args

end PostScriptCore
