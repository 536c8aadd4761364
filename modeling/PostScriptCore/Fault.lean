/-!
# Faults

Every way in which an operation of the machine can stop short of its result.  Control signals
travel through the same channel, so that a native operator can hand control away in the same way in
which it fails; `Fault.isControl` tells them apart.

* `Fault` — the causes.
* `Fault.message` — the sentence shown to a person.
* `Fault.errorName` — the name pushed on the operand stack of a failing context.
* `Fault.group`, `Fault.isControl` — the broad grouping.
* `Fault.label`, `Fault.ofLabel?` — the constructor by name.
-/

namespace PostScriptCore

/-- Broad grouping of faults.  `control` is no failure: someone else has to run now. -/
inductive FaultGroup
  | allocation
  | stack
  | dispatch
  | resource
  | invariant
  | control
  deriving DecidableEq

/-- The group's name, for listings. -/
def FaultGroup.label : FaultGroup → String
  | allocation => "Allocation"
  | stack => "Stack"
  | dispatch => "Dispatch"
  | resource => "Resource"
  | invariant => "Invariant"
  | control => "Control"

/-- Every cause for which an operation can stop. -/
inductive Fault
  | vmFull
  | rangeCheck
  | limitCheck
  | stackOverflow
  | stackUnderflow
  | execStackOverflow
  | dictStackOverflow
  | dictStackUnderflow
  | unmatchedMark
  | typeCheck
  | unregistered
  | invalidSignature
  | invalidFileAccess
  | invalidAccess
  | invalidRestore
  | invalidContext
  | uninitialized
  | invalidEntity (id : Nat)
  | contextSwitch
  | blockedIo
  | yieldToCaller
  /-- An address or a size was computed past the 32-bit range.  The machine stops; programs never see
  it. -/
  | wordOverflow
  deriving DecidableEq

namespace Fault

/-- The group a fault belongs to. -/
def group : Fault → FaultGroup
  | vmFull | rangeCheck | limitCheck => .allocation
  | stackOverflow | stackUnderflow | execStackOverflow | dictStackOverflow
  | dictStackUnderflow | unmatchedMark => .stack
  | typeCheck | unregistered | invalidSignature => .dispatch
  | invalidFileAccess | invalidAccess | invalidRestore | invalidContext => .resource
  | uninitialized | invalidEntity _ | wordOverflow => .invariant
  | contextSwitch | blockedIo | yieldToCaller => .control

/-- Whether the fault is a request to run something else rather than a failure. -/
def isControl (fault : Fault) : Bool :=
  fault.group == .control

/-- The sentence that describes the fault. -/
def message : Fault → String
  | vmFull => "VMerror"
  | rangeCheck => "rangecheck"
  | limitCheck => "limitcheck"
  | stackOverflow => "stackoverflow"
  | stackUnderflow => "stackunderflow"
  | execStackOverflow => "execstackoverflow"
  | dictStackOverflow => "dictstackoverflow"
  | dictStackUnderflow => "dictstackunderflow"
  | unmatchedMark => "unmatchedmark"
  | typeCheck => "typecheck"
  | unregistered => "unregistered"
  | invalidSignature => "invalid operator signature"
  | invalidFileAccess => "invalidfileaccess"
  | invalidAccess => "invalidaccess"
  | invalidRestore => "invalidrestore"
  | invalidContext => "invalidcontext"
  | uninitialized => "arena is not initialized"
  | invalidEntity id => "entity " ++ toString id ++ " does not exist"
  | contextSwitch => "context switch"
  | blockedIo => "blocked on i/o"
  | yieldToCaller => "yield to caller"
  | wordOverflow => "address out of the word range"

/-- The PostScript name of the fault, which a failing context finds on its operand stack. -/
def errorName : Fault → String
  | invalidSignature => "invalidsignature"
  | uninitialized | invalidEntity _ | wordOverflow => "VMerror"
  | contextSwitch => "contextswitch"
  | blockedIo => "blockedio"
  | yieldToCaller => "yield"
  | fault => fault.message

/-- The constructor of the fault, for listings. -/
def label : Fault → String
  | vmFull => "VmFull"
  | rangeCheck => "RangeCheck"
  | limitCheck => "LimitCheck"
  | stackOverflow => "StackOverflow"
  | stackUnderflow => "StackUnderflow"
  | execStackOverflow => "ExecStackOverflow"
  | dictStackOverflow => "DictStackOverflow"
  | dictStackUnderflow => "DictStackUnderflow"
  | unmatchedMark => "UnmatchedMark"
  | typeCheck => "TypeCheck"
  | unregistered => "Unregistered"
  | invalidSignature => "InvalidSignature"
  | invalidFileAccess => "InvalidFileAccess"
  | invalidAccess => "InvalidAccess"
  | invalidRestore => "InvalidRestore"
  | invalidContext => "InvalidContext"
  | uninitialized => "Uninitialized"
  | invalidEntity _ => "InvalidEntity"
  | contextSwitch => "ContextSwitch"
  | blockedIo => "BlockedIo"
  | yieldToCaller => "YieldToCaller"
  | wordOverflow => "WordOverflow"

/-- The fault with a label; `entity` is the number an invalid entity is reported with. -/
def ofLabel? (label : String) (entity : Nat) : Option Fault :=
  [vmFull, rangeCheck, limitCheck, stackOverflow, stackUnderflow, execStackOverflow,
    dictStackOverflow, dictStackUnderflow, unmatchedMark, typeCheck, unregistered,
    invalidSignature, invalidFileAccess, invalidAccess, invalidRestore, invalidContext,
    uninitialized, invalidEntity entity, contextSwitch, blockedIo, yieldToCaller].find?
    fun fault => fault.label == label

end Fault

end PostScriptCore
