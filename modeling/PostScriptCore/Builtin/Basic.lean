import PostScriptCore.Builtin.Access
import PostScriptCore.Builtin.Arithmetic
import PostScriptCore.Builtin.Concurrency
import PostScriptCore.Builtin.Print
import PostScriptCore.Builtin.Stack
import PostScriptCore.Builtin.Storage

/-!
# The built-in operators

* `Builtin` — the natives behind the built-in operators.
* `Builtin.arity`, `Builtin.run` — what they take and do.
* `OperatorDef`, `builtinDefs` — under which names and signatures they are registered, in order.
-/

namespace PostScriptCore

/-- The natives behind the built-in operators. -/
inductive Builtin
  | pop
  | exch
  | dup
  | clear
  | count
  | mark
  | clearToMark
  | countToMark
  | index
  | intAdd
  | realAdd
  | intSub
  | realSub
  | intMul
  | realMul
  | intNeg
  | realNeg
  | cvlit
  | cvx
  | xcheck
  | executeOnly
  | noAccess
  | readOnly
  | rcheck
  | wcheck
  | save
  | restore
  | vmStatus
  | vmReclaim
  | fork
  | join
  | yield
  | detach
  | currentContext
  | zombie
  | free
  | print
  deriving DecidableEq

namespace Builtin

/-- How many operands a native takes. -/
def arity : Builtin → Nat
  | .clear | .count | .mark | .clearToMark | .countToMark | .save | .vmStatus | .yield
  | .currentContext | .zombie | .free => 0
  | .exch | .intAdd | .realAdd | .intSub | .realSub | .intMul | .realMul => 2
  | _ => 1

/-- The body of a native, on its operands.  Dispatch hands over as many as `arity` says. -/
def run {ν : Type} : Builtin → List Object → Action ν Unit
  | .pop, [_] => pure ()
  | .exch, [x, y] => Action.pushAll [y, x]
  | .dup, [x] => Action.pushAll [x, x]
  | .clear, [] => Action.clear
  | .count, [] => Action.count
  | .mark, [] => Session.push Object.mark
  | .clearToMark, [] => Action.clearToMark
  | .countToMark, [] => Action.countToMark
  | .index, [n] => Action.index n
  | .intAdd, [x, y] => Action.intBinary (· + ·) x y
  | .realAdd, [x, y] => Action.realBinary Real.Single.add x y
  | .intSub, [x, y] => Action.intBinary (· - ·) x y
  | .realSub, [x, y] => Action.realBinary Real.Single.sub x y
  | .intMul, [x, y] => Action.intBinary (· * ·) x y
  | .realMul, [x, y] => Action.realBinary Real.Single.mul x y
  | .intNeg, [x] => Action.intNeg x
  | .realNeg, [x] => Action.realNeg x
  | .cvlit, [x] => Session.push x.cvlit
  | .cvx, [x] => Session.push x.cvx
  | .xcheck, [x] => Session.push (Object.boolean x.executable)
  | .executeOnly, [x] => Action.lower .executeOnly x
  | .noAccess, [x] => Action.lower .none x
  | .readOnly, [x] => Action.lower .readOnly x
  | .rcheck, [x] => Action.onComposite (fun obj => Object.boolean obj.rcheck) x
  | .wcheck, [x] => Action.onComposite (fun obj => Object.boolean obj.wcheck) x
  | .save, [] => Action.save
  | .restore, [x] => Action.restore x
  | .vmStatus, [] => Action.vmStatus
  | .vmReclaim, [x] => Action.vmReclaim x
  | .fork, [x] => Action.fork x
  | .join, [x] => Action.join x
  | .yield, [] => throw .contextSwitch
  | .detach, [x] => Action.detach x
  | .currentContext, [] => Action.currentContext
  | .zombie, [] => Action.finish .zombie
  | .free, [] => Action.finish .free
  | .print, [x] => Action.print x
  | _, _ => throw .invalidSignature

end Builtin

/-- The built-in natives on their own: none of them dispatches in turn. -/
instance : NativeSet Builtin where
  arity := Builtin.arity
  run native _ args := native.run args

/-! ## Definitions -/

/-- One signature of an operator. -/
structure OperatorDef (ν : Type) where
  name : String
  native : ν
  outArity : Nat
  patterns : List Pattern

/-- The built-in operators.  Definitions of one name are tried in this order. -/
def builtinDefs : List (OperatorDef Builtin) :=
  let int : Pattern := .type .integer
  [ ⟨"pop", .pop, 0, [.any]⟩,
    ⟨"exch", .exch, 2, [.any, .any]⟩,
    ⟨"dup", .dup, 2, [.any]⟩,
    ⟨"clear", .clear, 0, []⟩,
    ⟨"count", .count, 1, []⟩,
    ⟨"mark", .mark, 1, []⟩,
    ⟨"cleartomark", .clearToMark, 0, []⟩,
    ⟨"counttomark", .countToMark, 1, []⟩,
    ⟨"index", .index, 1, [int]⟩,
    ⟨"add", .intAdd, 1, [int, int]⟩,
    ⟨"add", .realAdd, 1, [.float, .float]⟩,
    ⟨"sub", .intSub, 1, [int, int]⟩,
    ⟨"sub", .realSub, 1, [.float, .float]⟩,
    ⟨"mul", .intMul, 1, [int, int]⟩,
    ⟨"mul", .realMul, 1, [.float, .float]⟩,
    ⟨"neg", .intNeg, 1, [int]⟩,
    ⟨"neg", .realNeg, 1, [.float]⟩,
    ⟨"cvlit", .cvlit, 1, [.any]⟩,
    ⟨"cvx", .cvx, 1, [.any]⟩,
    ⟨"xcheck", .xcheck, 1, [.any]⟩,
    ⟨"executeonly", .executeOnly, 1, [.any]⟩,
    ⟨"noaccess", .noAccess, 1, [.any]⟩,
    ⟨"readonly", .readOnly, 1, [.any]⟩,
    ⟨"rcheck", .rcheck, 1, [.any]⟩,
    ⟨"wcheck", .wcheck, 1, [.any]⟩,
    ⟨"save", .save, 1, []⟩,
    ⟨"restore", .restore, 0, [.type .save]⟩,
    ⟨"vmstatus", .vmStatus, 3, []⟩,
    ⟨"vmreclaim", .vmReclaim, 0, [int]⟩,
    ⟨"fork", .fork, 1, [.proc]⟩,
    ⟨"join", .join, 0, [.type .context]⟩,
    ⟨"yield", .yield, 0, []⟩,
    ⟨"detach", .detach, 0, [.type .context]⟩,
    ⟨"currentcontext", .currentContext, 1, []⟩,
    ⟨".zombie", .zombie, 0, []⟩,
    ⟨".free", .free, 0, []⟩,
    ⟨"==", .print, 0, [.any]⟩ ]

end PostScriptCore
