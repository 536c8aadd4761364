import PostScriptCore.Operator.Pattern
import PostScriptCore.Stack

/-!
# Operator signatures

A signature pairs a pattern for each operand with the native that handles such operands.  It is kept
in storage as sixteen bytes: eight pattern codes, the number of operands, the number of results, the
code of a quick check, a reserved byte and the number of the native.

* `QuickCheck` — precomputed checks for the most common patterns.
* `Signature` — the record, with `Signature.encode` and `Signature.decode`.
* `Signature.fits` — how a signature relates to an operand stack.
* `Signature.promote` — turns operands into what the native expects.
-/

namespace PostScriptCore

/-- The most operands a signature can have. -/
abbrev maxArity : Nat := 8

/-- Bytes of a stored signature. -/
abbrev signatureSize : Nat := 16

/-! ## Quick checks -/

/-- A check for a common pattern. -/
inductive QuickCheck
  | none
  | any1
  | any2
  | int2
  | float2
  | proc1
  deriving DecidableEq

namespace QuickCheck

/-- The code of a check. -/
def code : QuickCheck → UInt8
  | none => 0
  | any1 => 1
  | any2 => 2
  | int2 => 3
  | float2 => 4
  | proc1 => 5

/-- The check with a code; unknown codes stand for no check. -/
def ofCode (code : UInt8) : QuickCheck :=
  match code.toNat with
  | 1 => any1
  | 2 => any2
  | 3 => int2
  | 4 => float2
  | 5 => proc1
  | _ => none

/-- The check that decides a pattern, if there is one. -/
def ofPatterns : List Pattern → QuickCheck
  | [.any] => any1
  | [.any, .any] => any2
  | [.type .integer, .type .integer] => int2
  | [.float, .float] => float2
  | [.proc] => proc1
  | _ => none

/-- Whether the top of the stack passes.  `none` never does. -/
def passes (check : QuickCheck) (operands : Stack) : Bool :=
  match check, operands.fromTop? 0, operands.fromTop? 1 with
  | any1, some _, _ => true
  | any2, some _, some _ => true
  | int2, some a, some b => a.ty == .integer && b.ty == .integer
  | proc1, some a, _ => a.isProc
  | float2, some a, some b => a.ty.isNumber && b.ty.isNumber
  | _, _, _ => false

end QuickCheck

/-! ## Signatures -/

/-- A signature as it is stored. -/
structure Signature where
  /-- Pattern codes, the deepest operand first. -/
  codes : List UInt8
  inArity : UInt8
  outArity : UInt8
  quick : UInt8
  /-- The native's number. -/
  native : Nat
  deriving DecidableEq

/-- How a signature relates to an operand stack. -/
inductive SignatureFit
  | full
  /-- There are fewer operands than the signature takes. -/
  | short
  | mistyped
  deriving DecidableEq

namespace Signature

/-- A signature for patterns and a native. -/
def ofPatterns (patterns : List Pattern) (outArity native : Nat) : Signature where
  codes :=
    patterns.map Pattern.encode ++ List.replicate (maxArity - patterns.length) Pattern.unused
  inArity := UInt8.ofNat patterns.length
  outArity := UInt8.ofNat outArity
  quick := (QuickCheck.ofPatterns patterns).code
  native

/-- The stored form. -/
def encode (s : Signature) : List UInt8 :=
  s.codes ++ [s.inArity, s.outArity, s.quick, 0] ++ wordBytes s.native

/-- The signature in sixteen bytes. -/
def decode (bytes : List UInt8) : Signature where
  codes := bytes.take maxArity
  inArity := bytes.getD 8 0
  outArity := bytes.getD 9 0
  quick := bytes.getD 10 0
  native := wordOfBytes ((bytes.drop 12).take 4)

/-- The pattern of an operand, the deepest one being number 0. -/
def pattern? (s : Signature) (index : Nat) : Option Pattern :=
  if index < s.inArity.toNat then s.codes[index]?.bind Pattern.decode? else none

/-- Whether the operand at a depth meets its pattern. -/
def acceptsAt (s : Signature) (operands : Stack) (depth : Nat) : Bool :=
  match operands.fromTop? depth, s.pattern? (s.inArity.toNat - 1 - depth) with
  | some obj, some pattern => pattern.accepts obj
  | _, _ => false

/-- How the signature relates to an operand stack. -/
def fits (s : Signature) (operands : Stack) : SignatureFit :=
  if operands.count < s.inArity.toNat then .short
  else if (List.range s.inArity.toNat).all (s.acceptsAt operands) then .full
  else .mistyped

/-- Whether the signature is chosen: its quick check passes or its patterns fit. -/
def isChosen (s : Signature) (operands : Stack) : Bool :=
  (QuickCheck.ofCode s.quick).passes operands || s.fits operands == .full

/-- Turns the operand at a depth into what the native expects. -/
def promoteAt (s : Signature) (depth : Nat) : EStateM Fault Stack Unit := fun operands =>
  match operands.fromTop? depth, s.pattern? (s.inArity.toNat - 1 - depth) with
  | some obj, some pattern =>
    if pattern.promotes obj then Stack.replaceFromTop depth obj.promoted operands
    else .ok () operands
  | _, _ => .ok () operands

/-- Turns the operands at the given depths into what the native expects. -/
def promoteEach (s : Signature) : List Nat → EStateM Fault Stack Unit
  | [] => pure ()
  | depth :: rest => do
    s.promoteAt depth
    promoteEach s rest

/-- Turns all operands into what the native expects. -/
def promote (s : Signature) : EStateM Fault Stack Unit :=
  s.promoteEach (List.range s.inArity.toNat)

/-- The patterns from position 0 on, up to and including the one after the last. -/
def listing (s : Signature) : List (Option Pattern) :=
  (List.range (s.inArity.toNat + 1)).map s.pattern?

end Signature

end PostScriptCore
