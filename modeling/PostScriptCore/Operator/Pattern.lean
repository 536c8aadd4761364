import PostScriptCore.Object.Text

/-!
# Operand patterns

A signature says of each operand what it has to be.

* `Pattern` — the conditions, with their one-byte codes.
* `Pattern.accepts` — whether an object meets the condition.
* `Pattern.promotes` — whether an accepted object is turned into a real first.
-/

namespace PostScriptCore

/-- A condition on one operand. -/
inductive Pattern
  /-- Objects of one type. -/
  | type (ty : ObjectType)
  | any
  /-- Integers and reals, left as they are. -/
  | number
  /-- Integers and reals, integers being turned into reals. -/
  | float
  /-- Executable arrays. -/
  | proc
  deriving DecidableEq

namespace Pattern

/-- The code of a pattern; a type is its own code. -/
def encode : Pattern → UInt8
  | type ty => ty.code
  | any => 0xf0
  | number => 0xf1
  | float => 0xf2
  | proc => 0xf3

/-- The code of a position that a signature does not use. -/
abbrev unused : UInt8 := 0xff

/-- The pattern with a code. -/
def decode? (code : UInt8) : Option Pattern :=
  if code = 0xf0 then some any
  else if code = 0xf1 then some number
  else if code = 0xf2 then some float
  else if code = 0xf3 then some proc
  else (ObjectType.ofCode? code).map type

/-- Whether an object meets the condition. -/
def accepts (p : Pattern) (obj : Object) : Bool :=
  match p with
  | type ty => obj.ty == ty
  | any => true
  | number | float => obj.ty.isNumber
  | proc => obj.isProc

/-- Whether an accepted object becomes a real. -/
def promotes (p : Pattern) (obj : Object) : Bool := p == .float && obj.ty == .integer

/-- The pattern as it appears in listings. -/
def label : Pattern → String
  | type ty => "Type(" ++ ty.label ++ ")"
  | any => "Any"
  | number => "Number"
  | float => "Float"
  | proc => "Proc"

end Pattern

end PostScriptCore
