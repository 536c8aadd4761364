import PostScriptCore.Fault
import PostScriptCore.Word
import PostScriptCore.Real.Single

/-!
# Objects

An object is a fixed-size tagged value.  Immediate objects carry their payload in `value`;
composite objects name the entity that holds their storage in `value`, a byte offset into it in
`offset` and an element count in `length`.  All six fields are independent, because objects are also
read back from raw storage.

* `ObjectType`, `Access`, `Bank` — the tags of an object.
* `Object` and its constructors (`Object.int`, `Object.name`, `Object.composite`, …).
* `Object.asInt?`, `Object.entity?`, … — the payload, if the object has that type.
* `Object.interval` — a narrower view of the same storage.
* `Object.restrict` — access can only be lowered.
* `Object.same` — the identity that dictionary keys are compared by.
-/

namespace PostScriptCore

/-- The type of an object. -/
inductive ObjectType
  | null
  | integer
  | real
  | boolean
  | mark
  | operator
  | context
  | name
  | save
  | string
  | array
  | dict
  | file
  deriving DecidableEq

namespace ObjectType

/-- The number of the type in an encoded object. -/
def code : ObjectType → UInt8
  | null => 0
  | integer => 1
  | real => 2
  | boolean => 3
  | mark => 4
  | operator => 5
  | context => 6
  | name => 7
  | save => 8
  | string => 9
  | array => 10
  | dict => 11
  | file => 12

/-- The type with the given number. -/
def ofCode? (code : UInt8) : Option ObjectType :=
  match code.toNat with
  | 0 => some null
  | 1 => some integer
  | 2 => some real
  | 3 => some boolean
  | 4 => some mark
  | 5 => some operator
  | 6 => some context
  | 7 => some name
  | 8 => some save
  | 9 => some string
  | 10 => some array
  | 11 => some dict
  | 12 => some file
  | _ => none

/-- Composite objects refer to entity storage instead of carrying their value. -/
def isComposite : ObjectType → Bool
  | string | array | dict | file => true
  | _ => false

/-- Integers and reals. -/
def isNumber : ObjectType → Bool
  | integer | real => true
  | _ => false

/-- The name a program sees for the type. -/
def typeName : ObjectType → String
  | null => "nulltype"
  | integer => "integertype"
  | real => "realtype"
  | boolean => "booleantype"
  | mark => "marktype"
  | operator => "operatortype"
  | context => "contexttype"
  | name => "nametype"
  | save => "savetype"
  | string => "stringtype"
  | array => "arraytype"
  | dict => "dicttype"
  | file => "filetype"

/-- Reading a type number back gives the type. -/
@[simp] theorem ofCode?_code (ty : ObjectType) : ofCode? ty.code = some ty := by
  cases ty <;> rfl

end ObjectType

/-- Access level of an object. -/
inductive Access
  | unlimited
  | readOnly
  | executeOnly
  | none
  deriving DecidableEq

namespace Access

/-- The number of the level in an encoded object; zero is the level of fresh objects. -/
def code : Access → Nat
  | unlimited => 0
  | readOnly => 1
  | executeOnly => 2
  | none => 3

/-- The level named by the two low bits of a number. -/
def ofCode (code : Nat) : Access :=
  match code % 4 with
  | 0 => unlimited
  | 1 => readOnly
  | 2 => executeOnly
  | _ => none

/-- How permissive the level is. -/
def rank (access : Access) : Nat := 3 - access.code

/-- The more restrictive of two levels. -/
def loweredTo (access other : Access) : Access :=
  if other.rank < access.rank then other else access

end Access

/-- Which memory a composite object's storage lies in: the one private to a context, or the one
shared by all of them. -/
inductive Bank
  | localVM
  | globalVM
  deriving DecidableEq

/-- Bytes of an encoded object. -/
abbrev objectSize : Nat := 16

/-- A fixed-size tagged value. -/
structure Object where
  ty : ObjectType
  access : Access := .unlimited
  executable : Bool := false
  bank : Bank := .localVM
  value : UInt32 := 0
  offset : UInt32 := 0
  length : UInt32 := 0
  deriving DecidableEq

namespace Object

/-! ## Constructors -/

/-- The null object, which zeroed storage reads as. -/
def null : Object := { ty := .null }

/-- An immediate object. -/
def immediate (ty : ObjectType) (value : UInt32) : Object := { ty, value }

/-- An integer object; the integer is taken modulo the word size. -/
def int (z : Int) : Object := immediate .integer (UInt32.ofNat (z % wordBound).toNat)

/-- A real object with the given bits. -/
def real (bits : UInt32) : Object := immediate .real bits

/-- A boolean object. -/
def boolean (b : Bool) : Object := immediate .boolean (if b then 1 else 0)

/-- A mark. -/
def mark : Object := immediate .mark 0

/-- An operator object.  Operators are executable when created. -/
def operator (opcode : Nat) : Object :=
  { ty := .operator, executable := true, value := UInt32.ofNat opcode }

/-- A handle of a context. -/
def context (id : Nat) : Object := immediate .context (UInt32.ofNat id)

/-- A literal name. -/
def name (id : Nat) : Object := immediate .name (UInt32.ofNat id)

/-- An executable name. -/
def executableName (id : Nat) : Object :=
  { ty := .name, executable := true, value := UInt32.ofNat id }

/-- A save level. -/
def save (level : Nat) : Object := immediate .save (UInt32.ofNat level)

/-- A composite object. -/
def composite (ty : ObjectType) (bank : Bank) (entity offset length : Nat) : Object :=
  { ty, bank, value := UInt32.ofNat entity, offset := UInt32.ofNat offset
    length := UInt32.ofNat length }

/-! ## Attributes -/

/-- Whether the object refers to entity storage. -/
def isComposite (obj : Object) : Bool := obj.ty.isComposite

/-- An executable array. -/
def isProc (obj : Object) : Bool := obj.ty == .array && obj.executable

/-- The literal form. -/
def cvlit (obj : Object) : Object := { obj with executable := false }

/-- The executable form. -/
def cvx (obj : Object) : Object := { obj with executable := true }

/-- Lowers the access level; asking for more changes nothing. -/
def restrict (obj : Object) (access : Access) : Object :=
  { obj with access := obj.access.loweredTo access }

/-- Whether the object may be read. -/
def rcheck (obj : Object) : Bool := decide (Access.readOnly.rank ≤ obj.access.rank)

/-- Whether the object may be written. -/
def wcheck (obj : Object) : Bool := obj.access == .unlimited

/-! ## Payloads -/

/-- The payload as a signed number. -/
def signedValue (obj : Object) : Int :=
  if obj.value.toNat < 2147483648 then (obj.value.toNat : Int)
  else (obj.value.toNat : Int) - wordBound

/-- The payload of an object of one type. -/
def payload? {α : Type} (obj : Object) (ty : ObjectType) (value : α) : Option α :=
  if obj.ty = ty then some value else none

/-- The integer. -/
def asInt? (obj : Object) : Option Int := obj.payload? .integer obj.signedValue

/-- The bits of the real. -/
def asReal? (obj : Object) : Option UInt32 := obj.payload? .real obj.value

/-- The truth value; every payload but zero is true. -/
def asBool? (obj : Object) : Option Bool := obj.payload? .boolean (obj.value != 0)

/-- The opcode. -/
def asOpcode? (obj : Object) : Option Nat := obj.payload? .operator obj.value.toNat

/-- The context number. -/
def asContext? (obj : Object) : Option Nat := obj.payload? .context obj.value.toNat

/-- The name number. -/
def asName? (obj : Object) : Option Nat := obj.payload? .name obj.value.toNat

/-- The save level. -/
def asSave? (obj : Object) : Option Nat := obj.payload? .save obj.value.toNat

/-- The entity of a composite. -/
def entity? (obj : Object) : Option Nat :=
  if obj.isComposite then some obj.value.toNat else none

/-! ## Derived objects -/

/-- The same composite narrowed to `length` elements that start `skip` elements in, where an
element is `stride` bytes wide. -/
def interval (obj : Object) (skip length stride : Nat) : Except Fault Object :=
  if obj.isComposite = true ∧ skip + length ≤ obj.length.toNat ∧
      obj.offset.toNat + skip * stride < wordBound then
    .ok { obj with
      offset := UInt32.ofNat (obj.offset.toNat + skip * stride)
      length := UInt32.ofNat length }
  else .error .rangeCheck

/-- The same view of a different entity. -/
def rebased (obj : Object) (entity : Nat) : Object :=
  { obj with value := UInt32.ofNat entity }

/-- An integer becomes the nearest real; everything else is left alone. -/
def promoted (obj : Object) : Object :=
  match obj.asInt? with
  | some z => { obj with ty := .real, value := Real.Single.ofInt z }
  | none => obj

/-- Identity of dictionary keys: type and payload, whatever the attributes. -/
def same (obj other : Object) : Bool :=
  obj.ty == other.ty && obj.value == other.value && obj.offset == other.offset &&
    obj.length == other.length

end Object

end PostScriptCore
