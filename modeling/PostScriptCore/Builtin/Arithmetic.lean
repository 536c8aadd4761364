import PostScriptCore.Machine.Session

/-!
# Arithmetic operators

Integer operators give the exact integer where it fits in an integer object and fall back to a real
otherwise.  Real operators compute in double precision and round back.
-/

namespace PostScriptCore.Action

variable {ν : Type}

/-- The integer as an object: an integer if it fits, else the real of its double. -/
def ofExactInt (z : Int) : Object :=
  if -2147483648 ≤ z ∧ z ≤ 2147483647 then Object.int z
  else Object.real (Real.Single.ofWideInt z)

/-- An operator on two integers. -/
def intBinary (op : Int → Int → Int) (a b : Object) : Action ν Unit :=
  match a.asInt?, b.asInt? with
  | some x, some y => Session.push (ofExactInt (op x y))
  | _, _ => throw .typeCheck

/-- An operator on two reals. -/
def realBinary (op : UInt32 → UInt32 → UInt32) (a b : Object) : Action ν Unit :=
  match a.asReal?, b.asReal? with
  | some x, some y => Session.push (Object.real (op x y))
  | _, _ => throw .typeCheck

/-- Negates an integer. -/
def intNeg (a : Object) : Action ν Unit :=
  match a.asInt? with
  | some x => Session.push (ofExactInt (-x))
  | none => throw .typeCheck

/-- Negates a real. -/
def realNeg (a : Object) : Action ν Unit :=
  match a.asReal? with
  | some x => Session.push (Object.real (Real.Single.neg x))
  | none => throw .typeCheck

end PostScriptCore.Action
