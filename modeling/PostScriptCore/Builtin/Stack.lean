import PostScriptCore.Machine.Session

/-!
# Operand stack operators

`pop`, `exch`, `dup`, `clear`, `count`, `mark`, `cleartomark`, `counttomark` and `index`.
-/

namespace PostScriptCore.Action

variable {ν : Type}

/-- The largest integer an object can hold. -/
abbrev maxInteger : Nat := 2147483647

/-- Pushes objects in order. -/
def pushAll : List Object → Action ν Unit
  | [] => pure ()
  | obj :: rest => do
    Session.push obj
    pushAll rest

/-- Pushes a count, which has to fit in an integer object. -/
def pushCount (n : Nat) : Action ν Unit :=
  if n ≤ maxInteger then Session.push (Object.int n) else throw .limitCheck

/-- Empties the operand stack. -/
def clear : Action ν Unit := Session.onOperands (modify Stack.clear)

/-- Pushes the number of operands. -/
def count : Action ν Unit := do
  pushCount (← get).context.stackSet.operands.count

/-- The distance from the top to the topmost mark. -/
def distanceToMark : Action ν Nat := query fun s => s.context.stackSet.operands.countToMark

/-- Removes the operands down to the topmost mark, and the mark. -/
def clearToMark : Action ν Unit := do
  let distance ← distanceToMark
  Session.onOperands (Stack.drop (distance + 1))

/-- Pushes the number of operands above the topmost mark. -/
def countToMark : Action ν Unit := do
  let distance ← distanceToMark
  pushCount distance

/-- Pushes a copy of the operand at a depth. -/
def index (n : Object) : Action ν Unit := do
  match n.asInt? with
  | none => throw .rangeCheck
  | some z =>
    if z < 0 then throw .rangeCheck
    match (← get).context.stackSet.operands.fromTop? z.toNat with
    | some picked => Session.push picked
    | none => throw .rangeCheck

end PostScriptCore.Action
