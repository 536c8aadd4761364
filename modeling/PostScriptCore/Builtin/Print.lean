import PostScriptCore.Machine.Session
import PostScriptCore.Memory.Composite
import PostScriptCore.Utf8

/-!
# Printing

The operator `==` writes an object in a form close to how a program would spell it: names without
their numbers, strings in parentheses, arrays with their elements.  Arrays inside arrays are spelled
out to a depth of eight.
-/

namespace PostScriptCore.Action

variable {ν : Type}

/-- How deep nested arrays are spelled out. -/
abbrev printDepth : Nat := 8

/-- The text of an interned name. -/
def nameText? (s : Session ν) (id : Option Nat) : Option String := id.bind s.names.resolve?

/-- The name of an operator object. -/
def operatorName? (s : Session ν) (obj : Object) : Option String :=
  match obj.asOpcode? with
  | none => none
  | some opcode =>
    match s.operators.nameOf s.globalVM opcode with
    | .ok id => s.names.resolve? id
    | .error _ => none

/-- A sequence of texts between brackets. -/
def bracketed (opening closing : String) (items : List String) : String :=
  opening ++ " ".intercalate items ++ closing

/-- The text of an object, with arrays spelled out to a depth. -/
def describe (s : Session ν) : Nat → Object → String
  | depth, obj =>
    match obj.ty with
    | .name =>
      match nameText? s obj.asName? with
      | some name => if obj.executable then name else "/" ++ name
      | none => obj.text
    | .operator =>
      match operatorName? s obj with
      | some name => "--" ++ name ++ "--"
      | none => obj.text
    | .string =>
      match (s.memory obj.bank).stringBytes obj with
      | .ok bytes => "(" ++ Utf8.decodeLossy bytes ++ ")"
      | .error _ => obj.text
    | .array =>
      match depth with
      | 0 => obj.text
      | depth + 1 =>
        match (s.memory obj.bank).arrayElements obj with
        | .ok elements =>
          let items := elements.map (describe s depth)
          if obj.executable then bracketed "\x7b" "\x7d" items else bracketed "[" "]" items
        | .error _ => obj.text
    | _ => obj.text

/-- Writes the text of an object and a line break. -/
def print (obj : Object) : Action ν Unit := do
  let s ← get
  let line := describe s printDepth obj ++ "\n"
  if s.output.accepting then
    modify fun s => { s with output := { s.output with text := s.output.text ++ line } }
  else throw .invalidFileAccess

end PostScriptCore.Action
