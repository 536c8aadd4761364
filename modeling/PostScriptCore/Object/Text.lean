import PostScriptCore.Object.Basic
import PostScriptCore.Real.Text

/-!
# Text of objects

* `Object.text` — the short form a program prints for an object whose contents are not looked up.
* `Object.inspect` — the long form, which names every field that differs from a fresh object.
-/

namespace PostScriptCore

/-- The type as it appears in the long form. -/
def ObjectType.label : ObjectType → String
  | null => "Null"
  | integer => "Integer"
  | real => "Real"
  | boolean => "Boolean"
  | mark => "Mark"
  | operator => "Operator"
  | context => "Context"
  | name => "Name"
  | save => "Save"
  | string => "String"
  | array => "Array"
  | dict => "Dict"
  | file => "File"

/-- The access level as it appears in the long form. -/
def Access.label : Access → String
  | unlimited => "Unlimited"
  | readOnly => "ReadOnly"
  | executeOnly => "ExecuteOnly"
  | none => "None"

/-- The bank as it appears in the long form. -/
def Bank.label : Bank → String
  | localVM => "Local"
  | globalVM => "Global"

/-- A record in the long form: its name and its fields. -/
def recordText (title : String) (fields : List (String × String)) : String :=
  let body := fields.map fun field => field.1 ++ ": " ++ field.2
  title ++ " \x7b " ++ ", ".intercalate body ++ " \x7d"

namespace Object

/-- The short form. -/
def text (obj : Object) : String :=
  match obj.ty with
  | .null => "null"
  | .integer => toString obj.signedValue
  | .real => Real.Single.text obj.value
  | .boolean => if obj.value = 0 then "false" else "true"
  | .mark => "-mark-"
  | .operator => "--op" ++ toString obj.value.toNat ++ "--"
  | .context => "-context" ++ toString obj.value.toNat ++ "-"
  | .name => (if obj.executable then "name" else "/name") ++ toString obj.value.toNat
  | .save => "-save" ++ toString obj.value.toNat ++ "-"
  | .string => "-string-"
  | .array => if obj.executable then "-proc-" else "-array-"
  | .dict => "-dict-"
  | .file => "-file-"

/-- The long form. -/
def inspect (obj : Object) : String :=
  recordText "Object" <|
    [("ty", obj.ty.label)] ++
    (if obj.executable then [("exec", "true")] else []) ++
    (if obj.access = .unlimited then [] else [("access", obj.access.label)]) ++
    if obj.isComposite then
      [("bank", obj.bank.label), ("entity", toString obj.value.toNat),
        ("offset", toString obj.offset.toNat), ("length", toString obj.length.toNat)]
    else [("value", obj.text)]

end Object

end PostScriptCore
