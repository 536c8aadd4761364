import PostScriptCore.Machine.Session

/-!
# Attribute operators

`cvlit`, `cvx` and `xcheck` work on every object; `executeonly`, `noaccess`, `readonly`, `rcheck`
and `wcheck` only on composites.  Access is only ever lowered.
-/

namespace PostScriptCore.Action

variable {ν : Type}

/-- Pushes what becomes of a composite; any other object is refused. -/
def onComposite (f : Object → Object) (obj : Object) : Action ν Unit :=
  if obj.isComposite then Session.push (f obj) else throw .typeCheck

/-- Lowers the access of a composite. -/
def lower (access : Access) (obj : Object) : Action ν Unit :=
  onComposite (fun obj => obj.restrict access) obj

end PostScriptCore.Action
