import PostScriptCore.Proofs.Memory.Following
import PostScriptCore.Transfer

/-!
# What receiving copies does to a memory

The target of a transfer allocates entities and writes to them, and nothing else happens to it.  So a relation that
holds from one end of these steps to the other holds from one end of a transfer to the other, however much of it
succeeds.

* `Transfer.OnTarget` — a relation between memories, for transfers with their targets.
* `Transfer.follows_copyAll` — copying stays in each relation that allows it.
-/

namespace PostScriptCore.Transfer

variable {α : Type} {R : Memory → Memory → Prop}

/-- The targets are related, whatever has been copied. -/
def OnTarget (R : Memory → Memory → Prop) (s t : Transfer × Memory) : Prop := R s.2 t.2

instance [Std.Refl R] : Std.Refl (OnTarget R) where
  refl s := Std.Refl.refl s.2

instance [IsTrans Memory R] : IsTrans (Transfer × Memory) (OnTarget R) where
  trans s t u h h' := IsTrans.trans s.2 t.2 u.2 h h'

lemma follows_onTarget {x : MemoryM α} (hx : Follows R x) : Follows (OnTarget R) (onTarget x) :=
  fun s => Ends.focus (hx s.2)

lemma follows_modifyTransfer [Std.Refl R] (f : Transfer → Transfer) : Follows (OnTarget R) (modifyTransfer f) :=
  .modify fun s => Std.Refl.refl s.2

section Copying

variable [Memory.AllowsCopies R] (source : Memory)

lemma follows_fill (old fresh : Nat) (row : Row) : Follows (OnTarget R) (fill source old fresh row) := by
  refine .ite (.bind (.query _) fun slot => .bind (.query _) fun handle => ?_)
    (.ite (.bind (.query _) fun bytes => ?_) (.pure _))
  · exact .bind (follows_onTarget fun m => Memory.AllowsCopies.insert m handle) fun slot =>
      follows_onTarget (Memory.AllowsCopies.put fresh 0 _)
  · exact follows_onTarget (Memory.AllowsCopies.put fresh 0 bytes)

lemma follows_mapEntity (old : Nat) : Follows (OnTarget R) (mapEntity source old) := by
  refine .bind .get fun s => ?_
  split
  · exact .pure _
  · refine .bind (.query _) fun row => ?_
    refine .bind (follows_onTarget (Memory.AllowsCopies.allocate row.size row.tag)) fun fresh => ?_
    exact .bind (follows_fill source old fresh row) fun _ => .bind (follows_modifyTransfer _) fun _ => .pure _

lemma follows_mapObject (obj : Object) : Follows (OnTarget R) (mapObject source obj) := by
  rw [mapObject]
  split
  · exact .pure _
  · exact .ite (.pure _) (.bind (follows_mapEntity source _) fun _ => .pure _)

lemma follows_redirectSlots (fresh : Nat) (offsets : List Nat) :
    Follows (OnTarget R) (redirectSlots source fresh offsets) := by
  induction offsets with
  | nil => exact .pure _
  | cons offset rest ih =>
      refine .bind (.query _) fun slot => .ite (.bind (follows_mapObject source slot) fun image => ?_) ih
      exact .bind (follows_onTarget (Memory.AllowsCopies.put fresh offset image.encode)) fun _ => ih

lemma follows_drain (steps : Nat) : Follows (OnTarget R) (drain source steps) := by
  induction steps with
  | zero => exact .pure _
  | succ steps ih =>
      refine .bind .get fun s => ?_
      split
      · exact .pure _
      · exact .bind (follows_modifyTransfer _) fun _ => .bind (.query _) fun _ =>
          .bind (follows_redirectSlots source _ _) fun _ => ih

lemma follows_copy (obj : Object) : Follows (OnTarget R) (copy source obj) :=
  .bind (follows_mapObject source obj) fun _ => .bind .get fun _ => .bind (follows_drain source _) fun _ => .pure _

/-- **Receiving copies** is a sequence of allocations and writes. -/
lemma follows_copyAll (objs : List Object) : Follows (OnTarget R) (copyAll source objs) := by
  induction objs with
  | nil => exact .pure _
  | cons obj rest ih => exact .bind (follows_copy source obj) fun _ => .bind ih fun _ => .pure _

end Copying

end PostScriptCore.Transfer
