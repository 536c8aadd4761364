import PostScriptCore.Builtin.Basic
import PostScriptCore.Proofs.Memory.Upkeep
import PostScriptCore.Proofs.Stack

/-!
# Personal operators

Most operators work on the operand stack and the local memory of the running context, or print.  They leave
the stack and the memory in order, and whatever holds from one end to the other of such steps holds for them.

* `Stack.Endures` — a stack stays in order.
* `Session.AllowsPersonal`, `Builtin.isPersonal`, `Builtin.personal_run` — the operators that do no more
  than that, and the relations that they move along.
* `Builtin.concerns` — all natives, by whom they concern.
-/

namespace PostScriptCore

/-- If the stack was in order, it still is. -/
def Stack.Endures (s t : Stack) : Prop := s.WellFormed → t.WellFormed

namespace Stack

instance : Std.Refl Endures := ⟨fun _ h => h⟩

instance : IsTrans Stack Endures := ⟨fun _ _ _ h h' hs => h' (h hs)⟩

lemma endures_push (obj : Object) : Follows Endures (push obj) := fun s =>
  Ends.mono (ends_push obj s) (fun _ _ ht => ht.2) fun _ _ ht hs => ht ▸ hs

lemma endures_pushAll (objs : List Object) : Follows Endures (pushAll objs) := by
  induction objs with
  | nil => exact .pure ()
  | cons obj rest ih => exact .bind (endures_push obj) fun _ => ih

lemma endures_drop (n : Nat) : Follows Endures (drop n) := fun s =>
  Ends.mono (ends_drop n s) (fun _ _ ht hs => (ht.2 hs).1) fun _ _ ht hs => ht ▸ hs

lemma endures_clear : Follows Endures (modify clear : EStateM Fault Stack Unit) :=
  .modify fun _ hs => (hs.shortens_setCount (Nat.zero_le _)).1.wellFormed hs

lemma endures_popOr (fault : Fault) : Follows Endures (popOr fault) := by
  intro s
  cases hpop : s.pop? with
  | none => exact Ends.of_error (by rw [popOr, hpop]) (Std.Refl.refl s)
  | some next => exact Ends.of_ok (by rw [popOr, hpop]) fun hs => (pop?_cases hs hpop).1

lemma endures_replaceFromTop (index : Nat) (obj : Object) :
    Follows Endures (replaceFromTop index obj) := by
  intro s
  by_cases hindex : index < s.count
  · cases hrun : replaceFromTop index obj s with
    | ok a t =>
        refine Ends.of_ok hrun fun hs => ?_
        obtain ⟨t', hrun', hwf, -⟩ := replaceFromTop_run hs hindex obj
        rw [hrun] at hrun'
        cases hrun'
        exact hwf
    | error fault t =>
        refine Ends.of_error hrun fun hs => ?_
        obtain ⟨t', hrun', -⟩ := replaceFromTop_run hs hindex obj
        rw [hrun] at hrun'
        contradiction
  · exact Ends.of_error (by rw [replaceFromTop, if_neg hindex]) (Std.Refl.refl s)

end Stack

/-! ## Personal natives -/

/-- Whatever works on the operands or the local memory of the running context and leaves them in order moves
along the relation, and so does a print. -/
structure Session.AllowsPersonal {ν : Type} (R : Session ν → Session ν → Prop) : Prop where
  onOperands {α : Type} {x : EStateM Fault Stack α} (hx : Follows Stack.Endures x) :
    Follows R (Session.onOperands x : Action ν α)
  onLocalVM {α : Type} {x : MemoryM α} (hx : Follows Memory.Upkept x) :
    Follows R (Session.onLocalVM x : Action ν α)
  output (s : Session ν) (output : Output) : R s { s with output }

namespace Session.AllowsPersonal

variable {ν : Type} {R : Session ν → Session ν → Prop}

lemma push (hR : AllowsPersonal R) (obj : Object) : Follows R (Session.push obj : Action ν Unit) :=
  hR.onOperands (Stack.endures_push obj)

variable [Std.Refl R]

lemma pushAll [IsTrans (Session ν) R] (hR : AllowsPersonal R) (objs : List Object) :
    Follows R (Action.pushAll objs : Action ν Unit) := by
  induction objs with
  | nil => exact .pure ()
  | cons obj rest ih => exact .bind (hR.push obj) fun _ => ih

lemma pushCount (hR : AllowsPersonal R) (n : Nat) : Follows R (Action.pushCount n : Action ν Unit) :=
  .ite (hR.push _) (.throw _)

lemma index [IsTrans (Session ν) R] (hR : AllowsPersonal R) (n : Object) :
    Follows R (Action.index n : Action ν Unit) := by
  rw [Action.index]
  split
  · exact .throw _
  · refine .ite (.throw_bind _) (.bind .get fun _ => ?_)
    split
    · exact hR.push _
    · exact .throw _

lemma intBinary (hR : AllowsPersonal R) (op : Int → Int → Int) (a b : Object) :
    Follows R (Action.intBinary op a b : Action ν Unit) := by
  rw [Action.intBinary]
  split
  · exact hR.push _
  · exact .throw _

lemma realBinary (hR : AllowsPersonal R) (op : UInt32 → UInt32 → UInt32) (a b : Object) :
    Follows R (Action.realBinary op a b : Action ν Unit) := by
  rw [Action.realBinary]
  split
  · exact hR.push _
  · exact .throw _

lemma intNeg (hR : AllowsPersonal R) (a : Object) : Follows R (Action.intNeg a : Action ν Unit) := by
  rw [Action.intNeg]
  split
  · exact hR.push _
  · exact .throw _

lemma realNeg (hR : AllowsPersonal R) (a : Object) : Follows R (Action.realNeg a : Action ν Unit) := by
  rw [Action.realNeg]
  split
  · exact hR.push _
  · exact .throw _

lemma onComposite (hR : AllowsPersonal R) (f : Object → Object) (obj : Object) :
    Follows R (Action.onComposite f obj : Action ν Unit) :=
  .ite (hR.push _) (.throw _)

lemma restore [IsTrans (Session ν) R] (hR : AllowsPersonal R) (obj : Object) :
    Follows R (Action.restore obj : Action ν Unit) := by
  rw [Action.restore]
  split
  · exact .throw _
  · refine .bind .get fun _ => .ite (.throw_bind _) ?_
    exact .ite (.throw_bind _) (hR.onLocalVM (Memory.upkept_perform (.restore _) rfl))

lemma print [IsTrans (Session ν) R] (hR : AllowsPersonal R) (obj : Object) :
    Follows R (Action.print obj : Action ν Unit) :=
  .bind .get fun _ => .ite (.modify fun s => hR.output s _) (.throw _)

end Session.AllowsPersonal

/-- The natives that concern nobody but the running context. -/
def Builtin.isPersonal : Builtin → Bool
  | .vmReclaim | .fork | .join | .detach | .zombie | .free => false
  | _ => true

/-- **A personal native** changes nothing but what the running context keeps for itself. -/
lemma Builtin.personal_run {ν : Type} {R : Session ν → Session ν → Prop} [Std.Refl R]
    [IsTrans (Session ν) R] (hR : Session.AllowsPersonal R) {native : Builtin}
    (h : native.isPersonal = true) (args : List Object) :
    Follows R (native.run args : Action ν Unit) := by
  unfold Builtin.run
  split
  · exact .pure ()
  · exact hR.pushAll _
  · exact hR.pushAll _
  · exact hR.onOperands Stack.endures_clear
  · exact .bind .get fun _ => hR.pushCount _
  · exact hR.push _
  · exact .bind (.query _) fun _ => hR.onOperands (Stack.endures_drop _)
  · exact .bind (.query _) fun _ => hR.pushCount _
  · exact hR.index _
  · exact hR.intBinary _ _ _
  · exact hR.realBinary _ _ _
  · exact hR.intBinary _ _ _
  · exact hR.realBinary _ _ _
  · exact hR.intBinary _ _ _
  · exact hR.realBinary _ _ _
  · exact hR.intNeg _
  · exact hR.realNeg _
  · exact hR.push _
  · exact hR.push _
  · exact hR.push _
  · exact hR.onComposite _ _
  · exact hR.onComposite _ _
  · exact hR.onComposite _ _
  · exact hR.onComposite _ _
  · exact hR.onComposite _ _
  · exact .bind (hR.onLocalVM (.of_discard (Memory.upkept_perform .save rfl))) fun _ => hR.push _
  · exact hR.restore _
  · exact .bind .get fun _ => .bind (hR.push _) fun _ => .bind (hR.push _) fun _ =>
      hR.push _
  · contradiction
  · contradiction
  · contradiction
  · exact .throw _
  · contradiction
  · exact .bind .get fun _ => hR.push _
  · contradiction
  · contradiction
  · exact hR.print _
  · exact .throw _

/-! ## All natives -/

/-- The natives on their arguments: those that are personal, those that are refused for want of the right
number of arguments, and the others. -/
inductive Builtin.Concerns : Builtin → List Object → Prop
  | itself {native : Builtin} (args : List Object) (h : native.isPersonal = true) : Concerns native args
  | nobody {native : Builtin} {args : List Object}
    (h : ∀ ν : Type, (native.run args : Action ν Unit) = throw .invalidSignature) : Concerns native args
  | globalVM (mode : Object) : Concerns .vmReclaim [mode]
  | child (proc : Object) : Concerns .fork [proc]
  | joined (handle : Object) : Concerns .join [handle]
  | detached (handle : Object) : Concerns .detach [handle]
  | ended : Concerns .zombie []
  | freed : Concerns .free []

lemma Builtin.concerns (native : Builtin) (args : List Object) : native.Concerns args := by
  cases hpersonal : native.isPersonal with
  | true => exact .itself args hpersonal
  | false =>
      rcases args with _ | ⟨x, _ | ⟨y, rest⟩⟩
      · cases native with
        | zombie => exact .ended
        | free => exact .freed
        | vmReclaim | fork | join | detach => exact .nobody fun _ => rfl
        | _ => contradiction
      · cases native with
        | zombie | free => exact .nobody fun _ => rfl
        | vmReclaim => exact .globalVM x
        | fork => exact .child x
        | join => exact .joined x
        | detach => exact .detached x
        | _ => contradiction
      · cases native with
        | zombie | free | vmReclaim | fork | join | detach => exact .nobody fun _ => rfl
        | _ => contradiction

end PostScriptCore
