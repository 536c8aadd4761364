import PostScriptCore.Proofs.Machine.Dispatch
import PostScriptCore.Proofs.Machine.Effect
import PostScriptCore.Proofs.Memory.Cells
import PostScriptCore.Proofs.Memory.Collection

/-!
# Operators outlive collections

Any context may have the global memory collected while another one waits.  What the operator table
keeps there is of a kind that no collection touches, so an operator that was offered is offered
afterwards.

* `Memory.IsPermanent` — an entity that is never collected.
* `Memory.Outlasts`, `Memory.Collections.outlasts` — collections keep such entities with their
  contents.
* `OperatorTable.IsPermanent`, `Session.Offers.outlasts` — an operator whose signatures stay is
  offered for good.
-/

namespace PostScriptCore

namespace Memory

variable {m n : Memory}

/-- The entity is of a kind that is never collected. -/
def IsPermanent (m : Memory) (id : Nat) : Prop :=
  ∃ cell, m.cell? id = some cell ∧ cell.tag.kind.isCollectable = false

/-- What collections of a memory leave: it is in order, and permanent entities are as they were. -/
structure Outlasts (m n : Memory) : Prop where
  sound : Sound n
  tidy : Tidy n
  cell?_eq : ∀ id, m.IsPermanent id → n.cell? id = m.cell? id

lemma Outlasts.isPermanent (h : Outlasts m n) {id : Nat} (hid : m.IsPermanent id) :
    n.IsPermanent id := by
  rw [IsPermanent, h.cell?_eq id hid]
  exact hid

lemma outlasts_collect (hs : Sound m) (ht : Tidy m) (roots : List Object) :
    Outlasts m (finalState (collect roots true false) m) := by
  cases hcollector : m.collector with
  | none =>
      have hrun : collect roots true false m = .ok 0 m := by rw [collect, hcollector]
      rw [finalState_of_ok hrun]
      exact ⟨hs, ht, fun _ _ => rfl⟩
  | some collector =>
      cases collector with
      | failing fault =>
          have hrun : collect roots true false m = .error fault m := by rw [collect, hcollector]
          rw [finalState_of_error hrun]
          exact ⟨hs, ht, fun _ _ => rfl⟩
      | markSweep =>
          obtain ⟨n, hrun, hcollected⟩ := collect_run hs ht hcollector roots
          rw [finalState_of_ok hrun]
          refine ⟨hcollected.sound, hcollected.tidy, ?_⟩
          rintro id ⟨cell, hcell, hkind⟩
          obtain ⟨row, hid, hrow, htag, -⟩ := row_of_cell hcell
          have hkept : ¬ Garbage m roots id := by
            rintro ⟨row', hrow', -, hcollectable, -⟩
            obtain rfl := Option.some.inj (hrow.symm.trans hrow')
            rw [htag, hkind] at hcollectable
            contradiction
          obtain ⟨hrow', hbytes⟩ := hcollected.kept id row hid hrow hkept
          rw [bytes_ok hcollected.sound hid hrow', bytes_ok hs hid hrow] at hbytes
          rw [cell?_of_row hid hrow', cell?_of_row hid hrow, Except.ok.inj hbytes]

lemma Collections.outlasts (h : m.Collections n) (hs : Sound m) (ht : Tidy m) : Outlasts m n := by
  induction h with
  | refl => exact ⟨hs, ht, fun _ _ => rfl⟩
  | tail _ hstep ih =>
      obtain ⟨roots, rfl⟩ := hstep
      have hnext := outlasts_collect ih.sound ih.tidy roots
      refine ⟨hnext.sound, hnext.tidy, fun id hid => ?_⟩
      rw [hnext.cell?_eq id (ih.isPermanent hid), ih.cell?_eq id hid]

/-- A permanent entity reads the same. -/
lemma Outlasts.bytesAt (h : Outlasts m n) (hs : Sound m) {id : Nat} (hid : m.IsPermanent id)
    (offset count : Nat) : n.bytesAt id offset count = m.bytesAt id offset count := by
  have ⟨cell, hcell, _⟩ := hid
  rw [bytesAt_cell h.sound ((h.cell?_eq id hid).trans hcell), bytesAt_cell hs hcell]

end Memory

namespace OperatorTable

variable {ν : Type} {t : OperatorTable ν} {m n : Memory} {opcode : Nat}

/-- The entries and the list of the opcode's signatures are never collected. -/
structure IsPermanent (t : OperatorTable ν) (m : Memory) (opcode : Nat) : Prop where
  entries : m.IsPermanent t.entries
  list : ∀ entry, t.entry m opcode = .ok entry → m.IsPermanent entry.signatures

lemma entry_outlasts (h : m.Outlasts n) (hs : m.Sound) (hentries : m.IsPermanent t.entries) :
    t.entry n opcode = t.entry m opcode := by
  rw [entry, entry, h.bytesAt hs hentries]

lemma signaturesFrom_outlasts (h : m.Outlasts n) (hs : m.Sound) {list : Nat}
    (hlist : m.IsPermanent list) (count index : Nat) :
    signaturesFrom n list count index = signaturesFrom m list count index := by
  induction count generalizing index with
  | zero => rfl
  | succ count ih =>
      rw [signaturesFrom, signaturesFrom, signatureAt, signatureAt, h.bytesAt hs hlist, ih]

lemma signatures_outlasts (h : m.Outlasts n) (hs : m.Sound) (hpermanent : t.IsPermanent m opcode) :
    t.signatures n opcode = t.signatures m opcode := by
  rw [signatures, signatures, entry_outlasts h hs hpermanent.entries]
  cases hentry : t.entry m opcode with
  | error fault => rfl
  | ok entry => exact signaturesFrom_outlasts h hs (hpermanent.list entry hentry) _ _

end OperatorTable

/-- **An operator stays on offer** while the global memory is collected. -/
lemma Session.Offers.outlasts {ν : Type} [NativeSet ν] {s t : Session ν} {opcode out : Nat}
    {p : Pattern} {builtin : Builtin} (h : s.Offers opcode p out builtin)
    (hpermanent : s.operators.IsPermanent s.globalVM opcode) (hs : s.globalVM.Sound)
    (ht : s.globalVM.Tidy) (hoperators : t.operators = s.operators)
    (hcollections : s.globalVM.Collections t.globalVM) : t.Offers opcode p out builtin := by
  obtain ⟨number, native, hsignatures, hnative, hrun⟩ := h
  rw [← OperatorTable.signatures_outlasts (hcollections.outlasts hs ht) hs hpermanent,
    ← hoperators] at hsignatures
  exact ⟨number, native, hsignatures, hoperators ▸ hnative, hrun⟩

end PostScriptCore
