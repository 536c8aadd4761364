import PostScriptCore.Proofs.Memory.Collection
import PostScriptCore.Proofs.Memory.Setup

/-!
# Memories stay in working order

Whoever uses a memory relies on more than that it is sound: nothing is marked between two operations,
the memory answers for one bank, and it is collected by mark and sweep.  No operation changes its bank,
and only registering another collector changes how it is collected.

* `Memory.SameRole` — the bank and the collector stay.
* `Memory.sameRole_perform` — every operation keeps them.
* `Memory.InOrder`, `Memory.Upkept` — a memory in working order; what is left in working order.
* `Memory.inOrder_create`, `Memory.InOrder.after` — a fresh memory is, and every operation leaves it so.
* `Memory.upkept_perform` — the same for an operation, and for copies that a memory receives.
-/

namespace PostScriptCore

/-- Whether the operation leaves tags to the allocator and does not choose the collector. -/
def MemoryOp.keepsOrder : MemoryOp → Bool
  | setTag .. | useCollector .. => false
  | _ => true

namespace Memory

/-- The bank and the collector are the same. -/
structure SameRole (m n : Memory) : Prop where
  bank : n.bank = m.bank
  collector : n.collector = m.collector

instance : IgnoresPacing SameRole where
  refl _ := ⟨rfl, rfl⟩
  trans _ _ _ h h' := ⟨h'.bank.trans h.bank, h'.collector.trans h.collector⟩
  storage _ _ _ _ _ := ⟨rfl, rfl⟩
  countdown _ _ := ⟨rfl, rfl⟩

/-- **Every operation keeps the bank and the collector**, unless it registers another one. -/
lemma sameRole_perform {op : MemoryOp} (h : op.keepsOrder = true) : Follows SameRole op.perform := by
  cases op with
  | useSearch policy honest => exact .modify fun _ => ⟨rfl, rfl⟩
  | setTag id tag => contradiction
  | useCollector collector => contradiction
  | _ => exact follows_perform rfl

/-! ## Working order -/

/-- A memory of the given bank between two operations, which is collected by mark and sweep. -/
structure InOrder (m : Memory) (bank : Bank) : Prop where
  sound : Sound m
  tidy : Tidy m
  bank_eq : m.bank = bank
  collector_eq : m.collector = some .markSweep

/-- If the one memory is in working order, so is the other. -/
def Upkept (m n : Memory) : Prop := ∀ bank, m.InOrder bank → n.InOrder bank

instance : Std.Refl Upkept where
  refl _ _ h := h

instance : IsTrans Memory Upkept where
  trans _ _ _ h h' bank hm := h' bank (h bank hm)

variable {m : Memory} {bank : Bank}

/-- **Every operation leaves a memory in working order**, unless it retags entities by hand or
registers a collector. -/
lemma InOrder.after (h : m.InOrder bank) {op : MemoryOp} (hop : op.keepsOrder = true) :
    (m.after op).InOrder bank := by
  have hrole := Ends.finalState (sameRole_perform hop m)
  have htags : op.keepsTags = true := by
    cases op with
    | setTag id tag => contradiction
    | _ => rfl
  exact ⟨sound_after h.sound op, h.tidy.after h.sound htags, hrole.bank.trans h.bank_eq,
    hrole.collector.trans h.collector_eq⟩

lemma InOrder.afterAll (h : m.InOrder bank) {ops : List MemoryOp}
    (hops : ∀ op ∈ ops, op.keepsOrder = true) : (m.afterAll ops).InOrder bank := by
  induction ops generalizing m with
  | nil => exact h
  | cons op rest ih =>
      exact ih (h.after (hops op (List.mem_cons_self ..)))
        fun op' hmem => hops op' (List.mem_cons_of_mem _ hmem)

lemma upkept_perform (op : MemoryOp) (hop : op.keepsOrder = true) : Follows Upkept op.perform :=
  .of_final fun _ _ h => h.after hop

instance : AllowsCopies Upkept where
  allocate size tag := .of_discard (upkept_perform (.allocateWithoutGc size tag) rfl)
  put id offset bytes := upkept_perform (.put id offset bytes) rfl
  insert m handle := by
    intro bank h
    have hchange : Change m { m with resources := (m.resources.insert handle).2 } := .opened handle
    exact ⟨(hchange.carries h.sound).sound h.sound, h.tidy.change h.sound hchange, h.bank_eq, h.collector_eq⟩

lemma inOrder_create {settings : Settings} (h : create bank settings = .ok m) : m.InOrder bank := by
  rw [create] at h
  split at h
  · next start hstart =>
    obtain rfl := Except.ok.inj h
    have hbank : start.bank = bank := by
      rw [withBacking] at hstart
      split at hstart
      · obtain rfl := Except.ok.inj hstart
        rfl
      · contradiction
    have hs := sound_of_withBacking hstart
    have htidy : Tidy (start.after (.useCollector .markSweep)) :=
      (tidy_of_withBacking hstart).after hs rfl
    exact ⟨sound_after hs (.useCollector .markSweep), htidy, hbank, rfl⟩
  · contradiction

end Memory

end PostScriptCore
