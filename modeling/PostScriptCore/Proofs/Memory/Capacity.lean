import PostScriptCore.Proofs.Memory.Following

/-!
# The limit on entities

Only an allocation moves the cursor of the arena or adds a row to the table, and it adds only one.  So a
table never outgrows the limit it was started with, and nothing changes the limits.

* `Memory.Standing` — no storage is used up, and the limits are the same.  Nothing but adding rows uses up any.
* `Memory.Capped`, `Memory.tableAlloc_adds` — a row is only added below the limit.
* `Lengthens`, `Memory.lengthens_allocateWithoutGc`, `Memory.lengthens_reallocWithoutGc` — how many rows
  are added.
-/

namespace PostScriptCore

namespace Memory

/-- No storage is used up: the arena is the same but for its bytes, the table is as long as it was, and
storage is searched in the same way. -/
structure Standing (m n : Memory) : Prop where
  arena : m.arena.Repaints n.arena
  policy : n.policy = m.policy
  limit : n.maxEntities = m.maxEntities
  count : n.entityCount = m.entityCount

instance : IgnoresRows Standing where
  refl _ := ⟨⟨_, rfl⟩, rfl, rfl, rfl⟩
  trans m n k h h' := by
    refine ⟨?_, h'.policy.trans h.policy, h'.limit.trans h.limit, h'.count.trans h.count⟩
    obtain ⟨image, harena⟩ := h.arena
    obtain ⟨image', harena'⟩ := h'.arena
    exact ⟨image', by rw [harena', harena]⟩
  storage _ _ image _ _ hcount := ⟨⟨image, rfl⟩, rfl, rfl, hcount⟩

instance : IgnoresCountdown Standing where
  countdown _ _ := ⟨⟨_, rfl⟩, rfl, rfl, rfl⟩

/-! ## Rows -/

/-- The limit is the same, and so is the number of rows. -/
structure Fixed (m n : Memory) : Prop where
  limit : n.maxEntities = m.maxEntities
  count : n.entityCount = m.entityCount

instance : IgnoresRows Fixed where
  refl _ := ⟨rfl, rfl⟩
  trans _ _ _ h h' := ⟨h'.limit.trans h.limit, h'.count.trans h.count⟩
  storage _ _ _ _ _ hcount := ⟨rfl, hcount⟩

instance : IgnoresCountdown Fixed where
  countdown _ _ := ⟨rfl, rfl⟩

/-! ## The limit -/

/-- The limit is the same, and the table has not grown past both the limit and what it was. -/
structure Capped (m n : Memory) : Prop where
  limit : n.maxEntities = m.maxEntities
  count : ∀ bound, m.maxEntities ≤ bound → m.entityCount ≤ bound → n.entityCount ≤ bound

instance : IgnoresRows Capped where
  refl _ := ⟨rfl, fun _ _ h => h⟩
  trans _ _ _ h h' := ⟨h'.limit.trans h.limit, fun bound hlimit hm =>
    h'.count bound (h.limit ▸ hlimit) (h.count bound hlimit hm)⟩
  storage _ _ _ _ _ hcount := ⟨rfl, fun _ _ hm => Nat.le_trans (Nat.le_of_eq hcount) hm⟩

instance : IgnoresCountdown Capped where
  countdown _ _ := ⟨rfl, fun _ _ h => h⟩

lemma capped_onArena {α : Type} (x : EStateM Fault Arena α) : Follows Capped (onArena x) :=
  fun _ => Ends.focus (Ends.always (fun _ _ => ⟨rfl, fun _ _ h => h⟩) fun _ _ => ⟨rfl, fun _ _ h => h⟩)

/-- **A row is only added below the limit.** -/
lemma tableAlloc_adds (size : Nat) (tag : Tag) (m : Memory) :
    Ends (tableAlloc size tag) m
      (fun _ n => n.maxEntities = m.maxEntities ∧ m.entityCount < m.maxEntities ∧
        n.entityCount = m.entityCount + 1)
      fun _ n => Fixed m n := by
  refine Ends.bind (Ends.query (fun size hsize => ?_) fun _ _ => Std.Refl.refl m)
  have hroom : m.entityCount < m.maxEntities := by
    split at hsize
    · contradiction
    · split at hsize
      · contradiction
      · omega
  dsimp only
  split
  · exact ⟨rfl, hroom, Array.size_push _⟩
  · exact Ends.bind (Ends.focus (Ends.always (fun _ _ => ⟨rfl, hroom, Array.size_push _⟩)
      fun _ _ => ⟨rfl, rfl⟩))

instance : IgnoresAllocation Capped where
  tableAlloc size tag m := Ends.mono (tableAlloc_adds size tag m)
    (fun _ _ hn => ⟨hn.1, fun _ hbound _ => hn.2.2 ▸ Nat.le_trans hn.2.1 hbound⟩)
    fun _ _ hn => ⟨hn.limit, fun _ _ hm => Nat.le_trans (Nat.le_of_eq hn.count) hm⟩

end Memory

/-! ## How many rows are added -/

/-- By its measure, the state has grown by no more than the bound. -/
def Lengthens {σ : Type} (rows : σ → Nat) (bound : Nat) (s t : σ) : Prop := rows t ≤ rows s + bound

instance {σ : Type} (rows : σ → Nat) (bound : Nat) : Std.Refl (Lengthens rows bound) :=
  ⟨fun _ => Nat.le_add_right _ _⟩

lemma lengthens_bind {σ α β : Type} {rows : σ → Nat} {m n bound : Nat} {x : EStateM Fault σ α}
    {f : α → EStateM Fault σ β} (hx : Follows (Lengthens rows m) x)
    (hf : ∀ a, Follows (Lengthens rows n) (f a)) (hbound : m + n = bound) :
    Follows (Lengthens rows bound) (x >>= f) := by
  intro s
  have htrans {t u : σ} (ht : Lengthens rows m s t) (hu : Lengthens rows n t u) :
      Lengthens rows bound s u := by
    rw [Lengthens] at ht hu ⊢
    omega
  refine Ends.bind (Ends.mono (hx s) (fun a t ht => ?_) fun _ t ht => ?_)
  · exact Ends.mono (hf a t) (fun _ _ hu => htrans ht hu) fun _ _ hu => htrans ht hu
  · exact htrans ht (Nat.le_add_right (rows t) n)

/-- What adds nothing can come first. -/
lemma lengthens_after {σ α β : Type} {rows : σ → Nat} {bound : Nat} {x : EStateM Fault σ α}
    {f : α → EStateM Fault σ β} (hx : Follows (Lengthens rows 0) x)
    (hf : ∀ a, Follows (Lengthens rows bound) (f a)) : Follows (Lengthens rows bound) (x >>= f) :=
  lengthens_bind hx hf (Nat.zero_add bound)

namespace Memory

lemma lengthens_of_fixed {α : Type} {x : MemoryM α} (hx : Follows Fixed x) :
    Follows (Lengthens entityCount 0) x := fun m =>
  Ends.mono (hx m) (fun _ _ hn => Nat.le_of_eq hn.count) fun _ _ hn => Nat.le_of_eq hn.count

lemma lengthens_tableAlloc (size : Nat) (tag : Tag) :
    Follows (Lengthens entityCount 1) (tableAlloc size tag) := fun m =>
  Ends.mono (tableAlloc_adds size tag m) (fun _ _ hn => Nat.le_of_eq hn.2.2)
    fun _ _ hn => Nat.le_succ_of_le (Nat.le_of_eq hn.count)

/-- **An allocation adds at most one row.** -/
lemma lengthens_allocateWithoutGc (size : Nat) (tag : Tag) :
    Follows (Lengthens entityCount 1) (allocateWithoutGc size tag) := by
  refine lengthens_after (lengthens_of_fixed (follows_findStorage size tag)) fun fit => ?_
  cases fit with
  | reused id => exact fun m => Nat.le_succ _
  | needsCollection | miss => exact lengthens_tableAlloc size tag

lemma lengthens_reallocWithoutGc (id newSize : Nat) :
    Follows (Lengthens entityCount 1) (reallocWithoutGc id newSize) := by
  have hmove (old : Row) (target : Nat) :
      Follows (Lengthens entityCount 0) (moveContents id old.size target newSize) :=
    lengthens_of_fixed (follows_moveContents _ _ _ _)
  refine lengthens_after (lengthens_of_fixed (.query _)) fun old => ?_
  exact lengthens_bind (lengthens_allocateWithoutGc newSize old.tag) (hmove old) rfl

end Memory

end PostScriptCore
