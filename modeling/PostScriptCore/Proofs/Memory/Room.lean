import PostScriptCore.Proofs.Memory.Capacity
import PostScriptCore.Proofs.Memory.SystemStorage

/-!
# Room

An allocation of a memory that searches its free list fails for want of room only.  Room is counted in
bytes of the arena and in rows of the table, and what is recycled costs neither.

* `Memory.Spends` — at most so much room is used up, and the limits stay.
* `Memory.Offers` — there is so much room, as long as storage is searched along the free list.
* `Affords` — an operation that does not fail and spends at most so much.
* `Memory.affords_tableAlloc`, `Memory.affords_allocateWithoutGc`, `Memory.affords_allocate`,
  `Memory.affords_reallocWithoutGc` — allocations that have room succeed.
-/

namespace PostScriptCore

/-! ## Arenas -/

/-- Rounding up adds less than the granule. -/
lemma alignUp_le {value align rounded : Nat} (h : alignUp value align = some rounded) :
    rounded ≤ value + (align - 1) := by
  simp only [alignUp] at h
  split at h
  · injection h with h
    omega
  · contradiction

/-- What stays below the word bound can be rounded up. -/
lemma exists_alignUp {value align : Nat} (h : value + (align - 1) < wordBound) :
    ∃ rounded, alignUp value align = some rounded :=
  ⟨_, if_pos h⟩

namespace Arena

/-- Growing succeeds if there is a page to spare below the limit. -/
lemma grow_of_room (extra : Nat) {a : Arena} (h : a.Sound) (hextra : extra ≠ 0)
    (hroom : a.max + extra + a.pageSize ≤ a.limit) (hword : a.limit < wordBound) :
    ∃ more, grow extra a =
      .ok () { a with image := a.image.resize (a.max + more), max := a.max + more } := by
  obtain ⟨more, hmore⟩ : ∃ more, alignUp extra a.pageSize = some more := exists_alignUp (by omega)
  have hpages : pages extra a.pageSize = some more := by rw [pages, if_neg hextra, hmore]
  have hle := alignUp_le hmore
  refine ⟨more, ?_⟩
  rw [grow, hpages]
  dsimp only
  rw [if_neg (by omega), if_pos h.mapped]

/-- **An allocation succeeds if there is a page to spare below the limit.** -/
lemma alloc_of_room {size : Nat} {a : Arena} (h : a.Sound) (hmod : size % arenaAlign = 0)
    (hroom : a.used + size + a.pageSize ≤ a.limit) (hword : a.limit < wordBound) :
    ∃ b, alloc size a = .ok a.used b ∧ b.used = a.used + size ∧ b.limit = a.limit ∧
      b.pageSize = a.pageSize := by
  rw [alloc, if_pos h.mapped, alignUp_of_mod hmod (by omega)]
  dsimp only
  rw [if_neg (by omega)]
  split
  · next hmax =>
    obtain ⟨more, hgrow⟩ :=
      grow_of_room (a.used + size - a.max) h (by omega) (by omega) hword
    exact ⟨{ a with
      image := a.image.resize (a.max + more), used := a.used + size, max := a.max + more },
      by rw [hgrow], rfl, rfl, rfl⟩
  · exact ⟨{ a with used := a.used + size }, rfl, rfl, rfl, rfl⟩

end Arena

namespace Memory

/-! ## Spending -/

/-- At most so many bytes of the arena and so many rows are used up, and the limits are the same. -/
structure Spends (bytes rows : Nat) (m n : Memory) : Prop where
  policy : n.policy = m.policy
  arenaLimit : n.arena.limit = m.arena.limit
  pageSize : n.arena.pageSize = m.arena.pageSize
  limit : n.maxEntities = m.maxEntities
  used : n.arena.used ≤ m.arena.used + bytes
  count : n.entityCount ≤ m.entityCount + rows

/-- There is room for so many bytes, a page included, and for so many rows. -/
structure Offers (bytes rows : Nat) (m : Memory) : Prop where
  policy : m.policy = .firstFit
  storage : m.arena.used + bytes + m.arena.pageSize ≤ m.arena.limit
  arenaLimit : m.arena.limit < wordBound
  table : m.entityCount + rows ≤ m.maxEntities
  limit : m.maxEntities ≤ wordBound

variable {bytes b rows r : Nat} {m n k : Memory}

lemma Standing.spends (h : Standing m n) (bytes rows : Nat) : Spends bytes rows m n := by
  obtain ⟨image, harena⟩ := h.arena
  refine ⟨h.policy, ?_, ?_, h.limit, ?_, Nat.le_trans (Nat.le_of_eq h.count) (Nat.le_add_right _ _)⟩
  · rw [harena]
  · rw [harena]
  · rw [harena]
    exact Nat.le_add_right _ _

lemma Spends.refl (m : Memory) : Spends bytes rows m m :=
  ⟨rfl, rfl, rfl, rfl, Nat.le_add_right _ _, Nat.le_add_right _ _⟩

lemma Spends.trans (h : Spends bytes rows m n) (h' : Spends b r n k) :
    Spends (bytes + b) (rows + r) m k := by
  have hused := h.used
  have hused' := h'.used
  have hcount := h.count
  have hcount' := h'.count
  exact ⟨h'.policy.trans h.policy, h'.arenaLimit.trans h.arenaLimit, h'.pageSize.trans h.pageSize,
    h'.limit.trans h.limit, by omega, by omega⟩

lemma Spends.mono (h : Spends bytes rows m n) (hbytes : bytes ≤ b) (hrows : rows ≤ r) :
    Spends b r m n :=
  ⟨h.policy, h.arenaLimit, h.pageSize, h.limit, Nat.le_trans h.used (by omega),
    Nat.le_trans h.count (by omega)⟩

lemma Offers.mono (h : Offers bytes rows m) (hbytes : b ≤ bytes) (hrows : r ≤ rows) :
    Offers b r m := by
  have hstorage := h.storage
  have htable := h.table
  exact ⟨h.policy, by omega, h.arenaLimit, by omega, h.limit⟩

/-- What has not been spent is still there. -/
lemma Offers.spend (h : Offers (bytes + b) (rows + r) m) (hn : Spends bytes rows m n) :
    Offers b r n := by
  have hstorage := h.storage
  have htable := h.table
  have hused := hn.used
  have hcount := hn.count
  refine ⟨hn.policy.trans h.policy, ?_, ?_, ?_, ?_⟩
  · rw [hn.pageSize, hn.arenaLimit]
    omega
  · rw [hn.arenaLimit]
    exact h.arenaLimit
  · rw [hn.limit]
    omega
  · rw [hn.limit]
    exact h.limit

/-- Entity numbers are words. -/
lemma Offers.count_le (h : Offers bytes rows m) : m.entityCount ≤ wordBound :=
  Nat.le_trans (Nat.le_trans (Nat.le_add_right _ _) h.table) h.limit

end Memory

/-! ## Affording -/

section Rules

open Memory (Spends Offers Standing)

variable {σ τ α β : Type} {view : σ → Memory} {bytes b rows r : Nat} {s t : σ}

/-- The operation does not fail, and of the memory in view it spends at most so much. -/
def Affords (view : σ → Memory) (bytes rows : Nat) (x : EStateM Fault σ α) (s : σ)
    (P : α → σ → Prop) : Prop :=
  Ends x s (fun a t => Spends bytes rows (view s) (view t) ∧ P a t) fun _ _ => False

namespace Affords

variable {P : α → σ → Prop} {Q : β → σ → Prop}

lemma of_ok {x : EStateM Fault σ α} {a : α} (hrun : x s = .ok a t)
    (ht : Spends bytes rows (view s) (view t)) (h : P a t) : Affords view bytes rows x s P :=
  Ends.of_ok hrun ⟨ht, h⟩

lemma exists_ok {x : EStateM Fault σ α} (h : Affords view bytes rows x s P) :
    ∃ a t, x s = .ok a t ∧ Spends bytes rows (view s) (view t) ∧ P a t := by
  rw [Affords, Ends] at h
  split at h
  · next a t hrun => exact ⟨a, t, hrun, h⟩
  · exact h.elim

lemma bind {x : EStateM Fault σ α} {f : α → EStateM Fault σ β} (hx : Affords view bytes rows x s P)
    (hf : ∀ a t, Spends bytes rows (view s) (view t) → P a t →
      Affords view b r (f a) t Q) :
    Affords view (bytes + b) (rows + r) (x >>= f) s Q :=
  Ends.bind (Ends.mono hx (fun a t ht => Ends.mono (hf a t ht.1 ht.2)
    (fun _ _ hu => ⟨ht.1.trans hu.1, hu.2⟩) fun _ _ hu => hu) fun _ _ ht => ht)

lemma mono {P' : α → σ → Prop} {x : EStateM Fault σ α} (h : Affords view bytes rows x s P)
    (hbytes : bytes ≤ b) (hrows : rows ≤ r) (hP : ∀ a t, P a t → P' a t) :
    Affords view b r x s P' :=
  Ends.mono h (fun a t ht => ⟨ht.1.mono hbytes hrows, hP a t ht.2⟩) fun _ _ ht => ht

/-- What costs nothing can come first. -/
lemma after {x : EStateM Fault σ α} {f : α → EStateM Fault σ β} (hx : Affords view 0 0 x s P)
    (hf : ∀ a t, Spends 0 0 (view s) (view t) → P a t → Affords view bytes rows (f a) t Q) :
    Affords view bytes rows (x >>= f) s Q :=
  (hx.bind hf).mono (Nat.zero_add _).le (Nat.zero_add _).le fun _ _ h => h

lemma pure {a : α} (h : P a s) : Affords view 0 0 (Pure.pure a : EStateM Fault σ α) s P :=
  ⟨.refl _, h⟩

lemma query {f : σ → Except Fault α} {a : α} (h : f s = .ok a) :
    Affords view 0 0 (PostScriptCore.query f) s fun b t => b = a ∧ t = s :=
  of_ok (query_ok h) (.refl _) ⟨rfl, rfl⟩

lemma get_bind {f : σ → EStateM Fault σ α} {P : α → σ → Prop} (h : Affords view bytes rows (f s) s P) :
    Affords view bytes rows (get >>= f) s P :=
  h

lemma discard {x : EStateM Fault σ α} (h : Affords view bytes rows x s P) :
    Affords view bytes rows (discard x) s fun _ t => ∃ a, P a t := by
  obtain ⟨a, t, hrun, hspends, ht⟩ := h.exists_ok
  exact .of_ok (discard_ok hrun) hspends ⟨a, ht⟩

/-- An operation of a part, seen from the whole. -/
lemma focus {part : τ → σ} {update : σ → τ → τ} {vacant : σ} {whole : τ → Memory} {q : τ}
    {x : EStateM Fault σ α} (h : Affords view bytes rows x (part q) P)
    (hbefore : whole q = view (part q)) (hafter : ∀ p, whole (update p (update vacant q)) = view p) :
    Affords whole bytes rows (PostScriptCore.focus part update vacant x) q fun a t =>
      ∃ p, t = update p (update vacant q) ∧ P a p :=
  Ends.focus (Ends.mono h (fun _ p hp => ⟨by rw [hbefore, hafter]; exact hp.1, p, rfl, hp.2⟩)
    fun _ _ hp => hp)

/-- What is known of the end of an operation holds of an operation that succeeds. -/
lemma knowing {x : EStateM Fault σ α} {err : Fault → σ → Prop}
    (h : Affords view bytes rows x s fun _ _ => True) (hP : Ends x s P err) :
    Affords view bytes rows x s P :=
  Ends.mono (h.and hP) (fun _ _ ht => ⟨ht.1.1, ht.2⟩) fun _ _ ht => ht.1

end Affords

end Rules

namespace Memory

variable {α : Type} {m n : Memory}

/-- An operation that uses up nothing. -/
lemma affords_of_standing {x : MemoryM α} {a : α} {P : α → Memory → Prop} (hx : Follows Standing x)
    (hrun : x m = .ok a n) (h : P a n) : Affords id 0 0 x m P := by
  have hn := hx m
  rw [Ends, hrun] at hn
  exact .of_ok hrun (hn.spends 0 0) h

/-! ## Allocating -/

/-- **A new row** is added if there is room for it. -/
lemma affords_tableAlloc (hs : Sound m) {size : Nat} (tag : Tag) (h : Offers (size + 7) 1 m) :
    Affords id (size + 7) 1 (tableAlloc size tag) m fun _ _ => True := by
  have hstorage := h.storage
  have hword := h.arenaLimit
  have htable := h.table
  obtain ⟨rounded, halign⟩ : ∃ rounded, alignUp size arenaAlign = some rounded :=
    exists_alignUp (by simp only [arenaAlign]; omega)
  have hle := alignUp_le halign
  have hsize : (if size = 0 then some 0 else alignUp size arenaAlign) = some rounded := by
    split
    · next h0 =>
      subst h0
      exact halign
    · exact halign
  rw [tableAlloc]
  refine .after (P := fun a n => a = rounded ∧ n = m) (.query ?_) fun a n _ hn => ?_
  · rw [hsize]
    exact if_neg (by omega)
  · obtain ⟨rfl, rfl⟩ := hn
    by_cases h0 : a = 0
    · subst h0
      refine .of_ok (a := n.entityCount) rfl ?_ trivial
      exact ⟨rfl, rfl, rfl, rfl, Nat.le_add_right _ _, (Array.size_push _).le⟩
    · simp only [arenaAlign] at hle
      obtain ⟨arena, hrun, hused, hlimit, hpage⟩ := Arena.alloc_of_room hs.arena
        (Arena.mod_arenaAlign_of_alignUp halign) (by omega) hword
      let k := n.pushed ⟨n.arena.used, a, Mark.createdAt n.level, tag⟩ arena
      refine .of_ok (a := n.entityCount) (t := k) ?_ ?_ trivial
      · rw [if_neg h0]
        exact (bind_ok (onArena_ok hrun)).trans rfl
      · exact ⟨rfl, hlimit, hpage, rfl, by simp only [k, pushed, id]; omega, (Array.size_push _).le⟩

/-- A search along the free list ends with an entity or with a miss. -/
lemma affords_findStorage (h : Threaded m) {size : Nat} (tag : Tag) (hroom : Offers (size + 7) 1 m) :
    Affords id 0 0 (findStorage size tag) m fun _ n => Threaded n ∧ Offers (size + 7) 1 n := by
  have hstorage := hroom.storage
  have hword := hroom.arenaLimit
  obtain ⟨ids, hids⟩ := h.chained hroom.count_le
  have hkeeps := secures_findStorage (P := fun _ => False) (b := m)
    (h.secures fun _ hid => hid.elim) size tag
  have hrun : ∃ fit n, findStorage size tag m = .ok fit n := by
    rw [findStorage_firstFit hroom.policy]
    rcases firstFit_cases h.sound hids size tag with
      ⟨hnone, -⟩ | ⟨fit, count, -, hrun⟩ | ⟨id, n, hrun, -⟩
    · obtain ⟨rounded, halign⟩ : ∃ rounded, alignUp size arenaAlign = some rounded :=
        exists_alignUp (by simp only [arenaAlign]; omega)
      rw [hnone] at halign
      contradiction
    · exact ⟨_, _, hrun⟩
    · exact ⟨_, _, hrun⟩
  obtain ⟨fit, n, hrun⟩ := hrun
  have hstanding := follows_findStorage (R := Standing) size tag m
  rw [Keeps, Ends, hrun] at hkeeps
  rw [Ends, hrun] at hstanding
  have hspends : Spends 0 0 m n := hstanding.spends 0 0
  exact .of_ok hrun hspends
    ⟨hkeeps.1.toThreaded, (hroom.mono (Nat.zero_add _).le (Nat.zero_add _).le).spend hspends⟩

/-- **An allocation that does not collect** succeeds if there is room for it. -/
lemma affords_allocateWithoutGc (h : Threaded m) {size : Nat} (tag : Tag)
    (hroom : Offers (size + 7) 1 m) :
    Affords id (size + 7) 1 (allocateWithoutGc size tag) m fun _ _ => True := by
  refine (affords_findStorage h tag hroom).after fun fit n _ hn => ?_
  cases fit with
  | reused id => exact .of_ok rfl (.refl _) trivial
  | needsCollection => exact affords_tableAlloc hn.1.sound tag hn.2
  | miss => exact affords_tableAlloc hn.1.sound tag hn.2

/-- A collection, whatever its outcome, uses up nothing. -/
lemma affords_attempt_collect (h : Threaded m) (roots : List Object) (sweeping markAll : Bool) :
    Affords id 0 0 (attempt (collect roots sweeping markAll)) m fun _ n => Threaded n := by
  have hkeeps : Keeps (Secures (fun _ => False) m) (collect roots sweeping markAll) m fun _ _ => True :=
    sustains_secures.collect (h.secures fun _ hid => hid.elim) trivial
  exact Ends.attempt (Ends.mono ((follows_collect (R := Standing) roots sweeping markAll m).and hkeeps)
    (fun _ _ hn => ⟨hn.1.spends 0 0, hn.2.1.toThreaded⟩)
    fun _ _ hn => ⟨hn.1.spends 0 0, hn.2.toThreaded⟩)

/-- **An allocation** succeeds if there is room for it, whether it collects or not. -/
lemma affords_allocate (h : Threaded m) {size : Nat} (tag : Tag) (roots : List Object)
    (hroom : Offers (size + 7) 1 m) :
    Affords id (size + 7) 1 (allocate size tag roots) m fun _ _ => True := by
  refine (affords_findStorage h tag hroom).after fun fit n _ hn => ?_
  have hreused : ∀ (reused : Nat) (k : Memory),
      Affords id (size + 7) 1 (pure reused : MemoryM Nat) k fun _ _ => True := fun _ _ =>
    .of_ok rfl (.refl _) trivial
  cases fit with
  | reused id => exact hreused id n
  | miss => exact affords_tableAlloc hn.1.sound tag hn.2
  | needsCollection =>
      refine (affords_attempt_collect hn.1 roots true false).after fun _ k hk hthreaded => ?_
      have hroom' : Offers (size + 7) 1 k :=
        (hn.2.mono (Nat.zero_add _).le (Nat.zero_add _).le).spend hk
      refine (affords_findStorage hthreaded tag hroom').after fun fit l _ hl => ?_
      cases fit with
      | reused id => exact hreused id l
      | needsCollection => exact affords_tableAlloc hl.1.sound tag hl.2
      | miss => exact affords_tableAlloc hl.1.sound tag hl.2

/-! ## Moving contents -/

/-- The contents of one entity are copied into another one that was just allocated. -/
lemma copyWithin_of_rows (hs : Sound m) {id target : Nat} (count : Nat) {row row' : Row} (hid : id ≠ 0)
    (hrow : m.rows[id]? = some row) (htarget : target ≠ 0) (hrow' : m.rows[target]? = some row')
    (hmark : row'.mark = Mark.createdAt m.level) (hcount : count ≤ row.size)
    (hcount' : count ≤ row'.size) :
    ∃ n, onArena (Arena.copyWithin row.address row'.address count) m = .ok () n ∧
      Replaces m n target ⟨row'.tag, patched (m.arena.image.read row'.address row'.size) 0
        (m.arena.image.read row.address count)⟩ := by
  rcases copyWithin_cases row.address hs htarget hrow' hmark hcount' with ⟨fault, hrun⟩ | hrun
  · have hsource := (hs.fits hid hrow).2.2
    have hdestination := (hs.fits htarget hrow').2.2
    have hused := hs.arena.used_lt
    have hbounds : m.arena.inBounds row.address count := ⟨by omega, by omega⟩
    have hcopy : Arena.copyWithin row.address row'.address count m.arena = .ok () { m.arena with
        image := m.arena.image.write row'.address (m.arena.image.read row.address count) } := by
      rw [Arena.copyWithin, if_neg (not_not_intro hbounds),
        hs.arena.obstacle?_eq_none (by omega)]
    rw [onArena_ok hcopy] at hrun
    contradiction
  · exact hrun

/-- **Moving a system entity** succeeds if there is room for its new storage. -/
lemma affords_reallocWithoutGc (h : Threaded m) {entity size : Nat} {cell : Cell}
    (hcell : m.cell? entity = some cell) (hsystem : cell.tag.kind = .system)
    (hlink : linkSize ≤ cell.bytes.length) (hroom : Offers (size + 7) 1 m) :
    Affords id (size + 7) 1 (reallocWithoutGc entity size) m fun _ _ => True := by
  obtain ⟨row, h0, hrow, htag, hsize, hread⟩ := row_of_cell hcell
  have hmovable : m.movable entity = .ok row := by
    have hfree : (row.isFree || row.tag.ownsResource) = false := by
      rw [Row.isFree, Tag.ownsResource, htag, hsystem]
      rfl
    rw [movable, row_ok hrow]
    simp only [hfree, Bool.false_eq_true, if_false]
  refine Affords.after (P := fun old n => old = row ∧ n = m) (.query hmovable) fun old n _ hold => ?_
  obtain ⟨rfl, rfl⟩ := hold
  have hsecures : Secures (fun j => j = entity) n n := h.secures (by rintro j rfl; exact ⟨cell, hcell, hsystem⟩)
  refine (((affords_allocateWithoutGc h old.tag hroom).knowing
    (secures_allocateWithoutGc hsecures size old.tag)).bind (b := 0) (r := 0)
    fun target k hspent hk => ?_).mono (Nat.le_refl _) (Nat.le_refl _) fun _ _ hn => hn
  obtain ⟨hk, hnew⟩ := hk
  have hbound : k.entityCount ≤ wordBound := (hroom.spend (b := 0) (r := 0) hspent).count_le
  have hne : target ≠ entity := fun he => hnew.unsecured hbound he
  obtain ⟨row', h0', hrow', hfit', htag', hmark'⟩ := hnew.owned
  have hcell' : k.cell? entity = some cell := (hk.kept hbound entity rfl).trans hcell
  obtain ⟨source, -, hsource, -, hsize', -⟩ := row_of_cell hcell'
  have hfree : ∀ l, Sound l → l.cell? entity = some cell → ∃ t, free entity l = .ok () t := by
    intro l hl hheld
    obtain ⟨final, -, hfinal, htag'', hsize'', -⟩ := row_of_cell hheld
    obtain ⟨head, hhead, -⟩ := hl.head
    have hlive : final.isFree = false := by
      rw [Row.isFree, htag'', hsystem]
      rfl
    exact ⟨_, free_run hl h0 hfinal (hsize'' ▸ hlink) hlive hhead⟩
  suffices hmove : ∃ t, moveContents entity old.size target size k = .ok target t by
    obtain ⟨t, hmove⟩ := hmove
    exact affords_of_standing (follows_moveContents _ _ _ _) hmove trivial
  rw [moveContents]
  dsimp only
  generalize hkeep : (if old.size < size then old.size else size) = keep
  have hle : keep ≤ size ∧ keep ≤ old.size := by
    split at hkeep <;> omega
  split
  · obtain ⟨l, hcopy, hl⟩ := copyWithin_of_rows hk.sound keep h0 hsource h0' hrow' hmark'
      (by omega) (by omega)
    obtain ⟨t, hrun⟩ := hfree l hl.sound ((hl.cell entity).trans ((if_neg hne.symm).trans hcell'))
    have hread : query (fun m => m.row entity) k = .ok source k := query_ok (row_ok hsource)
    have hread' : query (fun m => m.row target) k = .ok row' k := query_ok (row_ok hrow')
    exact ⟨t, (bind_ok hread).trans ((bind_ok hread').trans
      ((bind_ok hcopy).trans ((bind_ok hrun).trans rfl)))⟩
  · obtain ⟨t, hrun⟩ := hfree k hk.sound hcell'
    exact ⟨t, (bind_ok hrun).trans rfl⟩

end Memory

end PostScriptCore
