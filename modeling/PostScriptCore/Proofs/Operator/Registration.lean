import PostScriptCore.Proofs.Operator.Storage

/-!
# Registering operators

What `declare` and `cons` do to the listings.  The bytes of the registry move when they outgrow their
entities, and what is left behind goes to the free list; none of that shows in the listings.

* `OperatorTable.Settled` — the memory is in working order, and the registry is stored in it.
* `OperatorTable.declared`, `OperatorTable.appended` — the listings after `declare` and `cons`.
* `OperatorTable.within_declare`, `OperatorTable.within_cons` — the two operations, whether they succeed
  or fail.
-/

namespace PostScriptCore.OperatorTable

variable {ν α β : Type}

/-- A property of tables and the memories that hold them. -/
abbrev Condition (ν : Type) := OperatorTable ν → Memory → Prop

/-- The memory is in working order and has lost no row, and the condition holds as long as entity
numbers are words. -/
structure Settled (rows : Nat) (Q : Condition ν) (s : OperatorTable ν × Memory) : Prop where
  threaded : s.2.Threaded
  rows_le : rows ≤ s.2.entityCount
  holds : s.2.entityCount ≤ wordBound → Q s.1 s.2

/-- The operation ends in a settled state. -/
def Within (rows : Nat) (x : OperatorTableM ν α) (s : OperatorTable ν × Memory)
    (P : α → Condition ν) (E : Condition ν) : Prop :=
  Ends x s (fun a u => Settled rows (P a) u) (fun _ u => Settled rows E u)

variable {rows : Nat} {s : OperatorTable ν × Memory} {Q : Condition ν} {P : α → Condition ν}
  {R : β → Condition ν} {E : Condition ν}

lemma Settled.mono {Q' : Condition ν} (h : Settled rows Q s) (hQ : Q s.1 s.2 → Q' s.1 s.2) :
    Settled rows Q' s :=
  ⟨h.threaded, h.rows_le, fun hm => hQ (h.holds hm)⟩

namespace Within

lemma bind {x : OperatorTableM ν α} {f : α → OperatorTableM ν β} (hx : Within rows x s P E)
    (hf : ∀ a u, Settled rows (P a) u → Within rows (f a) u R E) : Within rows (x >>= f) s R E :=
  Ends.bind (Ends.mono hx (fun a u hu => hf a u hu) fun _ _ hu => hu)

lemma pure {a : α} (h : Settled rows (P a) s) : Within rows (Pure.pure a) s P E := h

lemma throw_bind {fault : Fault} {f : α → OperatorTableM ν β} (h : Settled rows E s) :
    Within rows ((MonadExcept.throw fault : OperatorTableM ν α) >>= f) s R E := h

lemma query {f : OperatorTable ν × Memory → Except Fault α} (h : Settled rows Q s)
    (hE : Q s.1 s.2 → E s.1 s.2) :
    Within rows (PostScriptCore.query f) s (fun a t m => f (t, m) = .ok a ∧ Q t m) E :=
  Ends.query (fun _ ha => ⟨h.threaded, h.rows_le, fun hm => ⟨ha, h.holds hm⟩⟩) fun _ _ => h.mono hE

lemma get_bind {f : OperatorTable ν × Memory → OperatorTableM ν β} (h : Within rows (f s) s R E) :
    Within rows (get >>= f) s R E := h

lemma modifyTable {f : OperatorTable ν → OperatorTable ν} {P : Unit → Condition ν}
    (h : Settled rows Q s) (hP : Q s.1 s.2 → P () (f s.1) s.2) :
    Within rows (modifyTable f) s P E :=
  ⟨h.threaded, h.rows_le, fun hm => hP (h.holds hm)⟩

lemma mono {P' : α → Condition ν} {E' : Condition ν} {x : OperatorTableM ν α}
    (hx : Within rows x s P E) (hP : ∀ a t m, P a t m → P' a t m) (hE : ∀ t m, E t m → E' t m) :
    Within rows x s P' E' :=
  Ends.mono hx (fun a _ hu => hu.mono (hP a _ _)) fun _ _ hu => hu.mono (hE _ _)

/-- What holds as long as entity numbers are words held before, because no row is lost. -/
lemma from_here {x : OperatorTableM ν α} (h : rows ≤ s.2.entityCount)
    (hx : Within s.2.entityCount x s P E) : Within rows x s P E :=
  Ends.mono hx (fun _ _ hu => ⟨hu.threaded, Nat.le_trans h hu.rows_le, hu.holds⟩)
    fun _ _ hu => ⟨hu.threaded, Nat.le_trans h hu.rows_le, hu.holds⟩

end Within

/-! ## Operations of the memory -/

open Memory (Secures Supplies Inherits)

/-- Beyond the words an operation only has to move. -/
lemma within_of_performs {x : MemoryM α} {A : Nat → Prop} {B : α → Memory → Prop}
    (h : Settled rows Q s) (hm : ¬ s.2.entityCount ≤ wordBound)
    (hx : Memory.Performs A x s.2 B) : Within rows (onMemory x) s P E := by
  have hmoved : ∀ n, Memory.Moves A s.2 n → ∀ C : Condition ν, Settled rows C (s.1, n) := by
    intro n hn C
    have hcount := (hn.anchors h.threaded.sound).count_le
    have hbeyond : ¬ n.entityCount ≤ wordBound := fun hbound => hm (Nat.le_trans hcount hbound)
    exact ⟨⟨hn.sound h.threaded.sound, fun hbound => absurd hbound hbeyond⟩,
      Nat.le_trans h.rows_le hcount, fun hbound => absurd hbound hbeyond⟩
  exact Ends.focus (Ends.mono hx (fun a n hn => hmoved n hn.1 (P a)) fun _ n hn => hmoved n hn E)

/-- Writing into a system entity. -/
lemma within_put {id offset : Nat} {bytes : List UInt8} {P : Unit → Condition ν}
    (h : Settled rows Q s)
    (hput : Q s.1 s.2 → ∃ cell, s.2.cell? id = some cell ∧ cell.tag.kind = .system ∧
      offset + bytes.length ≤ cell.bytes.length ∧
      ∀ n, Memory.Replaces s.2 n id ⟨cell.tag, patched cell.bytes offset bytes⟩ → P () s.1 n) :
    Within rows (onMemory (Memory.put id offset bytes)) s P E := by
  by_cases hm : s.2.entityCount ≤ wordBound
  · obtain ⟨cell, hcell, hsystem, hfit, hP⟩ := hput (h.holds hm)
    obtain ⟨n, hrun, hn⟩ := Memory.put_replaces h.threaded.sound hcell hfit
    have hlive : cell.isFree = false := by rw [Cell.isFree, hsystem]; rfl
    have hsecures := (h.threaded.secures (P := fun _ => False) fun _ hid => hid.elim).replaces hn
      hcell hlive fun _ hid => hid
    exact Ends.focus (.of_ok hrun ⟨hsecures.toThreaded,
      Nat.le_trans h.rows_le (Nat.le_of_eq hn.count.symm), fun _ => hP n hn⟩)
  · exact within_of_performs h hm
      (Memory.performs_put (A := fun _ => True) id offset bytes h.threaded.sound)

/-- Allocating an entity next to secured ones. -/
lemma within_allocateWithoutGc {size : Nat} {tag : Tag} {P : Nat → Condition ν}
    (places : Nat → Prop) (h : Settled rows Q s)
    (hplaces : Q s.1 s.2 → ∀ id, places id → ∃ cell, s.2.cell? id = some cell ∧
      cell.tag.kind = .system)
    (hok : Q s.1 s.2 → ∀ id n, n.entityCount ≤ wordBound → Secures places s.2 n →
      Supplies places s.2 size tag id n → P id s.1 n)
    (herr : Q s.1 s.2 → ∀ n, n.entityCount ≤ wordBound → Secures places s.2 n → E s.1 n) :
    Within rows (onMemory (Memory.allocateWithoutGc size tag)) s P E := by
  by_cases hm : s.2.entityCount ≤ wordBound
  · have hQ := h.holds hm
    refine Ends.focus (Ends.mono (Memory.secures_allocateWithoutGc
      (h.threaded.secures (hplaces hQ)) size tag) (fun id n hn => ?_) fun _ n hn => ?_)
    · exact ⟨hn.1.toThreaded, Nat.le_trans h.rows_le hn.1.count, fun hbound =>
        hok hQ id n hbound hn.1 hn.2⟩
    · exact ⟨hn.toThreaded, Nat.le_trans h.rows_le hn.count, fun hbound => herr hQ n hbound hn⟩
  · exact within_of_performs h hm (Memory.performs_allocateWithoutGc (A := fun _ => True) size tag
      h.threaded.sound fun _ _ _ => trivial)

/-- Moving a secured entity. -/
lemma within_reallocWithoutGc {id size : Nat} {P : Nat → Condition ν}
    (places : Nat → Prop) (h : Settled rows Q s)
    (hplaces : Q s.1 s.2 → places id ∧ ∀ id, places id → ∃ cell, s.2.cell? id = some cell ∧
      cell.tag.kind = .system)
    (hok : Q s.1 s.2 → ∀ target n, n.entityCount ≤ wordBound →
      Secures (fun j => places j ∧ j ≠ id) s.2 n → ¬ places target →
      (∀ cell, s.2.cell? id = some cell → Inherits n target size cell) → P target s.1 n)
    (herr : Q s.1 s.2 → ∀ n, n.entityCount ≤ wordBound → Secures places s.2 n → E s.1 n) :
    Within rows (onMemory (Memory.reallocWithoutGc id size)) s P E := by
  by_cases hm : s.2.entityCount ≤ wordBound
  · have hQ := h.holds hm
    obtain ⟨hid, hsystem⟩ := hplaces hQ
    refine Ends.focus (Ends.mono (Memory.secures_reallocWithoutGc
      (h.threaded.secures hsystem) id size) (fun target n hn => ?_) fun _ n hn => ?_)
    · obtain ⟨hsecures, hunsecured, hheld⟩ := hn
      exact ⟨hsecures.toThreaded, Nat.le_trans h.rows_le hsecures.count, fun hbound =>
        hok hQ target n hbound hsecures (hunsecured hbound) (hheld hbound hid)⟩
    · exact ⟨hn.toThreaded, Nat.le_trans h.rows_le hn.count, fun hbound => herr hQ n hbound hn⟩
  · exact within_of_performs h hm (Memory.performs_reallocWithoutGc (A := fun _ => True) id size
      h.threaded.sound fun _ _ _ _ _ => trivial)

/-! ## Room for an entry -/

variable {t : OperatorTable ν} {m n : Memory} {ls : List (Listing ν)}

/-- The entity of the entries has room for one more. -/
def HasRoom (t : OperatorTable ν) (m : Memory) : Prop :=
  ∃ cell, m.cell? t.entries = some cell ∧ (t.size + 1) * entrySize ≤ cell.bytes.length

/-- The registry is found again after its entries have moved. -/
lemma Stores.moveEntries (h : Stores t m ls) {target size : Nat} {cell : Cell}
    (hcell : m.cell? t.entries = some cell) (hsize : cell.bytes.length ≤ size)
    (hsecures : Secures (fun j => IsPlace t ls j ∧ j ≠ t.entries) m n)
    (hn : n.entityCount ≤ wordBound) (htarget : ¬ IsPlace t ls target)
    (hheld : Inherits n target size cell) : Stores { t with entries := target } n ls := by
  obtain ⟨bytes, htaken, -, hbegins⟩ := hheld
  rw [List.take_of_length_le hsize] at hbegins
  refine ⟨{ h with begins := fun l hl h0 => ?_, off_entries := fun l hl he => ?_ }, ?_⟩
  · rw [Begins, hsecures.kept hn _ ⟨.inr ⟨h0, l, hl, rfl⟩, h.off_entries l hl⟩]
    exact h.begins l hl h0
  · exact htarget (.inr ⟨Memory.ne_zero_of_cell htaken, l, hl, he⟩)
  · obtain ⟨cell', hcell', hsystem, hpacked⟩ := h.enters
    obtain rfl := Option.some.inj (hcell.symm.trans hcell')
    exact ⟨_, htaken, hsystem, hpacked.of_prefix hbegins⟩

/-- A size that is kept by the rule of doubling. -/
lemma le_larger {size : Nat} (needed : Nat) (hsize : size < wordBound) :
    size ≤ larger (if 2 * size < wordBound then 2 * size else wordBound - 1) needed ∧
      needed ≤ larger (if 2 * size < wordBound then 2 * size else wordBound - 1) needed := by
  rw [larger]
  split <;> split <;> omega

/-- The size of an entity is a word. -/
lemma size_lt_wordBound (hs : m.Sound) {id : Nat} {cell : Cell} (hcell : m.cell? id = some cell) :
    cell.bytes.length < wordBound := by
  obtain ⟨row, hid, hrow, -, hsize, -⟩ := Memory.row_of_cell hcell
  have hfits := (hs.fits hid hrow).2.2
  have hused := hs.arena.used_lt
  omega

/-- The row of an entity knows its size. -/
lemma size_of_row {id : Nat} {cell : Cell} {row : Row} (hcell : m.cell? id = some cell)
    (hrow : m.row id = .ok row) : row.size = cell.bytes.length := by
  obtain ⟨row', -, hrow', -, hsize, -⟩ := Memory.row_of_cell hcell
  obtain rfl := Option.some.inj ((Memory.row_eq_ok_iff.mp hrow).symm.trans hrow')
  exact hsize

lemma within_reserveEntry (h : Settled rows (fun t m => t = s.1 ∧ Stores t m ls) s) :
    Within rows reserveEntry s (fun _ t m => t.byName = s.1.byName ∧ Stores t m ls ∧ HasRoom t m)
      (fun t m => Stores t m ls) := by
  refine .get_bind ?_
  dsimp only
  split
  · exact .throw_bind (h.mono fun hQ => hQ.2)
  · refine .bind (.query h fun hQ => hQ.2) fun row u hu => ?_
    split
    · next hfull =>
      refine .bind (within_reallocWithoutGc (IsPlace s.1 ls)
        (P := fun target t m => t.byName = s.1.byName ∧ Stores { t with entries := target } m ls ∧
          HasRoom { t with entries := target } m) hu ?_ ?_ ?_) fun target v hv => ?_
      · rintro ⟨-, ht, hstores⟩
        exact ⟨.inl rfl, fun id hid => hstores.system (ht ▸ hid)⟩
      · rintro ⟨hrow, ht, hstores⟩ target n hn hsecures htarget hheld
        obtain ⟨cell, hcell, -⟩ := hstores.enters
        rw [ht] at hstores hcell
        have hsize := size_of_row hcell hrow
        have hlt := size_lt_wordBound hu.threaded.sound hcell
        have hlarger := le_larger ((s.1.size + 1) * entrySize) (hsize ▸ hlt)
        refine ⟨congrArg _ ht, ?_⟩
        rw [ht]
        refine ⟨hstores.moveEntries hcell (hsize ▸ hlarger.1) hsecures hn htarget
          (hheld cell hcell), ?_⟩
        obtain ⟨bytes, htaken, hroom, -⟩ := hheld cell hcell
        exact ⟨_, htaken, Nat.le_trans hlarger.2 hroom⟩
      · rintro ⟨-, ht, hstores⟩ n hn hsecures
        exact hstores.congr fun id hid => hsecures.kept hn id (ht ▸ hid)
      · exact .modifyTable hv fun hQ => hQ
    · next hroom =>
      refine hu.mono ?_
      rintro ⟨hrow, ht, hstores⟩
      refine ⟨congrArg _ ht, hstores, ?_⟩
      obtain ⟨cell, hcell, -⟩ := hstores.enters
      rw [ht] at hcell
      rw [HasRoom, ht]
      have hsize := size_of_row hcell hrow
      exact ⟨cell, hcell, by omega⟩

/-! ## Declaring a name -/

/-- The listings once a name is declared. -/
def declared (ls : List (Listing ν)) (name : Nat) : List (Listing ν) :=
  if name ∈ ls.map Listing.name then ls else ls ++ [⟨name, 0, []⟩]

lemma declared_of_mem {name : Nat} (h : name ∈ ls.map Listing.name) : declared ls name = ls :=
  if_pos h

lemma declared_of_not_mem {name : Nat} (h : name ∉ ls.map Listing.name) :
    declared ls name = ls ++ [⟨name, 0, []⟩] :=
  if_neg h

lemma forall_mem_concat {p : Listing ν → Prop} {x : Listing ν} (h : ∀ l ∈ ls, p l) (hx : p x) :
    ∀ l ∈ ls ++ [x], p l := by
  simpa [or_imp, forall_and] using ⟨h, hx⟩

/-- A listing with an entity of its own is not the new one. -/
lemma getElem?_of_concat {name i : Nat} {l : Listing ν}
    (hi : (ls ++ [⟨name, 0, []⟩])[i]? = some l) (h0 : l.list ≠ 0) : ls[i]? = some l := by
  rw [List.getElem?_append] at hi
  split at hi
  · exact hi
  · rw [List.getElem?_singleton] at hi
    split at hi
    · obtain rfl := Option.some.inj hi
      exact absurd rfl h0
    · contradiction

/-- The table that knows one more name. -/
def entered (t : OperatorTable ν) (name opcode : Nat) : OperatorTable ν :=
  { t with size := t.size + 1, byName := t.byName ++ [(name, opcode)] }

/-- The entry of a new name is written after the others, and the count and the opcodes follow. -/
lemma Stores.enterName (h : Stores t m ls) {name : Nat} {cell : Cell} (hname : name < wordBound)
    (hnew : name ∉ ls.map Listing.name) (hcell : m.cell? t.entries = some cell)
    (hroom : (t.size + 1) * entrySize ≤ cell.bytes.length)
    (hn : Memory.Replaces m n t.entries
      ⟨cell.tag, patched cell.bytes (t.size * entrySize) (OperatorEntry.encode ⟨name, 0, 0⟩)⟩) :
    Stores (t.entered name t.size) n (ls ++ [⟨name, 0, []⟩]) where
  size := by rw [entered, h.size, List.length_append, List.length_singleton]
  byName := by
    rw [entered, h.byName, h.size, List.map_append, List.zipIdx_append, List.length_map, Nat.zero_add]
    rfl
  nodup := by
    rw [List.map_append, List.map_singleton, List.nodup_append]
    refine ⟨h.nodup, List.nodup_singleton _, fun other hother found hfound he => hnew ?_⟩
    have hfound' : found = name := List.mem_singleton.mp hfound
    rwa [← hfound', ← he]
  word := forall_mem_concat h.word hname
  begins := by
    refine forall_mem_concat (fun l hl h0 => ?_) fun h0 => absurd rfl h0
    rw [Begins, hn.cell, if_neg (h.off_entries l hl)]
    exact h.begins l hl h0
  empty := forall_mem_concat h.empty (iff_of_true rfl rfl)
  off_entries := forall_mem_concat h.off_entries (Memory.ne_zero_of_cell hcell).symm
  apart := by
    intro i j l l' hi hj h0 he
    exact h.apart i j l l' (getElem?_of_concat hi h0) (getElem?_of_concat hj (he ▸ h0)) h0 he
  native := forall_mem_concat h.native nofun
  total := by simp [entered, h.total]
  enters := by
    obtain ⟨cell', hcell', hsystem, hpacked⟩ := h.enters
    obtain rfl := Option.some.inj (hcell.symm.trans hcell')
    refine ⟨_, (hn.cell _).trans (if_pos rfl), hsystem, ?_⟩
    have hsize : t.size = (ls.map Listing.entry).length := by rw [h.size, List.length_map]
    rw [hsize] at hroom ⊢
    rw [List.map_append]
    exact hpacked.concat rfl hroom

/-- The listing of an opcode has a name. -/
def NameAt (ls : List (Listing ν)) (opcode name : Nat) : Prop :=
  ∃ l, ls[opcode]? = some l ∧ l.name = name

/-- **Declaring a name** lists it once.  If it fails, nothing has changed. -/
lemma within_declare {name : Nat} (hname : name < wordBound)
    (h : Settled rows (fun t m => t = s.1 ∧ Stores t m ls) s) :
    Within rows (declare name) s
      (fun opcode t m => Stores t m (declared ls name) ∧ NameAt (declared ls name) opcode name)
      (fun t m => Stores t m ls) := by
  refine .get_bind ?_
  cases hlookup : s.1.lookup? name with
  | some opcode =>
      refine .pure (h.mono ?_)
      rintro ⟨-, hstores⟩
      have hat := hstores.lookup?_eq_some_iff.mp hlookup
      obtain ⟨l, hl, hlname⟩ := hat
      rw [declared_of_mem (List.mem_map.mpr ⟨l, mem_of_getElem? hl, hlname⟩)]
      exact ⟨hstores, l, hl, hlname⟩
  | none =>
      refine .bind (within_reserveEntry h) fun _ u hu => .get_bind ?_
      refine .bind (P := fun _ t m =>
          Stores (t.entered name u.1.size) m (declared ls name) ∧
            NameAt (declared ls name) u.1.size name) (.get_bind (within_put hu ?_)) fun _ v hv => ?_
      · rintro ⟨hbyName, hstores, cell, hcell, hroom⟩
        have hnew : name ∉ ls.map Listing.name := by
          rw [← hstores.lookup?_eq_none_iff, lookup?, hbyName, ← lookup?, hlookup]
        obtain ⟨cell', hcell', hsystem, -⟩ := hstores.enters
        obtain rfl := Option.some.inj (hcell.symm.trans hcell')
        refine ⟨cell, hcell, hsystem, Nat.succ_mul _ _ ▸ hroom, fun n hn => ?_⟩
        rw [declared_of_not_mem hnew]
        refine ⟨hstores.enterName hname hnew hcell hroom hn, ⟨name, 0, []⟩, ?_, rfl⟩
        rw [hstores.size, List.getElem?_concat_length]
      · exact .bind (.modifyTable hv fun hQ => hQ) fun _ w hw => .pure hw

/-! ## Room for a signature -/

/-- The entity has room for one more signature after those of a listing. -/
def Spacious (n : Memory) (list : Nat) (l : Listing ν) : Prop :=
  list ≠ 0 ∧ ∃ cell, n.cell? list = some cell ∧ cell.tag.kind = .system ∧
    Packed Signature.encode signatureSize l.signatures cell.bytes ∧
    (l.registrations.length + 1) * signatureSize ≤ cell.bytes.length

/-- The signatures of one listing have room for one more, perhaps in another entity.  Everything
else is where it was in the memory `b`, where the registry was stored. -/
structure Reserved (t : OperatorTable ν) (ls : List (Listing ν)) (opcode : Nat) (l : Listing ν)
    (b : Memory) (list : Nat) (n : Memory) : Prop where
  stores : Stores t b ls
  listing : ls[opcode]? = some l
  spacious : Spacious n list l
  place : list = l.list ∨ ¬ IsPlace t ls list
  kept : ∀ id, IsPlace t ls id → id ≠ l.list → n.cell? id = b.cell? id

lemma within_reserveSignature {opcode : Nat} {l : Listing ν} {entry : OperatorEntry}
    (h : Settled rows (fun t m => t = s.1 ∧ m = s.2 ∧ Stores t m ls ∧ ls[opcode]? = some l ∧
      entry = l.entry) s) :
    Within rows (reserveSignature entry) s
      (fun list t m => t = s.1 ∧ entry = l.entry ∧ Reserved t ls opcode l s.2 list m)
      (fun t m => Stores t m ls) := by
  rw [reserveSignature]
  split
  · next hnone =>
    refine within_allocateWithoutGc (IsPlace s.1 ls) h ?_ ?_ ?_
    · rintro ⟨-, -, hstores, -⟩ id hid
      exact hstores.system hid
    · rintro ⟨-, -, hstores, hl, rfl⟩ id n hn hsecures hnew
      have hempty : l.registrations = [] := (hstores.empty l (mem_of_getElem? hl)).mp hnone
      obtain ⟨row, h0, hrow, hsize, htag, -⟩ := hnew.owned
      refine ⟨rfl, rfl, hstores, hl, ⟨h0, _, Memory.cell?_of_row h0 hrow, by simp [htag], ?_, ?_⟩,
        .inr (hnew.unsecured hn), fun id hid _ => hsecures.kept hn id hid⟩
      · rw [Listing.signatures, hempty]
        exact .nil
      · rw [hempty, Image.length_read, List.length_nil]
        omega
    · rintro ⟨-, -, hstores, -⟩ n hn hsecures
      exact hstores.congr fun id hid => hsecures.kept hn id hid
  · next hsome =>
    refine .bind (.query h fun hQ => hQ.2.2.1) fun row u hu => ?_
    split
    · split
      · exact .throw_bind (hu.mono fun hQ => hQ.2.2.2.1)
      · next hfull hword =>
        refine within_reallocWithoutGc (IsPlace s.1 ls) hu ?_ ?_ ?_
        · rintro ⟨-, ht, -, hstores, hl, rfl⟩
          exact ⟨.inr ⟨hsome, l, mem_of_getElem? hl, rfl⟩, fun id hid => hstores.system (ht ▸ hid)⟩
        · rintro ⟨hrow, ht, hm, hstores, hl, rfl⟩ target n hn hsecures htarget hheld
          have hmem := mem_of_getElem? hl
          obtain ⟨cell, hcell, hsystem, hpacked⟩ := hstores.begins l hmem hsome
          have hsize : row.size = cell.bytes.length := size_of_row hcell hrow
          obtain ⟨bytes, htaken, hroom, hbegins⟩ := hheld cell hcell
          rw [List.take_of_length_le (by omega)] at hbegins
          -- a list that exists has a signature, so that doubling it makes room for one more
          have hcount := hpacked.length_le
          rw [Listing.signatures, List.length_map] at hcount
          have hpos : l.registrations.length ≠ 0 := fun h0 =>
            hsome ((hstores.empty l hmem).mpr (List.eq_nil_of_length_eq_zero h0))
          refine ⟨ht, rfl, hm ▸ hstores, hl, ⟨Memory.ne_zero_of_cell htaken, _, htaken, hsystem,
            hpacked.of_prefix hbegins, ?_⟩, .inr (ht ▸ htarget), fun id hid hne => ?_⟩
          · simp only [signatureSize] at hcount hroom ⊢
            omega
          · exact (hsecures.kept hn id ⟨ht ▸ hid, hne⟩).trans (by rw [hm])
        · rintro ⟨-, ht, -, hstores, -⟩ n hn hsecures
          exact hstores.congr fun id hid => hsecures.kept hn id (ht ▸ hid)
    · next hroom =>
      refine .pure (hu.mono ?_)
      rintro ⟨hrow, ht, hm, hstores, hl, rfl⟩
      obtain ⟨cell, hcell, hsystem, hpacked⟩ := hstores.begins l (mem_of_getElem? hl) hsome
      have hsize : row.size = cell.bytes.length := size_of_row hcell hrow
      refine ⟨ht, rfl, hm ▸ hstores, hl, ⟨hsome, cell, hcell, hsystem, hpacked, ?_⟩, .inl rfl,
        fun id _ _ => by rw [hm]⟩
      simp only [Listing.entry] at hroom
      omega

/-! ## Appending a definition -/

/-- A listing with one more definition, and with its signatures perhaps in another entity. -/
def extended (l : Listing ν) (list : Nat) (r : Registration ν) : Listing ν :=
  { l with list, registrations := l.registrations ++ [r] }

lemma signature_ofNat (patterns : List Pattern) (outArity : Nat) (native : ν) (number : Nat) :
    Registration.signature ⟨⟨patterns, UInt8.ofNat outArity, native⟩, number⟩ =
      Signature.ofPatterns patterns outArity number := by
  simp only [Registration.signature, Signature.ofPatterns, UInt8.ofNat_toNat]

lemma signatures_extended (l : Listing ν) (list : Nat) (r : Registration ν) :
    (extended l list r).signatures = l.signatures ++ [r.signature] :=
  List.map_append

/-- The listings with one more definition for an opcode. -/
def appended (ls : List (Listing ν)) (opcode list : Nat) (r : Registration ν) : List (Listing ν) :=
  ls.modify opcode fun l => extended l list r

/-- The memory in which the signature has been written, but not the entry yet. -/
structure Written (t : OperatorTable ν) (ls : List (Listing ν)) (opcode : Nat) (l : Listing ν)
    (b : Memory) (list : Nat) (r : Registration ν) (n : Memory) : Prop where
  stores : Stores t b ls
  listing : ls[opcode]? = some l
  begins : Begins n list Signature.encode signatureSize (l.signatures ++ [r.signature])
  place : list = l.list ∨ ¬ IsPlace t ls list
  kept : ∀ id, IsPlace t ls id → id ≠ l.list → n.cell? id = b.cell? id

section Append

variable {b k : Memory} {opcode list : Nat} {l : Listing ν} {r : Registration ν}

lemma Reserved.written (h : Reserved t ls opcode l b list m) (hr : r.patterns.length ≤ maxArity) :
    ∃ cell, m.cell? list = some cell ∧ cell.tag.kind = .system ∧
      l.registrations.length * signatureSize + r.signature.encode.length ≤ cell.bytes.length ∧
      ∀ n, Memory.Replaces m n list ⟨cell.tag,
        patched cell.bytes (l.registrations.length * signatureSize) r.signature.encode⟩ →
        Written t ls opcode l b list r n := by
  obtain ⟨-, cell, hcell, hsystem, hpacked, hroom⟩ := h.spacious
  have hlength : r.signature.encode.length = signatureSize :=
    Signature.length_encode (Signature.length_codes_ofPatterns hr)
  refine ⟨cell, hcell, hsystem, by rw [hlength, ← Nat.succ_mul]; exact hroom, fun n hn => ?_⟩
  refine ⟨h.stores, h.listing, ⟨_, (hn.cell list).trans (if_pos rfl), hsystem, ?_⟩, h.place,
    fun id hid hne => ?_⟩
  · have hcount : l.signatures.length = l.registrations.length := List.length_map _
    rw [← hcount] at hroom ⊢
    exact hpacked.concat hlength hroom
  · rw [hn.cell, if_neg, h.kept id hid hne]
    rintro rfl
    rcases h.place with he | hnot
    · exact hne he
    · exact hnot hid

lemma getElem?_appended (ls : List (Listing ν)) (opcode list : Nat) (r : Registration ν) (j : Nat) :
    (appended ls opcode list r)[j]? =
      if opcode = j then ls[j]?.map fun l => extended l list r else ls[j]? := by
  rw [appended, List.getElem?_modify]
  split <;> simp

lemma map_name_appended (ls : List (Listing ν)) (opcode list : Nat) (r : Registration ν) :
    (appended ls opcode list r).map Listing.name = ls.map Listing.name := by
  refine List.ext_getElem? fun j => ?_
  rw [List.getElem?_map, getElem?_appended, List.getElem?_map]
  split
  · rw [Option.map_map]
    rfl
  · rfl

/-- What holds of the other listings and of the longer one holds of all. -/
lemma forall_mem_appended {p : Listing ν → Prop} {opcode list : Nat} {r : Registration ν}
    {l : Listing ν} (hl : ls[opcode]? = some l)
    (hothers : ∀ j l', ls[j]? = some l' → j ≠ opcode → p l') (hlonger : p (extended l list r)) :
    ∀ l' ∈ appended ls opcode list r, p l' := by
  intro l' hl'
  obtain ⟨j, hj⟩ := List.mem_iff_getElem?.mp hl'
  rw [getElem?_appended] at hj
  split at hj
  · next he =>
    subst he
    rw [hl, Option.map_some] at hj
    exact Option.some.inj hj ▸ hlonger
  · next hne => exact hothers j l' hj (Ne.symm hne)

lemma Written.ne_zero (hw : Written t ls opcode l b list r n) : list ≠ 0 := by
  obtain ⟨cell, hheld, -⟩ := hw.begins
  exact Memory.ne_zero_of_cell hheld

lemma Written.ne_entries (hw : Written t ls opcode l b list r n) : list ≠ t.entries := by
  rcases hw.place with he | hnot
  · exact he ▸ hw.stores.off_entries l (mem_of_getElem? hw.listing)
  · exact fun he => hnot (.inl he)

/-- The entries are still where they were. -/
lemma Written.entries (hw : Written t ls opcode l b list r n) :
    n.cell? t.entries = b.cell? t.entries :=
  hw.kept _ (.inl rfl) (hw.stores.off_entries l (mem_of_getElem? hw.listing)).symm

/-- No other name keeps its signatures in the entity of the longer list. -/
lemma Written.ne_other (hw : Written t ls opcode l b list r n) {j : Nat} {l' : Listing ν}
    (hj : ls[j]? = some l') (hne : j ≠ opcode) (h0 : l'.list ≠ 0) :
    l'.list ≠ l.list ∧ l'.list ≠ list := by
  have hne' : l'.list ≠ l.list := fun he =>
    hne (hw.stores.apart j opcode l' l hj hw.listing h0 he)
  refine ⟨hne', fun he => ?_⟩
  rcases hw.place with he' | hnot
  · exact hne' (he.trans he')
  · exact hnot (.inr ⟨hw.ne_zero, l', mem_of_getElem? hj, he⟩)

/-- One more native leaves the numbers of the others. -/
lemma getElem?_push_native {natives : Array ν} {number : Nat} {native : ν} (other : ν)
    (h : natives[number]? = some native) : (natives.push other)[number]? = some native := by
  obtain ⟨hlt, -⟩ := Array.getElem?_eq_some_iff.mp h
  rw [Array.getElem?_push, if_neg (Nat.ne_of_lt hlt), h]

/-- **The entry of a longer list completes it.** -/
lemma Written.stores_appended {cell : Cell} (hw : Written t ls opcode l b list r n)
    (hr : r.patterns.length ≤ maxArity) (hnumber : r.number = t.natives.size)
    (hcell : n.cell? t.entries = some cell)
    (hk : Memory.Replaces n k t.entries ⟨cell.tag, patched cell.bytes (opcode * entrySize)
      (extended l list r).entry.encode⟩) :
    Stores { t with natives := t.natives.push r.native } k (appended ls opcode list r) where
  size := by
    rw [appended, List.length_modify]
    exact hw.stores.size
  byName := by
    rw [map_name_appended]
    exact hw.stores.byName
  nodup := by
    rw [map_name_appended]
    exact hw.stores.nodup
  word := forall_mem_appended hw.listing (fun _ _ hj _ => hw.stores.word _ (mem_of_getElem? hj))
    (hw.stores.word l (mem_of_getElem? hw.listing))
  begins := by
    refine forall_mem_appended hw.listing (fun j l' hj hne h0 => ?_) fun _ => ?_
    · have hl' := mem_of_getElem? hj
      rw [Begins, hk.cell, if_neg (hw.stores.off_entries l' hl'),
        hw.kept _ (.inr ⟨h0, l', hl', rfl⟩) (hw.ne_other hj hne h0).1]
      exact hw.stores.begins l' hl' h0
    · have hne : (extended l list r).list ≠ t.entries := hw.ne_entries
      rw [Begins, hk.cell, if_neg hne, signatures_extended]
      exact hw.begins
  empty := forall_mem_appended hw.listing (fun _ _ hj _ => hw.stores.empty _ (mem_of_getElem? hj))
    (iff_of_false hw.ne_zero (by simp [extended]))
  off_entries := forall_mem_appended hw.listing
    (fun _ _ hj _ => hw.stores.off_entries _ (mem_of_getElem? hj)) hw.ne_entries
  apart := by
    intro i j l₁ l₂ hi hj h0 he
    rw [getElem?_appended] at hi hj
    split at hi <;> split at hj
    · omega
    · next hio hjo =>
      subst hio
      rw [hw.listing, Option.map_some] at hi
      obtain rfl := Option.some.inj hi
      exact absurd he.symm (hw.ne_other hj (Ne.symm hjo) (he ▸ h0)).2
    · next hio hjo =>
      subst hjo
      rw [hw.listing, Option.map_some] at hj
      obtain rfl := Option.some.inj hj
      exact absurd he (hw.ne_other hi (Ne.symm hio) h0).2
    · exact hw.stores.apart i j l₁ l₂ hi hj h0 he
  native := by
    have hold : ∀ l' ∈ ls, ∀ r' ∈ l'.registrations, r'.patterns.length ≤ maxArity ∧
        (t.natives.push r.native)[r'.number]? = some r'.native := fun l' hl' r' hr' =>
      have hnative := hw.stores.native l' hl' r' hr'
      ⟨hnative.1, getElem?_push_native _ hnative.2⟩
    refine forall_mem_appended hw.listing (fun _ _ hj _ => hold _ (mem_of_getElem? hj))
      fun r' hr' => ?_
    rcases List.mem_append.mp hr' with hr' | hr'
    · exact hold l (mem_of_getElem? hw.listing) r' hr'
    · obtain rfl := List.mem_singleton.mp hr'
      exact ⟨hr, by simp [hnumber]⟩
  total := by
    have hsum := Memory.sum_map_modify (fun l : Listing ν => l.registrations.length)
      (fun l => extended l list r) ls opcode l hw.listing
    simp only [extended, List.length_append, List.length_singleton] at hsum
    rw [Array.size_push, hw.stores.total, appended]
    simp only [extended]
    omega
  enters := by
    obtain ⟨cell', hcell', hsystem, hpacked⟩ := hw.stores.enters
    obtain rfl := Option.some.inj (hcell.symm.trans (hw.entries.trans hcell'))
    refine ⟨_, (hk.cell _).trans (if_pos rfl), hsystem, ?_⟩
    have hroom := (hpacked opcode l.entry (by rw [List.getElem?_map, hw.listing]; rfl)).1
    refine hpacked.patched rfl hroom fun j e he => ?_
    rw [List.getElem?_map, getElem?_appended] at he
    split at he
    · next hj =>
      subst hj
      rw [hw.listing] at he
      rw [if_pos rfl]
      exact (Option.some.inj he).symm
    · next hj =>
      rw [if_neg (Ne.symm hj), List.getElem?_map]
      exact he

end Append

variable [NativeArity ν]

/-- What a failed `cons` may leave behind: at most the new name, without definitions. -/
def Refused (ls : List (Listing ν)) (name : Nat) : Condition ν := fun t m =>
  Stores t m ls ∨ Stores t m (declared ls name)

/-- **Registering a definition** appends it to those of its name.  If it fails, the name may have
been declared, and nothing else has changed. -/
lemma within_cons {name outArity : Nat} {native : ν} {patterns : List Pattern}
    (hname : name < wordBound) (h : Settled rows (fun t m => t = s.1 ∧ Stores t m ls) s) :
    Within rows (cons name native outArity patterns) s
      (fun opcode t m => NameAt (declared ls name) opcode name ∧ ∃ list number,
        Stores t m (appended (declared ls name) opcode list
          ⟨⟨patterns, UInt8.ofNat outArity, native⟩, number⟩))
      (Refused ls name) := by
  rw [cons]
  split
  · exact .throw_bind (h.mono fun hQ => .inl hQ.2)
  · next harity =>
    refine .bind ((within_declare hname h).mono (fun _ _ _ hQ => hQ) fun _ _ hQ => .inl hQ)
      fun opcode u hu => ?_
    refine .bind (.query hu fun hQ => .inr hQ.1) fun entry v hv => .from_here hv.rows_le ?_
    -- the listing of the opcode
    let l := (declared ls name)[opcode]?.getD ⟨0, 0, []⟩
    have hv' : Settled v.2.entityCount (fun t m => t = v.1 ∧ m = v.2 ∧
        Stores t m (declared ls name) ∧ (declared ls name)[opcode]? = some l ∧ entry = l.entry) v := by
      refine ⟨hv.threaded, Nat.le_refl _, fun hm => ?_⟩
      obtain ⟨hentry, hstores, l', hl', -⟩ := hv.holds hm
      have hl : l = l' := by simp only [l, hl', Option.getD_some]
      refine ⟨rfl, rfl, hstores, hl ▸ hl', ?_⟩
      rw [hl]
      exact Except.ok.inj (hentry.symm.trans (hstores.entry hv.threaded.sound hm hl'))
    refine .bind ((within_reserveSignature hv').mono (fun _ _ _ hQ => hQ) fun _ _ hQ => .inr hQ)
      fun list w hw => .get_bind ?_
    let r : Registration ν := ⟨⟨patterns, UInt8.ofNat outArity, native⟩, w.1.natives.size⟩
    have hr : r.patterns.length ≤ maxArity := by simp only [r]; omega
    have hsignature : r.signature = Signature.ofPatterns patterns outArity w.1.natives.size :=
      signature_ofNat ..
    refine .bind (P := fun _ t m => t = w.1 ∧ entry = l.entry ∧
      Written t (declared ls name) opcode l v.2 list r m) (within_put hw ?_) fun _ x hx => ?_
    · rintro ⟨ht, rfl, hreserved⟩
      rw [← hsignature]
      obtain ⟨cell, hcell, hsystem, hfit, hn⟩ := hreserved.written hr
      rw [ht] at hn ⊢
      exact ⟨cell, hcell, hsystem, hfit, fun n hreplaces => ⟨rfl, rfl, ht ▸ hn n hreplaces⟩⟩
    · refine .bind (P := fun _ t m => entry = l.entry ∧ ∃ t₀ : OperatorTable ν,
        t = { t₀ with natives := t₀.natives.push native } ∧ r.number = t₀.natives.size ∧
          Written t₀ (declared ls name) opcode l v.2 list r m)
        (.modifyTable hx ?_) fun _ y hy => ?_
      · rintro ⟨ht, hentry, hwritten⟩
        exact ⟨hentry, x.1, rfl, congrArg (fun t => t.natives.size) ht.symm, hwritten⟩
      · refine .bind (P := fun _ t m => Stores t m (appended (declared ls name) opcode list r))
          (.get_bind (within_put hy ?_)) fun _ z hz => .pure ⟨hz.threaded, hz.rows_le, fun hm => ?_⟩
        · rintro ⟨rfl, t₀, ht, hnumber, hwritten⟩
          rw [ht]
          obtain ⟨cell, hcell, hsystem, hpacked⟩ := hwritten.stores.enters
          have hat : ((declared ls name).map Listing.entry)[opcode]? = some l.entry := by
            rw [List.getElem?_map, hwritten.listing]
            rfl
          have hroom := (hpacked opcode _ hat).1
          have hentry : (extended l list r).entry =
              { l.entry with signatures := list, count := l.entry.count + 1 } := by
            simp [extended, Listing.entry]
          rw [← hentry]
          refine ⟨cell, hwritten.entries.trans hcell, hsystem, Nat.succ_mul _ _ ▸ hroom,
            fun n hn => hwritten.stores_appended hr hnumber (hwritten.entries.trans hcell) hn⟩
        · exact ⟨(hv.holds (Nat.le_trans hz.rows_le hm)).2.2, list, _, hz.holds hm⟩

end PostScriptCore.OperatorTable
