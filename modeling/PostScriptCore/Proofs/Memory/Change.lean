import PostScriptCore.Proofs.Memory.Levels
import PostScriptCore.Memory.Allocate
import Mathlib.Tactic.Tauto

/-!
# Changes that a restore undoes

Everything an operation does to a memory between a `save` and its `restore` comes down to a few kinds
of change.  Each of them keeps a sound memory sound and leads back, level by level, to the same
memories as before.

* `Memory.Sound` — a usable arena, an honest search for storage and restorable levels.
* `Memory.touched` — the memory after `touch`, as a plain function; from then on the entity is
  `Memory.Covered` by the innermost level.
* `Memory.Carries` — the change keeps the memory sound, and closing the innermost level afterwards
  leads to a memory like the one it led to before.
* `Memory.carries_touched`, `Memory.carries_edited`, `Memory.carries_pushed`,
  `Memory.carries_of_outline` — remembering an entity, changing a covered one, appending a row and
  changing pins or collector bits are such changes.
-/

namespace PostScriptCore

/-- A search for storage that never hands out an entity without looking at the free list. -/
def FitPolicy.Honest : FitPolicy → Prop
  | .fixed (.ok (.reused _)) => False
  | _ => True

namespace Memory

/-- A memory that is in working order. -/
structure Sound (m : Memory) : Prop where
  arena : m.arena.Sound
  policy : m.policy.Honest
  restorable : Restorable m

lemma Sound.layout {m : Memory} (h : Sound m) : Layout m := h.restorable.layout

/-- Row 0 exists and has no storage. -/
lemma Sound.head {m : Memory} (h : Sound m) : ∃ row, m.rows[0]? = some row ∧ row.size = 0 := by
  obtain ⟨row, hrow, hsize⟩ := h.layout.head
  obtain ⟨full, hfull, hplain⟩ := row_of_outline hrow
  exact ⟨full, hfull, by rw [← Row.plain_size, hplain]; exact hsize⟩

lemma Sound.fits {m : Memory} (h : Sound m) {id : Nat} {row : Row} (hid : id ≠ 0)
    (hrow : m.rows[id]? = some row) :
    row.address % arenaAlign = 0 ∧ row.size % arenaAlign = 0 ∧
      row.address + row.size ≤ m.arena.used :=
  h.layout.fits id row.plain (Nat.pos_of_ne_zero hid) (outline_of_row hrow)

lemma row_lt {m : Memory} {id : Nat} {row : Row} (h : m.rows[id]? = some row) :
    id < m.entityCount :=
  (Array.getElem?_eq_some_iff.mp h).1

lemma exists_row {m : Memory} {id : Nat} (h : id < m.entityCount) :
    ∃ row, m.rows[id]? = some row :=
  ⟨m.rows[id], Array.getElem?_eq_getElem h⟩

/-! ## Changes that lead back to the same memory -/

/-- The innermost level remembers the entity, or the entity is newer than the level. -/
def Covered (m : Memory) (id : Nat) : Prop :=
  ∀ record outer, m.saves = record :: outer →
    record.entityCount ≤ id ∨ ∃ s ∈ record.snapshots, s.id = id

/-- How the open levels of `n` continue those of `m`: the innermost one may remember more, and
closing it leads to a memory that is alike. -/
inductive Continues (m n : Memory) : Prop
  | base (saves : m.saves = []) (saves' : n.saves = [])
  | level (record record' : SaveRecord) (outer : List SaveRecord)
      (saves : m.saves = record :: outer) (saves' : n.saves = record' :: outer)
      (count : record'.entityCount = record.entityCount) (used : record'.used = record.used)
      (more : ∀ s ∈ record.snapshots, s ∈ record'.snapshots)
      (covers : Covers n record') (undone : Alike m.undone n.undone)

/-- A change that keeps a memory in working order and that closing the innermost level undoes. -/
structure Carries (m n : Memory) : Prop where
  arena : n.arena.Sound
  policy : n.policy.Honest
  layout : Layout n
  continues : Continues m n

lemma Carries.level {m n : Memory} (h : Carries m n) : n.level = m.level := by
  cases h.continues with
  | base saves saves' => rw [Memory.level, Memory.level, saves, saves']
  | level record record' outer saves saves' _ _ _ _ _ =>
      rw [Memory.level, Memory.level, saves, saves']
      rfl

lemma Carries.sound {m n : Memory} (h : Carries m n) (hs : Sound m) : Sound n where
  arena := h.arena
  policy := h.policy
  restorable := by
    cases h.continues with
    | base saves saves' => exact .base saves' h.layout
    | level record record' outer saves saves' _ _ _ covers undone =>
        exact .level record' outer saves' h.layout covers (hs.restorable.undone.congr undone)

lemma Carries.refl {m : Memory} (hs : Sound m) : Carries m m where
  arena := hs.arena
  policy := hs.policy
  layout := hs.layout
  continues := by
    cases hsaves : m.saves with
    | nil => exact .base hsaves hsaves
    | cons record outer =>
        exact .level record record outer hsaves hsaves rfl rfl (fun _ h => h)
          (hs.restorable.covers hsaves) (Alike.refl _)

lemma Carries.trans {m n k : Memory} (h : Carries m n) (h' : Carries n k) : Carries m k where
  arena := h'.arena
  policy := h'.policy
  layout := h'.layout
  continues := by
    cases h.continues with
    | base saves saves' =>
        cases h'.continues with
        | base _ saves'' => exact .base saves saves''
        | level _ _ _ saves'' _ _ _ _ _ _ =>
            rw [saves'] at saves''
            contradiction
    | level record record' outer saves saves' count used more _ undone =>
        cases h'.continues with
        | base saves'' _ =>
            rw [saves'] at saves''
            contradiction
        | level r r' o saves'' saves''' count' used' more' covers' undone' =>
            rw [saves'] at saves''
            injection saves'' with hr ho
            subst hr ho
            exact .level record r' outer saves saves''' (count'.trans count) (used'.trans used)
              (fun s hs => more' s (more s hs)) covers' (undone.trans undone')

/-! ## One row changed -/

/-- The outline after one row has been changed. -/
lemma outline_of_modify {m n : Memory} {id : Nat} {row : Row} {f : Row → Row}
    (hrow : m.rows[id]? = some row) (h : n.rows = m.rows.modify id f) (j : Nat) :
    n.outline j = if j = id then some (f row).plain else m.outline j := by
  rw [outline, h, Array.getElem?_modify]
  split
  · next he =>
    subst he
    rw [if_pos rfl, hrow]
    rfl
  · next he =>
    rw [if_neg (Ne.symm he)]
    rfl

/-- `n` is `m` with one row changed.  The row keeps its size and, unless it is the reserved one, its
address; it may become younger, up to the current level. -/
structure Amends (m n : Memory) (id : Nat) (row row' : Row) : Prop where
  before : m.outline id = some row
  outline : ∀ j, n.outline j = if j = id then some row' else m.outline j
  count : n.entityCount = m.entityCount
  used : n.arena.used = m.arena.used
  level : n.level = m.level
  size : row'.size = row.size
  address : id ≠ 0 → row'.address = row.address
  younger : row.mark.created.val ≤ row'.mark.created.val
  within : row'.mark.created.val ≤ m.level ∧ row'.mark.snapshot.val ≤ m.level

/-- A row after the change comes from a row before it. -/
lemma Amends.origin {m n : Memory} {id : Nat} {row row' : Row} (h : Amends m n id row row')
    {j : Nat} {r' : Row} (hr : n.outline j = some r') :
    ∃ r, m.outline j = some r ∧ r'.size = r.size ∧ (j ≠ 0 → r'.address = r.address) := by
  rw [h.outline] at hr
  split at hr
  · next he =>
    subst he
    injection hr with hr
    subst hr
    exact ⟨row, h.before, h.size, h.address⟩
  · exact ⟨r', hr, rfl, fun _ => rfl⟩

lemma Amends.layout {m n : Memory} {id : Nat} {row row' : Row} (h : Amends m n id row row')
    (hl : Layout m) : Layout n where
  head := by
    obtain ⟨r, hr, hsize⟩ := hl.head
    rw [h.outline]
    split
    · next he =>
      subst he
      have hrow := h.before
      rw [hr] at hrow
      injection hrow with hrow
      exact ⟨row', rfl, by rw [h.size, ← hrow, hsize]⟩
    · exact ⟨r, hr, hsize⟩
  aligned := by rw [h.used]; exact hl.aligned
  fits := by
    intro j r' hj hr'
    obtain ⟨r, hr, hsize, haddr⟩ := h.origin hr'
    rw [hsize, haddr (Nat.pos_iff_ne_zero.mp hj), h.used]
    exact hl.fits j r hj hr
  disjoint := by
    intro i j r₁ r₂ hi hij h₁ h₂
    obtain ⟨r₁', h₁', hs₁, ha₁⟩ := h.origin h₁
    obtain ⟨r₂', h₂', hs₂, ha₂⟩ := h.origin h₂
    rw [hs₁, hs₂, ha₁ (by omega), ha₂ (by omega)]
    exact hl.disjoint i j r₁' r₂' hi hij h₁' h₂'
  within := by
    intro j r' hr'
    rw [h.outline] at hr'
    rw [h.level]
    split at hr'
    · injection hr' with hr'
      subst hr'
      exact h.within
    · exact hl.within j r' hr'

lemma Amends.matches {m n : Memory} {id : Nat} {row row' : Row} (h : Amends m n id row row')
    {record : SaveRecord} {s : Snapshot} (hm : Matches m record s) : Matches n record s where
  old := hm.old
  length := hm.length
  earlier := by rw [h.level]; exact hm.earlier
  place := by
    obtain ⟨r, hr, hsize, haddr⟩ := hm.place
    rw [h.outline]
    split
    · next he =>
      subst he
      have hrow := h.before
      rw [hr] at hrow
      injection hrow with hrow
      subst hrow
      exact ⟨row', rfl, h.size.trans hsize, fun h0 => (h.address h0).trans (haddr h0)⟩
    · exact ⟨r, hr, hsize, haddr⟩

/-- A record covers the changed memory if it remembers at least as much and covers the changed
row. -/
lemma Amends.covers {m n : Memory} {id : Nat} {row row' : Row} (h : Amends m n id row row')
    {record record' : SaveRecord} (hc : Covers m record)
    (hcount : record'.entityCount = record.entityCount) (hused : record'.used = record.used)
    (hmore : ∀ s ∈ record.snapshots, s ∈ record'.snapshots)
    (hknown : ∀ s ∈ record'.snapshots, Matches m record' s)
    (hrow : record.entityCount ≤ id ∨ ∃ s ∈ record'.snapshots, s.id = id) :
    Covers n record' where
  level_le := by rw [h.level]; exact hc.level_le
  pos := by rw [hcount]; exact hc.pos
  count_le := by rw [hcount, h.count]; exact hc.count_le
  used_le := by rw [hused, h.used]; exact hc.used_le
  aligned := by rw [hused]; exact hc.aligned
  old := by
    intro j r' hj hlt hr'
    obtain ⟨r, hr, hsize, haddr⟩ := h.origin hr'
    rw [hsize, haddr (by omega), hused]
    exact hc.old j r hj (hcount ▸ hlt) hr
  new := by
    intro j r' hle hr'
    rw [hcount] at hle
    rw [h.level, hused]
    obtain ⟨r, hr, -, haddr⟩ := h.origin hr'
    have hpos := hc.pos
    obtain ⟨hlow, hcreated⟩ := hc.new j r hle hr
    refine ⟨by rw [haddr (by omega)]; exact hlow, ?_⟩
    rw [h.outline] at hr'
    split at hr'
    · next he =>
      subst he
      injection hr' with hr'
      subst hr'
      have hrow := h.before
      rw [hr] at hrow
      injection hrow with hrow
      subst hrow
      exact Nat.le_trans hcreated h.younger
    · rw [hr'] at hr
      injection hr with hr
      rw [hr]
      exact hcreated
  remembered := by
    intro j r' hlt hr' hmark
    rw [hcount] at hlt
    rw [h.level] at hmark
    rw [h.outline] at hr'
    split at hr'
    · next he =>
      subst he
      exact hrow.resolve_left (by omega)
    · obtain ⟨s, hs, hid⟩ := hc.remembered j r' hlt hr' hmark
      exact ⟨s, hmore s hs, hid⟩
  known := fun s hs => h.matches (hknown s hs)

/-! ## Remembering an entity -/

/-- The memory after remembering an entity. -/
def touched (m : Memory) (id : Nat) : Memory :=
  match m.pendingSnapshot id with
  | .ok (some snapshot) =>
    { m with
      saves := addSnapshot snapshot m.saves
      rows := m.rows.modify id fun row => { row with mark := row.mark.withSnapshot m.level } }
  | _ => m

/-- An entity is remembered exactly when a level is open that its mark does not know yet. -/
lemma pendingSnapshot_eq {m : Memory} (hs : Sound m) {id : Nat} {row : Row}
    (hrow : m.rows[id]? = some row) :
    m.pendingSnapshot id =
      if m.level = 0 ∨ m.level ≤ row.mark.created.val ∨ m.level ≤ row.mark.snapshot.val then
        .ok none
      else .ok (some ⟨id, row, m.arena.image.read row.address row.size⟩) := by
  rw [pendingSnapshot]
  by_cases hl : m.level = 0
  · rw [if_pos hl, if_pos (.inl hl)]
  · rw [if_neg hl, Memory.row, hrow]
    dsimp only
    by_cases hm : m.level ≤ row.mark.created.val ∨ m.level ≤ row.mark.snapshot.val
    · rw [if_pos hm, if_pos (.inr hm)]
    · have hpending : ¬ (m.level = 0 ∨ m.level ≤ row.mark.created.val ∨
          m.level ≤ row.mark.snapshot.val) := by tauto
      rw [if_neg hm, if_neg hpending]
      by_cases hz : row.size = 0
      · rw [if_pos hz, hz]
        rfl
      · rw [if_neg hz]
        have hid : id ≠ 0 := by
          rintro rfl
          obtain ⟨head, hhead, hsize⟩ := hs.head
          rw [hhead] at hrow
          injection hrow with hrow
          exact hz (hrow ▸ hsize)
        rw [Arena.read, hs.arena.obstacle?_eq_none (hs.fits hid hrow).2.2]

lemma level_addSnapshot (snapshot : Snapshot) (saves : List SaveRecord) :
    (addSnapshot snapshot saves).length = saves.length := by
  cases saves <;> rfl

/-- A row as it is once the current level remembers it. -/
def noted (m : Memory) (row : Row) : Row := { row with mark := row.mark.withSnapshot m.level }

/-- The snapshot of an entity as it is now. -/
def snapshotOf (m : Memory) (id : Nat) (row : Row) : Snapshot :=
  ⟨id, row, m.arena.image.read row.address row.size⟩

/-- An entity that has to be remembered is, with the row it has and the bytes it has. -/
lemma touched_of_pending {m : Memory} (hs : Sound m) {id : Nat} {row : Row}
    (hrow : m.rows[id]? = some row)
    (h : ¬ (m.level = 0 ∨ m.level ≤ row.mark.created.val ∨ m.level ≤ row.mark.snapshot.val)) :
    m.touched id = { m with
      saves := addSnapshot (m.snapshotOf id row) m.saves
      rows := m.rows.modify id m.noted } := by
  rw [touched, pendingSnapshot_eq hs hrow, if_neg h]
  rfl

/-- An entity that the current level knows is not remembered again. -/
lemma touched_of_known {m : Memory} (hs : Sound m) {id : Nat} {row : Row}
    (hrow : m.rows[id]? = some row)
    (h : m.level = 0 ∨ m.level ≤ row.mark.created.val ∨ m.level ≤ row.mark.snapshot.val) :
    m.touched id = m := by
  rw [touched, pendingSnapshot_eq hs hrow, if_pos h]

/-- Putting a fresh snapshot back gives the row and the bytes that were there. -/
lemma agree_putBack_snapshotOf {m n : Memory} {id : Nat} {row : Row}
    (hrow : m.rows[id]? = some row) (hcount : n.entityCount = m.entityCount)
    (hout : ∀ j, j ≠ id → n.outline j = m.outline j)
    (hbyte : ∀ a, n.arena.image.byte a = m.arena.image.byte a) :
    Agree (fun _ => True) (fun _ => True) m (n.putBack (m.snapshotOf id row)) where
  outline := by
    intro j _
    rw [outline_putBack _ _ _ (by rw [hcount]; exact row_lt hrow)]
    split
    · next he =>
      subst he
      exact outline_of_row hrow
    · next he => exact (hout j he).symm
  byte := by
    intro a _
    have hlen : (m.snapshotOf id row).bytes.length = (m.snapshotOf id row).row.size :=
      Image.length_read _ _ _
    obtain ⟨hout', hin⟩ := byte_putBack n (m.snapshotOf id row) hlen a
    by_cases ha : (m.snapshotOf id row).Spans a
    · obtain ⟨hlo, hhi⟩ := ha
      rw [hin ⟨hlo, hhi⟩]
      simp only [snapshotOf] at hlo hhi ⊢
      rw [Image.getD_read _ _ (by omega), Nat.add_sub_cancel' hlo]
    · rw [hout' ha, hbyte]

/-- **Remembering is undone.**  The snapshot that is added says what the memory says, so putting it
back first changes nothing. -/
lemma carries_touched {m : Memory} (hs : Sound m) {id : Nat} (hid : id < m.entityCount) :
    Carries m (m.touched id) ∧ Covered (m.touched id) id := by
  obtain ⟨row, hrow⟩ := exists_row hid
  have hout := outline_of_row hrow
  by_cases hknown : m.level = 0 ∨ m.level ≤ row.mark.created.val ∨ m.level ≤ row.mark.snapshot.val
  · rw [touched_of_known hs hrow hknown]
    refine ⟨.refl hs, fun record outer hsaves => ?_⟩
    rcases hknown with h0 | hmark
    · rw [Memory.level, hsaves] at h0
      contradiction
    · by_cases hlt : id < record.entityCount
      · exact .inr ((hs.restorable.covers hsaves).remembered id _ hlt hout hmark)
      · exact .inl (by omega)
  · rw [touched_of_pending hs hrow hknown]
    simp only [not_or, Nat.not_le] at hknown
    obtain ⟨h0, hcreated, hsnap⟩ := hknown
    obtain ⟨record, outer, hsaves⟩ := List.exists_cons_of_length_pos (Nat.pos_of_ne_zero h0)
    have hc := hs.restorable.covers hsaves
    set s := m.snapshotOf id row with hsdef
    set n : Memory := { m with
      saves := addSnapshot s m.saves, rows := m.rows.modify id m.noted } with hn
    set record' : SaveRecord := { record with snapshots := s :: record.snapshots } with hrec'
    have hsaves' : n.saves = record' :: outer := by
      simp only [hn, hsaves, addSnapshot, hrec']
    have hold : id < record.entityCount := by
      by_contra hge
      have hnew := (hc.new id _ (by omega) hout).2
      simp only [Row.plain_created] at hnew
      omega
    have hle := hc.level_le
    have ham : Amends m n id row.plain (m.noted row).plain :=
      { before := hout
        outline := outline_of_modify hrow rfl
        count := Array.size_modify
        used := rfl
        level := level_addSnapshot s m.saves
        size := rfl
        address := fun _ => rfl
        younger := Nat.le_refl _
        within := ⟨Nat.le_of_lt hcreated, Nat.mod_le _ _⟩ }
    have hknown : ∀ t ∈ record'.snapshots, Matches m record' t := by
      intro t ht
      rcases List.mem_cons.mp ht with rfl | ht
      · exact ⟨hold, Image.length_read _ _ _, ⟨hcreated, hsnap⟩, row.plain, hout, rfl,
          fun _ => rfl⟩
      · have hm := hc.known t ht
        exact ⟨hm.old, hm.length, hm.earlier, hm.place⟩
    have hmore : ∀ t ∈ record.snapshots, t ∈ record'.snapshots :=
      fun t ht => List.mem_cons_of_mem _ ht
    have hself : ∃ t ∈ record'.snapshots, t.id = id := ⟨s, List.mem_cons_self .., rfl⟩
    have hcov : Covers n record' := ham.covers hc rfl rfl hmore hknown (.inr hself)
    refine ⟨⟨hs.arena, hs.policy, ham.layout hs.layout, ?_⟩, ?_⟩
    · refine .level record record' outer hsaves hsaves' rfl rfl hmore hcov ?_
      refine alike_undone_of_push hsaves hsaves' hc ham.count ?_
      refine agree_putBack_snapshotOf hrow ham.count (fun j hj => ?_) fun _ => rfl
      rw [ham.outline, if_neg hj]
    · intro r o hro
      rw [hsaves'] at hro
      injection hro with hr _
      subst hr
      exact .inr hself

/-! ## Changing an entity that is covered -/

/-- The memory with one row changed and other bytes. -/
def edited (m : Memory) (id : Nat) (f : Row → Row) (image : Image) : Memory :=
  { m with rows := m.rows.modify id f, arena := { m.arena with image } }

/-- What may be done to a row and the bytes of its storage once it is covered. -/
structure Edits (m : Memory) (id : Nat) (row : Row) (f : Row → Row) (image : Image) : Prop where
  before : m.rows[id]? = some row
  size : (f row).size = row.size
  address : id ≠ 0 → (f row).address = row.address
  younger : row.mark.created.val ≤ (f row).mark.created.val
  within : (f row).mark.created.val ≤ m.level ∧ (f row).mark.snapshot.val ≤ m.level
  byte : ∀ a, a < row.address ∨ row.address + row.size ≤ a →
    image.byte a = m.arena.image.byte a

lemma Edits.amends {m : Memory} {id : Nat} {row : Row} {f : Row → Row} {image : Image}
    (h : Edits m id row f image) : Amends m (m.edited id f image) id row.plain (f row).plain where
  before := outline_of_row h.before
  outline := outline_of_modify h.before rfl
  count := Array.size_modify
  used := rfl
  level := rfl
  size := h.size
  address := h.address
  younger := h.younger
  within := h.within

/-- **A covered entity may change freely.**  Either it vanishes with the level, or the snapshot that
is put back last covers its row and all of its bytes. -/
lemma carries_edited {m : Memory} (hs : Sound m) {id : Nat} {row : Row} {f : Row → Row}
    {image : Image} (h : Edits m id row f image) (hcov : Covered m id) :
    Carries m (m.edited id f image) := by
  have ham := h.amends
  refine ⟨⟨hs.arena.mapped, hs.arena.used_le_max, hs.arena.max_lt⟩, hs.policy,
    ham.layout hs.layout, ?_⟩
  cases hsaves : m.saves with
  | nil => exact .base hsaves hsaves
  | cons record outer =>
      have hc := hs.restorable.covers hsaves
      refine .level record record outer hsaves hsaves rfl rfl (fun _ ht => ht)
        (ham.covers hc rfl rfl (fun _ ht => ht) hc.known (hcov record outer hsaves)) ?_
      have hagree : Agree (· ≠ id) (fun a => a < row.address ∨ row.address + row.size ≤ a) m
          (m.edited id f image) :=
        ⟨fun j hj => by rw [ham.outline, if_neg hj], fun a ha => (h.byte a ha).symm⟩
      refine alike_undone_of_agree hsaves hsaves hc (by rw [ham.count]; exact hc.count_le) hagree
        (fun j hj => ?_) fun a ha => ?_
      · by_cases he : j = id
        · subst he
          rcases hcov record outer hsaves with hnew | ⟨s, hs', hid⟩
          · omega
          · exact .inr ⟨s, hs', hid.symm⟩
        · exact .inl he
      · by_cases hin : a < row.address ∨ row.address + row.size ≤ a
        · exact .inl hin
        · right
          rcases hcov record outer hsaves with hnew | ⟨s, hs', hid⟩
          · have hlow := (hc.new id _ hnew (outline_of_row h.before)).1
            simp only [Row.plain_address] at hlow
            omega
          · refine ⟨s, hs', ?_⟩
            obtain ⟨r, hr, hsize, haddr⟩ := (hc.known s hs').place
            rw [hid, outline_of_row h.before] at hr
            injection hr with hr
            subst hr
            simp only [Row.plain_size, Row.plain_address] at hsize haddr
            have h0 : s.id ≠ 0 := by
              intro h0
              obtain ⟨head, hhead, hz⟩ := hs.head
              have hrow := h.before
              rw [← hid, h0, hhead] at hrow
              injection hrow with hrow
              rw [hrow] at hz
              omega
            have := haddr h0
            simp only [Snapshot.Spans]
            omega

/-! ## Appending a row -/

/-- The memory with one more row, over an arena that has moved on. -/
def pushed (m : Memory) (row : Row) (arena : Arena) : Memory :=
  { m with rows := m.rows.push row, arena }

lemma outline_pushed (m : Memory) (row : Row) (arena : Arena) (j : Nat) :
    (m.pushed row arena).outline j = if j = m.entityCount then some row.plain else m.outline j := by
  rw [outline, pushed, Array.getElem?_push, entityCount]
  split <;> rfl

/-- The bytes of a new entity: those between the old and the new cursor. -/
structure Extends (m : Memory) (row : Row) (arena : Arena) : Prop where
  sound : arena.Sound
  used : arena.used = m.arena.used + row.size
  address : row.address = m.arena.used
  aligned : row.size % arenaAlign = 0
  mark : row.mark = Mark.createdAt m.level
  limit : m.arena.KeepsLimit arena
  byte : ∀ a, arena.image.byte a = m.arena.image.byte a

lemma Sound.level_le {m : Memory} (hs : Sound m) : m.level ≤ Mark.maxLevel := by
  cases hsaves : m.saves with
  | nil => rw [Memory.level, hsaves]; exact Nat.zero_le _
  | cons record outer => exact (hs.restorable.covers hsaves).level_le

/-- A mark made now records the current level without loss. -/
lemma Sound.createdAt_level {m : Memory} (hs : Sound m) :
    (Mark.createdAt m.level).created.val = m.level ∧
      (Mark.createdAt m.level).snapshot.val = m.level := by
  have hle := hs.level_le
  have hmod : m.level % 4096 = m.level := Nat.mod_eq_of_lt (by simp only [Mark.maxLevel] at hle; omega)
  exact ⟨hmod, hmod⟩

lemma Sound.entityCount_pos {m : Memory} (hs : Sound m) : 0 < m.entityCount := by
  obtain ⟨row, hrow, _⟩ := hs.head
  exact row_lt hrow

lemma layout_pushed {m : Memory} (hs : Sound m) {row : Row} {arena : Arena}
    (h : Extends m row arena) : Layout (m.pushed row arena) := by
  have hl := hs.layout
  have hpos := hs.entityCount_pos
  have hused : (m.pushed row arena).arena.used = m.arena.used + row.size := h.used
  refine ⟨?_, ?_, ?_, ?_, ?_⟩
  · rw [outline_pushed, if_neg (by omega)]
    exact hl.head
  · rw [hused, Nat.add_mod, hl.aligned, h.aligned]
    rfl
  · intro id r hid hr
    rw [hused]
    rw [outline_pushed] at hr
    split at hr
    · injection hr with hr
      subst hr
      rw [Row.plain_address, Row.plain_size, h.address]
      exact ⟨hl.aligned, h.aligned, Nat.le_refl _⟩
    · obtain ⟨h1, h2, h3⟩ := hl.fits id r hid hr
      exact ⟨h1, h2, by omega⟩
  · intro i j r r' hi hij hr hr' hz hz'
    rw [outline_pushed] at hr hr'
    split at hr'
    · injection hr' with hr'
      subst hr'
      rw [if_neg (by omega)] at hr
      rw [Row.plain_address, h.address]
      exact .inl (hl.fits i r hi hr).2.2
    · have hj := lt_entityCount_of_outline hr'
      rw [if_neg (by omega)] at hr
      exact hl.disjoint i j r r' hi hij hr hr' hz hz'
  · intro id r hr
    have hlevel : (m.pushed row arena).level = m.level := rfl
    rw [hlevel]
    rw [outline_pushed] at hr
    split at hr
    · injection hr with hr
      subst hr
      rw [Row.plain_created, Row.plain_snapshot, h.mark]
      exact ⟨Nat.le_of_eq hs.createdAt_level.1, Nat.le_of_eq hs.createdAt_level.2⟩
    · exact hl.within id r hr

/-- **New entities vanish with the level.**  A row appended above the level's counts is cut off
again. -/
lemma carries_pushed {m : Memory} (hs : Sound m) {row : Row} {arena : Arena}
    (h : Extends m row arena) : Carries m (m.pushed row arena) := by
  have hcount : (m.pushed row arena).entityCount = m.entityCount + 1 := Array.size_push _
  refine ⟨h.sound, hs.policy, layout_pushed hs h, ?_⟩
  cases hsaves : m.saves with
  | nil => exact .base hsaves hsaves
  | cons record outer =>
      have hc := hs.restorable.covers hsaves
      have hout : ∀ id r, id < record.entityCount → (m.pushed row arena).outline id = some r →
          m.outline id = some r := by
        intro id r hid hr
        have := hc.count_le
        rw [outline_pushed, if_neg (by omega)] at hr
        exact hr
      refine .level record record outer hsaves hsaves rfl rfl (fun _ ht => ht) ?_ ?_
      · exact
          { level_le := hc.level_le
            pos := hc.pos
            count_le := by rw [hcount]; exact Nat.le_succ_of_le hc.count_le
            used_le := Nat.le_trans hc.used_le (by rw [pushed, h.used]; omega)
            aligned := hc.aligned
            old := fun id r hid hlt hr => hc.old id r hid hlt (hout id r hlt hr)
            new := by
              intro id r hid hr
              rw [outline_pushed] at hr
              split at hr
              · injection hr with hr
                subst hr
                rw [Row.plain_address, Row.plain_created, h.address, h.mark]
                exact ⟨hc.used_le, Nat.le_of_eq hs.createdAt_level.1.symm⟩
              · exact hc.new id r hid hr
            remembered := fun id r hlt hr hm => hc.remembered id r hlt (hout id r hlt hr) hm
            known := by
              intro s hs'
              have hm := hc.known s hs'
              refine ⟨hm.old, hm.length, hm.earlier, ?_⟩
              rw [outline_pushed, if_neg]
              · exact hm.place
              · have := hm.old
                have := hc.count_le
                omega }
      · refine alike_undone_of_agree hsaves hsaves hc (by rw [hcount]; have := hc.count_le; omega)
          (P := (· < m.entityCount)) (B := fun _ => True) ⟨?_, fun a _ => (h.byte a).symm⟩
          (fun id hid => .inl (Nat.lt_of_lt_of_le hid hc.count_le)) fun _ _ => .inl trivial
        intro id hid
        rw [outline_pushed, if_neg (Nat.ne_of_lt hid)]

/-! ## Pins, collector bits and bookkeeping -/

/-- **What no level remembers.**  Changing pins, collector bits, files or the countdown to the next
collection leaves the levels as they are. -/
lemma carries_of_outline {m n : Memory} (hs : Sound m) (harena : n.arena = m.arena)
    (hsaves : n.saves = m.saves) (hpolicy : n.policy.Honest)
    (hout : ∀ id, n.outline id = m.outline id) : Carries m n := by
  have hcount : m.entityCount = n.entityCount := by
    refine Nat.le_antisymm ?_ ?_
    · exact outline_eq_none_iff.mp (by rw [← hout]; exact outline_eq_none_iff.mpr (Nat.le_refl _))
    · exact outline_eq_none_iff.mp (by rw [hout]; exact outline_eq_none_iff.mpr (Nat.le_refl _))
  have halike : Alike m n :=
    ⟨hsaves.symm, by rw [harena], hcount, fun id => (hout id).symm, fun a _ => by rw [harena]⟩
  refine ⟨harena ▸ hs.arena, hpolicy, hs.layout.congr halike, ?_⟩
  cases hm : m.saves with
  | nil => exact .base hm (hsaves.trans hm)
  | cons record outer =>
      exact .level record record outer hm (hsaves.trans hm) rfl rfl (fun _ ht => ht)
        ((hs.restorable.covers hm).congr halike) (halike.undone hs.restorable)

end Memory

end PostScriptCore
