import PostScriptCore.Proofs.Memory.Openings

/-!
# Memories that were exited

Exiting closes every file and gives the storage back.  What is left can still be worked with, but it
has no room for a file, and it stays like this.

* `Memory.Emptied` — no storage, no file and no slot that is occupied.
* `Memory.Custody.exit` — exiting leads there.
* `Memory.sustains_emptied` — the single steps of operations do not lead out.
* `Memory.Emptied.newFile` — opening a file fails.
-/

namespace PostScriptCore.Memory

/-- The storage is gone, every entity is without storage, and no file is open. -/
structure Emptied (m : Memory) : Prop where
  unmapped : m.arena.mapped = false
  policy : m.policy.Honest
  table : 0 < m.entityCount
  rows : ∀ (id : Nat) (row : Row), m.rows[id]? = some row →
    row.size = 0 ∧ row.tag.ownsResource = false
  vacated : ∀ slot, m.resources.occupant? slot = none
  tight : m.resources.Tight

/-- What may be done to a memory that was exited. -/
def emptiedTerms : Terms where
  tag := fun tag => tag.ownsResource = false
  write := fun _ _ => True
  free := fun _ => True
  collect := fun _ _ _ _ => True
  files := False

namespace Emptied

variable {m n : Memory}

lemma isFile (h : Emptied m) (id : Nat) : m.isFile id = false := by
  rw [Memory.isFile]
  cases hrow : m.rows[id]? with
  | none => rfl
  | some row => exact (h.rows id row hrow).2

/-- Rows may change as long as their sizes and tags are what they were. -/
lemma of_rows (h : Emptied m) (harena : n.arena = m.arena) (hpolicy : n.policy.Honest)
    (hresources : n.resources = m.resources) {f : Row → Row}
    (hf : ∀ row, (f row).size = row.size ∧ (f row).tag = row.tag)
    (hrows : ∀ id : Nat, n.rows[id]?.map f = m.rows[id]?.map f) : Emptied n where
  unmapped := harena ▸ h.unmapped
  policy := hpolicy
  table := by
    obtain ⟨row, hrow⟩ := exists_row h.table
    have h0 := hrows 0
    rw [hrow] at h0
    obtain ⟨row', hrow', -⟩ := Option.map_eq_some_iff.mp h0
    exact row_lt hrow'
  rows := by
    intro id row hrow
    have hid := hrows id
    rw [hrow] at hid
    obtain ⟨row', hrow', hsame⟩ := Option.map_eq_some_iff.mp hid.symm
    obtain ⟨hsize, htag⟩ := h.rows id row' hrow'
    rw [← (hf row').1, hsame, (hf row).1] at hsize
    rw [← (hf row').2, hsame, (hf row).2] at htag
    exact ⟨hsize, htag⟩
  vacated := hresources ▸ h.vacated
  tight := hresources ▸ h.tight

lemma marks (h : Emptied m) (hn : Marks m n) : Emptied n :=
  h.of_rows (by rw [hn.frame]) (by rw [hn.frame]; exact h.policy) (by rw [hn.frame])
    (f := Row.unmarked) (fun _ => ⟨rfl, rfl⟩) hn.rows

lemma modifyMark (h : Emptied m) (id : Nat) (f : Mark → Mark) :
    Emptied { m with rows := m.rows.modify id fun row => { row with mark := f row.mark } } := by
  refine h.of_rows rfl h.policy rfl (f := fun row => { row with mark := Mark.createdAt 0 })
    (fun _ => ⟨rfl, rfl⟩) fun j => ?_
  rw [Array.getElem?_modify]
  split
  · rw [Option.map_map]
    rfl
  · rfl

/-- Remembering an entity changes its mark at most. -/
lemma touch (h : Emptied m) (id : Nat) : Keeps Emptied (Memory.touch id) m fun _ _ => True := by
  refine .bind (.query h) fun pending n hn _ => ?_
  cases pending with
  | none => exact .pure hn trivial
  | some snapshot =>
      have hsaved : Emptied { n with saves := addSnapshot snapshot n.saves } :=
        ⟨hn.unmapped, hn.policy, hn.table, hn.rows, hn.vacated, hn.tight⟩
      exact ⟨hsaved.modifyMark id fun mark => mark.withSnapshot (addSnapshot snapshot n.saves).length,
        trivial⟩

lemma obstacle (h : Emptied m) (offset count : Nat) :
    ∃ fault, m.arena.obstacle? offset count = some fault := by
  rw [Arena.obstacle?, h.unmapped]
  by_cases hbound : m.arena.inBounds offset count
  · exact ⟨_, by rw [if_neg (not_not_intro hbound), if_neg Bool.false_ne_true]⟩
  · exact ⟨_, if_pos hbound⟩

/-- There are no bytes that could be written. -/
lemma put (h : Emptied m) (id offset : Nat) (bytes : List UInt8) :
    Keeps Emptied (Memory.put id offset bytes) m fun _ _ => False := by
  refine .bind (.query h) fun address n hn _ => .bind (hn.touch id) fun _ k hk _ => ?_
  obtain ⟨fault, hfault⟩ := hk.obstacle address bytes.length
  have hwrite : Arena.write address bytes k.arena = .error fault k.arena := by
    rw [Arena.write, hfault]
  exact .of_error (onArena_error hwrite) hk

/-- Neither are there any that could be copied. -/
lemma copyWithin (h : Emptied m) (source target count : Nat) :
    Keeps Emptied (onArena (Arena.copyWithin source target count)) m fun _ _ => False := by
  obtain ⟨fault, hfault⟩ := h.obstacle target count
  have hcopy : ∃ fault, Arena.copyWithin source target count m.arena = .error fault m.arena := by
    rw [Arena.copyWithin, hfault]
    split <;> exact ⟨_, rfl⟩
  obtain ⟨fault, hcopy⟩ := hcopy
  exact .of_error (onArena_error hcopy) h

lemma free (h : Emptied m) (id : Nat) : Keeps Emptied (Memory.free id) m fun _ _ => False := by
  refine .bind (.query h) fun row n hn hrow => ?_
  obtain ⟨rfl, hrow⟩ := hrow
  have hguard : id = 0 ∨ row.size < linkSize ∨ row.isFree = true :=
    .inr (.inl (by rw [(hn.rows id row (row_eq_ok_iff.mp hrow)).1]; decide))
  rw [if_pos hguard]
  exact .throw_bind hn

/-- Nothing can be taken from the free list, because no link can be read. -/
lemma findCandidate (h : Emptied m) (wanted steps previous cursor : Nat) (found : Candidate) :
    m.findCandidate wanted steps previous cursor ≠ .ok (some found) := by
  intro hfound
  rw [Memory.findCandidate.eq_def] at hfound
  dsimp only at hfound
  split at hfound
  · cases hfound
  · next h0 =>
    split at hfound
    · contradiction
    · split at hfound
      · contradiction
      · contradiction
      · next hlink =>
        obtain ⟨row, -, hrow, hsize⟩ := linkable_of_readLink h0 hlink
        rw [(h.rows _ row hrow).1] at hsize
        contradiction

lemma countMiss (h : Emptied m) :
    Keeps Emptied Memory.countMiss m fun fit _ => ∀ id, fit ≠ .reused id := by
  have hcount : ∀ count, Emptied { m with gcCountdown := count } := fun _ =>
    ⟨h.unmapped, h.policy, h.table, h.rows, h.vacated, h.tight⟩
  by_cases hcountdown : m.gcCountdown ≤ 1
  · exact .of_ok (if_pos hcountdown) (hcount _) nofun
  · exact .of_ok (if_neg hcountdown) (hcount _) nofun

lemma firstFit (h : Emptied m) (size : Nat) (tag : Tag) :
    Keeps Emptied (Memory.firstFit size tag) m fun fit _ => ∀ id, fit ≠ .reused id := by
  refine .bind (.query h) fun found n hn hfound => ?_
  obtain ⟨rfl, hfound⟩ := hfound
  cases found with
  | none => exact hn.countMiss
  | some candidate =>
      split at hfound
      · contradiction
      · split at hfound
        · exact (hn.findCandidate _ _ _ _ _ hfound).elim
        · contradiction

lemma findStorage (h : Emptied m) (size : Nat) (tag : Tag) :
    Keeps Emptied (Memory.findStorage size tag) m fun fit _ => ∀ id, fit ≠ .reused id := by
  have hhonest := h.policy
  rcases hpolicy : m.policy with _ | (fault | fit)
  · have hrun : Memory.findStorage size tag m = Memory.firstFit size tag m := by
      rw [Memory.findStorage, hpolicy]
    rw [Keeps, Ends, hrun]
    exact h.firstFit size tag
  · exact .of_error (e := fault) (by rw [Memory.findStorage, hpolicy]) h
  · refine .of_ok (a := fit) (by rw [Memory.findStorage, hpolicy]) h ?_
    rintro id rfl
    rw [hpolicy] at hhonest
    exact hhonest.elim

/-- A new entity has no storage, and it is no file. -/
lemma tableAlloc (h : Emptied m) {size : Nat} {tag : Tag}
    (htag : size = 0 → tag.ownsResource = false) :
    Keeps Emptied (Memory.tableAlloc size tag) m fun id n => size = 0 ∧ Owned n id size tag := by
  refine .bind (.query h) fun rounded n hn hrounded => ?_
  obtain ⟨rfl, hrounded⟩ := hrounded
  by_cases h0 : size = 0
  · subst h0
    have hzero : rounded = 0 := by
      rw [if_pos rfl] at hrounded
      dsimp only at hrounded
      split at hrounded
      · contradiction
      · exact (Except.ok.inj hrounded).symm
    subst hzero
    dsimp only
    rw [if_pos rfl]
    refine ⟨⟨hn.unmapped, hn.policy, ?_, fun id row hrow => ?_, hn.vacated, hn.tight⟩, rfl,
      ⟨n.arena.used, 0, Mark.createdAt n.level, tag⟩, Nat.pos_iff_ne_zero.mp hn.table, ?_,
      Nat.le_refl _, rfl, rfl⟩
    · exact Nat.lt_of_lt_of_eq (Nat.succ_pos _) (Array.size_push _).symm
    · rw [Array.getElem?_push] at hrow
      split at hrow
      · obtain rfl := Option.some.inj hrow
        exact ⟨rfl, htag rfl⟩
      · exact hn.rows id row hrow
    · rw [Array.getElem?_push]
      exact if_pos rfl
  · have hne : rounded ≠ 0 := by
      rw [if_neg h0] at hrounded
      split at hrounded
      · contradiction
      · next halign =>
        have hle := le_of_alignUp halign
        split at hrounded
        · contradiction
        · have := Except.ok.inj hrounded
          omega
    have halloc : Arena.alloc rounded n.arena = .error .uninitialized n.arena := by
      rw [Arena.alloc, hn.unmapped]
      rfl
    dsimp only
    rw [if_neg hne]
    exact .of_error (bind_error (onArena_error halloc)) hn

lemma allocateWithoutGc (h : Emptied m) {size : Nat} {tag : Tag}
    (htag : size = 0 → tag.ownsResource = false) :
    Keeps Emptied (Memory.allocateWithoutGc size tag) m fun id n =>
      size = 0 ∧ Owned n id size tag := by
  refine .bind (h.findStorage size tag) fun fit n hn hfit => ?_
  cases fit with
  | reused id => exact absurd rfl (hfit id)
  | needsCollection => exact hn.tableAlloc htag
  | miss => exact hn.tableAlloc htag

lemma collect (h : Emptied m) (roots : List Object) (sweeping markAll : Bool) :
    Keeps Emptied (Memory.collect roots sweeping markAll) m fun _ _ => True :=
  keeps_collect Emptied.marks (fun h _ _ => (h.free _).mono fun _ _ _ => trivial) h roots sweeping
    markAll

lemma allocate (h : Emptied m) {size : Nat} {tag : Tag}
    (htag : size = 0 → tag.ownsResource = false) (roots : List Object) :
    Keeps Emptied (Memory.allocate size tag roots) m fun id n => size = 0 ∧ Owned n id size tag := by
  refine .bind (h.findStorage size tag) fun fit n hn hfit => ?_
  cases fit with
  | reused id => exact absurd rfl (hfit id)
  | miss => exact hn.tableAlloc htag
  | needsCollection =>
      have hcollect : Keeps Emptied (attempt (Memory.collect roots true false)) n fun _ _ => True :=
        Ends.attempt (Ends.mono (hn.collect roots true false) (fun _ _ hk => hk)
          fun _ _ hk => ⟨hk, trivial⟩)
      exact .bind hcollect fun _ k hk _ => hk.allocateWithoutGc htag

/-- There is no room for a file. -/
lemma newFile (h : Emptied m) (handle : Handle) (writable : Bool) (roots : List Object) :
    Keeps Emptied (Memory.newFile handle writable roots) m fun _ _ => False := by
  have hroom : 8 = 0 → (Tag.ofKind .file).ownsResource = false := nofun
  exact .bind (h.allocate hroom roots) fun _ _ _ hid => nomatch hid.1

/-- What closes no file has nothing to change here. -/
lemma releaseResources (h : Emptied m) (first count : Nat) :
    Emptied (m.releaseResources first count) := by
  have hfold : ∀ (ids : List Nat) (m : Memory), Emptied m →
      Emptied (ids.foldl releaseResourceOf m) := by
    intro ids
    induction ids with
    | nil => exact fun _ h => h
    | cons id rest ih =>
        intro m h
        refine ih _ ?_
        have hkept : m.releaseResourceOf id = m := by
          rw [releaseResourceOf]
          split
          · rfl
          · next row hrow => rw [if_neg (by rw [(h.rows id row (row_eq_ok_iff.mp hrow)).2]; decide)]
        rw [hkept]
        exact h
  exact hfold _ m h

end Emptied

/-- **The single steps of operations do not lead back to a memory with files.** -/
lemma sustains_emptied : Sustains Emptied emptiedTerms where
  honest := fun h => h.policy
  put := fun h _ offset bytes => (h.put _ offset bytes).mono fun _ _ => False.elim
  free := fun h _ => (h.free _).mono fun _ _ => False.elim
  setRefcount := fun {_ _ row} h hrow count => .of_ok (setMark_run hrow _)
    (h.modifyMark _ fun _ => row.mark.withRefcount count) trivial
  tableAlloc := fun h htag _ => (h.tableAlloc fun _ => htag).mono fun _ _ hn =>
    ⟨hn.2, fun _ => trivial⟩
  firstFit := fun h _ size => (h.firstFit size _).mono fun _ _ hne =>
    ⟨fun id he => absurd he (hne id), fun _ _ _ => trivial⟩
  collect := fun h _ => h.collect _ _ _
  copy := fun h _ _ _ _ source count _ => (h.copyWithin source _ count).mono fun _ _ => False.elim
  registered := fun h honest _ => ⟨h.unmapped, honest, h.table, h.rows, h.vacated, h.tight⟩
  opened := fun _ hfiles => hfiles.elim
  word := fun _ _ _ => trivial
  tag := fun _ hplain => hplain
  fileTag := fun hfiles => hfiles.elim

/-! ## Exiting -/

variable {m : Memory}

lemma tight_releaseResourceOf (h : m.resources.Tight) (id : Nat) :
    (m.releaseResourceOf id).resources.Tight := by
  rw [releaseResourceOf]
  split
  · exact h
  · split
    · split
      · exact h.release _
      · exact h
    · exact h

lemma tight_releaseResources (h : m.resources.Tight) (first count : Nat) :
    (m.releaseResources first count).resources.Tight := by
  have hfold : ∀ (ids : List Nat) (m : Memory), m.resources.Tight →
      (ids.foldl releaseResourceOf m).resources.Tight := by
    intro ids
    induction ids with
    | nil => exact fun _ h => h
    | cons id rest ih => exact fun m h => ih _ (tight_releaseResourceOf h id)
  exact hfold _ m h

/-- Only the reserved row is left. -/
lemma rows_exit (m : Memory) (id : Nat) :
    m.exit.rows[id]? = if id = 0 then m.rows[0]? else none := by
  have hrows : m.exit.rows = m.rows.extract 0 1 := by
    rw [Memory.exit, releaseResources_eq]
  rw [hrows, Array.getElem?_extract]
  by_cases h0 : id = 0
  · subst h0
    by_cases hsize : 0 < m.rows.size
    · rw [if_pos rfl, if_pos (by omega)]
    · rw [if_pos rfl, if_neg (by omega), Array.getElem?_eq_none (by omega)]
  · rw [if_neg h0, if_neg (by omega)]

/-- What exiting leaves behind, if it leaves nothing in a slot. -/
lemma emptied_exit (hpolicy : m.policy.Honest) (hcount : 0 < m.entityCount)
    (hhead : ∀ row, m.rows[0]? = some row → row.size = 0 ∧ row.tag.ownsResource = false)
    (hvacated : ∀ slot, (m.releaseResources 0 m.entityCount).resources.occupant? slot = none)
    (htight : m.resources.Tight) : Emptied m.exit where
  unmapped := rfl
  policy := by
    rw [Memory.exit, releaseResources_eq]
    exact hpolicy
  table := by
    obtain ⟨row, hrow⟩ := exists_row hcount
    exact row_lt ((rows_exit m 0).trans ((if_pos rfl).trans hrow))
  rows := by
    intro id row hrow
    rw [rows_exit] at hrow
    split at hrow
    · exact hhead row hrow
    · contradiction
  vacated := hvacated
  tight := tight_releaseResources htight _ _

/-- **Exiting closes every file**, because each belongs to an entity of the table. -/
lemma Custody.exit {opened : List (Nat × Handle)} (h : Custody opened m) : Emptied m.exit := by
  obtain ⟨head, hhead, hsize⟩ := h.sound.head
  refine emptied_exit h.sound.policy h.sound.entityCount_pos (fun row hrow => ?_) (fun slot => ?_)
    h.tight
  · obtain rfl : head = row := Option.some.inj (hhead.symm.trans hrow)
    have hfile := h.head
    rw [isFile, hrow] at hfile
    exact ⟨hsize, hfile⟩
  · obtain ⟨hnamed, hother⟩ := occupant?_foldl_release (List.range' 0 m.entityCount) m slot
    by_cases hnames : ∃ id ∈ List.range' 0 m.entityCount, m.NamesSlot id slot
    · exact hnamed hnames
    · refine (hother hnames).trans ?_
      cases hoccupant : m.resources.occupant? slot with
      | none => rfl
      | some handle =>
          obtain ⟨id, hid⟩ := h.paired.owned slot handle hoccupant
          refine absurd ⟨id, ?_, hid⟩ hnames
          rw [List.mem_range'_1]
          exact ⟨Nat.zero_le _, by simpa using isFile_lt hid.1⟩

/-- What was exited can be exited again. -/
lemma Emptied.exit (h : Emptied m) : Emptied m.exit :=
  emptied_exit h.policy h.table (h.rows 0) (h.releaseResources 0 m.entityCount).vacated h.tight

end PostScriptCore.Memory
