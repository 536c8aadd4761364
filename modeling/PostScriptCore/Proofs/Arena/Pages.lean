import PostScriptCore.Proofs.Arena.Extents
import PostScriptCore.Settings
import Mathlib.Logic.Basic
import Mathlib.Order.Bounds.Defs

/-!
# Capacity in whole pages

Capacities are rounded up with a bit mask.  For a page size that is a power of two this gives the least number
of whole pages that is enough, at the start and at every growth.  The settings admit every multiple of the
operating system's page, and for a page size that is no power of two a single byte is rounded up to less than
a page; so there the capacity is counted in pages only as long as it never changes.

* `wholePages` — the capacities in whole pages that hold what is wanted.
* `Arena.isLeast_pages` — rounding up to a power of two gives the least of them.
* `Arena.lt_of_pages_one` — rounding up a single byte to any other page size gives less than a page.
* `Arena.capacity_afterAll` — what adding pages keeps, a run keeps.
* `Arena.CountsPages` — the capacity is counted in whole pages, at the start, after a run and at a growth.
* `Arena.capacity_in_whole_pages_iff` — the theorem.
-/

namespace PostScriptCore

/-- The capacities in whole pages, at least one, that hold what is wanted. -/
def wholePages (pageSize wanted : Nat) : Set Nat := {n | 0 < n ∧ pageSize ∣ n ∧ wanted ≤ n}

namespace Arena

variable {a b start : Arena} {limit : Nat} {given : List Extent}

/-! ## Rounding -/

/-- Rounding up to a power of two clears what is over a multiple of it. -/
lemma alignUp_of_isPowerOfTwo {value align rounded : Nat} (htwo : align.isPowerOfTwo)
    (h : alignUp value align = some rounded) : rounded = align * ((value + (align - 1)) / align) := by
  obtain ⟨k, hk⟩ := htwo
  have hmask : (value + (align - 1)) &&& (align - 1) = (value + (align - 1)) % align := by
    rw [hk]
    exact Nat.and_two_pow_sub_one_eq_mod _ k
  simp only [alignUp] at h
  split at h
  · obtain rfl := Option.some.inj h
    rw [hmask]
    have hdiv := Nat.div_add_mod (value + (align - 1)) align
    omega
  · contradiction

/-- **Rounding up to a power of two gives the least capacity in whole pages.** -/
lemma isLeast_pages {wanted pageSize capacity : Nat} (htwo : pageSize.isPowerOfTwo)
    (h : pages wanted pageSize = some capacity) : IsLeast (wholePages pageSize wanted) capacity := by
  have hle : (if wanted = 0 then 1 else wanted) ≤ capacity := le_of_alignUp h
  have hcapacity := alignUp_of_isPowerOfTwo htwo h
  refine ⟨⟨by split at hle <;> omega, ⟨_, hcapacity⟩, le_of_pages h⟩, ?_⟩
  rintro n ⟨hpos, ⟨m, rfl⟩, hwanted⟩
  -- with `m` pages there is room for what is wanted, so that less than `m + 1` are begun
  have hpage : 0 < pageSize := Nat.pos_of_mul_pos_right hpos
  have hbegun : ((if wanted = 0 then 1 else wanted) + (pageSize - 1)) / pageSize < m + 1 := by
    refine Nat.div_lt_of_lt_mul ?_
    rw [Nat.mul_add, Nat.mul_one]
    split <;> omega
  rw [hcapacity]
  exact Nat.mul_le_mul_left _ (Nat.le_of_lt_succ hbegun)

/-- **A single byte is rounded up to less than a page** if the page size is no power of two. -/
lemma lt_of_pages_one {pageSize : Nat} (hpos : pageSize ≠ 0) (hword : pageSize < wordBound)
    (hodd : ¬ pageSize.isPowerOfTwo) : ∃ least, pages 1 pageSize = some least ∧ 0 < least ∧ least < pageSize := by
  have hbits : pageSize &&& (pageSize - 1) ≠ 0 := fun hzero =>
    hodd ((Nat.and_sub_one_eq_zero_iff_isPowerOfTwo hpos).mp hzero)
  have hbelow : pageSize &&& (pageSize - 1) ≤ pageSize - 1 := Nat.and_le_right
  have hraised : 1 + (pageSize - 1) = pageSize := by omega
  refine ⟨pageSize - (pageSize &&& (pageSize - 1)), ?_, by omega, by omega⟩
  rw [pages, if_neg Nat.one_ne_zero, alignUp]
  simp only [hraised]
  rw [if_pos hword]

lemma lt_wordBound_of_pages {wanted pageSize capacity : Nat} (h : pages wanted pageSize = some capacity) :
    capacity < wordBound :=
  lt_wordBound_of_alignUp h

/-! ## Starting and growing -/

lemma pages_of_init {backing : Backing} {initial pageSize : Nat}
    (h : init backing initial pageSize limit = .ok a) :
    pages initial pageSize = some a.max ∧ a.pageSize = pageSize := by
  rw [init] at h
  split at h
  · contradiction
  · next max hmax =>
    split at h
    · contradiction
    · split at h
      · cases h; exact ⟨hmax, rfl⟩
      · cases h; exact ⟨hmax, rfl⟩
      · contradiction

/-- Pages for which there is room are added. -/
lemma grow_of_pages (h : a.Sound) {extra more : Nat} (hmore : pages extra a.pageSize = some more)
    (hword : a.max + more < wordBound) (hlimit : a.max + more ≤ a.limit) :
    grow extra a = .ok () { a with image := a.image.resize (a.max + more), max := a.max + more } := by
  rw [grow, hmore]
  dsimp only
  rw [if_neg (by omega), if_pos h.mapped]

/-- Growing over a mapping adds the pages that hold what is asked for. -/
lemma pages_of_grow (h : a.Accounts limit given) {mapping : Mapping} {extra : Nat}
    (hrun : backedBy mapping (grow extra) a = .ok () b) :
    ∃ more, pages extra a.pageSize = some more ∧ b.max = a.max + more ∧ b.max < wordBound ∧ b.max ≤ a.limit := by
  have hgrow := enlarges_grow h.sound extra
  obtain ⟨-, c, hc, -, hmax⟩ := (ends_backedBy h.length (hgrow.imp fun _ _ hb => hb.1)).ok_of hrun
  rw [hmax]
  exact (hgrow.ok_of hc).2.2

/-! ## Runs -/

/-- No operation changes the page size, and each leaves a capacity that growing leads to. -/
lemma capacity_after (h : a.Accounts limit given) (op : ArenaOp) :
    (a.after op).pageSize = a.pageSize ∧ a.MayReach (a.after op).max := by
  cases op with
  | alloc mapping size =>
      obtain ⟨hkeeps, hreach⟩ := keeps_after h (show (ArenaOp.alloc mapping size).acquires = true from rfl)
      exact ⟨hkeeps.pageSize, hreach⟩
  | grow mapping extra =>
      obtain ⟨hkeeps, hreach⟩ := keeps_after h (show (ArenaOp.grow mapping extra).acquires = true from rfl)
      exact ⟨hkeeps.pageSize, hreach⟩
  | write offset bytes =>
      rw [after, ArenaOp.perform, finalState_map, finalState, write]
      cases a.obstacle? offset bytes.length <;> exact ⟨rfl, .inl rfl⟩
  | copyWithin source target count =>
      rw [after, ArenaOp.perform, finalState_map, finalState, copyWithin]
      by_cases hsource : a.inBounds source count
      · rw [if_neg (not_not_intro hsource)]
        cases a.obstacle? target count <;> exact ⟨rfl, .inl rfl⟩
      · rw [if_pos hsource]
        exact ⟨rfl, .inl rfl⟩

/-- **What adding pages keeps, a run keeps.** -/
lemma capacity_afterAll {P : Nat → Prop} (h : a.Accounts limit given) (hP : P a.max)
    (hstep : ∀ capacity extra more, P capacity → pages extra a.pageSize = some more →
      capacity + more < wordBound → capacity + more ≤ limit → P (capacity + more)) (ops : List ArenaOp) :
    (a.afterAll ops).pageSize = a.pageSize ∧ P (a.afterAll ops).max := by
  induction ops generalizing a given with
  | nil => exact ⟨rfl, hP⟩
  | cons op rest ih =>
      obtain ⟨hpage, hreach⟩ := capacity_after h op
      have hnext : P (a.after op).max := by
        rcases hreach with hsame | ⟨extra, more, hmore, hadds, hword, hlimit⟩
        · rwa [hsame]
        · rw [hadds] at hword hlimit ⊢
          exact hstep _ extra more hP hmore hword (h.limit_eq ▸ hlimit)
      rw [← hpage] at hstep ⊢
      exact ih (accounts_after h op) hnext hstep

/-! ## The theorem -/

/-- The capacity is the least number of whole pages that holds what was asked for at the start, is a number of
whole pages after every run, and grows by the least such number that is enough. -/
structure CountsPages (settings : Settings) (start : Arena) : Prop where
  initial : IsLeast (wholePages settings.pageSize settings.initialArenaSize) start.max
  always : ∀ ops, settings.pageSize ∣ (start.afterAll ops).max
  growth : ∀ ops mapping extra b, backedBy mapping (grow extra) (start.afterAll ops) = .ok () b →
    ∃ more, b.max = (start.afterAll ops).max + more ∧ IsLeast (wholePages settings.pageSize extra) more

variable {settings : Settings}

/-- A page size that is a power of two. -/
lemma countsPages_of_isPowerOfTwo (h : start.Accounts limit []) (hpage : start.pageSize = settings.pageSize)
    (hinitial : pages settings.initialArenaSize settings.pageSize = some start.max)
    (htwo : settings.pageSize.isPowerOfTwo) : CountsPages settings start := by
  have hstart := isLeast_pages htwo hinitial
  have hrun : ∀ ops, (start.afterAll ops).pageSize = settings.pageSize ∧
      settings.pageSize ∣ (start.afterAll ops).max := by
    intro ops
    obtain ⟨hsame, hdvd⟩ := capacity_afterAll h hstart.1.2.1 (fun capacity extra more hcapacity hmore _ _ =>
      Nat.dvd_add hcapacity (isLeast_pages htwo (hpage ▸ hmore)).1.2.1) ops
    exact ⟨hsame.trans hpage, hdvd⟩
  refine ⟨hstart, fun ops => (hrun ops).2, fun ops mapping extra b hgrow => ?_⟩
  obtain ⟨more, hmore, hadds, -⟩ := pages_of_grow (accounts_afterAll h ops) hgrow
  rw [(hrun ops).1] at hmore
  exact ⟨more, hadds, isLeast_pages htwo hmore⟩

/-- A capacity that never changes. -/
lemma countsPages_of_full (h : start.Accounts limit [])
    (hinitial : IsLeast (wholePages settings.pageSize settings.initialArenaSize) start.max)
    (hfull : ∀ extra, ∃ fault, grow extra start = .error fault start) : CountsPages settings start := by
  have hnoroom : ∀ extra more, pages extra start.pageSize = some more → start.max + more < wordBound →
      ¬ start.max + more ≤ limit := by
    intro extra more hmore hword hlimit
    obtain ⟨fault, hfails⟩ := hfull extra
    rw [grow_of_pages h.sound hmore hword (h.limit_eq.symm ▸ hlimit)] at hfails
    contradiction
  have hrun : ∀ ops, (start.afterAll ops).pageSize = start.pageSize ∧ (start.afterAll ops).max = start.max := by
    refine capacity_afterAll (P := (· = start.max)) h rfl ?_
    rintro capacity extra more rfl hmore hword hlimit
    exact absurd hlimit (hnoroom extra more hmore hword)
  refine ⟨hinitial, fun ops => (hrun ops).2 ▸ hinitial.1.2.1, fun ops mapping extra b hgrow => ?_⟩
  have hafter := accounts_afterAll h ops
  obtain ⟨more, hmore, hadds, hword, hlimit⟩ := pages_of_grow hafter hgrow
  rw [hadds, (hrun ops).2] at hword hlimit
  rw [hafter.limit_eq] at hlimit
  exact absurd hlimit (hnoroom extra more ((hrun ops).1 ▸ hmore) hword)

/-- If a growth is possible at all, a growth by a single byte is, and it shows a page size that is no power of
two. -/
lemma isPowerOfTwo_or_full (h : start.Accounts limit []) (hpage : start.pageSize = settings.pageSize)
    (hpos : settings.pageSize ≠ 0) (hcounts : CountsPages settings start) :
    settings.pageSize.isPowerOfTwo ∨ ∀ extra, ∃ fault, grow extra start = .error fault start := by
  refine or_iff_not_imp_left.mpr fun hodd extra => ?_
  -- a growth that succeeds adds what the counting says
  have hadds : ∀ wanted capacity, pages wanted start.pageSize = some capacity → start.max + capacity < wordBound →
      start.max + capacity ≤ start.limit → IsLeast (wholePages settings.pageSize wanted) capacity := by
    intro wanted capacity hcapacity hword hlimit
    have hgrow := grow_of_pages h.sound hcapacity hword hlimit
    have hgranted := backedBy_granting ((enlarges_grow h.sound wanted).imp fun _ _ hb => hb.1)
    obtain ⟨more, hmore, hleast⟩ := hcounts.growth [] .granting wanted _ (hgranted.trans hgrow)
    exact Nat.add_left_cancel hmore ▸ hleast
  rcases grow_cases extra h.sound with hfails | ⟨more, hmore, hword, hlimit, -⟩
  · exact ⟨_, hfails⟩
  · obtain ⟨⟨hpositive, hdvd, -⟩, -⟩ := hadds extra more hmore hword hlimit
    have hpageLe : settings.pageSize ≤ more := Nat.le_of_dvd hpositive hdvd
    have hpageWord : settings.pageSize < wordBound := Nat.lt_of_le_of_lt hpageLe (lt_wordBound_of_pages hmore)
    obtain ⟨least, hleast, hleastPos, hlt⟩ := lt_of_pages_one hpos hpageWord hodd
    obtain ⟨⟨-, hleastDvd, -⟩, -⟩ := hadds 1 least (hpage ▸ hleast) (by omega) (by omega)
    exact absurd (Nat.le_of_dvd hleastPos hleastDvd) (Nat.not_le.mpr hlt)

/-- **When capacity is counted in whole pages.**  For all settings that are accepted, and whatever the arena is
kept in: if and only if the page size is a power of two, or the capacity at the start is right and there is no
room for any growth. -/
theorem capacity_in_whole_pages_iff (hvalid : settings.problem? = none) {backing : Backing}
    (hstart : init backing settings.initialArenaSize settings.pageSize settings.maxArenaSize = .ok start) :
    CountsPages settings start ↔
      settings.pageSize.isPowerOfTwo ∨
        IsLeast (wholePages settings.pageSize settings.initialArenaSize) start.max ∧
          ∀ extra, ∃ fault, grow extra start = .error fault start := by
  have h := accounts_init hstart
  obtain ⟨hinitial, hpage⟩ := pages_of_init hstart
  have hpos : settings.pageSize ≠ 0 := by
    intro hzero
    rw [Settings.problem?, if_pos (.inl hzero)] at hvalid
    contradiction
  constructor
  · intro hcounts
    exact (isPowerOfTwo_or_full h hpage hpos hcounts).imp_right fun hfull => ⟨hcounts.initial, hfull⟩
  · rintro (htwo | ⟨hleast, hfull⟩)
    · exact countsPages_of_isPowerOfTwo h hpage hinitial htwo
    · exact countsPages_of_full h hleast hfull

/-- Pages of two system pages each. -/
def doublePages : Settings := { Settings.standard with pageSize := 8192, initialArenaSize := 9000 }

/-- A first capacity that is no number of pages is rounded up to two of them. -/
theorem capacity_in_whole_pages_iff_double : ∃ start : Arena, doublePages.problem? = none ∧
    init .anonymous doublePages.initialArenaSize doublePages.pageSize doublePages.maxArenaSize = .ok start ∧
      start.max = 16384 ∧ CountsPages doublePages start := by
  have hstart : init .anonymous doublePages.initialArenaSize doublePages.pageSize doublePages.maxArenaSize =
      .ok _ := rfl
  exact ⟨_, rfl, hstart, rfl, (capacity_in_whole_pages_iff rfl hstart).mpr (.inl ⟨13, rfl⟩)⟩

/-- Pages of three system pages each, and a single byte to begin with. -/
def triplePages : Settings := { Settings.standard with pageSize := 12288, initialArenaSize := 1 }

/-- **Three system pages are accepted as a page**, but the arena begins with the capacity of one system page and
grows by one. -/
theorem capacity_not_in_whole_pages : ∃ start : Arena, triplePages.problem? = none ∧
    init .anonymous triplePages.initialArenaSize triplePages.pageSize triplePages.maxArenaSize = .ok start ∧
      start.max = 4096 ∧ (start.after (.grow .granting 1)).max = 8192 ∧ ¬ CountsPages triplePages start :=
  ⟨_, rfl, rfl, rfl, rfl, fun hcounts => absurd (hcounts.always []) (by decide)⟩

end Arena

end PostScriptCore
