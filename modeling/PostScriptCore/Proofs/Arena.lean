import PostScriptCore.Arena
import Mathlib.Tactic.Lemma
import Mathlib.Tactic.Set

/-!
# The bytes of an arena

An image lists only a first part of its bytes, and every operation on it works on that list.  What
the rest of the theory needs is the effect on the single byte, which this file states once for each
operation.

* `Image.byte_write`, `Image.byte_zero` — what an overwritten or a zeroed image reads at an address.
* `Image.read_congr`, `Image.read_write` — ranges instead of single bytes.
* `Arena.Sound` — the arena is mapped, its cursor is below its capacity and the capacity is a word.
* `Arena.grow_cases`, `Arena.alloc_reaches` — what growing and allocating do if they succeed, and that they
  change nothing if they fail.
* `Arena.alloc_cases` — a successful allocation moves the cursor by the rounded size, leaves every
  byte alone and keeps the arena sound.
-/

namespace PostScriptCore

namespace Image

/-! ## Single bytes -/

lemma getD_writeCells (a : Nat) : ∀ (bytes : List UInt8) (cells : Array UInt8) (offset : Nat),
    offset + bytes.length ≤ cells.size →
      (writeCells cells offset bytes).getD a 0 =
        if offset ≤ a ∧ a < offset + bytes.length then bytes.getD (a - offset) 0
        else cells.getD a 0
  | [], cells, offset, _ => by
      rw [writeCells, if_neg (by simp only [List.length_nil]; omega)]
  | b :: rest, cells, offset, h => by
      simp only [List.length_cons] at h ⊢
      rw [writeCells, getD_writeCells a rest _ _ (by rw [Array.size_setIfInBounds]; omega)]
      rcases Nat.lt_trichotomy a offset with ha | ha | ha
      · rw [if_neg (by omega), if_neg (by omega), Array.getD_eq_getD_getElem?,
          Array.getElem?_setIfInBounds, if_neg (by omega), ← Array.getD_eq_getD_getElem?]
      · subst ha
        rw [if_neg (by omega), if_pos (by omega), Array.getD_eq_getD_getElem?,
          Array.getElem?_setIfInBounds, if_pos rfl, if_pos (by omega), Nat.sub_self]
        rfl
      · by_cases hlt : a < offset + (rest.length + 1)
        · rw [if_pos (by omega), if_pos (by omega),
            show a - offset = (a - (offset + 1)) + 1 by omega]
          rfl
        · rw [if_neg (by omega), if_neg (by omega), Array.getD_eq_getD_getElem?,
            Array.getElem?_setIfInBounds, if_neg (by omega), ← Array.getD_eq_getD_getElem?]

lemma le_size_materialise (cells : Array UInt8) (count : Nat) :
    count ≤ (materialise cells count).size := by
  rw [materialise]
  split
  · rw [Array.size_append, Array.size_replicate]; omega
  · omega

lemma getD_materialise (cells : Array UInt8) (count a : Nat) :
    (materialise cells count).getD a 0 = cells.getD a 0 := by
  rw [materialise]
  split
  · rw [Array.getD_eq_getD_getElem?, Array.getD_eq_getD_getElem?, Array.getElem?_append]
    split
    · rfl
    · rw [Array.getElem?_replicate, Array.getElem?_eq_none (by omega)]
      split <;> rfl
  · rfl

lemma getD_zeroCells (a : Nat) : ∀ (count : Nat) (cells : Array UInt8) (offset : Nat),
    (zeroCells cells offset count).getD a 0 =
      if offset ≤ a ∧ a < offset + count then 0 else cells.getD a 0
  | 0, cells, offset => by rw [zeroCells, if_neg (by omega)]
  | count + 1, cells, offset => by
      rw [zeroCells, getD_zeroCells a count]
      rcases Nat.lt_trichotomy a offset with ha | ha | ha
      · rw [if_neg (by omega), if_neg (by omega), Array.getD_eq_getD_getElem?,
          Array.getElem?_setIfInBounds, if_neg (by omega), ← Array.getD_eq_getD_getElem?]
      · subst ha
        rw [if_neg (by omega), if_pos (by omega), Array.getD_eq_getD_getElem?,
          Array.getElem?_setIfInBounds, if_pos rfl]
        split <;> rfl
      · by_cases hlt : a < offset + (count + 1)
        · rw [if_pos (by omega), if_pos (by omega)]
        · rw [if_neg (by omega), if_neg (by omega), Array.getD_eq_getD_getElem?,
            Array.getElem?_setIfInBounds, if_neg (by omega), ← Array.getD_eq_getD_getElem?]

/-- Overwriting changes the bytes of its range and no others. -/
lemma byte_write (image : Image) (offset : Nat) (bytes : List UInt8) (a : Nat) :
    (image.write offset bytes).byte a =
      if offset ≤ a ∧ a < offset + bytes.length then bytes.getD (a - offset) 0
      else image.byte a := by
  rw [byte, write, getD_writeCells _ _ _ _ (le_size_materialise _ _), getD_materialise]
  rfl

/-- Overwriting leaves the bytes outside its range alone. -/
lemma byte_write_of_outside {image : Image} {offset a : Nat} {bytes : List UInt8}
    (h : a < offset ∨ offset + bytes.length ≤ a) :
    (image.write offset bytes).byte a = image.byte a := by
  rw [byte_write, if_neg (by omega)]

/-- Zeroing changes the bytes of its range and no others. -/
lemma byte_zero (image : Image) (offset limit a : Nat) :
    (image.zero offset limit).byte a =
      if offset ≤ a ∧ a < limit then 0 else image.byte a := by
  simp only [byte, zero]
  set stop := if limit < image.cells.size then limit else image.cells.size with hstop
  rw [getD_zeroCells]
  by_cases h : offset ≤ a ∧ a < limit
  · rw [if_pos h]
    split
    · rfl
    · next hn =>
      -- a byte past the listed ones is zero already
      rw [Array.getD_eq_getD_getElem?, Array.getElem?_eq_none]
      · rfl
      · split at hstop <;> omega
  · rw [if_neg h, if_neg]
    split at hstop <;> omega

/-! ## Ranges -/

@[simp] lemma length_read (image : Image) (offset count : Nat) :
    (image.read offset count).length = count := by
  simp [read]

/-- A range reads the same in two images that agree on its bytes. -/
lemma read_congr {image image' : Image} {offset count : Nat}
    (h : ∀ a, offset ≤ a → a < offset + count → image.byte a = image'.byte a) :
    image.read offset count = image'.read offset count := by
  refine List.map_congr_left fun a ha => ?_
  rw [List.mem_range'_1] at ha
  exact h a ha.1 ha.2

lemma getD_read (image : Image) (offset : Nat) {count i : Nat} (h : i < count) :
    (image.read offset count).getD i 0 = image.byte (offset + i) := by
  simp [read, List.getD_eq_getElem?_getD, h]

/-- What has just been written is what is read. -/
lemma read_write (image : Image) (offset : Nat) (bytes : List UInt8) :
    (image.write offset bytes).read offset bytes.length = bytes := by
  refine List.ext_getElem? fun i => ?_
  by_cases hi : i < bytes.length
  · have h := getD_read (image.write offset bytes) offset hi
    rw [byte_write, if_pos (by omega), Nat.add_sub_cancel_left] at h
    simp only [List.getD_eq_getElem?_getD, List.getElem?_eq_getElem hi,
      List.getElem?_eq_getElem (show i < (read _ offset bytes.length).length by simpa using hi),
      Option.getD_some] at h ⊢
    rw [h]
  · rw [List.getElem?_eq_none (by simp; omega), List.getElem?_eq_none (by omega)]

end Image

namespace Arena

/-! ## Allocation -/

/-- The arena can be used: it is mapped, and its cursor and capacity are words in order. -/
structure Sound (a : Arena) : Prop where
  mapped : a.mapped = true
  used_le_max : a.used ≤ a.max
  max_lt : a.max < wordBound

lemma Sound.used_lt {a : Arena} (h : a.Sound) : a.used < wordBound :=
  Nat.lt_of_le_of_lt h.used_le_max h.max_lt

/-- Nothing stands in the way of an access below the cursor. -/
lemma Sound.obstacle?_eq_none {a : Arena} (h : a.Sound) {offset count : Nat}
    (hle : offset + count ≤ a.used) : a.obstacle? offset count = none := by
  have hb : a.inBounds offset count := ⟨Nat.lt_of_le_of_lt hle h.used_lt, hle⟩
  rw [obstacle?, if_neg (not_not_intro hb), if_pos h.mapped]

/-- Nothing stands in the way of bytes below the cursor only. -/
lemma le_used_of_obstacle {a : Arena} {offset count : Nat} (h : a.obstacle? offset count = none) :
    offset + count ≤ a.used := by
  rw [obstacle?] at h
  split at h
  · contradiction
  · next hb => exact (Decidable.of_not_not hb).2

/-- A rounded size is a multiple of the granule. -/
lemma mod_arenaAlign_of_alignUp {value rounded : Nat}
    (h : alignUp value arenaAlign = some rounded) : rounded % arenaAlign = 0 := by
  simp only [alignUp] at h
  split at h
  · injection h with h
    have hand : value + (arenaAlign - 1) &&& (arenaAlign - 1) =
        (value + (arenaAlign - 1)) % arenaAlign := Nat.and_two_pow_sub_one_eq_mod _ 3
    rw [hand] at h
    simp only [arenaAlign] at h ⊢
    omega
  · contradiction

/-- Rounding up stays below the word bound. -/
lemma lt_wordBound_of_alignUp {value align rounded : Nat}
    (h : alignUp value align = some rounded) : rounded < wordBound := by
  simp only [alignUp] at h
  split at h
  · injection h with h
    omega
  · contradiction

/-- A multiple of the granule is rounded to itself. -/
lemma alignUp_of_mod {value : Nat} (hmod : value % arenaAlign = 0) (hlt : value < wordBound) :
    alignUp value arenaAlign = some value := by
  have hand : value + (arenaAlign - 1) &&& (arenaAlign - 1) =
      (value + (arenaAlign - 1)) % arenaAlign := Nat.and_two_pow_sub_one_eq_mod _ 3
  simp only [alignUp]
  rw [hand]
  simp only [arenaAlign, wordBound] at *
  rw [if_pos (by omega)]
  congr 1
  omega

/-- A capacity in pages is at least what was asked for. -/
lemma le_of_pages {wanted pageSize capacity : Nat} (h : pages wanted pageSize = some capacity) :
    wanted ≤ capacity := by
  rw [pages] at h
  have hle := le_of_alignUp h
  split at hle <;> omega

/-- Growing adds what was asked for in pages, up to the limit, and changes no byte; a refusal changes
nothing. -/
lemma grow_cases (extra : Nat) {a : Arena} (h : a.Sound) :
    grow extra a = .error .vmFull a ∨
    ∃ more, pages extra a.pageSize = some more ∧ a.max + more < wordBound ∧ a.max + more ≤ a.limit ∧
      grow extra a = .ok () { a with image := a.image.resize (a.max + more), max := a.max + more } := by
  rw [grow]
  cases hp : pages extra a.pageSize with
  | none => exact .inl rfl
  | some more =>
      dsimp only
      split
      · exact .inl rfl
      · next hb =>
        rw [if_pos h.mapped]
        exact .inr ⟨more, rfl, by omega, by omega, rfl⟩

/-- An allocation either fails and changes nothing, or moves the cursor past the rounded size, after
growing the arena if there is no room. -/
lemma alloc_reaches (size : Nat) {a : Arena} (h : a.Sound) :
    alloc size a = .error .vmFull a ∨
    ∃ rounded b, alignUp size arenaAlign = some rounded ∧ a.used + rounded ≤ b.max ∧
      (b = a ∨ ∃ extra, grow extra a = .ok () b) ∧
      alloc size a = .ok a.used { b with used := a.used + rounded } := by
  rw [alloc, if_pos h.mapped]
  cases hr : alignUp size arenaAlign with
  | none => exact .inl rfl
  | some rounded =>
      dsimp only
      split
      · exact .inl rfl
      · split
        · rcases grow_cases (a.used + rounded - a.max) h with hg | ⟨more, hmore, -, -, hg⟩
          · exact .inl (by rw [hg])
          · have hle := le_of_pages hmore
            exact .inr ⟨rounded, _, rfl, by dsimp only; omega, .inr ⟨_, hg⟩, by rw [hg]⟩
        · exact .inr ⟨rounded, a, rfl, by omega, .inl rfl, rfl⟩

/-- The capacity of `b` is within the limit if that of `a` is, and the limit is the same. -/
def KeepsLimit (a b : Arena) : Prop :=
  b.limit = a.limit ∧ (a.max ≤ a.limit → b.max ≤ b.limit)

/-- An allocation of a rounded size either fails and changes nothing, or hands out the bytes at the
cursor, moves the cursor past them and changes no byte. -/
lemma alloc_cases {size : Nat} {a : Arena} (h : a.Sound) (hmod : size % arenaAlign = 0) :
    alloc size a = .error .vmFull a ∨
    ∃ a' : Arena, alloc size a = .ok a.used a' ∧ a'.Sound ∧ a'.used = a.used + size ∧
      a.KeepsLimit a' ∧ ∀ i, a'.image.byte i = a.image.byte i := by
  rcases alloc_reaches size h with herror | ⟨rounded, b, hr, hroom, hb, hrun⟩
  · exact .inl herror
  · rw [alignUp_of_mod hmod (Nat.lt_of_le_of_lt (le_of_alignUp hr) (lt_wordBound_of_alignUp hr))] at hr
    obtain rfl := Option.some.inj hr
    refine .inr ⟨_, hrun, ?_⟩
    rcases hb with rfl | ⟨extra, hgrow⟩
    · exact ⟨⟨h.mapped, hroom, h.max_lt⟩, rfl, ⟨rfl, id⟩, fun _ => rfl⟩
    · rcases grow_cases extra h with hg | ⟨more, -, hlt, hlimit, hg⟩
      · rw [hg] at hgrow
        contradiction
      · rw [hg] at hgrow
        obtain ⟨-, rfl⟩ := EStateM.Result.ok.inj hgrow
        exact ⟨⟨h.mapped, hroom, hlt⟩, rfl, ⟨rfl, fun _ => hlimit⟩, fun _ => rfl⟩

/-- A fresh arena is sound, its cursor stands at its start and its capacity is within the limit. -/
lemma sound_of_init {backing : Backing} {initial pageSize limit : Nat} {a : Arena}
    (h : init backing initial pageSize limit = .ok a) :
    a.Sound ∧ a.used = 0 ∧ a.limit = limit ∧ a.max ≤ limit := by
  rw [init] at h
  split at h
  · contradiction
  · next max hp =>
    have hlt := lt_wordBound_of_alignUp hp
    split at h
    · contradiction
    · next hlimit =>
      split at h
      · injection h with h
        subst h
        exact ⟨⟨rfl, Nat.zero_le _, hlt⟩, rfl, rfl, Nat.le_of_not_lt hlimit⟩
      · injection h with h
        subst h
        exact ⟨⟨rfl, Nat.zero_le _, hlt⟩, rfl, rfl, Nat.le_of_not_lt hlimit⟩
      · contradiction

end Arena

end PostScriptCore
