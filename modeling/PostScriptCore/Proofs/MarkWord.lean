import PostScriptCore.MarkWord
import Mathlib.Algebra.Group.Nat.Defs
import Mathlib.Tactic.Lemma

/-!
# Packed mark words

Reading a run of bits after writing it gives what was written, modulo the width of the run, and leaves any run
beside it as it was.  The four parts of a mark are such runs, so that a word says of a mark what the mark itself
says, and a setter changes its own part only.

* `BitRun.toNat_get_set`, `BitRun.get_set_of_apart` — reading after writing.
* `MarkWord.mark_withRefcount`, … — what a setter does to the mark.
* `MarkWord.mark_packed`, `MarkWord.packed_mark` — packing loses nothing, and there is one word for each mark.
* `MarkWord.reads_setters` — what the readers find after a setter.
* `MarkWord.reads_withRefcount`, `MarkWord.reads_createdAt`, … — numbers that fit are recorded as they are.
* `Mark.packed_withRefcount`, … — the setters of marks are those of words.
-/

namespace PostScriptCore

namespace BitRun

variable (run : BitRun) (word value : BitVec 32)

/-! ## Bits of a run -/

lemma getLsbD_mask (i : Nat) : run.mask.getLsbD i = decide (i < run.width) := by
  have hfits := run.fits
  rw [mask, BitVec.getLsbD_setWidth, BitVec.getLsbD_allOnes, ← Bool.decide_and, decide_eq_decide]
  omega

lemma getLsbD_get (i : Nat) :
    (run.get word).getLsbD i = (word.getLsbD (run.shift + i) && decide (i < run.width)) := by
  rw [get, BitVec.getLsbD_and, BitVec.getLsbD_ushiftRight, getLsbD_mask]

/-- **Writing a run** replaces the bits in it and no others. -/
lemma getLsbD_set (i : Nat) :
    (run.set word value).getLsbD i =
      if run.shift ≤ i ∧ i < run.shift + run.width then value.getLsbD (i - run.shift) else word.getLsbD i := by
  have hfits := run.fits
  simp only [set, BitVec.getLsbD_or, BitVec.getLsbD_and, BitVec.getLsbD_not, BitVec.getLsbD_shiftLeft, getLsbD_mask]
  by_cases hin : run.shift ≤ i ∧ i < run.shift + run.width
  · have hword : i < 32 := by omega
    have hwidth : i - run.shift < run.width := by omega
    simp [hin, hword, hwidth, Nat.not_lt_of_le hin.1]
  · rw [if_neg hin]
    by_cases hword : i < 32
    · have hout : i < run.shift ∨ ¬ i - run.shift < run.width := by omega
      rcases hout with hlow | hhigh
      · simp [hword, hlow]
      · simp [hword, hhigh]
    · simp [hword, BitVec.getLsbD_of_ge word i (Nat.le_of_not_lt hword)]

/-! ## Reading after writing -/

lemma get_set : run.get (run.set word value) = value &&& run.mask := by
  refine BitVec.eq_of_getLsbD_eq fun i _ => ?_
  rw [getLsbD_get, getLsbD_set, BitVec.getLsbD_and, getLsbD_mask]
  by_cases hi : i < run.width
  · rw [if_pos ⟨Nat.le_add_right _ _, Nat.add_lt_add_left hi _⟩, Nat.add_sub_cancel_left]
  · rw [decide_eq_false hi, Bool.and_false, Bool.and_false]

/-- **A run beside another one** is not changed with it. -/
lemma get_set_of_apart {run other : BitRun}
    (h : run.shift + run.width ≤ other.shift ∨ other.shift + other.width ≤ run.shift) :
    other.get (run.set word value) = other.get word := by
  refine BitVec.eq_of_getLsbD_eq fun i _ => ?_
  rw [getLsbD_get, getLsbD_get, getLsbD_set]
  by_cases hi : i < other.width
  · rw [if_neg (by omega)]
  · rw [decide_eq_false hi, Bool.and_false, Bool.and_false]

lemma toNat_and_mask : (value &&& run.mask).toNat = value.toNat % 2 ^ run.width := by
  have hpow : 2 ^ run.width ≤ 2 ^ 32 := Nat.pow_le_pow_right (by decide) (Nat.le_of_add_left_le run.fits)
  have hpos : 0 < 2 ^ run.width := Nat.pow_pos (by decide)
  rw [BitVec.toNat_and, mask, BitVec.toNat_setWidth, BitVec.toNat_allOnes, Nat.mod_eq_of_lt (by omega),
    Nat.and_two_pow_sub_one_eq_mod]

/-- A run is a digit of the number that the word is. -/
lemma toNat_get : (run.get word).toNat = word.toNat / 2 ^ run.shift % 2 ^ run.width := by
  rw [get, toNat_and_mask, BitVec.toNat_ushiftRight, Nat.shiftRight_eq_div_pow]

lemma toNat_get_set : (run.get (run.set word value)).toNat = value.toNat % 2 ^ run.width := by
  rw [get_set, toNat_and_mask]

end BitRun

namespace MarkWord

variable (word : MarkWord)

/-! ## The collector bit -/

/-- The collector bit is a run of its own. -/
def gcRun : BitRun := ⟨31, 1, by decide⟩

lemma gcBit_eq : gcBit = .twoPow 32 31 := rfl

lemma isMarked_eq : word.isMarked = (gcRun.get word.bits).getLsbD 0 := by
  have hbit : (gcRun.get word.bits).getLsbD 0 = word.bits.getLsbD 31 := by
    rw [BitRun.getLsbD_get]
    exact Bool.and_true _
  rw [hbit, isMarked, gcBit_eq, BitVec.and_twoPow]
  cases word.bits.getLsbD 31 <;> rfl

/-- Setting and clearing the collector bit is writing its run. -/
lemma withMarked_eq (marked : Bool) :
    word.withMarked marked = ⟨gcRun.set word.bits (if marked then 1 else 0)⟩ := by
  have hrun (i : Nat) : (gcRun.shift ≤ i ∧ i < gcRun.shift + gcRun.width) ↔ i = 31 := by
    show 31 ≤ i ∧ i < 32 ↔ i = 31
    omega
  rw [withMarked, gcBit_eq]
  cases marked
  all_goals
    refine congrArg MarkWord.mk (BitVec.eq_of_getLsbD_eq fun i hi => ?_)
    rw [BitRun.getLsbD_set]
    simp only [hrun]
    by_cases hlast : i = 31
    · subst hlast
      simp [gcRun]
    · simp [hlast, hi]

/-! ## What a setter does to the mark -/

lemma mark_eq : word.mark =
    ⟨(gcRun.get word.bits).getLsbD 0, .ofNat 128 (refcountRun.get word.bits).toNat,
      .ofNat 4096 (createdRun.get word.bits).toNat, .ofNat 4096 (snapshotRun.get word.bits).toNat⟩ := by
  rw [mark, isMarked_eq]
  rfl

lemma mark_withMarked (marked : Bool) : (word.withMarked marked).mark = word.mark.withMarked marked := by
  rw [withMarked_eq, mark_eq, mark_eq]
  simp (disch := decide) only [BitRun.get_set_of_apart, BitRun.get_set]
  cases marked <;> rfl

lemma mark_withRefcount (count : BitVec 32) :
    (word.withRefcount count).mark = word.mark.withRefcount count.toNat := by
  rw [withRefcount, mark_eq, mark_eq]
  simp (disch := decide) only [BitRun.get_set_of_apart, BitRun.toNat_get_set, Mark.withRefcount]
  exact congrArg (Mark.mk _ · _ _) (Fin.ext (Nat.mod_mod _ _))

lemma mark_withCreated (level : BitVec 32) :
    (word.withCreated level).mark = word.mark.withCreated level.toNat := by
  rw [withCreated, mark_eq, mark_eq]
  simp (disch := decide) only [BitRun.get_set_of_apart, BitRun.toNat_get_set, Mark.withCreated]
  exact congrArg (Mark.mk _ _ · _) (Fin.ext (Nat.mod_mod _ _))

lemma mark_withSnapshot (level : BitVec 32) :
    (word.withSnapshot level).mark = word.mark.withSnapshot level.toNat := by
  rw [withSnapshot, mark_eq, mark_eq]
  simp (disch := decide) only [BitRun.get_set_of_apart, BitRun.toNat_get_set, Mark.withSnapshot]
  exact congrArg (Mark.mk _ _ _ ·) (Fin.ext (Nat.mod_mod _ _))

/-! ## Packing -/

/-- The parts make up the word. -/
lemma toWord_mark : word.mark.toWord = word.bits.toNat := by
  have hword := word.bits.isLt
  have hbit : (gcRun.get word.bits).getLsbD 0 = decide (word.bits.toNat / 2 ^ 31 % 2 = 1) := by
    rw [BitVec.getLsbD, BitRun.toNat_get, Nat.testBit_zero]
    exact congrArg (fun n => decide (n = 1)) (Nat.mod_mod _ _)
  rw [mark_eq, hbit, Mark.toWord]
  simp only [BitRun.toNat_get, decide_eq_true_eq, Fin.ofNat, refcountRun, createdRun, snapshotRun]
  split <;> omega

/-- **There is one word for each mark.** -/
lemma packed_mark : word.mark.packed = word := by
  rw [Mark.packed, toWord_mark, BitVec.ofNat_toNat, BitVec.setWidth_eq]

/-- **Packing loses nothing.** -/
lemma mark_packed (mark : Mark) : mark.packed.mark = mark := by
  have hword : mark.packed.mark.toWord = mark.toWord := by
    rw [toWord_mark, Mark.packed, BitVec.toNat_ofNat, Nat.mod_eq_of_lt mark.toWord_lt]
  rw [← Mark.ofWord_toWord mark.packed.mark, hword, Mark.ofWord_toWord]

/-! ## What the readers say -/

/-- What the readers find in a word. -/
structure Reads (word : MarkWord) (marked : Bool) (refcount created snapshot : Nat) : Prop where
  marked : word.isMarked = marked
  refcount : word.refcount.toNat = refcount
  created : word.created.toNat = created
  snapshot : word.snapshot.toNat = snapshot

/-- The readers find the parts of the mark. -/
lemma reads_mark :
    word.Reads word.mark.marked word.mark.refcount word.mark.created word.mark.snapshot where
  marked := rfl
  refcount := by
    rw [mark_eq, refcount, BitRun.toNat_get]
    exact (Nat.mod_mod _ _).symm
  created := by
    rw [mark_eq, created, BitRun.toNat_get]
    exact (Nat.mod_mod _ _).symm
  snapshot := by
    rw [mark_eq, snapshot, BitRun.toNat_get]
    exact (Nat.mod_mod _ _).symm

/-- **The setters are independent.**  Each sets its own part to the argument, modulo the width of the part, and
leaves the other three. -/
lemma reads_setters :
    (∀ marked, (word.withMarked marked).Reads marked word.refcount.toNat word.created.toNat word.snapshot.toNat) ∧
    (∀ count, (word.withRefcount count).Reads
      word.isMarked (count.toNat % 128) word.created.toNat word.snapshot.toNat) ∧
    (∀ level, (word.withCreated level).Reads
      word.isMarked word.refcount.toNat (level.toNat % 4096) word.snapshot.toNat) ∧
    ∀ level, (word.withSnapshot level).Reads
      word.isMarked word.refcount.toNat word.created.toNat (level.toNat % 4096) := by
  have hword := word.reads_mark
  refine ⟨fun marked => ?_, fun count => ?_, fun level => ?_, fun level => ?_⟩
  · have h := (word.withMarked marked).reads_mark
    rw [mark_withMarked] at h
    exact ⟨h.marked, h.refcount.trans hword.refcount.symm, h.created.trans hword.created.symm,
      h.snapshot.trans hword.snapshot.symm⟩
  · have h := (word.withRefcount count).reads_mark
    rw [mark_withRefcount] at h
    exact ⟨h.marked, h.refcount, h.created.trans hword.created.symm, h.snapshot.trans hword.snapshot.symm⟩
  · have h := (word.withCreated level).reads_mark
    rw [mark_withCreated] at h
    exact ⟨h.marked, h.refcount.trans hword.refcount.symm, h.created, h.snapshot.trans hword.snapshot.symm⟩
  · have h := (word.withSnapshot level).reads_mark
    rw [mark_withSnapshot] at h
    exact ⟨h.marked, h.refcount.trans hword.refcount.symm, h.created.trans hword.created.symm, h.snapshot⟩

/-! ## Numbers that fit -/

lemma toNat_refcount_lt : word.refcount.toNat < 128 := by
  rw [refcount, BitRun.toNat_get]
  exact Nat.mod_lt _ (by decide)

/-- Counting up does not leave the word. -/
lemma toNat_refcount_add_one : (word.refcount + 1).toNat = word.refcount.toNat + 1 := by
  have hcount := word.toNat_refcount_lt
  bv_omega

lemma toNat_refcount_sub_one (h : word.refcount.toNat ≠ 0) :
    (word.refcount - 1).toNat = word.refcount.toNat - 1 := by
  have hcount := word.toNat_refcount_lt
  bv_omega

/-- A pin count that fits is recorded as it is. -/
lemma reads_withRefcount {count : BitVec 32} (h : count.toNat ≤ Mark.maxRefcount) :
    (word.withRefcount count).Reads word.isMarked count.toNat word.created.toNat word.snapshot.toNat := by
  have hset := word.reads_setters.2.1 count
  rw [Nat.mod_eq_of_lt (Nat.lt_succ_of_le h)] at hset
  exact hset

lemma reads_add_one (h : word.refcount.toNat ≠ Mark.maxRefcount) :
    (word.withRefcount (word.refcount + 1)).Reads
      word.isMarked (word.refcount.toNat + 1) word.created.toNat word.snapshot.toNat := by
  have hle : word.refcount.toNat ≤ Mark.maxRefcount := Nat.le_of_lt_succ word.toNat_refcount_lt
  have hmore := word.toNat_refcount_add_one
  rw [← hmore]
  exact word.reads_withRefcount (hmore ▸ Nat.succ_le_of_lt (Nat.lt_of_le_of_ne hle h))

lemma reads_sub_one (h : word.refcount.toNat ≠ 0) :
    (word.withRefcount (word.refcount - 1)).Reads
      word.isMarked (word.refcount.toNat - 1) word.created.toNat word.snapshot.toNat := by
  have hle : word.refcount.toNat ≤ Mark.maxRefcount := Nat.le_of_lt_succ word.toNat_refcount_lt
  have hless := word.toNat_refcount_sub_one h
  rw [← hless]
  exact word.reads_withRefcount (hless ▸ Nat.le_trans (Nat.sub_le _ _) hle)

/-- The part of a word is at most as wide as the word, so that a number loses no more on its way through a
word. -/
lemma toNat_ofNat_mod {n : Nat} (hn : 2 ^ 32 % n = 0) (value : Nat) :
    (BitVec.ofNat 32 value).toNat % n = value % n := by
  rw [BitVec.toNat_ofNat]
  exact Nat.mod_mod_of_dvd value (Nat.dvd_of_mod_eq_zero hn)

lemma toNat_ofNat_of_level {level : Nat} (h : level ≤ Mark.maxLevel) :
    (BitVec.ofNat 32 level).toNat % 4096 = level := by
  rw [toNat_ofNat_mod (by decide), Nat.mod_eq_of_lt (Nat.lt_succ_of_le h)]

/-- A snapshot level that fits is recorded as it is. -/
lemma reads_withSnapshot {level : Nat} (h : level ≤ Mark.maxLevel) :
    (word.withSnapshot (.ofNat 32 level)).Reads word.isMarked word.refcount.toNat word.created.toNat level := by
  have hset := word.reads_setters.2.2.2 (.ofNat 32 level)
  rw [toNat_ofNat_of_level h] at hset
  exact hset

/-- The word of a new entity has the level twice, if it fits. -/
lemma reads_createdAt {level : Nat} (h : level ≤ Mark.maxLevel) :
    (createdAt (.ofNat 32 level)).Reads false 0 level level := by
  have hcreated := (⟨0⟩ : MarkWord).reads_setters.2.2.1 (.ofNat 32 level)
  rw [toNat_ofNat_of_level h] at hcreated
  have hset := reads_withSnapshot ((⟨0⟩ : MarkWord).withCreated (.ofNat 32 level)) h
  rw [hcreated.marked, hcreated.refcount, hcreated.created] at hset
  exact hset

end MarkWord

namespace Mark

variable (mark : Mark)

/-! ## Setters of marks and of words -/

lemma packed_eq_iff {word : MarkWord} : mark.packed = word ↔ mark = word.mark := by
  constructor
  · rintro rfl
    exact (MarkWord.mark_packed mark).symm
  · rintro rfl
    exact word.packed_mark

lemma packed_withMarked (marked : Bool) : (mark.withMarked marked).packed = mark.packed.withMarked marked := by
  rw [packed_eq_iff, MarkWord.mark_withMarked, MarkWord.mark_packed]

lemma packed_withRefcount (count : Nat) :
    (mark.withRefcount count).packed = mark.packed.withRefcount (.ofNat 32 count) := by
  have hcount := MarkWord.toNat_ofNat_mod (n := 128) (by decide) count
  rw [packed_eq_iff, MarkWord.mark_withRefcount, MarkWord.mark_packed]
  exact congrArg (Mark.mk _ · _ _) (Fin.ext hcount.symm)

lemma packed_withCreated (level : Nat) :
    (mark.withCreated level).packed = mark.packed.withCreated (.ofNat 32 level) := by
  have hlevel := MarkWord.toNat_ofNat_mod (n := 4096) (by decide) level
  rw [packed_eq_iff, MarkWord.mark_withCreated, MarkWord.mark_packed]
  exact congrArg (Mark.mk _ _ · _) (Fin.ext hlevel.symm)

lemma packed_withSnapshot (level : Nat) :
    (mark.withSnapshot level).packed = mark.packed.withSnapshot (.ofNat 32 level) := by
  have hlevel := MarkWord.toNat_ofNat_mod (n := 4096) (by decide) level
  rw [packed_eq_iff, MarkWord.mark_withSnapshot, MarkWord.mark_packed]
  exact congrArg (Mark.mk _ _ _ ·) (Fin.ext hlevel.symm)

/-- A mark made now is packed by setting both levels. -/
lemma packed_createdAt (level : Nat) : (createdAt level).packed = MarkWord.createdAt (.ofNat 32 level) := by
  have hblank : (createdAt 0).packed = ⟨0⟩ := by decide
  rw [MarkWord.createdAt, ← hblank, ← packed_withCreated, ← packed_withSnapshot]
  rfl

end Mark

end PostScriptCore
