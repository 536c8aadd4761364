import PostScriptCore.Builtin.Arithmetic
import PostScriptCore.Builtin.Stack
import Mathlib.Data.List.TakeWhile

/-!
# The stack operators on a list

The operators of the operand stack and of integer arithmetic, told on the list of operands with the topmost
first.

* `StackWord.effect` — what takes the place of the operands, or why the operator is refused.  Refusals come in
  the order in which a dispatch comes to them: missing and mistyped operands, no room for the results, no room
  to hold the operands, and last what only the native finds out.
* `StackWord.effect_of_room` — held operands do not matter if all of them could be held.
* `StackWord.suffix_of_effect` — what is below the operands stays.
* `StackWord.Fails`, `StackWord.effect_eq_error_iff` — when an operator fails, fault by fault.
-/

namespace PostScriptCore

/-- The operators of the operand stack and of integer arithmetic. -/
inductive StackWord
  | pop
  | exch
  | dup
  | clear
  | count
  | mark
  | clearToMark
  | countToMark
  | index
  | add
  | sub
  | mul
  | neg
  deriving DecidableEq

namespace StackWord

/-- The name. -/
def text : StackWord → String
  | pop => "pop"
  | exch => "exch"
  | dup => "dup"
  | clear => "clear"
  | count => "count"
  | mark => "mark"
  | clearToMark => "cleartomark"
  | countToMark => "counttomark"
  | index => "index"
  | add => "add"
  | sub => "sub"
  | mul => "mul"
  | neg => "neg"

/-- How many operands the operator takes. -/
def taken : StackWord → Nat
  | pop | dup | index | neg => 1
  | exch | add | sub | mul => 2
  | clear | count | mark | clearToMark | countToMark => 0

/-! ## The effect on a list -/

/-- The outcome, if so many operands can be held. -/
def holding (room need : Nat) (outcome : Except Fault (List Object)) : Except Fault (List Object) :=
  if room < need then .error .limitCheck else outcome

/-- The outcome, if there is room for one more operand. -/
def growing (limit : Nat) (xs : List Object) (outcome : Except Fault (List Object)) :
    Except Fault (List Object) :=
  if xs.length < limit then outcome else .error .stackOverflow

/-- A number of operands is put on top. -/
def counted (n : Nat) (xs : List Object) : Except Fault (List Object) :=
  if n ≤ Action.maxInteger then .ok (Object.int n :: xs) else .error .limitCheck

/-- Whether the object is no mark. -/
def isAbove (obj : Object) : Bool := obj.ty != .mark

/-- The operands from the topmost mark down, that is without those above it. -/
def belowMark (xs : List Object) : Except Fault (List Object) :=
  match xs.dropWhile isAbove with
  | _ :: below => .ok below
  | [] => .error .unmatchedMark

/-- The number of operands above the topmost mark is put on top. -/
def countedToMark (xs : List Object) : Except Fault (List Object) :=
  if xs.all isAbove then .error .unmatchedMark else counted (xs.takeWhile isAbove).length xs

/-- The operand at a depth is put on top. -/
def picked (z : Int) (xs : List Object) : Except Fault (List Object) :=
  match if z < 0 then none else xs[z.toNat]? with
  | some x => .ok (x :: xs)
  | none => .error .rangeCheck

/-- Two integers come to what they do exactly, as far as an object can hold it; two numbers of which one is a
real come to a real. -/
def binary (exact : Int → Int → Int) (rounded : UInt32 → UInt32 → UInt32) (x y : Object) : Option Object :=
  match x.asInt?, y.asInt? with
  | some a, some b => some (Action.ofExactInt (exact a b))
  | _, _ =>
    if x.ty.isNumber && y.ty.isNumber then some (Object.real (rounded x.promoted.value y.promoted.value))
    else none

/-- The same for the negative of one number. -/
def negative (x : Object) : Option Object :=
  match x.asInt? with
  | some a => some (Action.ofExactInt (-a))
  | none => if x.ty.isNumber then some (Object.real (Real.Single.neg x.value)) else none

/-- The result takes the place of the operands, if they were numbers. -/
def calculated (room need : Nat) (xs : List Object) : Option Object → Except Fault (List Object)
  | some result => holding room need (.ok (result :: xs))
  | none => .error .typeCheck

/-- **What the operator makes of the operands**, the topmost first, on a stack that takes at most `limit` of
them, when so many more can be held. -/
def effect (limit room : Nat) : StackWord → List Object → Except Fault (List Object)
  | pop, _ :: xs => holding room 1 (.ok xs)
  | exch, y :: x :: xs => holding room 2 (.ok (x :: y :: xs))
  | dup, x :: xs => growing limit (x :: xs) (holding room 1 (.ok (x :: x :: xs)))
  | clear, _ => .ok []
  | count, xs => growing limit xs (counted xs.length xs)
  | mark, xs => growing limit xs (.ok (Object.mark :: xs))
  | clearToMark, xs => belowMark xs
  | countToMark, xs => growing limit xs (countedToMark xs)
  | index, n :: xs =>
    match n.asInt? with
    | some z => holding room 1 (picked z xs)
    | none => .error .typeCheck
  | add, y :: x :: xs => calculated room 2 xs (binary (· + ·) Real.Single.add x y)
  | sub, y :: x :: xs => calculated room 2 xs (binary (· - ·) Real.Single.sub x y)
  | mul, y :: x :: xs => calculated room 2 xs (binary (· * ·) Real.Single.mul x y)
  | neg, x :: xs => calculated room 1 xs (negative x)
  | _, _ => .error .stackUnderflow

variable {limit room need : Nat} {xs ys : List Object}

lemma holding_eq (h : need ≤ room) (outcome : Except Fault (List Object)) : holding room need outcome = outcome :=
  if_neg (Nat.not_lt.mpr h)

lemma effect_short (w : StackWord) (h : xs.length < w.taken) :
    w.effect limit room xs = .error .stackUnderflow := by
  rcases xs with _ | ⟨x, _ | ⟨y, xs⟩⟩
  · cases w <;> first | rfl | contradiction
  · cases w <;> first | rfl | (simp [taken] at h)
  · rw [List.length_cons, List.length_cons] at h
    cases w <;> simp only [taken] at h <;> omega

/-- Room that is there does not matter. -/
lemma effect_of_taken_le (w : StackWord) (h : w.taken ≤ room) :
    w.effect limit room xs = w.effect limit w.taken xs := by
  cases w with
  | clear | count | mark | clearToMark | countToMark => rfl
  | pop | dup | index | neg =>
      have hone : ∀ outcome, holding room 1 outcome = outcome := holding_eq h
      have hsame : ∀ outcome, holding 1 1 outcome = outcome := holding_eq (Nat.le_refl 1)
      cases xs with
      | nil => rfl
      | cons x xs => simp only [effect, taken, hone, hsame, calculated]
  | exch | add | sub | mul =>
      have htwo : ∀ outcome, holding room 2 outcome = outcome := holding_eq h
      have hsame : ∀ outcome, holding 2 2 outcome = outcome := holding_eq (Nat.le_refl 2)
      rcases xs with _ | ⟨y, _ | ⟨x, xs⟩⟩
      · rfl
      · rfl
      · simp only [effect, taken, htwo, hsame, calculated]

/-- With room to hold every operand, nothing is refused for want of it. -/
lemma effect_of_room (w : StackWord) (h : xs.length ≤ room) :
    w.effect limit room xs = w.effect limit w.taken xs := by
  by_cases htaken : w.taken ≤ room
  · exact effect_of_taken_le w htaken
  · rw [effect_short w (by omega), effect_short w (by omega)]

lemma of_holding {outcome : Except Fault (List Object)} (h : holding room need outcome = .ok ys) :
    outcome = .ok ys := by
  rw [holding] at h
  split_ifs at h
  exact h

lemma of_growing {outcome : Except Fault (List Object)} (h : growing limit xs outcome = .ok ys) :
    outcome = .ok ys := by
  rw [growing] at h
  split_ifs at h
  exact h

lemma suffix_of_counted {n : Nat} (h : counted n xs = .ok ys) : xs <:+ ys := by
  rw [counted] at h
  split_ifs at h
  exact ⟨[Object.int n], Except.ok.inj h⟩

lemma suffix_of_calculated {result : Option Object} (h : calculated room need xs result = .ok ys) : xs <:+ ys := by
  cases result with
  | none => contradiction
  | some result => exact ⟨[result], Except.ok.inj (of_holding h)⟩

/-- **What is below the operands** stays there, unless operands are cleared. -/
lemma suffix_of_effect {w : StackWord} (hclear : w ≠ .clear) (hmark : w ≠ .clearToMark)
    (h : w.effect limit room xs = .ok ys) : xs.drop w.taken <:+ ys := by
  by_cases hshort : xs.length < w.taken
  · rw [effect_short w hshort] at h
    contradiction
  · rcases xs with _ | ⟨x, xs⟩
    · cases w with
      | count | mark | countToMark => exact List.nil_suffix
      | _ => contradiction
    · cases w with
      | clear | clearToMark => contradiction
      | pop => exact ⟨[], Except.ok.inj (of_holding h)⟩
      | dup => exact ⟨[x, x], Except.ok.inj (of_holding (of_growing h))⟩
      | count => exact suffix_of_counted (of_growing h)
      | mark => exact ⟨[Object.mark], Except.ok.inj (of_growing h)⟩
      | countToMark =>
          have hcounted := of_growing h
          rw [countedToMark] at hcounted
          split_ifs at hcounted
          exact suffix_of_counted hcounted
      | index =>
          rw [effect] at h
          split at h
          · have hpicked := of_holding h
            rw [picked] at hpicked
            split at hpicked
            · next picked hfound => exact ⟨[picked], Except.ok.inj hpicked⟩
            · contradiction
          · contradiction
      | neg => exact suffix_of_calculated h
      | exch =>
          cases xs with
          | nil => contradiction
          | cons y xs => exact ⟨[y, x], Except.ok.inj (of_holding h)⟩
      | add | sub | mul =>
          cases xs with
          | nil => contradiction
          | cons y xs => exact suffix_of_calculated h

end StackWord

/-! ## Marks -/

namespace StackWord

variable {below above xs : List Object} {mark : Object}

/-- Above and below the topmost mark. -/
lemma split_at_mark (hmark : mark.ty = .mark) (habove : ∀ obj ∈ above, obj.ty ≠ .mark) :
    belowMark (above ++ mark :: below) = .ok below ∧
      countedToMark (above ++ mark :: below) = counted above.length (above ++ mark :: below) := by
  have hkept : ∀ obj ∈ above, isAbove obj = true := fun obj hobj => bne_iff_ne.mpr (habove obj hobj)
  have hstop : ¬ isAbove mark = true := by rw [isAbove, hmark]; decide
  have hnotall : ¬ (above ++ mark :: below).all isAbove = true := fun hall =>
    hstop (List.all_eq_true.mp hall mark (by simp))
  rw [belowMark, countedToMark, List.dropWhile_append_of_pos hkept, List.takeWhile_append_of_pos hkept,
    List.dropWhile_cons_of_neg hstop, List.takeWhile_cons_of_neg hstop, if_neg hnotall, List.append_nil]
  exact ⟨rfl, rfl⟩

/-- No mark. -/
lemma unmatched (h : ∀ obj ∈ xs, obj.ty ≠ .mark) :
    belowMark xs = .error .unmatchedMark ∧ countedToMark xs = .error .unmatchedMark := by
  have hall : ∀ obj ∈ xs, isAbove obj = true := fun obj hobj => bne_iff_ne.mpr (h obj hobj)
  rw [belowMark, countedToMark, List.dropWhile_eq_nil_iff.mpr hall, if_pos (List.all_eq_true.mpr hall)]
  exact ⟨rfl, rfl⟩

/-- With a mark, there is something below it, and what is above it is counted. -/
lemma matched (h : ∃ obj ∈ xs, obj.ty = .mark) :
    (∃ ys, belowMark xs = .ok ys) ∧ countedToMark xs = counted (xs.takeWhile isAbove).length xs := by
  have hnotall : ¬ xs.all isAbove = true := by
    obtain ⟨obj, hobj, hmark⟩ := h
    intro hall
    exact bne_iff_ne.mp (List.all_eq_true.mp hall obj hobj) hmark
  rw [belowMark, countedToMark, if_neg hnotall]
  refine ⟨?_, rfl⟩
  cases hdrop : xs.dropWhile isAbove with
  | nil => exact absurd (List.all_eq_true.mpr (List.dropWhile_eq_nil_iff.mp hdrop)) hnotall
  | cons mark ys => exact ⟨ys, rfl⟩

end StackWord

/-! ## When an operator fails -/

namespace StackWord

/-- Whether the operator puts more operands on the stack than it takes. -/
def grows : StackWord → Bool
  | dup | count | mark | countToMark => true
  | _ => false

/-- Whether the operands have the types that the operator works on. -/
def Typed : StackWord → List Object → Prop
  | index, n :: _ => n.ty = .integer
  | add, y :: x :: _ | sub, y :: x :: _ | mul, y :: x :: _ => x.ty.isNumber = true ∧ y.ty.isNumber = true
  | neg, x :: _ => x.ty.isNumber = true
  | _, _ => True

/-- **When the operator fails with which fault**, if there is room to hold its operands: they are missing,
mistyped or out of range, there is no mark, or the result does not fit on the stack or in an integer. -/
def Fails (w : StackWord) (limit : Nat) (xs : List Object) : Fault → Prop
  | .stackUnderflow => xs.length < w.taken
  | .typeCheck => w.taken ≤ xs.length ∧ ¬ w.Typed xs
  | .stackOverflow => w.taken ≤ xs.length ∧ w.grows = true ∧ limit ≤ xs.length
  | .rangeCheck => w = .index ∧ ∃ n z rest, xs = n :: rest ∧ n.asInt? = some z ∧ (z < 0 ∨ (rest.length : Int) ≤ z)
  | .unmatchedMark => (w = .clearToMark ∨ w = .countToMark ∧ xs.length < limit) ∧ ∀ obj ∈ xs, obj.ty ≠ .mark
  | .limitCheck => xs.length < limit ∧ (w = .count ∧ Action.maxInteger < xs.length ∨
      w = .countToMark ∧ (∃ obj ∈ xs, obj.ty = .mark) ∧ Action.maxInteger < (xs.takeWhile isAbove).length)
  | _ => False

variable {limit room need : Nat} {xs ys : List Object} {w : StackWord} {fault : Fault} {x y : Object}

lemma asInt?_eq_none_iff : x.asInt? = none ↔ x.ty ≠ .integer := by
  rw [Object.asInt?, Object.payload?]
  split_ifs with hty <;> simp [hty]

lemma ty_of_asInt? {a : Int} (h : x.asInt? = some a) : x.ty = .integer := by
  by_contra hty
  rw [asInt?_eq_none_iff.mpr hty] at h
  contradiction

lemma isNumber_of_asInt? {a : Int} (h : x.asInt? = some a) : x.ty.isNumber = true := by
  rw [ty_of_asInt? h]
  rfl

lemma binary_eq_none_iff (exact : Int → Int → Int) (rounded : UInt32 → UInt32 → UInt32) :
    binary exact rounded x y = none ↔ ¬ (x.ty.isNumber = true ∧ y.ty.isNumber = true) := by
  rw [binary]
  split
  · next hx hy => simp [isNumber_of_asInt? hx, isNumber_of_asInt? hy]
  · split_ifs with h
    · simpa using h
    · simpa using h

lemma negative_eq_none_iff : negative x = none ↔ ¬ x.ty.isNumber = true := by
  rw [negative]
  split
  · next hx => simp [isNumber_of_asInt? hx]
  · split_ifs with h
    · simpa using h
    · simpa using h

lemma calculated_eq_error_iff {result : Option Object} :
    calculated need need xs result = .error fault ↔ fault = .typeCheck ∧ result = none := by
  cases result with
  | none => simp [calculated, eq_comm]
  | some result => simp [calculated, holding_eq (Nat.le_refl need)]

lemma counted_eq_error_iff {n : Nat} :
    counted n xs = .error fault ↔ fault = .limitCheck ∧ Action.maxInteger < n := by
  rw [counted]
  split_ifs with h
  · simp [Nat.not_lt.mpr h]
  · simp [Nat.lt_of_not_le h, eq_comm]

lemma growing_eq_error_iff {outcome : Except Fault (List Object)} : growing limit xs outcome = .error fault ↔
    fault = .stackOverflow ∧ limit ≤ xs.length ∨ xs.length < limit ∧ outcome = .error fault := by
  rw [growing]
  split_ifs with h
  · simp [h, Nat.not_le.mpr h]
  · simp [h, Nat.le_of_not_lt h, eq_comm]

/-- What fails is refused by the effect. -/
lemma effect_of_fails (h : w.Fails limit xs fault) : w.effect limit w.taken xs = .error fault := by
  cases fault with
  | stackUnderflow => exact effect_short w h
  | typeCheck =>
      obtain ⟨hlong, htyped⟩ := h
      cases w with
      | index =>
          rcases xs with _ | ⟨n, xs⟩
          · contradiction
          · have hn : n.asInt? = none := asInt?_eq_none_iff.mpr htyped
            rw [effect, hn]
      | neg =>
          rcases xs with _ | ⟨x, xs⟩
          · contradiction
          · exact calculated_eq_error_iff.mpr ⟨rfl, negative_eq_none_iff.mpr htyped⟩
      | add | sub | mul =>
          rcases xs with _ | ⟨y, _ | ⟨x, xs⟩⟩
          · contradiction
          · contradiction
          · exact calculated_eq_error_iff.mpr ⟨rfl, (binary_eq_none_iff _ _).mpr htyped⟩
      | _ => exact absurd trivial htyped
  | stackOverflow =>
      obtain ⟨hlong, hgrows, hfull⟩ := h
      cases w with
      | dup =>
          rcases xs with _ | ⟨x, xs⟩
          · contradiction
          · exact growing_eq_error_iff.mpr (.inl ⟨rfl, hfull⟩)
      | count | mark | countToMark => exact growing_eq_error_iff.mpr (.inl ⟨rfl, hfull⟩)
      | _ => contradiction
  | rangeCheck =>
      obtain ⟨rfl, n, z, rest, rfl, hn, hz⟩ := h
      have hnone : (if z < 0 then none else rest[z.toNat]?) = none := by
        split_ifs
        · rfl
        · exact List.getElem?_eq_none (by omega)
      simp only [effect, hn, holding_eq (show 1 ≤ taken .index from Nat.le_refl 1), picked, hnone]
  | unmatchedMark =>
      obtain ⟨rfl | ⟨rfl, hroom⟩, hnone⟩ := h
      · exact (unmatched hnone).1
      · exact growing_eq_error_iff.mpr (.inr ⟨hroom, (unmatched hnone).2⟩)
  | limitCheck =>
      obtain ⟨hroom, ⟨rfl, hmany⟩ | ⟨rfl, hmark, hmany⟩⟩ := h
      · exact growing_eq_error_iff.mpr (.inr ⟨hroom, counted_eq_error_iff.mpr ⟨rfl, hmany⟩⟩)
      · refine growing_eq_error_iff.mpr (.inr ⟨hroom, ?_⟩)
        rw [(matched hmark).2]
        exact counted_eq_error_iff.mpr ⟨rfl, hmany⟩
  | _ => exact h.elim

/-- What the effect refuses fails. -/
lemma fails_of_effect (h : w.effect limit w.taken xs = .error fault) : w.Fails limit xs fault := by
  by_cases hshort : xs.length < w.taken
  · rw [effect_short w hshort] at h
    cases h
    exact hshort
  have hlong := Nat.le_of_not_lt hshort
  cases w with
  | clear => contradiction
  | pop =>
      rcases xs with _ | ⟨x, xs⟩
      · contradiction
      · contradiction
  | exch =>
      rcases xs with _ | ⟨y, _ | ⟨x, xs⟩⟩
      · contradiction
      · contradiction
      · contradiction
  | dup =>
      rcases xs with _ | ⟨x, xs⟩
      · contradiction
      · obtain ⟨rfl, hfull⟩ | ⟨-, houtcome⟩ := growing_eq_error_iff.mp h
        · exact ⟨hlong, rfl, hfull⟩
        · contradiction
  | mark =>
      obtain ⟨rfl, hfull⟩ | ⟨-, houtcome⟩ := growing_eq_error_iff.mp h
      · exact ⟨hlong, rfl, hfull⟩
      · contradiction
  | count =>
      obtain ⟨rfl, hfull⟩ | ⟨hroom, hcounted⟩ := growing_eq_error_iff.mp h
      · exact ⟨hlong, rfl, hfull⟩
      · obtain ⟨rfl, hmany⟩ := counted_eq_error_iff.mp hcounted
        exact ⟨hroom, .inl ⟨rfl, hmany⟩⟩
  | clearToMark =>
      by_cases hmark : ∃ obj ∈ xs, obj.ty = .mark
      · obtain ⟨ys, hbelow⟩ := (matched hmark).1
        exact absurd (h.symm.trans hbelow) nofun
      · have hnone : ∀ obj ∈ xs, obj.ty ≠ .mark := fun obj hobj hty => hmark ⟨obj, hobj, hty⟩
        obtain rfl := Except.error.inj (h.symm.trans (unmatched hnone).1)
        exact ⟨.inl rfl, hnone⟩
  | countToMark =>
      obtain ⟨rfl, hfull⟩ | ⟨hroom, hcounted⟩ := growing_eq_error_iff.mp h
      · exact ⟨hlong, rfl, hfull⟩
      · by_cases hmark : ∃ obj ∈ xs, obj.ty = .mark
        · rw [(matched hmark).2] at hcounted
          obtain ⟨rfl, hmany⟩ := counted_eq_error_iff.mp hcounted
          exact ⟨hroom, .inr ⟨rfl, hmark, hmany⟩⟩
        · have hnone : ∀ obj ∈ xs, obj.ty ≠ .mark := fun obj hobj hty => hmark ⟨obj, hobj, hty⟩
          obtain rfl := Except.error.inj (hcounted.symm.trans (unmatched hnone).2)
          exact ⟨.inr ⟨rfl, hroom⟩, hnone⟩
  | index =>
      rcases xs with _ | ⟨n, xs⟩
      · contradiction
      · rw [effect] at h
        cases hn : n.asInt? with
        | none =>
            rw [hn] at h
            cases h
            exact ⟨hlong, asInt?_eq_none_iff.mp hn⟩
        | some z =>
            rw [hn] at h
            simp only [holding_eq (show 1 ≤ taken .index from Nat.le_refl 1), picked] at h
            split at h
            · contradiction
            · next hnone =>
              cases h
              refine ⟨rfl, n, z, xs, rfl, hn, ?_⟩
              split_ifs at hnone with hz
              · exact .inl hz
              · have := List.getElem?_eq_none_iff.mp hnone
                omega
  | neg =>
      rcases xs with _ | ⟨x, xs⟩
      · contradiction
      · obtain ⟨rfl, hresult⟩ := calculated_eq_error_iff.mp h
        exact ⟨hlong, negative_eq_none_iff.mp hresult⟩
  | add | sub | mul =>
      rcases xs with _ | ⟨y, _ | ⟨x, xs⟩⟩
      · contradiction
      · contradiction
      · obtain ⟨rfl, hresult⟩ := calculated_eq_error_iff.mp h
        exact ⟨hlong, (binary_eq_none_iff _ _).mp hresult⟩

/-- **When an operator fails**, and with which fault. -/
lemma effect_eq_error_iff : w.effect limit w.taken xs = .error fault ↔ w.Fails limit xs fault :=
  ⟨fails_of_effect, effect_of_fails⟩

end StackWord

end PostScriptCore
