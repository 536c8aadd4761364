import PostScriptCore.Proofs.Memory.Access
import Mathlib.Tactic.SplitIfs

/-!
# Where elements lie

An array object is six independent fields, so nothing relates its offset and its length to the entity it names.
The range of an element is compared with the size of the entity, but only after its offset has been computed in
32 bits, and the address of the entity is added after that without another look.

* `Memory.Within` — the element is one of the array's and lies in the storage of the entity.
* `Memory.Overflows` — the element is one of the array's and its offset or its address is no word.
* `Memory.elementAddress`, `Memory.stop?` — what reading and storing an element have in common.
* `Memory.arrayGet_of_stop`, `Memory.arrayPut_of_stop` — what is different begins at the storage.
* `Memory.AddressesSafely` — accesses stay clear of the storage if the element is not within it, and never
  overflow.
* `Memory.addresses_safely_iff` — the theorem.
-/

namespace PostScriptCore.Memory

variable {m : Memory} {array value : Object} {index : Nat}

/-! ## Addresses -/

/-- The element is one of the array's and lies in the storage of the entity, in numbers without a bound. -/
def Within (m : Memory) (array : Object) (index : Nat) : Prop :=
  index < array.length.toNat ∧ ∃ row, m.row array.value.toNat = .ok row ∧
    array.offset.toNat + index * objectSize + objectSize ≤ row.size

/-- The offset of the element is no word, or it lies in the storage of the entity but its address is no word. -/
def Overflows (m : Memory) (array : Object) (index : Nat) : Prop :=
  index < array.length.toNat ∧
    (wordBound ≤ array.offset.toNat + index * objectSize ∨ ∃ row, m.row array.value.toNat = .ok row ∧
      array.offset.toNat + index * objectSize + objectSize ≤ row.size ∧
        wordBound ≤ row.address + (array.offset.toNat + index * objectSize))

/-- Where an element lies in the arena. -/
def elementAddress (m : Memory) (array : Object) (index : Nat) : Except Fault Nat :=
  match elementOffset array index with
  | .ok offset => m.checkedAddress array.value.toNat offset objectSize
  | .error fault => .error fault

lemma checkedAddress_cases (m : Memory) (id offset count : Nat) :
    (∃ fault, fault ≠ .wordOverflow ∧ m.checkedAddress id offset count = .error fault ∧
      ∀ row, m.row id = .ok row → row.size < offset + count) ∨
    ∃ row, m.row id = .ok row ∧ offset + count ≤ row.size ∧ m.checkedAddress id offset count =
      if wordBound ≤ row.address + offset then .error .wordOverflow else .ok (row.address + offset) := by
  rw [checkedAddress]
  rcases Nat.lt_or_ge id m.entityCount with hid | hid
  · obtain ⟨row, hrow⟩ := exists_row hid
    rw [row_ok hrow]
    dsimp only
    by_cases hsize : row.size < offset + count
    · rw [if_pos hsize]
      refine .inl ⟨.rangeCheck, by decide, rfl, fun row' he => ?_⟩
      obtain rfl := Except.ok.inj he
      exact hsize
    · rw [if_neg hsize]
      exact .inr ⟨row, rfl, Nat.le_of_not_lt hsize, rfl⟩
  · rw [row_error hid]
    refine .inl ⟨.invalidEntity id, by simp, rfl, fun row hrow => ?_⟩
    contradiction

/-- The computation of an address overflows exactly where it can be seen from the fields of the array. -/
lemma elementAddress_overflow_iff (hindex : index < array.length.toNat) :
    m.elementAddress array index = .error .wordOverflow ↔ m.Overflows array index := by
  rw [Overflows, and_iff_right hindex, elementAddress, elementOffset]
  by_cases hoffset : wordBound ≤ array.offset.toNat + index * objectSize
  · rw [if_pos hoffset]
    exact iff_of_true rfl (.inl hoffset)
  · rw [if_neg hoffset, or_iff_right hoffset]
    dsimp only
    rcases checkedAddress_cases m array.value.toNat (array.offset.toNat + index * objectSize) objectSize with
      ⟨fault, hfault, hcheck, hout⟩ | ⟨row, hrow, hfit, hcheck⟩
    · rw [hcheck]
      refine iff_of_false (fun he => hfault (Except.error.inj he)) ?_
      rintro ⟨row, hrow, hfit, -⟩
      exact Nat.not_le_of_lt (hout row hrow) hfit
    · rw [hcheck, hrow]
      by_cases haddress : wordBound ≤ row.address + (array.offset.toNat + index * objectSize)
      · rw [if_pos haddress]
        exact iff_of_true rfl ⟨row, rfl, hfit, haddress⟩
      · rw [if_neg haddress]
        refine iff_of_false (by simp) ?_
        rintro ⟨row', he, -, hword⟩
        obtain rfl := Except.ok.inj he
        exact haddress hword

/-- An address is only found for elements in the storage. -/
lemma within_of_elementAddress (hindex : index < array.length.toNat) {address : Nat}
    (h : m.elementAddress array index = .ok address) : m.Within array index := by
  rw [elementAddress, elementOffset] at h
  split_ifs at h
  dsimp only at h
  rcases checkedAddress_cases m array.value.toNat (array.offset.toNat + index * objectSize) objectSize with
    ⟨fault, -, hcheck, -⟩ | ⟨row, hrow, hfit, -⟩
  · rw [hcheck] at h
    contradiction
  · exact ⟨hindex, row, hrow, hfit⟩

/-- Where the table describes the arena, only the offset can overflow. -/
lemma Sound.overflows_iff (hs : Sound m) : m.Overflows array index ↔
    index < array.length.toNat ∧ wordBound ≤ array.offset.toNat + index * objectSize := by
  refine and_congr_right fun _ => or_iff_left ?_
  rintro ⟨row, hrow, hfit, hword⟩
  rw [row_eq_ok_iff] at hrow
  by_cases hid : array.value.toNat = 0
  · obtain ⟨head, hhead, hsize⟩ := hs.head
    rw [hid] at hrow
    obtain rfl := Option.some.inj (hhead.symm.trans hrow)
    simp only [hsize, objectSize] at hfit
    omega
  · have hstop := (hs.fits hid hrow).2.2
    have hused := hs.arena.used_lt
    omega

/-! ## Before the storage -/

/-- Why an access stops before it reaches the storage, if it does: the level does not allow it, there is no such
element, or there is no address for it. -/
def stop? (m : Memory) (array : Object) (index : Nat) (allowed : Bool) : Option Fault :=
  if allowed = false then some .invalidAccess
  else if array.length.toNat ≤ index then some .rangeCheck
  else
    match m.elementAddress array index with
    | .ok _ => none
    | .error fault => some fault

lemma stop?_overflow_iff {allowed : Bool} :
    m.stop? array index allowed = some .wordOverflow ↔ allowed = true ∧ m.Overflows array index := by
  rw [stop?]
  cases allowed with
  | false => simp
  | true =>
      rw [if_neg Bool.true_eq_false.mp, and_iff_right rfl]
      by_cases hindex : array.length.toNat ≤ index
      · rw [if_pos hindex]
        exact iff_of_false (by decide) fun h => Nat.not_le_of_lt h.1 hindex
      · rw [if_neg hindex, ← elementAddress_overflow_iff (Nat.lt_of_not_le hindex)]
        cases m.elementAddress array index with
        | ok address => simp
        | error fault => rw [Option.some.injEq, Except.error.injEq]

/-- An access goes on to the storage only for elements that lie in it. -/
lemma exists_stop {allowed : Bool} (h : ¬ m.Within array index) :
    ∃ fault, m.stop? array index allowed = some fault := by
  rw [stop?]
  cases allowed with
  | false => exact ⟨_, rfl⟩
  | true =>
      rw [if_neg Bool.true_eq_false.mp]
      by_cases hindex : array.length.toNat ≤ index
      · rw [if_pos hindex]
        exact ⟨_, rfl⟩
      · rw [if_neg hindex]
        cases haddress : m.elementAddress array index with
        | ok address => exact absurd (within_of_elementAddress (Nat.lt_of_not_le hindex) haddress) h
        | error fault => exact ⟨fault, rfl⟩

/-! ## At the storage -/

/-- What is done with the bytes of an element overflows nothing. -/
lemma obstacle?_ne_overflow (a : Arena) (offset count : Nat) : a.obstacle? offset count ≠ some .wordOverflow := by
  rw [Arena.obstacle?]
  split_ifs <;> simp

lemma read_ne_overflow (a : Arena) (offset count : Nat) : a.read offset count ≠ .error .wordOverflow := by
  have hobstacle := obstacle?_ne_overflow a offset count
  rw [Arena.read]
  split
  · next fault hfault =>
    rintro he
    obtain rfl := Except.error.inj he
    exact hobstacle hfault
  · simp

lemma decode_ne_overflow (bytes : List UInt8) : Object.decode bytes ≠ .error .wordOverflow := by
  unfold Object.decode
  split
  · split <;> simp
  · simp

lemma row_ne_overflow (m : Memory) (id : Nat) : m.row id ≠ .error .wordOverflow := by
  rw [Memory.row]
  split <;> simp

lemma pendingSnapshot_ne_overflow (m : Memory) (id : Nat) : m.pendingSnapshot id ≠ .error .wordOverflow := by
  intro h
  rw [pendingSnapshot] at h
  split_ifs at h
  split at h
  · next hrow =>
    obtain rfl := Except.error.inj h
    exact row_ne_overflow m id hrow
  · split_ifs at h
    split at h
    · contradiction
    · next hread =>
      obtain rfl := Except.error.inj h
      exact read_ne_overflow _ _ _ hread

lemma touch_ne_overflow (m : Memory) (id : Nat) :
    Ends (touch id) m (fun _ _ => True) fun fault _ => fault ≠ .wordOverflow := by
  refine .bind (.query (fun pending _ => ?_) fun fault hfault => ?_)
  · cases pending with
    | none => exact .pure trivial
    | some snapshot => exact .bind (.modify (.bind (.get (.modify trivial))))
  · rintro rfl
    exact pendingSnapshot_ne_overflow m id hfault

lemma write_ne_overflow (a : Arena) (offset : Nat) (bytes : List UInt8) :
    Ends (Arena.write offset bytes) a (fun _ _ => True) fun fault _ => fault ≠ .wordOverflow := by
  rw [Ends, Arena.write]
  cases hobstacle : a.obstacle? offset bytes.length with
  | none => trivial
  | some fault =>
      rintro rfl
      exact obstacle?_ne_overflow a offset bytes.length hobstacle

/-- Once its address is found, a write overflows nothing. -/
lemma put_ne_overflow {id offset address : Nat} {bytes : List UInt8}
    (h : m.checkedAddress id offset bytes.length = .ok address) :
    Ends (put id offset bytes) m (fun _ _ => True) fun fault _ => fault ≠ .wordOverflow := by
  refine .bind (.query (fun address _ => ?_) fun fault hfault => ?_)
  · exact .bind ((touch_ne_overflow m id).imp fun _ n _ => .focus (write_ne_overflow n.arena address bytes))
  · rw [h] at hfault
    contradiction

/-- An object is looked for at its address, and reading it there overflows nothing. -/
lemma readObject_cases (m : Memory) (id offset : Nat) :
    (∃ fault, m.checkedAddress id offset objectSize = .error fault ∧ m.readObject id offset = .error fault) ∨
      ∃ address, m.checkedAddress id offset objectSize = .ok address ∧
        m.readObject id offset ≠ .error .wordOverflow := by
  rw [readObject, bytesAt]
  cases hcheck : m.checkedAddress id offset objectSize with
  | error fault => exact .inl ⟨fault, rfl, rfl⟩
  | ok address =>
      refine .inr ⟨address, rfl, ?_⟩
      dsimp only
      split
      · exact decode_ne_overflow _
      · next fault hread =>
        rintro he
        obtain rfl := Except.error.inj he
        exact read_ne_overflow _ _ _ hread

lemma writeObject_cases (m : Memory) (id offset : Nat) (value : Object) :
    (∃ fault, m.checkedAddress id offset objectSize = .error fault ∧
      writeObject id offset value m = .error fault m) ∨
      ∃ address, m.checkedAddress id offset objectSize = .ok address ∧
        ∀ n, writeObject id offset value m ≠ .error .wordOverflow n := by
  rw [writeObject, ← Object.length_encode value]
  cases hcheck : m.checkedAddress id offset value.encode.length with
  | error fault => exact .inl ⟨fault, rfl, bind_error (query_error hcheck)⟩
  | ok address => exact .inr ⟨address, rfl, fun n hrun => (put_ne_overflow hcheck).error_of hrun rfl⟩

/-! ## Reading and storing elements -/

/-- Reading an element stops where the access stops, and overflows nothing after that. -/
lemma arrayGet_of_stop (hty : array.ty = .array) (m : Memory) (index : Nat) :
    match m.stop? array index (elementsReadable array) with
    | some fault => m.arrayGet array index = .error fault
    | none => m.arrayGet array index ≠ .error .wordOverflow := by
  rw [stop?, arrayGet, expectType_eq array .array rfl, if_pos hty]
  cases elementsReadable array with
  | false => rfl
  | true =>
      by_cases hindex : array.length.toNat ≤ index
      · simp only [Bool.not_true, Bool.false_eq_true, Bool.true_eq_false, if_false, if_pos hindex]
      · simp only [Bool.not_true, Bool.false_eq_true, Bool.true_eq_false, if_false, if_neg hindex, elementAddress]
        cases elementOffset array index with
        | error fault => rfl
        | ok offset =>
            rcases readObject_cases m array.value.toNat offset with
              ⟨fault, hcheck, hrun⟩ | ⟨address, hcheck, hrun⟩
            · simp only [hcheck, hrun]
            · simpa only [hcheck] using hrun

/-- Storing an element stops where the access stops, without a change, and overflows nothing after that. -/
lemma arrayPut_of_stop (hty : array.ty = .array) (m : Memory) (index : Nat) (value : Object) :
    match m.stop? array index array.wcheck with
    | some fault => arrayPut array index value m = .error fault m
    | none => ∀ n, arrayPut array index value m ≠ .error .wordOverflow n := by
  have hid : expectType array .array = .ok array.value.toNat := (expectType_eq array .array rfl).trans (if_pos hty)
  have hrun : arrayPut array index value m = _ :=
    bind_ok (query_ok (f := fun _ : Memory => expectType array .array) hid)
  rw [stop?, hrun]
  cases array.wcheck with
  | false => rfl
  | true =>
      by_cases hindex : array.length.toNat ≤ index
      · simp only [Bool.not_true, Bool.false_eq_true, Bool.true_eq_false, if_false, if_pos hindex]
        rfl
      · simp only [Bool.not_true, Bool.false_eq_true, Bool.true_eq_false, if_false, if_neg hindex, elementAddress]
        cases elementOffset array index with
        | error fault => exact bind_error (query_error (f := fun _ : Memory => Except.error fault) rfl)
        | ok offset =>
            rw [bind_ok (query_ok (f := fun _ : Memory => Except.ok offset) rfl)]
            rcases writeObject_cases m array.value.toNat offset value with
              ⟨fault, hcheck, hput⟩ | ⟨address, hcheck, hput⟩
            · simp only [hcheck, hput]
            · simpa only [hcheck] using hput

lemma arrayGet_overflow_iff (hty : array.ty = .array) :
    m.arrayGet array index = .error .wordOverflow ↔ elementsReadable array = true ∧ m.Overflows array index := by
  have hrun := arrayGet_of_stop hty m index
  rw [← stop?_overflow_iff]
  cases hstop : m.stop? array index (elementsReadable array) with
  | some fault =>
      rw [hstop] at hrun
      rw [hrun, Except.error.injEq, Option.some.injEq]
  | none =>
      rw [hstop] at hrun
      exact iff_of_false hrun (by simp)

lemma arrayPut_overflow_iff (hty : array.ty = .array) :
    (∃ n, arrayPut array index value m = .error .wordOverflow n) ↔
      array.wcheck = true ∧ m.Overflows array index := by
  have hrun := arrayPut_of_stop hty m index value
  rw [← stop?_overflow_iff]
  cases hstop : m.stop? array index array.wcheck with
  | some fault =>
      rw [hstop] at hrun
      simp only [hrun, EStateM.Result.error.injEq, exists_and_left, exists_eq', and_true, Option.some.injEq]
  | none =>
      rw [hstop] at hrun
      refine iff_of_false ?_ (by simp)
      rintro ⟨n, he⟩
      exact hrun n he

lemma elementsReadable_of_wcheck (h : array.wcheck = true) : elementsReadable array = true := by
  have haccess : array.access = .unlimited := eq_of_beq h
  rw [elementsReadable, Object.rcheck, haccess]
  rfl

/-- Neither access overflows.  Elements that do not lie in the storage are refused whatever the arena is, and
storing them changes nothing. -/
structure AddressesSafely (m : Memory) (array : Object) (index : Nat) (value : Object) : Prop where
  get_words : m.arrayGet array index ≠ .error .wordOverflow
  put_words : ¬ ∃ n, arrayPut array index value m = .error .wordOverflow n
  get_outside : ¬ m.Within array index → ∃ fault, ∀ arena, arrayGet { m with arena } array index = .error fault
  put_outside : ¬ m.Within array index →
    ∃ fault, ∀ arena, arrayPut array index value { m with arena } = .error fault { m with arena }

/-- The table alone decides where an access stops. -/
lemma stop?_arena (m : Memory) (array : Object) (index : Nat) (allowed : Bool) (arena : Arena) :
    stop? { m with arena } array index allowed = m.stop? array index allowed := rfl

lemma arrayGet_outside (hty : array.ty = .array) (h : ¬ m.Within array index) :
    ∃ fault, ∀ arena, arrayGet { m with arena } array index = .error fault := by
  obtain ⟨fault, hstop⟩ := exists_stop h
  refine ⟨fault, fun arena => ?_⟩
  have hrun := arrayGet_of_stop hty { m with arena } index
  rw [stop?_arena, hstop] at hrun
  exact hrun

lemma arrayPut_outside (hty : array.ty = .array) (h : ¬ m.Within array index) (value : Object) :
    ∃ fault, ∀ arena, arrayPut array index value { m with arena } = .error fault { m with arena } := by
  obtain ⟨fault, hstop⟩ := exists_stop h
  refine ⟨fault, fun arena => ?_⟩
  have hrun := arrayPut_of_stop hty { m with arena } index value
  rw [stop?_arena, hstop] at hrun
  exact hrun

/-- **Where elements lie.**  For every memory, every array object and every index, the elements are addressed
safely exactly if the array may not be looked at or the element is not one of those whose offset or address is
no word.  Where the table describes the arena, these are the elements whose offset is no word. -/
theorem addresses_safely_iff (hty : array.ty = .array) (m : Memory) (index : Nat) (value : Object) :
    (m.AddressesSafely array index value ↔ ¬ (elementsReadable array = true ∧ m.Overflows array index)) ∧
      (m.Sound → (m.Overflows array index ↔
        index < array.length.toNat ∧ wordBound ≤ array.offset.toNat + index * objectSize)) := by
  refine ⟨⟨fun hsafe h => hsafe.get_words ((arrayGet_overflow_iff hty).mpr h), fun h => ?_⟩, Sound.overflows_iff⟩
  have hput : ¬ (array.wcheck = true ∧ m.Overflows array index) := fun hput =>
    h ⟨elementsReadable_of_wcheck hput.1, hput.2⟩
  exact ⟨mt (arrayGet_overflow_iff hty).mp h, mt (arrayPut_overflow_iff hty).mp hput, arrayGet_outside hty,
    fun hwithin => arrayPut_outside hty hwithin value⟩

/-- An array over storage that it does not fit: of its nine elements none lies in the one slot there is. -/
def strayArray : Object := { ty := .array, value := 1, offset := 5, length := 9 }

/-- Its elements are addressed safely, and so there is none to be had over any arena. -/
theorem addresses_safely_iff_stray :
    Object.decode [10, 0, 0, 0, 1, 0, 0, 0, 5, 0, 0, 0, 9, 0, 0, 0] = .ok strayArray ∧ oneElement.Sound ∧
      oneElement.AddressesSafely strayArray 3 .null ∧ ¬ oneElement.Within strayArray 3 ∧
      ∃ fault, ∀ arena, arrayGet { oneElement with arena } strayArray 3 = .error fault := by
  have hs : oneElement.Sound := sound_freshLocal _
  have hty : strayArray.ty = .array := rfl
  obtain ⟨hsafe, hoverflows⟩ := addresses_safely_iff hty oneElement 3 .null
  have h := hsafe.mpr fun h => absurd ((hoverflows hs).mp h.2).2 (by decide)
  have hout : ¬ oneElement.Within strayArray 3 := by
    rintro ⟨-, row, hrow, hfit⟩
    obtain rfl := Except.ok.inj (hrow.symm.trans (show oneElement.row 1 =
      .ok ⟨0, objectSize, Mark.createdAt 0, Tag.ofKind .array⟩ by decide +kernel))
    exact absurd hfit (by decide)
  exact ⟨rfl, hs, h, hout, h.get_outside hout⟩

/-- An array that claims as many elements as a word can count. -/
def endlessArray : Object := { ty := .array, value := 1, length := 4294967295 }

/-- The offset of an element that it claims to have is no word. -/
theorem addressing_overflows :
    Object.decode [10, 0, 0, 0, 1, 0, 0, 0, 0, 0, 0, 0, 255, 255, 255, 255] = .ok endlessArray ∧
      oneElement.arrayGet endlessArray 268435456 = .error .wordOverflow ∧
      arrayPut endlessArray 268435456 .null oneElement = .error .wordOverflow oneElement := by
  have hty : endlessArray.ty = .array := rfl
  have hput := arrayPut_of_stop hty oneElement 268435456 .null
  have hstop : oneElement.stop? endlessArray 268435456 endlessArray.wcheck = some .wordOverflow := by
    decide +kernel
  rw [hstop] at hput
  exact ⟨by decide +kernel, by decide +kernel, hput⟩

end PostScriptCore.Memory
