import PostScriptCore.Proofs.Memory.FreeList
import PostScriptCore.Proofs.Memory.Run

/-!
# The stored form of objects

Sixteen bytes are an object if the first of them is the number of a type, and an object is stored as the
sixteen bytes it is read from, up to the bits that no object uses.

**Bytes and objects.**  The parts of the format are undone one by one: the type number
(`ObjectType.code_of_ofCode?`), the byte that the access level shares with the two flags
(`Object.flags_of_byte`) and the three words (`Object.wordBytes_wordAt`).  Together they give
`Object.encode_of_decode`: what is read and stored again differs from the original in the unused bits at most,
which `Object.usedBits` clears.

**Storage.**  Writing changes a range of the image and moves no entity (`Memory.put_rewrites`), so storing an
object decides what is read there and nothing about the slots beside it.
-/

namespace PostScriptCore

namespace ObjectType

/-! ## Type numbers -/

/-- The type that a number is read as has that number. -/
lemma code_of_ofCode? {code : UInt8} {ty : ObjectType} (h : ofCode? code = some ty) : ty.code = code := by
  rw [ofCode?] at h
  split at h
  case h_14 => contradiction
  all_goals
    next hcode =>
    obtain rfl := Option.some.inj h
    exact UInt8.toNat_inj.mp hcode.symm

/-- The numbers of types are those up to twelve. -/
lemma ofCode?_eq_none_iff (code : UInt8) : ofCode? code = none ↔ 12 < code.toNat := by
  rw [ofCode?]
  split <;> simp_all
  omega

end ObjectType

namespace Object

/-! ## Access levels and flags -/

/-- The access level and the two flags spell the four low bits of the byte they are read from. -/
lemma flags_of_byte (byte : UInt8) {obj : Object} (haccess : obj.access = Access.ofCode byte.toNat)
    (hexecutable : obj.executable = (byte.toNat / 4 % 2 == 1))
    (hbank : obj.bank = if byte.toNat / 8 % 2 = 1 then .globalVM else .localVM) :
    UInt8.ofNat obj.flags = byte &&& 0x0f := by
  have hlevel : obj.access.code = byte.toNat % 4 := by
    have hlt : byte.toNat % 4 < 4 := Nat.mod_lt _ (by decide)
    rw [haccess, Access.ofCode]
    generalize byte.toNat % 4 = level at hlt ⊢
    obtain rfl | rfl | rfl | rfl : level = 0 ∨ level = 1 ∨ level = 2 ∨ level = 3 := by omega
    all_goals rfl
  have hexec : (if obj.executable then 4 else 0) = 4 * (byte.toNat / 4 % 2) := by
    rw [hexecutable]
    rcases Nat.mod_two_eq_zero_or_one (byte.toNat / 4) with h | h <;> rw [h] <;> rfl
  have hglobal : (if obj.bank = .globalVM then 8 else 0) = 8 * (byte.toNat / 8 % 2) := by
    rw [hbank]
    rcases Nat.mod_two_eq_zero_or_one (byte.toNat / 8) with h | h <;> rw [h] <;> rfl
  have hmask : byte.toNat &&& 15 = byte.toNat % 16 := Nat.and_two_pow_sub_one_eq_mod byte.toNat 4
  have hbyte := byte.toNat_lt
  refine UInt8.toNat_inj.mp ?_
  rw [UInt8.toNat_and, UInt8.toNat_ofNat', flags, hlevel, hexec, hglobal]
  show _ = byte.toNat &&& 15
  omega

/-! ## Words -/

/-- A word is spelled by the four bytes it is read from. -/
lemma wordBytes_wordAt {bytes : List UInt8} {position : Nat} (h : position + 4 ≤ bytes.length) :
    wordBytes (wordAt bytes position).toNat = (bytes.drop position).take 4 := by
  have hlength : ((bytes.drop position).take 4).length = 4 := by simp; omega
  rw [wordAt, UInt32.toNat_ofNat_of_lt' (wordOfBytes_lt _)]
  generalize (bytes.drop position).take 4 = four at hlength ⊢
  obtain _ | ⟨a, _ | ⟨b, _ | ⟨c, _ | ⟨d, _ | ⟨e, rest⟩⟩⟩⟩⟩ := four <;> simp at hlength
  exact wordBytes_wordOfBytes a b c d

/-! ## Whole objects -/

/-- The sixteen bytes with the bits cleared that no object uses: the four high bits of the byte of access and
flags, and the two reserved bytes. -/
def usedBits (bytes : Vector UInt8 objectSize) : Vector UInt8 objectSize :=
  ((bytes.set 1 (bytes[1] &&& 0x0f)).set 2 0).set 3 0

lemma toList_usedBits (bytes : Vector UInt8 objectSize) :
    (usedBits bytes).toList = [bytes[0], bytes[1] &&& 0x0f, 0, 0] ++ bytes.toList.drop 4 := by
  refine List.ext_getElem (by simp [objectSize]) fun i hi _ => ?_
  simp only [Vector.length_toList] at hi
  rcases i with _ | _ | _ | _ | i <;>
    simp [usedBits, Nat.add_comm 4]

/-- Sixteen bytes are the first, the second, two more, and three words. -/
lemma toList_eq_words (bytes : Vector UInt8 objectSize) :
    bytes.toList.drop 4 =
      (bytes.toList.drop 4).take 4 ++ (bytes.toList.drop 8).take 4 ++ (bytes.toList.drop 12).take 4 := by
  have hlast : (bytes.toList.drop 12).take 4 = bytes.toList.drop 12 := List.take_of_length_le (by simp)
  have h8 := List.take_append_drop 4 (bytes.toList.drop 8)
  have h4 := List.take_append_drop 4 (bytes.toList.drop 4)
  simp only [List.drop_drop] at h8 h4
  rw [hlast, List.append_assoc, h8, h4]

lemma decode_toList (bytes : Vector UInt8 objectSize) :
    decode bytes.toList =
      match ObjectType.ofCode? bytes[0] with
      | some ty =>
        .ok
          { ty
            access := Access.ofCode bytes[1].toNat
            executable := bytes[1].toNat / 4 % 2 == 1
            bank := if bytes[1].toNat / 8 % 2 = 1 then .globalVM else .localVM
            value := wordAt bytes.toList 4
            offset := wordAt bytes.toList 8
            length := wordAt bytes.toList 12 }
      | none => .error .typeCheck := by
  obtain ⟨kind, flags, rest, h⟩ : ∃ kind flags rest, bytes.toList = kind :: flags :: rest := by
    match hlist : bytes.toList, bytes.length_toList with
    | kind :: flags :: rest, _ => exact ⟨kind, flags, rest, rfl⟩
  have h0 : bytes[0] = kind := by
    rw [← Vector.getElem_toList (by simp)]
    simp only [h, List.getElem_cons_zero]
  have h1 : bytes[1] = flags := by
    rw [← Vector.getElem_toList (by simp [objectSize])]
    simp only [h, List.getElem_cons_succ, List.getElem_cons_zero]
  rw [h0, h1, h]
  rfl

/-- Bytes that name a type are an object, and storing it gives them back without the unused bits. -/
lemma encode_of_decode {bytes : Vector UInt8 objectSize} (h : bytes[0].toNat ≤ 12) :
    ∃ obj, decode bytes.toList = .ok obj ∧ obj.encode = (usedBits bytes).toList := by
  obtain ⟨ty, hty⟩ : ∃ ty, ObjectType.ofCode? bytes[0] = some ty := by
    rw [← Option.isSome_iff_exists, ← Option.ne_none_iff_isSome, Ne, ObjectType.ofCode?_eq_none_iff]
    omega
  refine ⟨_, (decode_toList bytes).trans (by rw [hty]), ?_⟩
  rw [encode, flags_of_byte bytes[1] rfl rfl rfl, ObjectType.code_of_ofCode? hty, toList_usedBits, toList_eq_words,
    wordBytes_wordAt (by simp [objectSize]), wordBytes_wordAt (by simp [objectSize]),
    wordBytes_wordAt (by simp)]
  simp only [List.append_assoc]

lemma decode_of_unknown {bytes : Vector UInt8 objectSize} (h : 12 < bytes[0].toNat) :
    decode bytes.toList = .error .typeCheck := by
  rw [decode_toList, (ObjectType.ofCode?_eq_none_iff _).mpr h]

lemma encode_injective : Function.Injective encode := by
  intro obj other h
  have hread := decode_encode obj
  rw [h, decode_encode other] at hread
  exact (Except.ok.inj hread).symm

end Object

namespace Memory

/-! ## Storage -/

/-- The second memory finds every entity where the first one does, and has the same arena. -/
def SamePlaces (m n : Memory) : Prop :=
  n.arena = m.arena ∧ n.checkedAddress = m.checkedAddress

/-- Remembering an entity changes nothing of its row but the mark. -/
lemma touch_samePlaces (m : Memory) (id : Nat) :
    Ends (touch id) m (fun _ n => SamePlaces m n) fun _ _ => True := by
  refine .bind (.query (fun pending _ => ?_) fun _ _ => trivial)
  cases pending with
  | none => exact ⟨rfl, rfl⟩
  | some snapshot =>
      refine .bind (.modify (.bind (.get (.modify ⟨rfl, ?_⟩))))
      funext j offset count
      simp only [checkedAddress, Memory.row, Array.getElem?_modify]
      by_cases he : id = j
      · simp only [if_pos he]
        cases m.rows[j]? <;> rfl
      · simp only [if_neg he]

/-- Which ranges can be accessed does not depend on the bytes. -/
lemma obstacle?_withImage (arena : Arena) (image : Image) :
    Arena.obstacle? { arena with image } = arena.obstacle? := rfl

/-- A write that succeeds finds its range below the cursor, overwrites it, and leaves every entity in its
place. -/
lemma put_rewrites {m n : Memory} {id offset : Nat} {bytes : List UInt8}
    (h : put id offset bytes m = .ok () n) :
    ∃ address, m.checkedAddress id offset bytes.length = .ok address ∧
      m.arena.obstacle? address bytes.length = none ∧
      n.arena = { m.arena with image := m.arena.image.write address bytes } ∧
      n.checkedAddress = m.checkedAddress := by
  have hends : Ends (put id offset bytes) m (fun _ n => ∃ address,
      m.checkedAddress id offset bytes.length = .ok address ∧
        m.arena.obstacle? address bytes.length = none ∧
        n.arena = { m.arena with image := m.arena.image.write address bytes } ∧
        n.checkedAddress = m.checkedAddress) fun _ _ => True := by
    refine .bind (.query (fun address haddress => ?_) fun _ _ => trivial)
    refine .bind ((touch_samePlaces m id).imp fun _ t ⟨harena, hplaces⟩ => .focus ?_)
    rw [harena]
    cases hobstacle : m.arena.obstacle? address bytes.length with
    | some fault => exact .of_error (by rw [Arena.write, hobstacle]) trivial
    | none =>
        refine .of_ok (by rw [Arena.write, hobstacle]) ⟨address, haddress, hobstacle, rfl, ?_⟩
        rw [← hplaces]
        rfl
  exact hends.ok_of h

/-- What was stored reads back, and what lies beside it reads as before. -/
lemma readObject_of_writeObject {m n : Memory} {id offset : Nat} {obj : Object}
    (h : writeObject id offset obj m = .ok () n) :
    n.readObject id offset = .ok obj ∧
      ∀ other, other + objectSize ≤ offset ∨ offset + objectSize ≤ other →
        n.readObject id other = m.readObject id other := by
  obtain ⟨address, haddress, hobstacle, harena, hplaces⟩ := put_rewrites h
  have hobstacles : n.arena.obstacle? = m.arena.obstacle? := by rw [harena, obstacle?_withImage]
  have himage : n.arena.image = m.arena.image.write address obj.encode := by rw [harena]
  have hread : n.arena.image.read address obj.encode.length = obj.encode := by
    rw [himage, Image.read_write]
  rw [Object.length_encode] at haddress hobstacle hread
  constructor
  · rw [readObject, bytesAt, hplaces, haddress]
    simp only [Arena.read, hobstacles, hobstacle, hread, Object.decode_encode]
  · intro other hother
    obtain ⟨row, hrow, -, rfl⟩ := checkedAddress_eq_ok haddress
    rw [readObject, readObject, bytesAt, bytesAt, hplaces]
    cases hcheck : m.checkedAddress id other objectSize with
    | error fault => rfl
    | ok start =>
        obtain ⟨row', hrow', -, rfl⟩ := checkedAddress_eq_ok hcheck
        obtain rfl : row = row' := Option.some.inj (hrow.symm.trans hrow')
        have hbeside : n.arena.image.read (row.address + other) objectSize =
            m.arena.image.read (row.address + other) objectSize := by
          rw [himage]
          refine Image.read_congr fun a hlo hhi => Image.byte_write_of_outside ?_
          rw [Object.length_encode]
          omega
        simp only [Arena.read, hobstacles, hbeside]

/-- In a memory in working order an object can be stored wherever it fits. -/
lemma writeObject_ok_iff {m : Memory} (hs : Sound m) (id offset : Nat) (obj : Object) :
    (∃ n, writeObject id offset obj m = .ok () n) ↔
      ∃ row, m.row id = .ok row ∧ offset + objectSize ≤ row.size := by
  constructor
  · rintro ⟨n, h⟩
    obtain ⟨address, haddress, -⟩ := put_rewrites h
    obtain ⟨row, hrow, hfit, -⟩ := checkedAddress_eq_ok haddress
    exact ⟨row, row_ok hrow, by rwa [Object.length_encode] at hfit⟩
  · rintro ⟨row, hrow, hfit⟩
    rw [row_eq_ok_iff] at hrow
    have hid : id ≠ 0 := by
      -- row 0 has no storage
      rintro rfl
      obtain ⟨head, hhead, hzero⟩ := hs.head
      obtain rfl : head = row := Option.some.inj (hhead.symm.trans hrow)
      simp only [objectSize] at hfit
      omega
    exact ⟨_, put_run hs hid hrow (by rwa [Object.length_encode])⟩

end Memory

namespace Object

/-- **Objects survive being stored.**  Every object is read back from its sixteen bytes; sixteen bytes are an
object exactly if the first of them names a type, and then they are its stored form up to the unused bits; so
different objects are stored differently.  An object that was stored in an entity, which succeeds in every
memory that a run reaches if the entity has the room, is what is read there, and every other whole slot reads as
before. -/
theorem encoding_round_trips :
    (∀ obj : Object, decode obj.encode = .ok obj) ∧
    (∀ bytes : Vector UInt8 objectSize,
      if bytes[0].toNat ≤ 12 then
        ∃ obj, decode bytes.toList = .ok obj ∧
          obj.encode = (((bytes.set 1 (bytes[1] &&& 0x0f)).set 2 0).set 3 0).toList
      else decode bytes.toList = .error .typeCheck) ∧
    Function.Injective encode ∧
    (∀ (m n : Memory) (id offset : Nat) (obj : Object), Memory.writeObject id offset obj m = .ok () n →
      n.readObject id offset = .ok obj ∧
        ∀ other, other + objectSize ≤ offset ∨ offset + objectSize ≤ other →
          n.readObject id other = m.readObject id other) ∧
    ∀ (bank : Bank) (backing : Backing) (settings : Settings) (start : Memory) (ops : List MemoryOp),
      Memory.withBacking bank backing settings = .ok start → ∀ (id offset : Nat) (obj : Object),
        (∃ n, Memory.writeObject id offset obj (start.afterAll ops) = .ok () n) ↔
          ∃ row, (start.afterAll ops).row id = .ok row ∧ offset + objectSize ≤ row.size := by
  refine ⟨decode_encode, fun bytes => ?_, encode_injective,
    fun m n id offset obj => Memory.readObject_of_writeObject,
    fun bank backing settings start ops hstart => ?_⟩
  · split
    · next h => exact encode_of_decode h
    · next h => exact decode_of_unknown (Nat.lt_of_not_le h)
  · exact Memory.writeObject_ok_iff (Memory.sound_afterAll (Memory.sound_of_withBacking hstart) ops)

/-- A reserved byte and an unused flag are not stored again, and the middle one of three slots is stored between
the others. -/
theorem encoding_round_trips_between_slots :
    (∃ obj, decode [10, 0xf5, 7, 7, 1, 0, 0, 0, 0, 0, 0, 0, 3, 0, 0, 0] = .ok obj ∧
      obj.encode = [10, 5, 0, 0, 1, 0, 0, 0, 0, 0, 0, 0, 3, 0, 0, 0]) ∧
    ∃ m n : Memory, Memory.freshLocal.afterAll [.newArray 3 []] = m ∧
      Memory.writeObject 1 16 (.int 7) m = .ok () n ∧ n.readObject 1 16 = .ok (.int 7) ∧
        n.readObject 1 0 = .ok .null ∧ n.readObject 1 32 = .ok .null := by
  obtain ⟨-, hbytes, -, hslots, hfits⟩ := encoding_round_trips
  refine ⟨hbytes #v[10, 0xf5, 7, 7, 1, 0, 0, 0, 0, 0, 0, 0, 3, 0, 0, 0], ?_⟩
  obtain ⟨n, hrun⟩ := (hfits .localVM .anonymous Settings.standard Memory.freshLocal [.newArray 3 []]
    Memory.withBacking_freshLocal 1 16 (.int 7)).mpr ⟨⟨0, 48, Mark.createdAt 0, Tag.ofKind .array⟩,
      by decide +kernel, by decide⟩
  obtain ⟨hread, hother⟩ := hslots _ n 1 16 (.int 7) hrun
  refine ⟨_, n, rfl, hrun, hread, ?_, ?_⟩
  · rw [hother 0 (by decide)]
    decide +kernel
  · rw [hother 32 (by decide)]
    decide +kernel

end Object

end PostScriptCore
