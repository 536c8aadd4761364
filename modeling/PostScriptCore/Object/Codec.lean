import PostScriptCore.Object.Basic

/-!
# Objects in storage

Arrays and dictionaries hold objects as sixteen bytes each:

```
 0     1                 2..3      4..7   8..11   12..15
 type  access and flags  reserved  value  offset  length
```

The two low bits of the second byte are the access level, the next two say whether the object is
executable and whether its storage is global.  Words are stored least significant byte first.

* `Object.encode`, `Object.decode` — between objects and bytes; only an unknown type is refused.
* `Object.decode_encode` — an object survives being stored.
-/

namespace PostScriptCore.Object

/-- The access level and the two flags in one byte. -/
def flags (obj : Object) : Nat :=
  obj.access.code + (if obj.executable then 4 else 0) + (if obj.bank = .globalVM then 8 else 0)

/-- The sixteen bytes of an object. -/
def encode (obj : Object) : List UInt8 :=
  [obj.ty.code, UInt8.ofNat obj.flags, 0, 0] ++ wordBytes obj.value.toNat ++
    wordBytes obj.offset.toNat ++ wordBytes obj.length.toNat

/-- The word at a byte position. -/
def wordAt (bytes : List UInt8) (position : Nat) : UInt32 :=
  UInt32.ofNat (wordOfBytes ((bytes.drop position).take 4))

/-- The object spelled by sixteen bytes.  Reserved bytes and unused flags are ignored. -/
def decode (bytes : List UInt8) : Except Fault Object :=
  match bytes with
  | kind :: flags :: _ =>
    match ObjectType.ofCode? kind with
    | some ty =>
      .ok
        { ty
          access := Access.ofCode flags.toNat
          executable := flags.toNat / 4 % 2 == 1
          bank := if flags.toNat / 8 % 2 = 1 then .globalVM else .localVM
          value := wordAt bytes 4
          offset := wordAt bytes 8
          length := wordAt bytes 12 }
    | none => .error .typeCheck
  | _ => .error .typeCheck

@[simp] theorem length_encode (obj : Object) : obj.encode.length = objectSize := by
  simp [encode]

/-- The three words of an encoded object. -/
theorem wordAt_encode (obj : Object) :
    wordAt obj.encode 4 = obj.value ∧ wordAt obj.encode 8 = obj.offset ∧
      wordAt obj.encode 12 = obj.length := by
  refine ⟨?_, ?_, ?_⟩ <;>
    simp only [wordAt, encode, wordBytes, List.cons_append, List.nil_append, List.drop_succ_cons,
      List.drop_zero, List.take_succ_cons, List.take_zero] <;>
    exact ofNat_wordOfBytes_wordBytes _

/-- Reading back the bytes of an object gives the object. -/
theorem decode_encode (obj : Object) : decode obj.encode = .ok obj := by
  obtain ⟨hv, ho, hl⟩ := wordAt_encode obj
  obtain ⟨tail, h⟩ : ∃ tail, obj.encode = obj.ty.code :: UInt8.ofNat obj.flags :: tail := ⟨_, rfl⟩
  rw [h] at hv ho hl ⊢
  simp only [decode, ObjectType.ofCode?_code, hv, ho, hl]
  obtain ⟨ty, access, executable, bank, value, offset, length⟩ := obj
  cases access <;> cases executable <;> cases bank <;> simp [flags, Access.code, Access.ofCode]

end PostScriptCore.Object
