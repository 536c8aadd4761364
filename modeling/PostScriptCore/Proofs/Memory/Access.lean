import PostScriptCore.Proofs.Memory.Failures
import PostScriptCore.Proofs.Memory.Files

/-!
# What access levels guard

A composite without access tells nothing of the bytes stored for it, and through one that is not writable
nothing is changed, as far as its level is looked at.  Two accessors do not look at it.  Whether a dictionary
uses an entry can be told without access, and the open file behind a file object is handed out at every level.

* `Memory.AlikeOutside` — two memories that differ at most in the bytes stored for one entity.
* `Memory.Hides` — an answer that is the same in all such memories.
* `Memory.FirstKeyReads` — where the number of used entries is an answer that depends on the bytes.
* `Memory.Opens` — the file objects behind which there is an open file.
* `Attempt`, `Memory.tried` — attempts to change what a composite stands for, and what a run of them leaves.
* `Memory.hides_dictLength_iff`, `Memory.tried_of_not_writable` — the two halves.
* `Memory.access_enforced_iff` — the theorem.
-/

namespace PostScriptCore

/-- An attempt to change what a composite stands for. -/
inductive Attempt
  | putElement (index : Nat) (value : Object)
  | putEntry (key value : Object)
  /-- Moves the position of the next write to the file. -/
  | seek (position : Nat)
  | write (bytes : List UInt8)

namespace Attempt

/-- Changes the open file behind a file object. -/
def onFile (obj : Object) (f : OpenFile → OpenFile) : EStateM Fault (Memory × FileStore) Unit := do
  let handle ← query fun s => s.1.fileHandle obj
  modify fun s => (s.1, s.2.update handle f)

/-- Runs an operation of the memory beside the files. -/
def onMemory (x : MemoryM Unit) : EStateM Fault (Memory × FileStore) Unit :=
  focus Prod.fst (fun m s => (m, s.2)) Memory.vacant x

/-- Makes the attempt through a composite. -/
def perform (obj : Object) : Attempt → EStateM Fault (Memory × FileStore) Unit
  | putElement index value => onMemory (Memory.arrayPut obj index value)
  | putEntry key value => onMemory (Memory.dictPut obj key value)
  | seek position => onFile obj fun file => file.seek position
  | write bytes => onFile obj fun file => file.write bytes

end Attempt

/-- What is written is in the file. -/
lemma OpenFile.length_le_write (file : OpenFile) (bytes : List UInt8) :
    bytes.length ≤ (file.write bytes).content.length := by
  rw [write]
  split
  · next hnone => simp [List.isEmpty_iff.mp hnone]
  · simp only [List.length_append]
    omega

namespace FileStore

variable {store : FileStore} {handle : Handle}

/-- Changing a file that there is not changes nothing. -/
lemma update_of_le (h : store.files.size ≤ handle) (f : OpenFile → OpenFile) : store.update handle f = store := by
  refine congrArg FileStore.mk (Array.ext Array.size_modify fun i hi hi' => ?_)
  rw [Array.getElem_modify, if_neg (by omega)]

lemma get_update (h : handle < store.files.size) (f : OpenFile → OpenFile) :
    (store.update handle f).get handle = f (store.get handle) := by
  simp [get, update, h, Array.getElem_modify]

end FileStore

namespace Memory

variable {m n : Memory} {obj : Object}

/-! ## Memories that differ in one entity -/

/-- The address lies in the storage of an entity. -/
def InStorage (m : Memory) (id address : Nat) : Prop :=
  ∃ row, m.row id = .ok row ∧ row.address ≤ address ∧ address < row.address + row.size

/-- The memories differ at most in the bytes stored for an entity. -/
structure AlikeOutside (id : Nat) (m n : Memory) : Prop where
  rest : n = { m with arena := { m.arena with image := n.arena.image } }
  length : n.arena.image.length = m.arena.image.length
  byte : ∀ a, ¬ m.InStorage id a → n.arena.image.byte a = m.arena.image.byte a

/-- The memory with some of its bytes overwritten. -/
def repainted (m : Memory) (address : Nat) (bytes : List UInt8) : Memory :=
  { m with arena := { m.arena with image := m.arena.image.write address bytes } }

lemma alikeOutside_repainted {id address : Nat} {row : Row} {bytes : List UInt8} (hrow : m.row id = .ok row)
    (hfrom : row.address ≤ address) (hto : address + bytes.length ≤ row.address + row.size) :
    AlikeOutside id m (m.repainted address bytes) where
  rest := rfl
  length := rfl
  byte a ha := by
    refine Image.byte_write_of_outside ?_
    by_contra hwithin
    exact ha ⟨row, hrow, by omega, by omega⟩

/-- Whether bytes can be read does not depend on what they are. -/
lemma AlikeOutside.bytesAt_error {id other offset count : Nat} {fault : Fault} (h : AlikeOutside id m n)
    (herror : m.bytesAt other offset count = .error fault) : n.bytesAt other offset count = .error fault := by
  have hcheck : n.checkedAddress other offset count = m.checkedAddress other offset count := by rw [h.rest]; rfl
  rw [bytesAt] at herror ⊢
  rw [hcheck]
  cases haddress : m.checkedAddress other offset count with
  | error fault' =>
      rw [haddress] at herror
      exact herror
  | ok address =>
      have hobstacle : n.arena.obstacle? address count = m.arena.obstacle? address count := by rw [h.rest]; rfl
      simp only [haddress, Arena.read] at herror ⊢
      rw [hobstacle]
      cases hfree : m.arena.obstacle? address count with
      | some fault' =>
          rw [hfree] at herror
          exact herror
      | none =>
          rw [hfree] at herror
          contradiction

/-- The answer is the same whatever bytes are stored for the composite. -/
def Hides (m : Memory) (obj : Object) {α : Type} (answer : Memory → α) : Prop :=
  ∀ n, AlikeOutside obj.value.toNat m n → answer n = answer m

/-! ## Without access -/

/-- An object has the entity that is expected of it if it has the type. -/
lemma expectType_eq (obj : Object) (ty : ObjectType) (hty : ty.isComposite = true) :
    expectType obj ty = if obj.ty = ty then .ok obj.value.toNat else .error .typeCheck := by
  rw [expectType, Object.entity?, Object.isComposite]
  by_cases h : obj.ty = ty
  · rw [h, if_pos hty]
  · rw [if_neg h]
    cases obj.ty.isComposite <;> simp [h]

lemma elementsFrom_congr (h : ∀ index, n.arrayGet obj index = m.arrayGet obj index) (count index : Nat) :
    n.elementsFrom obj count index = m.elementsFrom obj count index := by
  induction count generalizing index with
  | zero => rfl
  | succ count ih => rw [elementsFrom, elementsFrom, h, ih]

section Hidden

variable (h : obj.access = .none)
include h

lemma rcheck_of_none : obj.rcheck = false := by
  rw [Object.rcheck, h]
  rfl

lemma elementsReadable_of_none : elementsReadable obj = false := by
  rw [elementsReadable, rcheck_of_none h, h, Bool.false_or]
  exact Bool.and_false _

lemma hides_stringBytes (m : Memory) : m.Hides obj (stringBytes · obj) := by
  intro n _
  simp only [stringBytes, rcheck_of_none h, Bool.false_eq_true, if_false]

lemma hides_arrayGet (m : Memory) (index : Nat) : m.Hides obj (arrayGet · obj index) := by
  intro n _
  simp only [arrayGet, elementsReadable_of_none h, Bool.not_false, if_true]

lemma hides_arrayElements (m : Memory) : m.Hides obj (arrayElements · obj) := fun n hn =>
  elementsFrom_congr (fun index => hides_arrayGet h m index n hn) _ _

lemma hides_dictGet? (m : Memory) (key : Object) : m.Hides obj (dictGet? · obj key) := by
  intro n _
  simp only [dictGet?, rcheck_of_none h, Bool.not_false, if_true]

end Hidden

/-! ## The number of used entries -/

/-- The dictionary has an entry whose key can be read. -/
def FirstKeyReads (m : Memory) (dict : Object) : Prop :=
  dict.ty = .dict ∧ dict.length ≠ 0 ∧ ∃ bytes, m.bytesAt dict.value.toNat 0 objectSize = .ok bytes

/-- If bytes can be read, then the first of them can be any byte. -/
lemma exists_first_byte {id : Nat} {bytes : List UInt8} (h : m.bytesAt id 0 objectSize = .ok bytes)
    (first : UInt8) : ∃ n flags rest, AlikeOutside id m n ∧
      n.bytesAt id 0 objectSize = .ok (first :: flags :: rest) := by
  cases hcheck : m.checkedAddress id 0 objectSize with
  | error fault =>
      rw [bytesAt, hcheck] at h
      contradiction
  | ok address =>
      cases hfree : m.arena.obstacle? address objectSize with
      | some fault => simp only [bytesAt, hcheck, Arena.read, hfree, reduceCtorEq] at h
      | none =>
          obtain ⟨row, hrow, hfit, haddress⟩ := checkedAddress_eq_ok hcheck
          set n := m.repainted address [first] with hn
          have hread : n.bytesAt id 0 objectSize = .ok (n.arena.image.read address objectSize) := by
            have hcheck' : n.checkedAddress id 0 objectSize = .ok address := hcheck
            have hfree' : n.arena.obstacle? address objectSize = none := hfree
            simp only [bytesAt, hcheck', Arena.read, hfree']
          have hfirst : n.arena.image.byte address = first := by
            rw [hn, repainted, Image.byte_write, if_pos ⟨Nat.le_refl _, Nat.lt_succ_self _⟩, Nat.sub_self]
            rfl
          have hbytes : n.arena.image.read address objectSize =
              first :: n.arena.image.byte (address + 1) :: n.arena.image.read (address + 2) 14 := by
            rw [← hfirst]
            rfl
          refine ⟨n, _, _, alikeOutside_repainted (row_ok hrow) (by omega) ?_, hbytes ▸ hread⟩
          simp only [List.length_singleton, objectSize] at hfit ⊢
          omega

/-- The first key that is stored can be of any type. -/
lemma exists_first_key {id : Nat} {bytes : List UInt8} (h : m.bytesAt id 0 objectSize = .ok bytes)
    (ty : ObjectType) : ∃ n key, AlikeOutside id m n ∧ n.readObject id 0 = .ok key ∧ key.ty = ty := by
  obtain ⟨n, flags, rest, hn, hbytes⟩ := exists_first_byte h ty.code
  obtain ⟨key, hkey, hty⟩ : ∃ key, n.readObject id 0 = .ok key ∧ key.ty = ty := by
    rw [readObject, hbytes]
    simp only [Object.decode, ObjectType.ofCode?_code]
    exact ⟨_, rfl, rfl⟩
  exact ⟨n, key, hn, hkey, hty⟩

/-- A search for used entries ends at once if the first key is null, and only then without any. -/
lemma usedEntries_eq_zero_iff {id count : Nat} {key : Object} (h : n.readObject id 0 = .ok key) :
    n.usedEntries id (count + 1) 0 = .ok 0 ↔ key.ty = .null := by
  rw [usedEntries, Nat.zero_mul, h]
  dsimp only
  by_cases hnull : key.ty = .null
  · rw [if_pos hnull]
    exact iff_of_true rfl hnull
  · rw [if_neg hnull]
    refine iff_of_false ?_ hnull
    split
    · exact fun hzero => Nat.succ_ne_zero _ (Except.ok.inj hzero)
    · simp

/-- **The number of used entries shows what is stored**, unless there is no entry that can be read. -/
lemma hides_dictLength_iff (m : Memory) (dict : Object) :
    m.Hides dict (dictLength · dict) ↔ ¬ m.FirstKeyReads dict := by
  have hexpect := expectType_eq dict .dict rfl
  constructor
  · rintro hhides ⟨hty, hlength, bytes, hbytes⟩
    rw [if_pos hty] at hexpect
    obtain ⟨count, hcount⟩ := Nat.exists_eq_succ_of_ne_zero fun hzero => hlength (UInt32.toNat_inj.mp hzero)
    have hused (n : Memory) : n.dictLength dict = n.usedEntries dict.value.toNat (count + 1) 0 := by
      rw [dictLength, hexpect, hcount]
    obtain ⟨blank, key, hblank, hkey, hnull⟩ := exists_first_key hbytes .null
    obtain ⟨filled, key', hfilled, hkey', hinteger⟩ := exists_first_key hbytes .integer
    have hzero : blank.dictLength dict = .ok 0 := (hused _).trans ((usedEntries_eq_zero_iff hkey).mpr hnull)
    have hzero' : filled.dictLength dict = .ok 0 :=
      (hhides filled hfilled).trans ((hhides blank hblank).symm.trans hzero)
    have hnull' := (usedEntries_eq_zero_iff hkey').mp ((hused _).symm.trans hzero')
    rw [hinteger] at hnull'
    contradiction
  · intro hfirst n hn
    show n.dictLength dict = m.dictLength dict
    rw [dictLength, dictLength]
    by_cases hty : dict.ty = .dict
    · rw [hexpect, if_pos hty]
      dsimp only
      cases hcount : dict.length.toNat with
      | zero => rfl
      | succ count =>
          have hlength : dict.length ≠ 0 := by
            rintro hzero
            rw [hzero] at hcount
            contradiction
          cases hbytes : m.bytesAt dict.value.toNat 0 objectSize with
          | ok bytes => exact absurd ⟨hty, hlength, bytes, hbytes⟩ hfirst
          | error fault =>
              rw [usedEntries, usedEntries, Nat.zero_mul, readObject, readObject, hn.bytesAt_error hbytes, hbytes]
    · rw [hexpect, if_neg hty]

/-! ## Open files -/

/-- The file object names an occupied slot, which holds the handle. -/
def Opens (m : Memory) (obj : Object) (handle : Handle) : Prop :=
  obj.ty = .file ∧ ∃ slot, m.resourceSlot obj.value.toNat = .ok slot ∧ m.resources.occupant? slot = some handle

lemma fileHandle_eq_ok_iff {handle : Handle} : m.fileHandle obj = .ok handle ↔ m.Opens obj handle := by
  have hexpect := expectType_eq obj .file rfl
  by_cases hty : obj.ty = .file
  · rw [if_pos hty] at hexpect
    rw [fileHandle_eq hexpect, Opens, and_iff_right hty]
    cases hslot : m.resourceSlot obj.value.toNat with
    | ok slot =>
        rw [handleOf_eq_ok hslot]
        refine ⟨fun h => ⟨slot, rfl, h⟩, ?_⟩
        rintro ⟨_, he, h⟩
        exact Except.ok.inj he ▸ h
    | error fault => simp [handleOf, hslot]
  · rw [fileHandle, hexpect, if_neg hty]
    exact iff_of_false (by simp) fun h => hty h.1

lemma fileHandle_refused_iff : (∃ fault, m.fileHandle obj = .error fault) ↔ ¬ ∃ handle, m.Opens obj handle := by
  simp only [← fileHandle_eq_ok_iff]
  cases m.fileHandle obj <;> simp

/-! ## Attempts -/

/-- The memory and the files after attempts to change what a composite stands for. -/
def tried (obj : Object) (attempts : List Attempt) (s : Memory × FileStore) : Memory × FileStore :=
  attempts.foldl (fun s attempt => finalState (attempt.perform obj) s) s

/-- What begins with a look at the type and the level changes nothing if the level forbids it. -/
lemma refused_of_not_writable (h : obj.wcheck = false) (m : Memory) (ty : ObjectType)
    (rest : Nat → MemoryM Unit) : ∃ fault, (do
      let id ← query fun _ => expectType obj ty
      if !obj.wcheck then throw .invalidAccess
      rest id : MemoryM Unit) m = .error fault m := by
  cases hid : expectType obj ty with
  | error fault => exact ⟨fault, bind_error (query_error (f := fun _ => _) rfl)⟩
  | ok id =>
      refine ⟨.invalidAccess, (bind_ok (query_ok (f := fun _ => .ok id) rfl)).trans ?_⟩
      rw [h]
      rfl

lemma arrayPut_refused (h : obj.wcheck = false) (m : Memory) (index : Nat) (value : Object) :
    ∃ fault, arrayPut obj index value m = .error fault m :=
  refused_of_not_writable h m .array _

lemma dictPut_refused (h : obj.wcheck = false) (m : Memory) (key value : Object) :
    ∃ fault, dictPut obj key value m = .error fault m :=
  refused_of_not_writable h m .dict _

section NotWritable

variable {files : FileStore} (h : obj.wcheck = false)

lemma finalState_onMemory {x : MemoryM Unit} {fault : Fault} (hrun : x m = .error fault m) :
    finalState (Attempt.onMemory x) (m, files) = (m, files) := by
  rw [Attempt.onMemory, finalState, focus, hrun]

lemma finalState_onFile (m : Memory) (files : FileStore) (obj : Object) (f : OpenFile → OpenFile) :
    finalState (Attempt.onFile obj f) (m, files) =
      match m.fileHandle obj with
      | .ok handle => (m, files.update handle f)
      | .error _ => (m, files) := by
  cases hhandle : m.fileHandle obj with
  | ok handle =>
      exact finalState_of_ok (bind_ok (query_ok (f := fun s : Memory × FileStore => s.1.fileHandle obj) hhandle))
  | error fault =>
      exact finalState_of_error
        (bind_error (query_error (f := fun s : Memory × FileStore => s.1.fileHandle obj) hhandle))

include h

/-- One attempt leaves the memory alone, and all files too if none is open behind the object. -/
lemma perform_of_not_writable (m : Memory) (files : FileStore) (attempt : Attempt) :
    (finalState (attempt.perform obj) (m, files)).1 = m ∧
      ((¬ ∃ handle, m.Opens obj handle ∧ handle < files.files.size) →
        finalState (attempt.perform obj) (m, files) = (m, files)) := by
  have hput {x : MemoryM Unit} (hrun : ∃ fault, x m = .error fault m) :
      finalState (Attempt.onMemory x) (m, files) = (m, files) :=
    hrun.elim fun _ hrun => finalState_onMemory hrun
  have hfile (f : OpenFile → OpenFile) : (finalState (Attempt.onFile obj f) (m, files)).1 = m ∧
      ((¬ ∃ handle, m.Opens obj handle ∧ handle < files.files.size) →
        finalState (Attempt.onFile obj f) (m, files) = (m, files)) := by
    rw [finalState_onFile]
    cases hhandle : m.fileHandle obj with
    | error fault => exact ⟨rfl, fun _ => rfl⟩
    | ok handle =>
        refine ⟨rfl, fun hopens => ?_⟩
        have hout : files.files.size ≤ handle := Nat.le_of_not_lt fun hlt =>
          hopens ⟨handle, fileHandle_eq_ok_iff.mp hhandle, hlt⟩
        exact congrArg (Prod.mk m) (FileStore.update_of_le hout f)
  cases attempt with
  | putElement index value =>
      have hsame := hput (arrayPut_refused h m index value)
      exact ⟨congrArg Prod.fst hsame, fun _ => hsame⟩
  | putEntry key value =>
      have hsame := hput (dictPut_refused h m key value)
      exact ⟨congrArg Prod.fst hsame, fun _ => hsame⟩
  | seek position => exact hfile _
  | write bytes => exact hfile _

/-- **Attempts through a composite that is not writable leave the memory alone**, and the files too if none is
open behind it. -/
lemma tried_of_not_writable (m : Memory) (files : FileStore) (attempts : List Attempt) :
    (tried obj attempts (m, files)).1 = m ∧
      ((¬ ∃ handle, m.Opens obj handle ∧ handle < files.files.size) →
        tried obj attempts (m, files) = (m, files)) := by
  induction attempts generalizing files with
  | nil => exact ⟨rfl, fun _ => rfl⟩
  | cons attempt rest ih =>
      obtain ⟨hmemory, hsame⟩ := perform_of_not_writable h m files attempt
      rw [tried, List.foldl_cons, ← tried]
      refine ⟨?_, fun hopens => ?_⟩
      · rw [← Prod.eta (finalState (attempt.perform obj) (m, files)), hmemory]
        exact (ih _).1
      · rw [hsame hopens]
        exact (ih files).2 hopens

end NotWritable

/-- An open file is made longer by writing more bytes than it has. -/
lemma content_written_ne {handle : Handle} (hopens : m.Opens obj handle) {files : FileStore}
    (hlt : handle < files.files.size) : ∃ attempts : List Attempt,
      ((tried obj attempts (m, files)).2.get handle).content ≠ (files.get handle).content := by
  set bytes := List.replicate ((files.get handle).content.length + 1) (0 : UInt8) with hbytes
  refine ⟨[.write bytes], fun he => ?_⟩
  have hrun : tried obj [.write bytes] (m, files) = (m, files.update handle (OpenFile.write · bytes)) := by
    rw [tried, List.foldl_cons, List.foldl_nil, Attempt.perform, finalState_onFile,
      fileHandle_eq_ok_iff.mpr hopens]
  rw [hrun, FileStore.get_update hlt] at he
  have hlonger := OpenFile.length_le_write (files.get handle) bytes
  rw [he, hbytes, List.length_replicate] at hlonger
  exact Nat.not_succ_le_self _ hlonger

/-- **What access levels guard.**  In every memory and for every object: without access, the bytes stored for
the object do not show in a string, an element, the elements or a value under a key; the number of used entries
shows them exactly if the first key can be read; and the open file is refused exactly if there is none.  If the
object is not writable, no attempts change the memory, and they keep the contents of the file behind it exactly
if there is none. -/
theorem access_enforced_iff (m : Memory) (files : FileStore) (obj : Object) :
    (obj.access = .none →
      (m.Hides obj (stringBytes · obj) ∧ (∀ index, m.Hides obj (arrayGet · obj index)) ∧
        m.Hides obj (arrayElements · obj) ∧ ∀ key, m.Hides obj (dictGet? · obj key)) ∧
      (m.Hides obj (dictLength · obj) ↔ ¬ m.FirstKeyReads obj) ∧
      ((∃ fault, m.fileHandle obj = .error fault) ↔ ¬ ∃ handle, m.Opens obj handle)) ∧
    (obj.wcheck = false →
      (∀ attempts, (tried obj attempts (m, files)).1 = m) ∧
      ((∀ attempts handle, m.Opens obj handle →
          ((tried obj attempts (m, files)).2.get handle).content = (files.get handle).content) ↔
        ¬ ∃ handle, m.Opens obj handle ∧ handle < files.files.size)) := by
  refine ⟨fun h => ⟨⟨hides_stringBytes h m, hides_arrayGet h m, hides_arrayElements h m, hides_dictGet? h m⟩,
    hides_dictLength_iff m obj, fileHandle_refused_iff⟩, fun h => ⟨fun attempts => ?_, ?_, ?_⟩⟩
  · exact (tried_of_not_writable h m files attempts).1
  · rintro hkeeps ⟨handle, hopens, hlt⟩
    obtain ⟨attempts, hchanged⟩ := content_written_ne hopens hlt
    exact hchanged (hkeeps attempts handle hopens)
  · intro hnone attempts handle _
    rw [(tried_of_not_writable h m files attempts).2 hnone]

/-- The memory after an array of one element was built. -/
def oneElement : Memory :=
  freshLocal.afterAll [.newArray 1 [], .arrayPut (.composite .array .localVM 1 0 1) 0 (.int 7)]

/-- That array can be read, but without access it can neither be read nor changed. -/
theorem access_enforced_iff_hidden_array :
    ∃ array hidden : Object, oneElement.arrayGet array 0 = .ok (.int 7) ∧ hidden = array.restrict .none ∧
      oneElement.Hides hidden (arrayGet · hidden 0) ∧ oneElement.Hides hidden (dictLength · hidden) ∧
      (∃ fault, oneElement.fileHandle hidden = .error fault) ∧
      ∀ attempts, (tried hidden attempts (oneElement, .empty)).1 = oneElement := by
  obtain ⟨hread, hwrite⟩ :=
    access_enforced_iff oneElement .empty ((Object.composite .array .localVM 1 0 1).restrict .none)
  obtain ⟨⟨-, hget, -, -⟩, hlength, hfile⟩ := hread rfl
  refine ⟨.composite .array .localVM 1 0 1, _, by decide +kernel, rfl, hget 0, hlength.mpr ?_, hfile.mpr ?_,
    (hwrite rfl).1⟩
  · exact fun hdict => absurd hdict.1 (by decide)
  · exact fun hopens => absurd hopens.choose_spec.1 (by decide)

/-- The memory after a dictionary of one entry was built. -/
def unusedEntry : Memory := freshLocal.afterAll [.newDict 1 []]

/-- That dictionary without access. -/
def hiddenDict : Object := (Object.composite .dict .localVM 1 0 1).restrict .none

/-- The memory after a file was taken over that is not to be written. -/
def takenOver : Memory := freshLocal.afterAll [.newFile 0 false []]

/-- The file object that is handed out for it. -/
def readOnlyFile : Object := (Object.composite .file .localVM 1 0 1).restrict .readOnly

/-- Without access, the number of used entries tells whether a key is stored; and a file that is not to be
written is written to. -/
theorem access_not_enforced :
    (∃ n, AlikeOutside hiddenDict.value.toNat unusedEntry n ∧ hiddenDict.access = .none ∧
      unusedEntry.dictLength hiddenDict = .ok 0 ∧ n.dictLength hiddenDict = .ok 1) ∧
    ∃ files : FileStore, answer? (newFile 0 false []) freshLocal = some readOnlyFile ∧
      readOnlyFile.wcheck = false ∧ takenOver.Opens readOnlyFile 0 ∧ (files.get 0).content = [97, 98, 99] ∧
      ((tried readOnlyFile [.write [120]] (takenOver, files)).2.get 0).content = [120, 98, 99] := by
  have hrow : unusedEntry.row 1 = .ok ⟨0, dictEntrySize, Mark.createdAt 0, Tag.ofKind .dict⟩ := by decide +kernel
  refine ⟨⟨unusedEntry.repainted 0 ((Object.int 1).encode ++ (Object.int 7).encode), ?_, rfl, by decide +kernel,
    by decide +kernel⟩, ⟨#[⟨[97, 98, 99], 0⟩]⟩, by decide +kernel, rfl, ⟨rfl, 0, by decide +kernel,
    by decide +kernel⟩, rfl, by decide +kernel⟩
  exact alikeOutside_repainted hrow (Nat.le_refl _) (by decide)

end Memory

end PostScriptCore
