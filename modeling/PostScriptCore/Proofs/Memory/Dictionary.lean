import PostScriptCore.Proofs.Memory.Bystanders
import PostScriptCore.Proofs.Memory.Entries
import PostScriptCore.Proofs.Memory.Procedure

/-!
# Dictionaries are finite maps

A dictionary that was created over zeros behaves like a finite map from the identities of its keys to values,
for as long as its entity is in use and nobody else writes to it.  The search for a key stops at the first
null key, so that what carries the proof is that the entries stay packed.

* `Memory.IsDict` — an unrestricted dictionary object over an entity.
* `Memory.HoldsMap` — the entity holds the entries of a finite map.
* `Memory.dictGet?_holdsMap`, `Memory.dictPut_holdsMap` — reading and writing.
* `Memory.ActsAs` — the dictionary behaves like a finite map.
* `Memory.Undisturbed` — a history in which nobody else disturbs the entity.
* `Memory.dict_is_finite_map` — the theorem.
-/

namespace PostScriptCore

/-- Two writes next to each other are one. -/
lemma patched_patched {old first second : List UInt8} {offset : Nat}
    (h : offset + (first ++ second).length ≤ old.length) :
    patched (patched old offset first) (offset + first.length) second = patched old offset (first ++ second) := by
  rw [List.length_append] at h
  have hfirst : offset + first.length ≤ old.length := by omega
  refine List.ext_getElem? fun i => ?_
  rw [getElem?_patched (by rw [length_patched hfirst]; omega), getElem?_patched hfirst,
    getElem?_patched (by rw [List.length_append]; omega), List.length_append, List.getElem?_append]
  split_ifs <;> first | rfl | omega | (congr 1; omega)

/-- The contents after an operation.  Only putting a value into this dictionary changes them. -/
def Contents.after (dict : Object) (capacity : Nat) (contents : Contents) : MemoryOp → Contents
  | .dictPut target key value => if target = dict then contents.put capacity key value else contents
  | _ => contents

namespace Memory

variable {m n k : Memory} {id capacity : Nat} {dict key value : Object} {contents : Contents}

/-- An entry is written as a whole. -/
lemma writeEntry_replaces (hs : Sound m) {cell : Cell} {offset : Nat} (hcell : m.cell? id = some cell)
    (entry : DictEntry) (hfit : offset + entry.encode.length ≤ cell.bytes.length) :
    ∃ n, (do writeObject id offset entry.1; writeObject id (offset + objectSize) entry.2) m = .ok () n ∧
      Replaces m n id ⟨cell.tag, patched cell.bytes offset entry.encode⟩ := by
  have hsplit := hfit
  rw [DictEntry.encode, List.length_append] at hsplit
  have hfirst : offset + entry.1.encode.length ≤ cell.bytes.length := by omega
  obtain ⟨n, hrun, hn⟩ := put_replaces hs hcell hfirst
  have hheld : n.cell? id = some ⟨cell.tag, patched cell.bytes offset entry.1.encode⟩ :=
    (hn.cell id).trans (if_pos rfl)
  have hsecond : offset + objectSize + entry.2.encode.length ≤
      (patched cell.bytes offset entry.1.encode).length := by
    rw [length_patched (by omega), ← Object.length_encode entry.1]
    omega
  obtain ⟨k, hrun', hk⟩ := put_replaces hn.sound hheld hsecond
  refine ⟨k, (bind_ok hrun).trans hrun', ?_⟩
  rw [DictEntry.encode, ← patched_patched hfit, Object.length_encode]
  exact hn.trans hk

/-! ## One dictionary -/

/-- An unrestricted dictionary of the given capacity over the entity. -/
structure IsDict (dict : Object) (id capacity : Nat) : Prop where
  expects : expectType dict .dict = .ok id
  length : dict.length.toNat = capacity
  rcheck : dict.rcheck = true
  wcheck : dict.wcheck = true

lemma isDict_wholeView (m : Memory) (hid : id < wordBound) (hword : capacity < wordBound) :
    IsDict (m.wholeView .dict id capacity) id capacity where
  expects := expectType_wholeView rfl hid capacity
  length := length_wholeView m .dict id hword
  rcheck := rfl
  wcheck := rfl

/-- The entity holds the entries of a finite map. -/
def HoldsMap (m : Memory) (id capacity : Nat) (contents : Contents) : Prop :=
  ∃ cell entries, m.cell? id = some cell ∧ Tabulated capacity entries cell.bytes ∧ Represents entries contents

lemma dictPut_null (hdict : IsDict dict id capacity) (m : Memory) (value : Object) (hkey : key.ty = .null) :
    dictPut dict key value m = .error .typeCheck m := by
  refine (bind_ok (query_ok (s := m) hdict.expects)).trans ?_
  simp only [hdict.wcheck, hkey, Bool.not_true, Bool.false_eq_true, if_false, if_true]
  rfl

section Operations

variable (hs : Sound m) (hdict : IsDict dict id capacity) (h : m.HoldsMap id capacity contents)

include hs h in
/-- Where the search for a key ends. -/
lemma findEntry_holdsMap (key : Object) : ∃ cell entries, m.cell? id = some cell ∧
    Tabulated capacity entries cell.bytes ∧ Represents entries contents ∧
    m.findEntry id key capacity 0 = .ok (
      if DictEntry.position entries key < entries.length then .occupied (DictEntry.position entries key)
      else if DictEntry.position entries key < capacity then .unused (DictEntry.position entries key)
      else .full) := by
  obtain ⟨cell, entries, hcell, htable, hmap⟩ := h
  exact ⟨cell, entries, hcell, htable, hmap,
    findEntry_tabulated hs hcell htable key capacity (Nat.zero_add _) (Nat.zero_le _)⟩

include hs hdict h

lemma dictGet?_holdsMap (key : Object) : m.dictGet? dict key = .ok (contents.lookup key.identity) := by
  obtain ⟨cell, entries, hcell, htable, hmap, hfind⟩ := findEntry_holdsMap hs h key
  rw [dictGet?, hdict.expects]
  simp only [hdict.rcheck, hdict.length, hfind, Bool.not_true, Bool.false_eq_true, if_false]
  by_cases hlt : DictEntry.position entries key < entries.length
  · have hget := List.getElem?_eq_getElem hlt
    have hlookup : contents.lookup key.identity = some entries[DictEntry.position entries key].2 :=
      (hmap.lookup _ _).mpr ⟨_, List.mem_of_getElem? hget, DictEntry.same_position hget rfl⟩
    rw [if_pos hlt, hlookup]
    simp only [readValue hs hcell htable hget]
  · have hlookup : contents.lookup key.identity = none := by
      rw [Finmap.lookup_eq_none, hmap.mem_iff, ← DictEntry.position_lt_iff]
      exact hlt
    rw [if_neg hlt, hlookup]
    by_cases hroom : DictEntry.position entries key < capacity
    · rw [if_pos hroom]
    · rw [if_neg hroom]

lemma dictLength_holdsMap : m.dictLength dict = .ok contents.keys.card := by
  obtain ⟨cell, entries, hcell, htable, hmap⟩ := h
  rw [dictLength, hdict.expects]
  simp only [hdict.length]
  rw [usedEntries_tabulated hs hcell htable capacity (Nat.zero_add _) (Nat.zero_le _), hmap.card, Nat.sub_zero]

lemma dictPut_full (value : Object) (hkey : key.ty ≠ .null) (hfull : ¬ contents.Takes capacity key) :
    dictPut dict key value m = .error .limitCheck m := by
  obtain ⟨cell, entries, hcell, htable, hmap, hfind⟩ := findEntry_holdsMap hs h key
  rw [hmap.takes_iff htable.count] at hfull
  have hle := DictEntry.position_le entries key
  have hmost := htable.count
  rw [if_neg (by omega), if_neg hfull] at hfind
  refine (bind_ok (query_ok (s := m) hdict.expects)).trans ?_
  simp only [hdict.wcheck, hkey, Bool.not_true, Bool.false_eq_true, if_false]
  refine (bind_ok (query_ok (s := m) (a := DictSlot.full) ?_)).trans rfl
  rw [hdict.length]
  exact hfind

/-- **Putting a value** writes one entry of this entity. -/
lemma dictPut_holdsMap (value : Object) (hkey : key.ty ≠ .null) (htakes : contents.Takes capacity key) :
    ∃ n, dictPut dict key value m = .ok () n ∧ Sound n ∧ (∀ j, j ≠ id → n.cell? j = m.cell? j) ∧
      n.HoldsMap id capacity (contents.insert key.identity value) := by
  obtain ⟨cell, entries, hcell, htable, hmap, hfind⟩ := findEntry_holdsMap hs h key
  have hroom := (hmap.takes_iff htable.count).mp htakes
  have hend : DictEntry.position entries key * dictEntrySize + (DictEntry.encode (key, value)).length ≤
      cell.bytes.length := by
    rw [DictEntry.length_encode, ← Nat.succ_mul]
    exact Nat.le_trans (Nat.mul_le_mul_right _ hroom) htable.room
  obtain ⟨n, hrun, hn⟩ := writeEntry_replaces hs hcell (key, value) hend
  refine ⟨n, ?_, hn.sound, fun j hj => (hn.cell j).trans (if_neg hj), _, _, (hn.cell id).trans (if_pos rfl),
    htable.stored hkey hroom, hmap.stored key value⟩
  refine (bind_ok (query_ok (s := m) hdict.expects)).trans ?_
  simp only [hdict.wcheck, hkey, Bool.not_true, Bool.false_eq_true, if_false]
  rw [← hdict.length] at hfind
  refine (bind_ok (query_ok (s := m) hfind)).trans ?_
  by_cases hlt : DictEntry.position entries key < entries.length
  · rw [if_pos hlt]
    exact hrun
  · rw [if_neg hlt, if_pos (hdict.length ▸ hroom)]
    exact hrun

end Operations

/-! ## Behaving like a map -/

/-- The dictionary over the entity behaves like the finite map.  Its keys are packed from the first slot on. -/
structure ActsAs (m : Memory) (dict : Object) (id capacity : Nat) (contents : Contents) : Prop where
  get : ∀ key, m.dictGet? dict key = .ok (contents.lookup key.identity)
  length : m.dictLength dict = .ok contents.keys.card
  put : ∀ key value, key.ty ≠ .null → contents.Takes capacity key →
    ∃ n, dictPut dict key value m = .ok () n ∧ ∀ j, j ≠ id → n.cell? j = m.cell? j
  full : ∀ key value, key.ty ≠ .null → ¬ contents.Takes capacity key →
    dictPut dict key value m = .error .limitCheck m
  null : ∀ key value, key.ty = .null → dictPut dict key value m = .error .typeCheck m
  packed : ∃ keys : List Object, keys.length = contents.keys.card ∧
    keys.Pairwise (fun key other => key.same other = false) ∧
    (∀ i key, keys[i]? = some key → key.ty ≠ .null ∧ m.readObject id (i * dictEntrySize) = .ok key) ∧
    ∀ i, keys.length ≤ i → i < capacity → m.readObject id (i * dictEntrySize) = .ok Object.null

lemma HoldsMap.actsAs (h : m.HoldsMap id capacity contents) (hs : Sound m) (hdict : IsDict dict id capacity) :
    ActsAs m dict id capacity contents where
  get := dictGet?_holdsMap hs hdict h
  length := dictLength_holdsMap hs hdict h
  put := fun key value hkey htakes => by
    obtain ⟨n, hrun, -, hkept, -⟩ := dictPut_holdsMap hs hdict h value hkey htakes
    exact ⟨n, hrun, hkept⟩
  full := fun key value => dictPut_full hs hdict h value
  null := fun key value => dictPut_null hdict m value
  packed := by
    obtain ⟨cell, entries, hcell, htable, hmap⟩ := h
    refine ⟨entries.map Prod.fst, by rw [List.length_map, hmap.card], ?_, fun i key hi => ?_, fun i hi => ?_⟩
    · have hdistinct := hmap.distinct
      rw [DictEntry.identities, List.Nodup, List.pairwise_map] at hdistinct
      rw [List.pairwise_map]
      refine hdistinct.imp fun hne => ?_
      rw [Bool.eq_false_iff]
      exact fun hsame => hne (Object.same_iff.mp hsame)
    · rw [List.getElem?_map, Option.map_eq_some_iff] at hi
      obtain ⟨entry, hi, rfl⟩ := hi
      exact ⟨htable.keyed entry (List.mem_of_getElem? hi), readKey hs hcell htable hi⟩
    · rw [List.length_map] at hi
      exact readBlank hs hcell htable hi

/-! ## Histories -/

/-- A history of puts into the dictionary and of operations on other entities.  Before each of these the entity
is in use, and after it the entity is live. -/
def Undisturbed (dict : Object) (id : Nat) : Memory → List MemoryOp → Prop
  | _, [] => True
  | m, op :: rest =>
    ((∃ key value, op = .dictPut dict key value) ∨
      m.InUse id ∧ op.Elsewhere m id ∧ (m.after op).isSpare id = false) ∧
    Undisturbed dict id (m.after op) rest

lemma Undisturbed.count_le (hs : Sound m) {ops : List MemoryOp} (h : m.Undisturbed dict id ops) :
    m.entityCount ≤ (m.afterAll ops).entityCount := by
  induction ops generalizing m with
  | nil => exact Nat.le_refl _
  | cons op rest ih =>
      refine Nat.le_trans (anchors_after hs ?_).count_le (ih (sound_after hs op) h.2)
      rcases h.1 with ⟨key, value, rfl⟩ | ⟨-, helsewhere, -⟩
      · exact nofun
      · exact helsewhere.unrestored

/-- An operation on other entities changes nothing of the contents. -/
lemma after_elsewhere (hdict : IsDict dict id capacity) {op : MemoryOp} (hop : op.Elsewhere m id) :
    contents.after dict capacity op = contents := by
  cases op with
  | dictPut target key value =>
      have hne : target ≠ dict := by
        rintro rfl
        exact hop.subject (expectType_eq_ok hdict.expects).1
      exact if_neg hne
  | _ => rfl

/-- **One step**: a put changes the map, and nothing else does. -/
lemma holdsMap_after (hs : Sound m) (hdict : IsDict dict id capacity) (h : m.HoldsMap id capacity contents)
    {op : MemoryOp} (hop : (∃ key value, op = .dictPut dict key value) ∨
      m.InUse id ∧ op.Elsewhere m id ∧ (m.after op).isSpare id = false)
    (hwords : (m.after op).entityCount ≤ wordBound) :
    (m.after op).HoldsMap id capacity (contents.after dict capacity op) := by
  rcases hop with ⟨key, value, rfl⟩ | ⟨hinuse, helsewhere, hlive⟩
  · rw [Contents.after, if_pos rfl, Contents.put, after, MemoryOp.perform]
    by_cases hkey : key.ty = .null
    · rw [if_neg (fun hput => hput.1 hkey), finalState_of_error (dictPut_null hdict m value hkey)]
      exact h
    · by_cases htakes : contents.Takes capacity key
      · obtain ⟨n, hrun, -, -, hn⟩ := dictPut_holdsMap hs hdict h value hkey htakes
        rw [if_pos ⟨hkey, htakes⟩, finalState_of_ok hrun]
        exact hn
      · rw [if_neg (fun hput => htakes hput.2), finalState_of_error (dictPut_full hs hdict h value hkey htakes)]
        exact h
  · obtain ⟨cell, entries, hcell, hrest⟩ := h
    rw [after_elsewhere hdict helsewhere]
    exact ⟨cell, entries, (hinuse.cell?_after hs helsewhere hwords hlive).trans hcell, hrest⟩

/-- **A whole history.** -/
lemma holdsMap_afterAll (hs : Sound m) (hdict : IsDict dict id capacity) (h : m.HoldsMap id capacity contents)
    {ops : List MemoryOp} (hops : m.Undisturbed dict id ops) (hwords : (m.afterAll ops).entityCount ≤ wordBound) :
    (m.afterAll ops).HoldsMap id capacity (ops.foldl (Contents.after dict capacity) contents) := by
  induction ops generalizing m contents with
  | nil => exact h
  | cons op rest ih =>
      have hnext := sound_after hs op
      have hcount := Nat.le_trans (hops.2.count_le hnext) hwords
      exact ih hnext (holdsMap_after hs hdict h hops.1 hcount) hops.2 hwords

/-- **A dictionary is a finite map.**  It was created over zeros, and since then values were put into it while
all else that happened was directed at other entities.  Then it behaves like the map that has, for every
identity, the value that was last put under a key of that identity. -/
theorem dict_is_finite_map {bank : Bank} {backing : Backing} {settings : Settings} {start : Memory}
    (hblank : backing.IsBlank) (hstart : withBacking bank backing settings = .ok start)
    (earlier : List MemoryOp) {roots : List Object}
    (hnew : newDict capacity roots (start.afterAll earlier) = .ok dict m) (hid : dict.entity? = some id)
    (later : List MemoryOp) (hlater : m.Undisturbed dict id later)
    (hwords : (m.afterAll later).entityCount ≤ wordBound) :
    ActsAs (m.afterAll later) dict id capacity (later.foldl (Contents.after dict capacity) ∅) := by
  have hs := sound_afterAll (sound_of_withBacking hstart) earlier
  have hzero := blank_afterAll (sound_of_withBacking hstart) (blank_of_withBacking hblank hstart) earlier
  obtain ⟨hword, fresh, rfl, hrun⟩ := newElements_eq_ok hnew
  obtain ⟨hm, length, hroom, hcell⟩ := zeros_of_allocate hs hzero hrun
  have hfresh : fresh < wordBound :=
    Nat.lt_of_lt_of_le (cell_lt hcell) (Nat.le_trans (hlater.count_le hm) hwords)
  have hcapacity : capacity < wordBound :=
    Nat.lt_of_le_of_lt (Nat.le_mul_of_pos_right capacity (by decide)) hword
  have hdict := isDict_wholeView m hfresh hcapacity
  obtain rfl := Option.some.inj (hid.symm.trans (expectType_eq_ok hdict.expects).1)
  have hempty : m.HoldsMap id capacity ∅ := ⟨_, [], hcell, .zeros hroom, represents_nil⟩
  exact (holdsMap_afterAll hm hdict hempty hlater hwords).actsAs (sound_afterAll hm later) hdict

/-- A string of forty bytes is freed, and its storage becomes a dictionary with room for one entry. -/
def recycledDictRun : List MemoryOp := [.newString (List.replicate 40 255) [], .free 1, .newDict 1 []]

/-- The dictionary of that run. -/
def recycledDict : Object := .composite .dict .localVM 1 0 1

/-- A value is put under a name, a string is made, and another value is put under the same name, which is
executable now. -/
def replacingRun : List MemoryOp :=
  [.dictPut recycledDict (.name 5) (.int 7), .newString [1, 2, 3] [],
    .dictPut recycledDict (Object.name 5).cvx (.int 8)]

/-- The second value is found, and there is no room for another name. -/
theorem dict_is_finite_map_replacing : ∃ m : Memory,
    Backing.anonymous.IsBlank ∧ withBacking .localVM .anonymous Settings.standard = .ok freshLocal ∧
      newDict 1 [] (freshLocal.afterAll (recycledDictRun.take 2)) = .ok recycledDict m ∧
      m.Undisturbed recycledDict 1 replacingRun ∧ (m.afterAll replacingRun).entityCount ≤ wordBound ∧
      (m.afterAll replacingRun).dictGet? recycledDict (.name 5) = .ok (some (.int 8)) ∧
      (m.afterAll replacingRun).dictLength recycledDict = .ok 1 ∧
      dictPut recycledDict (.name 6) (.int 9) (m.afterAll replacingRun) =
        .error .limitCheck (m.afterAll replacingRun) := by
  have hnew := run_of_answer? (x := newDict 1 []) (m := freshLocal.afterAll (recycledDictRun.take 2))
    (a := recycledDict) (by decide +kernel)
  have hsame : finalState (newDict 1 []) (freshLocal.afterAll (recycledDictRun.take 2)) =
      freshLocal.afterAll recycledDictRun := (@after_of_ok _ _ (.newDict 1 []) _ _ _ rfl hnew).symm
  rw [hsame] at hnew
  have hinuse : (freshLocal.afterAll (recycledDictRun ++ replacingRun.take 1)).InUse 1 := by
    have hlive : (freshLocal.afterAll (recycledDictRun ++ replacingRun.take 1)).isSpare 1 = false := by
      decide +kernel
    obtain ⟨cell, hcell⟩ := exists_cell (m := freshLocal.afterAll (recycledDictRun ++ replacingRun.take 1))
      Nat.one_ne_zero (by decide +kernel)
    exact inUse_of_respectsAll withBacking_freshLocal (by decide +kernel) (by decide +kernel) hcell
      (isSpare_eq_false.mp hlive cell hcell)
  have hlater : (freshLocal.afterAll recycledDictRun).Undisturbed recycledDict 1 replacingRun := by
    have htake : replacingRun.take 1 = [.dictPut recycledDict (.name 5) (.int 7)] := rfl
    rw [afterAll, List.foldl_append, htake, List.foldl_cons, List.foldl_nil, ← afterAll] at hinuse
    refine ⟨.inl ⟨_, _, rfl⟩, .inr ⟨hinuse, ⟨fun level => ?_, by decide, by decide +kernel⟩, by decide +kernel⟩,
      .inl ⟨_, _, rfl⟩, trivial⟩
    simp
  have hwords : ((freshLocal.afterAll recycledDictRun).afterAll replacingRun).entityCount ≤ wordBound := by
    decide +kernel
  have hblank : Backing.anonymous.IsBlank := trivial
  have hacts := dict_is_finite_map hblank withBacking_freshLocal (recycledDictRun.take 2) hnew (by decide)
    replacingRun hlater hwords
  have hget := hacts.get (.name 5)
  have hlength := hacts.length
  have hfull := hacts.full (.name 6) (.int 9) (by decide) (by decide +kernel)
  exact ⟨_, hblank, withBacking_freshLocal, hnew, hlater, hwords, hget, hlength, hfull⟩

/-- A freed string is given the number of the dictionary as its link. -/
def overwritingRun : List MemoryOp :=
  [.dictPut (.composite .dict .localVM 1 0 1) (.int 1) (.int 7), .newString (List.replicate 8 1) [], .free 2,
    .put 2 0 (wordBytes 1), .newString (List.replicate 20 0) []]

/-- A dictionary with one entry, and a string. -/
def neighbouringRun : List MemoryOp :=
  [.newDict 1 [], .dictPut (.composite .dict .localVM 1 0 1) (.int 1) (.int 7), .newString (List.replicate 8 1) []]

/-- **What is written to free storage reaches a live dictionary.**  No operation but the first one is directed
at it and none frees it, but its storage becomes that of a string, and its key is gone.  So it is where the
string is said by hand to be in the same place, and is written to. -/
theorem dict_loses_entry :
    (answer? (newDict 1 []) freshLocal = some (.composite .dict .localVM 1 0 1) ∧
      (∀ op ∈ overwritingRun.tail, op.subject? ≠ some 1 ∧ ∀ level, op ≠ .restore level) ∧
      (∀ count ≤ 5,
        ((freshLocal.after (.newDict 1 [])).afterAll (overwritingRun.take count)).isSpare 1 = false) ∧
      ((freshLocal.after (.newDict 1 [])).afterAll (overwritingRun.take 4)).dictGet?
        (.composite .dict .localVM 1 0 1) (.int 1) = .ok (some (.int 7)) ∧
      ((freshLocal.after (.newDict 1 [])).afterAll overwritingRun).dictGet?
        (.composite .dict .localVM 1 0 1) (.int 1) = .ok none) ∧
    (finalState (setAddress 2 0) (freshLocal.afterAll neighbouringRun)).dictGet?
      (.composite .dict .localVM 1 0 1) (.int 1) = .ok (some (.int 7)) ∧
    (finalState (put 2 0 (List.replicate 8 0))
        (finalState (setAddress 2 0) (freshLocal.afterAll neighbouringRun))).dictGet?
      (.composite .dict .localVM 1 0 1) (.int 1) = .ok none := by
  refine ⟨⟨by decide +kernel, ?_, by decide +kernel, by decide +kernel, by decide +kernel⟩, by decide +kernel,
    by decide +kernel⟩
  simp [overwritingRun, MemoryOp.subject?]

end Memory

end PostScriptCore
