import PostScriptCore.Proofs.Memory.FreshStorage
import PostScriptCore.Proofs.Memory.Packed
import Mathlib.Data.Finmap

/-!
# Dictionary entries

A dictionary is a table of keys and values, packed from the front of its entity.  Keys count as one if they
are the same, whatever their attributes, so that what a dictionary holds is a finite map from the identities
of its keys.

* `Object.identity` — what keys are compared by.
* `Contents` — a finite map from identities to values, and what putting a value does to it.
* `DictEntry.stored` — the entries with a value stored under a key.
* `Represents` — the entries as a finite map.
* `Tabulated` — storage that holds the entries of a dictionary, with zeros behind them.
* `Represents.stored`, `Tabulated.stored` — storing an entry.
* `Memory.findEntry_tabulated`, `Memory.usedEntries_tabulated` — searching and counting the entries.
-/

namespace PostScriptCore

/-! ## Keys -/

namespace Object

/-- Type and payload. -/
abbrev Identity := ObjectType × UInt32 × UInt32 × UInt32

/-- What keys are compared by. -/
def identity (obj : Object) : Identity := (obj.ty, obj.value, obj.offset, obj.length)

lemma same_iff {obj other : Object} : obj.same other = true ↔ obj.identity = other.identity := by
  simp [same, identity, and_assoc]

end Object

/-- What a dictionary holds. -/
abbrev Contents := Finmap fun _ : Object.Identity => Object

namespace Contents

/-- The key is there already, or there is room for it. -/
def Takes (contents : Contents) (capacity : Nat) (key : Object) : Prop :=
  key.identity ∈ contents ∨ contents.keys.card < capacity

instance (contents : Contents) (capacity : Nat) (key : Object) : Decidable (contents.Takes capacity key) :=
  inferInstanceAs (Decidable (_ ∨ _))

/-- The contents with a value put under a key, if the dictionary takes it. -/
def put (contents : Contents) (capacity : Nat) (key value : Object) : Contents :=
  if key.ty ≠ .null ∧ contents.Takes capacity key then contents.insert key.identity value else contents

end Contents

/-! ## Entries -/

/-- A key and its value. -/
abbrev DictEntry := Object × Object

namespace DictEntry

/-- The two objects, one after the other. -/
def encode (entry : DictEntry) : List UInt8 := entry.1.encode ++ entry.2.encode

@[simp] lemma length_encode (entry : DictEntry) : entry.encode.length = Memory.dictEntrySize := by
  simp [encode]
  rfl

/-- Where a key is, or the end of the entries. -/
def position (entries : List DictEntry) (key : Object) : Nat := entries.findIdx fun entry => entry.1.same key

/-- The entries with a value stored under a key. -/
def stored (entries : List DictEntry) (key value : Object) : List DictEntry :=
  if position entries key < entries.length then entries.set (position entries key) (key, value)
  else entries ++ [(key, value)]

variable {entries : List DictEntry} {key value : Object} {i : Nat} {entry : DictEntry}

lemma position_le (entries : List DictEntry) (key : Object) : position entries key ≤ entries.length :=
  List.findIdx_le_length

lemma same_position (h : entries[i]? = some entry) (hi : i = position entries key) :
    entry.1.identity = key.identity := by
  obtain ⟨hlt, rfl⟩ := List.getElem?_eq_some_iff.mp h
  subst hi
  exact Object.same_iff.mp (List.findIdx_getElem (p := fun entry : DictEntry => entry.1.same key))

lemma not_same_of_lt (h : entries[i]? = some entry) (hi : i < position entries key) :
    entry.1.same key = false := by
  obtain ⟨hlt, rfl⟩ := List.getElem?_eq_some_iff.mp h
  simpa using List.not_of_lt_findIdx hi

/-- The identities of the keys, in order. -/
def identities (entries : List DictEntry) : List Object.Identity := entries.map fun entry => entry.1.identity

lemma position_lt_iff : position entries key < entries.length ↔ key.identity ∈ identities entries := by
  rw [position, List.findIdx_lt_length, identities, List.mem_map]
  simp only [Object.same_iff]

lemma length_stored : (stored entries key value).length = max entries.length (position entries key + 1) := by
  have hle := position_le entries key
  rw [stored]
  split
  · rw [List.length_set]
    omega
  · rw [List.length_append, List.length_singleton]
    omega

/-- What is stored is the entries and the new one. -/
lemma getElem?_stored (h : (stored entries key value)[i]? = some entry) :
    if i = position entries key then entry = (key, value) else entries[i]? = some entry := by
  have hle := position_le entries key
  rw [stored] at h
  split at h
  · rw [List.getElem?_set] at h
    split at h
    · next he =>
      rw [if_pos he.symm]
      exact (Option.some.inj h).symm
    · next hne =>
      rwa [if_neg (Ne.symm hne)]
  · rw [List.getElem?_append] at h
    split at h
    · rwa [if_neg (by omega)]
    · obtain ⟨hi, he⟩ : i - entries.length = 0 ∧ (key, value) = entry := by
        simpa [List.getElem?_singleton] using h
      rw [if_pos (by omega)]
      exact he.symm

lemma identities_stored_of_lt (h : position entries key < entries.length) :
    identities (stored entries key value) = identities entries := by
  have hsame : entries[position entries key].1.identity = key.identity :=
    same_position (List.getElem?_eq_getElem h) rfl
  rw [stored, if_pos h, identities, List.map_set, identities]
  simp only [← hsame]
  rw [← List.getElem_map (fun entry : DictEntry => entry.1.identity) (h := by simpa using h),
    List.set_getElem_self]

lemma identities_stored_of_le (h : entries.length ≤ position entries key) :
    identities (stored entries key value) = identities entries ++ [key.identity] := by
  rw [stored, if_neg (Nat.not_lt.mpr h), identities, List.map_append]
  rfl

lemma nodup_stored (h : (identities entries).Nodup) : (identities (stored entries key value)).Nodup := by
  rcases Nat.lt_or_ge (position entries key) entries.length with hlt | hge
  · rwa [identities_stored_of_lt hlt]
  · rw [identities_stored_of_le hge, List.nodup_append_comm]
    exact List.nodup_cons.mpr ⟨fun hmem => absurd (position_lt_iff.mpr hmem) (Nat.not_lt.mpr hge), h⟩

/-- Storing replaces the entry of the key, and keeps all others. -/
lemma mem_stored (h : (identities entries).Nodup) :
    entry ∈ stored entries key value ↔
      entry = (key, value) ∨ entry ∈ entries ∧ entry.1.identity ≠ key.identity := by
  rcases Nat.lt_or_ge (position entries key) entries.length with hlt | hge
  · have hfound : (identities entries)[position entries key]? = some key.identity := by
      rw [identities, List.getElem?_map, List.getElem?_eq_getElem hlt, Option.map_some,
        same_position (List.getElem?_eq_getElem hlt) rfl]
    rw [stored, if_pos hlt]
    constructor
    · intro hmem
      obtain ⟨i, hi⟩ := List.mem_iff_getElem?.mp hmem
      rw [List.getElem?_set] at hi
      split at hi
      · exact .inl (Option.some.inj hi).symm
      · next hne =>
        refine .inr ⟨List.mem_of_getElem? hi, fun he => hne ?_⟩
        have hother : (identities entries)[i]? = some key.identity := by
          rw [identities, List.getElem?_map, hi, Option.map_some, he]
        exact (List.getElem?_inj (by simpa [identities] using hlt) h).mp (hfound.trans hother.symm)
    · rintro (rfl | ⟨hmem, hne⟩)
      · exact List.mem_of_getElem? (List.getElem?_set_self hlt)
      · obtain ⟨i, hi⟩ := List.mem_iff_getElem?.mp hmem
        have hother : position entries key ≠ i := fun he => hne (same_position hi he.symm)
        exact List.mem_of_getElem? ((List.getElem?_set_ne hother).trans hi)
  · have habsent : key.identity ∉ identities entries :=
      fun hmem => absurd (position_lt_iff.mpr hmem) (Nat.not_lt.mpr hge)
    rw [stored, if_neg (Nat.not_lt.mpr hge), List.mem_append, List.mem_singleton, or_comm]
    refine or_congr_right (iff_self_and.mpr fun hmem he => habsent ?_)
    exact List.mem_map.mpr ⟨entry, hmem, he⟩

end DictEntry

open DictEntry

/-! ## Entries as a finite map -/

section Map

variable {entries : List DictEntry} {contents : Contents} {key value : Object}

/-- The map has the values of the entries, under the identities of their keys. -/
structure Represents (entries : List DictEntry) (contents : Contents) : Prop where
  distinct : (identities entries).Nodup
  lookup : ∀ identity value, contents.lookup identity = some value ↔
    ∃ key, (key, value) ∈ entries ∧ key.identity = identity

lemma represents_nil : Represents [] ∅ where
  distinct := List.nodup_nil
  lookup := by simp

namespace Represents

lemma mem_iff (h : Represents entries contents) {identity : Object.Identity} :
    identity ∈ contents ↔ identity ∈ identities entries := by
  rw [← Finmap.lookup_isSome, Option.isSome_iff_exists, identities, List.mem_map]
  simp only [h.lookup]
  constructor
  · rintro ⟨value, key, hmem, rfl⟩
    exact ⟨(key, value), hmem, rfl⟩
  · rintro ⟨⟨key, value⟩, hmem, rfl⟩
    exact ⟨value, key, hmem, rfl⟩

/-- There are as many keys as entries. -/
lemma card (h : Represents entries contents) : contents.keys.card = entries.length := by
  have hkeys : contents.keys = (identities entries).toFinset := by
    ext identity
    rw [Finmap.mem_keys, h.mem_iff, List.mem_toFinset]
  rw [hkeys, List.toFinset_card_of_nodup h.distinct, identities, List.length_map]

/-- A dictionary takes a key if the search for it ends before its capacity. -/
lemma takes_iff (h : Represents entries contents) {capacity : Nat} (hcount : entries.length ≤ capacity) :
    contents.Takes capacity key ↔ position entries key < capacity := by
  have hle := position_le entries key
  rw [Contents.Takes, h.mem_iff, ← position_lt_iff, h.card]
  omega

lemma stored (h : Represents entries contents) (key value : Object) :
    Represents (DictEntry.stored entries key value) (contents.insert key.identity value) where
  distinct := nodup_stored h.distinct
  lookup := by
    intro identity found
    simp only [mem_stored h.distinct]
    by_cases he : identity = key.identity
    · subst he
      rw [Finmap.lookup_insert]
      constructor
      · intro hfound
        obtain rfl := Option.some.inj hfound
        exact ⟨key, .inl rfl, rfl⟩
      · rintro ⟨other, hmem | ⟨-, hne⟩, hsame⟩
        · rw [(Prod.mk.inj hmem).2]
        · exact absurd hsame hne
    · rw [Finmap.lookup_insert_of_ne _ he, h.lookup]
      constructor
      · rintro ⟨other, hmem, rfl⟩
        exact ⟨other, .inr ⟨hmem, he⟩, rfl⟩
      · rintro ⟨other, hmem | ⟨hmem, -⟩, hsame⟩
        · exact absurd (hsame.symm.trans (congrArg Object.identity (Prod.mk.inj hmem).1)) he
        · exact ⟨other, hmem, hsame⟩

end Represents

end Map

/-! ## Entries in storage -/

/-- Storage that begins with the entries and has zeros behind them, up to the capacity of the dictionary. -/
structure Tabulated (capacity : Nat) (entries : List DictEntry) (bytes : List UInt8) : Prop where
  packed : Packed DictEntry.encode Memory.dictEntrySize entries bytes
  room : capacity * Memory.dictEntrySize ≤ bytes.length
  count : entries.length ≤ capacity
  keyed : ∀ entry ∈ entries, entry.1.ty ≠ .null
  blank : ∀ i, entries.length ≤ i → i < capacity →
    (bytes.drop (i * Memory.dictEntrySize)).take objectSize = List.replicate objectSize 0

namespace Tabulated

variable {capacity length : Nat} {entries : List DictEntry} {bytes : List UInt8} {key value : Object}

lemma zeros (h : capacity * Memory.dictEntrySize ≤ length) : Tabulated capacity [] (List.replicate length 0) where
  packed := .nil
  room := by simpa using h
  count := Nat.zero_le _
  keyed := by simp
  blank := by
    intro i _ hi
    have hend : (i + 1) * Memory.dictEntrySize ≤ length := Nat.le_trans (Nat.mul_le_mul_right _ hi) h
    have htwo : Memory.dictEntrySize = objectSize + objectSize := rfl
    rw [Nat.succ_mul] at hend
    rw [List.drop_replicate, List.take_replicate, Nat.min_eq_left (by omega)]

lemma key_bytes (h : Tabulated capacity entries bytes) {i : Nat} {entry : DictEntry}
    (hi : entries[i]? = some entry) :
    (bytes.drop (i * Memory.dictEntrySize)).take objectSize = entry.1.encode := by
  have hread := congrArg (List.take objectSize) (h.packed i entry hi).2
  rw [List.take_take, Nat.min_eq_left (by decide), DictEntry.encode] at hread
  rw [hread, List.take_left' (Object.length_encode _)]

lemma value_bytes (h : Tabulated capacity entries bytes) {i : Nat} {entry : DictEntry}
    (hi : entries[i]? = some entry) :
    (bytes.drop (i * Memory.dictEntrySize + objectSize)).take objectSize = entry.2.encode := by
  have hread := congrArg (List.drop objectSize) (h.packed i entry hi).2
  rw [List.drop_take, List.drop_drop, DictEntry.encode, List.drop_left' (Object.length_encode _)] at hread
  exact hread

/-- **Storing an entry** writes it over the old one of its key, or into the zeros behind the last one. -/
lemma stored (h : Tabulated capacity entries bytes) (hkey : key.ty ≠ .null)
    (hroom : position entries key < capacity) :
    Tabulated capacity (DictEntry.stored entries key value)
      (patched bytes (position entries key * Memory.dictEntrySize) (DictEntry.encode (key, value))) := by
  have hend : (position entries key + 1) * Memory.dictEntrySize ≤ bytes.length :=
    Nat.le_trans (Nat.mul_le_mul_right _ hroom) h.room
  have hfit : position entries key * Memory.dictEntrySize + (DictEntry.encode (key, value)).length ≤
      bytes.length := by
    rw [DictEntry.length_encode, ← Nat.succ_mul]
    exact hend
  refine
    { packed := h.packed.patched (DictEntry.length_encode _) hend fun i entry hi => getElem?_stored hi
      room := by rw [length_patched hfit]; exact h.room
      count := by rw [length_stored]; exact max_le h.count hroom
      keyed := fun entry hmem => ?_
      blank := fun i hi hlt => ?_ }
  · obtain ⟨i, hi⟩ := List.mem_iff_getElem?.mp hmem
    have hcase := getElem?_stored hi
    split at hcase
    · rw [hcase]
      exact hkey
    · exact h.keyed entry (List.mem_of_getElem? hcase)
  · rw [length_stored, max_le_iff] at hi
    rw [take_drop_patched_of_outside hfit, h.blank i hi.1 hlt]
    right
    rw [DictEntry.length_encode, ← Nat.succ_mul]
    exact Nat.mul_le_mul_right _ hi.2

end Tabulated

namespace Memory

section Reading

variable {m : Memory} {id capacity : Nat} {cell : Cell} {entries : List DictEntry}
  (hs : Sound m) (hcell : m.cell? id = some cell) (h : Tabulated capacity entries cell.bytes)

include hs hcell h

lemma readKey {i : Nat} {entry : DictEntry} (hi : entries[i]? = some entry) :
    m.readObject id (i * dictEntrySize) = .ok entry.1 := by
  have hend := (h.packed i entry hi).1
  rw [Nat.succ_mul] at hend
  have htwo : dictEntrySize = objectSize + objectSize := rfl
  rw [readObject_cell hs hcell, if_pos (by omega), h.key_bytes hi, Object.decode_encode]

lemma readValue {i : Nat} {entry : DictEntry} (hi : entries[i]? = some entry) :
    m.readObject id (i * dictEntrySize + objectSize) = .ok entry.2 := by
  have hend := (h.packed i entry hi).1
  rw [Nat.succ_mul] at hend
  have htwo : dictEntrySize = objectSize + objectSize := rfl
  rw [readObject_cell hs hcell, if_pos (by omega), h.value_bytes hi, Object.decode_encode]

lemma readBlank {i : Nat} (hi : entries.length ≤ i) (hlt : i < capacity) :
    m.readObject id (i * dictEntrySize) = .ok Object.null := by
  have hend : (i + 1) * dictEntrySize ≤ cell.bytes.length := Nat.le_trans (Nat.mul_le_mul_right _ hlt) h.room
  rw [Nat.succ_mul] at hend
  have htwo : dictEntrySize = objectSize + objectSize := rfl
  rw [readObject_cell hs hcell, if_pos (by omega), h.blank i hi hlt, decode_zeros]

/-- **A search ends at the entry of the key**, or at the first blank one. -/
lemma findEntry_tabulated (key : Object) (count : Nat) {entry : Nat} (hcount : entry + count = capacity)
    (hentry : entry ≤ position entries key) :
    m.findEntry id key count entry = .ok (
      if position entries key < entries.length then .occupied (position entries key)
      else if position entries key < capacity then .unused (position entries key)
      else .full) := by
  have hle := position_le entries key
  have hmost := h.count
  induction count generalizing entry with
  | zero => rw [findEntry, if_neg (by omega), if_neg (by omega)]
  | succ count ih =>
      rw [findEntry]
      rcases Nat.lt_or_ge entry entries.length with hlt | hge
      · have hget := List.getElem?_eq_getElem hlt
        rw [readKey hs hcell h hget]
        dsimp only
        rw [if_neg (h.keyed _ (List.mem_of_getElem? hget))]
        rcases Nat.lt_or_eq_of_le hentry with hbefore | rfl
        · rw [not_same_of_lt hget hbefore, if_neg Bool.false_ne_true]
          exact ih (by omega) hbefore
        · rw [Object.same_iff.mpr (same_position hget rfl), if_pos rfl, if_pos hlt]
      · obtain rfl : entry = position entries key := by omega
        rw [readBlank hs hcell h hge (by omega)]
        dsimp only
        rw [if_pos (show Object.null.ty = ObjectType.null from rfl), if_neg (by omega), if_pos (by omega)]

lemma usedEntries_tabulated (count : Nat) {entry : Nat} (hcount : entry + count = capacity)
    (hentry : entry ≤ entries.length) : m.usedEntries id count entry = .ok (entries.length - entry) := by
  have hmost := h.count
  induction count generalizing entry with
  | zero => rw [usedEntries, Nat.sub_eq_zero_of_le (by omega)]
  | succ count ih =>
      rw [usedEntries]
      rcases Nat.lt_or_eq_of_le hentry with hlt | rfl
      · have hget := List.getElem?_eq_getElem hlt
        rw [readKey hs hcell h hget]
        dsimp only
        rw [if_neg (h.keyed _ (List.mem_of_getElem? hget)), ih (by omega) hlt]
        dsimp only
        congr 1
        omega
      · rw [readBlank hs hcell h (Nat.le_refl _) (by omega), Nat.sub_self]
        rfl

end Reading

end Memory

end PostScriptCore
