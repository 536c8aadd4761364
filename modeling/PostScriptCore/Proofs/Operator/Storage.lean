import PostScriptCore.Operator.Table
import PostScriptCore.Proofs.Memory.Packed
import PostScriptCore.Proofs.Memory.SystemStorage
import PostScriptCore.Proofs.Operator.Signature
import Mathlib.Algebra.BigOperators.Fin
import Mathlib.Order.Interval.Finset.Nat

/-!
# How the registry is stored

The registry is a list of names, each with the definitions registered for it.  In storage it is one
system entity with the entries and, for every name that has definitions, one with its signatures.  The
entities lie apart, so that writing into one of them leaves the others alone.

* `Definition`, `Registration`, `Listing` — what is registered.
* `OperatorTable.Stores` — the registry as it lies in storage.
* `OperatorTable.Lists.lookup?_eq_some_iff`, `OperatorTable.Stores.nameOf`,
  `OperatorTable.Stores.signatures` — reading it gives the listings.
* `OperatorTable.Lists.natives_lt` — the natives can be numbered by words, because their signatures
  fit into the arena.
-/

namespace PostScriptCore

/-! ## What is registered -/

/-- What is registered for a name at one time. -/
structure Definition (ν : Type) where
  patterns : List Pattern
  outArity : UInt8
  native : ν
  deriving DecidableEq

/-- A definition with the number of its native. -/
structure Registration (ν : Type) extends Definition ν where
  number : Nat

/-- A name with its definitions in the order of registration. -/
structure Listing (ν : Type) where
  name : Nat
  /-- The entity of the signatures; zero stands for none. -/
  list : Nat
  registrations : List (Registration ν)

variable {ν : Type}

/-- The signature of a definition. -/
def Registration.signature (r : Registration ν) : Signature :=
  Signature.ofPatterns r.patterns r.outArity.toNat r.number

/-- The entry of a name. -/
def Listing.entry (l : Listing ν) : OperatorEntry := ⟨l.name, l.list, l.registrations.length⟩

/-- The signatures of a name. -/
def Listing.signatures (l : Listing ν) : List Signature :=
  l.registrations.map Registration.signature

/-- The definitions of a name, without the numbers of their natives. -/
def Listing.definitions (l : Listing ν) : List (Definition ν) :=
  l.registrations.map Registration.toDefinition

/-- The addresses of a name's signatures. -/
def Listing.span (m : Memory) (l : Listing ν) : Finset Nat :=
  match m.rows[l.list]? with
  | some row => Finset.Ico row.address (row.address + l.registrations.length * signatureSize)
  | none => ∅

namespace OperatorEntry

@[simp] lemma length_encode (e : OperatorEntry) : e.encode.length = entrySize := rfl

lemma decode_encode {e : OperatorEntry} (hname : e.name < wordBound)
    (hsignatures : e.signatures < wordBound) (hcount : e.count < wordBound) :
    decode e.encode = e := by
  obtain ⟨name, signatures, count⟩ := e
  have hwords := wordOfBytes_wordBytes hname
  have hwords' := wordOfBytes_wordBytes hsignatures
  have hwords'' := wordOfBytes_wordBytes hcount
  simp only [decode, encode, mk.injEq]
  exact ⟨hwords, hwords', hwords''⟩

end OperatorEntry

namespace OperatorTable

variable {t : OperatorTable ν} {m n : Memory} {ls : List (Listing ν)}

/-- A system entity begins with the given records. -/
def Begins {α : Type} (m : Memory) (id : Nat) (encode : α → List UInt8) (width : Nat)
    (records : List α) : Prop :=
  ∃ cell, m.cell? id = some cell ∧ cell.tag.kind = .system ∧ Packed encode width records cell.bytes

/-- The entity of the entries holds them. -/
def Enters (t : OperatorTable ν) (m : Memory) (ls : List (Listing ν)) : Prop :=
  Begins m t.entries OperatorEntry.encode entrySize (ls.map Listing.entry)

/-- The count and the opcodes by name are those of the listed names, and the signatures of every name
are in an entity of their own. -/
structure Lists (t : OperatorTable ν) (m : Memory) (ls : List (Listing ν)) : Prop where
  size : t.size = ls.length
  byName : t.byName = (ls.map Listing.name).zipIdx
  nodup : (ls.map Listing.name).Nodup
  word : ∀ l ∈ ls, l.name < wordBound
  begins : ∀ l ∈ ls, l.list ≠ 0 → Begins m l.list Signature.encode signatureSize l.signatures
  empty : ∀ l ∈ ls, l.list = 0 ↔ l.registrations = []
  off_entries : ∀ l ∈ ls, l.list ≠ t.entries
  apart : ∀ (i j : Nat) (l l' : Listing ν), ls[i]? = some l → ls[j]? = some l' → l.list ≠ 0 → l.list = l'.list → i = j
  native : ∀ l ∈ ls, ∀ r ∈ l.registrations,
    r.patterns.length ≤ maxArity ∧ t.natives[r.number]? = some r.native
  total : t.natives.size = (ls.map fun l => l.registrations.length).sum

/-- The registry is stored. -/
structure Stores (t : OperatorTable ν) (m : Memory) (ls : List (Listing ν)) : Prop extends
    Lists t m ls where
  enters : Enters t m ls

/-- The entities that the registry is kept in. -/
def IsPlace (t : OperatorTable ν) (ls : List (Listing ν)) (id : Nat) : Prop :=
  id = t.entries ∨ id ≠ 0 ∧ ∃ l ∈ ls, l.list = id

lemma Stores.system (h : Stores t m ls) {id : Nat} (hid : IsPlace t ls id) :
    ∃ cell, m.cell? id = some cell ∧ cell.tag.kind = .system := by
  rcases hid with rfl | ⟨h0, l, hl, rfl⟩
  · obtain ⟨cell, hcell, hsystem, -⟩ := h.enters
    exact ⟨cell, hcell, hsystem⟩
  · obtain ⟨cell, hcell, hsystem, -⟩ := h.begins l hl h0
    exact ⟨cell, hcell, hsystem⟩

/-- What is stored depends on the entities of the registry only. -/
lemma Stores.congr (h : Stores t m ls) (hcell : ∀ id, IsPlace t ls id → n.cell? id = m.cell? id) :
    Stores t n ls := by
  refine ⟨{ h with begins := fun l hl h0 => ?_ }, ?_⟩
  · rw [Begins, hcell _ (.inr ⟨h0, l, hl, rfl⟩)]
    exact h.begins l hl h0
  · rw [Enters, Begins, hcell _ (.inl rfl)]
    exact h.enters

lemma mem_of_getElem? {i : Nat} {l : Listing ν} (hl : ls[i]? = some l) : l ∈ ls :=
  List.mem_of_getElem? hl

/-! ## Names and opcodes -/

/-- Numbering a list gives every element the place where it stands first. -/
lemma lookup_zipIdx (name : Nat) (names : List Nat) (start : Nat) :
    (names.zipIdx start).lookup name = (names.idxOf? name).map (· + start) := by
  induction names generalizing start with
  | nil => rfl
  | cons first rest ih =>
      rw [List.zipIdx_cons, List.lookup_cons, List.idxOf?_cons, ih]
      by_cases hfirst : first = name
      · simp [hfirst]
      · have hother : (name == first) = false := beq_false_of_ne (Ne.symm hfirst)
        simp [hfirst, hother, Function.comp_def, Nat.add_assoc, Nat.add_comm 1]

/-- Numbering a list gives every number the element that stands there. -/
lemma find?_zipIdx (names : List Nat) (start opcode : Nat) :
    ((names.zipIdx start).find? fun entry => entry.2 == opcode + start).map Prod.fst = names[opcode]? := by
  induction names generalizing start opcode with
  | nil => rfl
  | cons first rest ih =>
      rw [List.zipIdx_cons, List.find?_cons]
      cases opcode with
      | zero => simp
      | succ opcode =>
          have hother : (start == opcode + 1 + start) = false := beq_false_of_ne (by omega)
          rw [hother, List.getElem?_cons_succ, ← ih (start + 1) opcode, Nat.add_right_comm]
          rfl

lemma Lists.lookup?_eq (h : Lists t m ls) (name : Nat) :
    t.lookup? name = (ls.map Listing.name).idxOf? name := by
  rw [lookup?, h.byName, lookup_zipIdx]
  exact Option.map_id'

/-- The name that has an opcode. -/
def name? (t : OperatorTable ν) (opcode : Nat) : Option Nat :=
  (t.byName.find? fun entry => entry.2 == opcode).map Prod.fst

lemma Lists.name?_eq (h : Lists t m ls) (opcode : Nat) :
    t.name? opcode = ls[opcode]?.map Listing.name := by
  rw [name?, h.byName, ← List.getElem?_map]
  exact find?_zipIdx _ 0 opcode

/-- **The opcode of a name is its position.** -/
lemma Lists.lookup?_eq_some_iff (h : Lists t m ls) {name opcode : Nat} :
    t.lookup? name = some opcode ↔ ∃ l, ls[opcode]? = some l ∧ l.name = name := by
  rw [h.lookup?_eq, List.idxOf?_eq_some_iff]
  constructor
  · rintro ⟨hlt, hname, -⟩
    rw [List.length_map] at hlt
    exact ⟨ls[opcode], List.getElem?_eq_getElem hlt, by simpa using hname⟩
  · rintro ⟨l, hl, rfl⟩
    obtain ⟨hlt, rfl⟩ := List.getElem?_eq_some_iff.mp hl
    refine ⟨by simpa using hlt, by simp, fun j hj he => ?_⟩
    have hopcode : opcode < (ls.map Listing.name).length := by simpa using hlt
    have hbefore : j < (ls.map Listing.name).length := hj.trans hopcode
    have hsame : (ls.map Listing.name)[j] = (ls.map Listing.name)[opcode] :=
      he.trans (List.getElem_map _).symm
    exact absurd (h.nodup.getElem_inj_iff.mp hsame) hj.ne

lemma Lists.lookup?_eq_none_iff (h : Lists t m ls) {name : Nat} :
    t.lookup? name = none ↔ name ∉ ls.map Listing.name := by
  rw [h.lookup?_eq, List.idxOf?_eq_none_iff]

/-- **Names and opcodes are in step**: a name has the opcode that has the name. -/
lemma Lists.name?_eq_some_iff (h : Lists t m ls) {name opcode : Nat} :
    t.name? opcode = some name ↔ t.lookup? name = some opcode := by
  rw [h.name?_eq, h.lookup?_eq_some_iff, Option.map_eq_some_iff]

/-! ## Counting -/

lemma Begins.length_le {α : Type} {id : Nat} {encode : α → List UInt8} {width : Nat}
    {records : List α} (h : Begins m id encode width records) :
    ∃ row, id ≠ 0 ∧ m.rows[id]? = some row ∧ records.length * width ≤ row.size := by
  obtain ⟨cell, hcell, -, hpacked⟩ := h
  obtain ⟨row, hid, hrow, -, hsize, -⟩ := Memory.row_of_cell hcell
  exact ⟨row, hid, hrow, hsize ▸ hpacked.length_le⟩

lemma Lists.mem_span (h : Lists t m ls) {l : Listing ν} (hl : l ∈ ls) {a : Nat}
    (ha : a ∈ l.span m) :
    ∃ row, l.list ≠ 0 ∧ m.rows[l.list]? = some row ∧ row.address ≤ a ∧
      a < row.address + row.size := by
  rw [Listing.span] at ha
  split at ha
  · next row hrow =>
    rw [Finset.mem_Ico] at ha
    by_cases h0 : l.list = 0
    · rw [(h.empty l hl).mp h0] at ha
      simp only [List.length_nil, Nat.zero_mul] at ha
      omega
    · obtain ⟨row', -, hrow', hle⟩ := (h.begins l hl h0).length_le
      obtain rfl := Option.some.inj (hrow.symm.trans hrow')
      rw [Listing.signatures, List.length_map] at hle
      exact ⟨row, h0, hrow, ha.1, by omega⟩
  · simp at ha

lemma Lists.card_span (h : Lists t m ls) {l : Listing ν} (hl : l ∈ ls) :
    (l.span m).card = l.registrations.length * signatureSize := by
  rw [Listing.span]
  split
  · rw [Nat.card_Ico]
    omega
  · next hnone =>
    by_cases h0 : l.list = 0
    · rw [(h.empty l hl).mp h0]
      rfl
    · obtain ⟨row, -, hrow, -⟩ := (h.begins l hl h0).length_le
      rw [hrow] at hnone
      contradiction

/-- **The natives can be numbered by words.**  Every native has a signature of its own, and all
signatures together fit into the arena. -/
lemma Lists.natives_lt (h : Lists t m ls) (hs : m.Sound) : t.natives.size < wordBound := by
  have hmem : ∀ i : Fin ls.length, ls[i.1] ∈ ls := fun i => List.getElem_mem i.2
  have hdisjoint : ((Finset.univ : Finset (Fin ls.length)) : Set (Fin ls.length)).PairwiseDisjoint
      fun i => ls[i.1].span m := by
    intro i _ j _ hij
    refine Finset.disjoint_left.mpr fun a hi hj => ?_
    obtain ⟨row, h0, hrow, hle, hlt⟩ := h.mem_span (hmem i) hi
    obtain ⟨row', h0', hrow', hle', hlt'⟩ := h.mem_span (hmem j) hj
    have hne : ls[i.1].list ≠ ls[j.1].list := fun he =>
      hij (Fin.ext (h.apart i j _ _ (List.getElem?_eq_getElem i.2) (List.getElem?_eq_getElem j.2)
        h0 he))
    have := hs.disjoint h0 h0' hne hrow hrow' (by omega) (by omega)
    omega
  have hwithin : (Finset.univ.biUnion fun i : Fin ls.length => ls[i.1].span m) ⊆
      Finset.range m.arena.used := by
    intro a ha
    obtain ⟨i, -, hi⟩ := Finset.mem_biUnion.mp ha
    obtain ⟨row, h0, hrow, -, hlt⟩ := h.mem_span (hmem i) hi
    have := (hs.fits h0 hrow).2.2
    rw [Finset.mem_range]
    omega
  have hcount : t.natives.size * signatureSize ≤ m.arena.used := by
    calc t.natives.size * signatureSize
        = ∑ i : Fin ls.length, ls[i.1].registrations.length * signatureSize := by
          rw [h.total, ← Finset.sum_mul,
            Fin.sum_univ_fun_getElem ls fun l => l.registrations.length]
      _ = ∑ i : Fin ls.length, (ls[i.1].span m).card :=
          Finset.sum_congr rfl fun i _ => (h.card_span (hmem i)).symm
      _ = (Finset.univ.biUnion fun i : Fin ls.length => ls[i.1].span m).card :=
          (Finset.card_biUnion hdisjoint).symm
      _ ≤ (Finset.range m.arena.used).card := Finset.card_le_card hwithin
      _ = m.arena.used := Finset.card_range _
  have hused := hs.arena.used_lt
  rw [signatureSize] at hcount
  omega

/-- **Opcodes are words.**  The entries fit into the arena. -/
lemma Stores.size_lt (h : Stores t m ls) (hs : m.Sound) : t.size < wordBound := by
  obtain ⟨row, h0, hrow, hle⟩ := h.enters.length_le
  have hfits := (hs.fits h0 hrow).2.2
  have hused := hs.arena.used_lt
  rw [List.length_map, entrySize] at hle
  rw [h.size]
  omega

/-! ## Reading -/

lemma Begins.bytesAt {α : Type} {id : Nat} {encode : α → List UInt8} {width : Nat}
    {records : List α} (h : Begins m id encode width records) (hs : m.Sound) {i : Nat} {x : α}
    (hx : records[i]? = some x) : m.bytesAt id (i * width) width = .ok (encode x) := by
  obtain ⟨cell, hcell, -, hpacked⟩ := h
  obtain ⟨hroom, hread⟩ := hpacked i x hx
  rw [Memory.bytesAt_cell hs hcell, if_pos (Nat.succ_mul i width ▸ hroom), hread]

lemma Lists.storable (h : Lists t m ls) (hs : m.Sound) {l : Listing ν} (hl : l ∈ ls)
    {s : Signature} (hmem : s ∈ l.signatures) : s.Storable := by
  obtain ⟨r, hr, rfl⟩ := List.mem_map.mp hmem
  obtain ⟨hlength, hnative⟩ := h.native l hl r hr
  refine Signature.storable_ofPatterns hlength ?_
  obtain ⟨hlt, -⟩ := Array.getElem?_eq_some_iff.mp hnative
  exact Nat.lt_trans hlt (h.natives_lt hs)

lemma Lists.length_lt (h : Lists t m ls) (hs : m.Sound) {l : Listing ν} (hl : l ∈ ls) :
    l.registrations.length < wordBound := by
  refine Nat.lt_of_le_of_lt ?_ (h.natives_lt hs)
  rw [h.total]
  exact List.le_sum_of_mem (List.mem_map.mpr ⟨l, hl, rfl⟩)

lemma Lists.list_lt (h : Lists t m ls) (hm : m.entityCount ≤ wordBound) {l : Listing ν}
    (hl : l ∈ ls) : l.list < wordBound := by
  by_cases h0 : l.list = 0
  · rw [h0]
    decide
  · obtain ⟨row, -, hrow, -⟩ := (h.begins l hl h0).length_le
    exact Nat.lt_of_lt_of_le (Memory.row_lt hrow) hm

/-- **The entry of an opcode** is the one of its name. -/
lemma Stores.entry (h : Stores t m ls) (hs : m.Sound) (hm : m.entityCount ≤ wordBound)
    {opcode : Nat} {l : Listing ν} (hl : ls[opcode]? = some l) :
    t.entry m opcode = .ok l.entry := by
  have hmem := mem_of_getElem? hl
  obtain ⟨hlt, -⟩ := List.getElem?_eq_some_iff.mp hl
  have hx : (ls.map Listing.entry)[opcode]? = some l.entry := by rw [List.getElem?_map, hl]; rfl
  have hread : m.bytesAt t.entries (opcode * entrySize) entrySize = .ok l.entry.encode :=
    Begins.bytesAt h.enters hs hx
  rw [OperatorTable.entry, if_pos (h.size ▸ hlt), hread]
  exact congrArg Except.ok
    (OperatorEntry.decode_encode (h.word l hmem) (h.list_lt hm hmem) (h.length_lt hs hmem))

lemma Stores.nameOf (h : Stores t m ls) (hs : m.Sound) (hm : m.entityCount ≤ wordBound)
    {opcode : Nat} {l : Listing ν} (hl : ls[opcode]? = some l) :
    t.nameOf m opcode = .ok l.name := by
  rw [OperatorTable.nameOf, h.entry hs hm hl, Listing.entry]

lemma signatureAt_of_begins (hs : m.Sound) {list : Nat} {signatures : List Signature}
    (h : Begins m list Signature.encode signatureSize signatures)
    (hstorable : ∀ s ∈ signatures, s.Storable) {i : Nat} {s : Signature}
    (hi : signatures[i]? = some s) : signatureAt m list i = .ok s := by
  rw [signatureAt, h.bytesAt hs hi]
  exact congrArg Except.ok (Signature.decode_encode (hstorable s (List.mem_of_getElem? hi)))

lemma signaturesFrom_of_begins (hs : m.Sound) {list : Nat} {signatures : List Signature}
    (h : Begins m list Signature.encode signatureSize signatures)
    (hstorable : ∀ s ∈ signatures, s.Storable) (count index : Nat)
    (hlength : signatures.length = index + count) :
    signaturesFrom m list count index = .ok (signatures.drop index) := by
  induction count generalizing index with
  | zero => rw [signaturesFrom, List.drop_eq_nil_of_le (by omega)]
  | succ count ih =>
      have hi : signatures[index]? = some signatures[index] := List.getElem?_eq_getElem (by omega)
      rw [signaturesFrom, signatureAt_of_begins hs h hstorable hi, ih (index + 1) (by omega)]
      exact congrArg Except.ok (List.drop_eq_getElem_cons (by omega)).symm

/-- **The signatures of an opcode** are those of its name, in the order of registration. -/
lemma Stores.signatures (h : Stores t m ls) (hs : m.Sound) (hm : m.entityCount ≤ wordBound)
    {opcode : Nat} {l : Listing ν} (hl : ls[opcode]? = some l) :
    t.signatures m opcode = .ok l.signatures := by
  have hmem := mem_of_getElem? hl
  rw [OperatorTable.signatures, h.entry hs hm hl]
  by_cases h0 : l.list = 0
  · have hnone := (h.empty l hmem).mp h0
    rw [Listing.entry, Listing.signatures, hnone]
    rfl
  · exact signaturesFrom_of_begins hs (h.begins l hmem h0) (fun s => h.storable hs hmem) _ 0
      (by rw [Listing.signatures, List.length_map, Listing.entry, Nat.zero_add])

lemma Stores.listing_of_signatures (h : Stores t m ls) (hs : m.Sound)
    (hm : m.entityCount ≤ wordBound) {opcode : Nat} {signatures : List Signature}
    (hread : t.signatures m opcode = .ok signatures) :
    ∃ l, ls[opcode]? = some l ∧ signatures = l.signatures := by
  cases hl : ls[opcode]? with
  | some l => exact ⟨l, rfl, Except.ok.inj (hread.symm.trans (h.signatures hs hm hl))⟩
  | none =>
      have hsize : ¬ opcode < t.size := by
        rw [h.size]
        exact Nat.not_lt_of_le (List.getElem?_eq_none_iff.mp hl)
      rw [OperatorTable.signatures, OperatorTable.entry, if_neg hsize] at hread
      contradiction

end OperatorTable

end PostScriptCore
