import PostScriptCore.Names
import PostScriptCore.Word
import Mathlib.Data.Finset.Card
import Mathlib.Tactic.Lemma

/-!
# Interning

All clones of a name table work on one table.  A call looks its text up under the read lock; if the text is not
there, the call goes on under the write lock, where it looks again, because another clone may have entered the
text in the meantime.  Between the two a call holds no lock.

**The table.**  The two directions agree by construction, so everything follows from the number that
`Names.getOrAdd` hands out: a known text keeps its number, and a new one gets the next (`Names.getOrAdd_of_known`,
`Names.getOrAdd_of_new`).

**Clones.**  `Names.Shared.visit` is one stay under a lock, and a run is any interleaving of such stays.
`Names.Shared.Orderly` says what holds at any time of the table and of the calls that have returned;
`Names.Extends` says what an earlier table has to do with a later one.  Both hold of one visit and, by induction,
of a run.  Whole calls in sequence are the runs in which nothing comes between the visits of a call
(`Names.Shared.run_wholeCalls`).
-/

namespace PostScriptCore.Names

/-! ## The table -/

section Table

variable {names : Names} {text : String} {id : Nat}

lemma lookup?_eq_some_iff : names.lookup? text = some id ↔ names.resolve? id = some text :=
  names.agree text id

lemma resolve?_eq_none_iff : names.resolve? id = none ↔ names.size ≤ id := Array.getElem?_eq_none_iff

lemma lookup?_lt (h : names.lookup? text = some id) : id < names.size :=
  (Array.getElem?_eq_some_iff.mp (lookup?_eq_some_iff.mp h)).1

lemma getOrAdd_of_known (h : names.lookup? text = some id) : names.getOrAdd text = (id, names) := by
  rw [lookup?] at h
  rw [getOrAdd]
  split
  · next hid => rw [Option.some.inj (hid.symm.trans h)]
  · next hnone => exact absurd (hnone.symm.trans h) nofun

lemma getOrAdd_of_new (h : names.lookup? text = none) :
    (names.getOrAdd text).1 = names.size ∧ (names.getOrAdd text).2.texts = names.texts.push text := by
  rw [lookup?] at h
  rw [getOrAdd]
  split
  · next hid => exact absurd (hid.symm.trans h) nofun
  · exact ⟨rfl, rfl⟩

/-- Looking twice is no different from looking once. -/
lemma intern_eq_getOrAdd (names : Names) (text : String) : names.intern text = names.getOrAdd text := by
  rw [intern]
  split
  · next id hid => exact (getOrAdd_of_known hid).symm
  · rfl

/-- In the table after `getOrAdd` the text has the number that was handed out. -/
lemma resolve?_getOrAdd (names : Names) (text : String) :
    (names.getOrAdd text).2.resolve? (names.getOrAdd text).1 = some text := by
  cases h : names.lookup? text with
  | some id =>
      rw [getOrAdd_of_known h]
      exact lookup?_eq_some_iff.mp h
  | none =>
      obtain ⟨hid, htexts⟩ := getOrAdd_of_new h
      rw [resolve?, hid, htexts, size, Array.getElem?_push_size]

lemma resolve?_intern (names : Names) (text : String) :
    (names.intern text).2.resolve? (names.intern text).1 = some text := by
  rw [intern_eq_getOrAdd]
  exact resolve?_getOrAdd names text

lemma intern_bounds (names : Names) (text : String) :
    (names.intern text).1 ≤ names.size ∧ (names.intern text).2.size ≤ names.size + 1 := by
  rw [intern_eq_getOrAdd]
  cases h : names.lookup? text with
  | some id =>
      rw [getOrAdd_of_known h]
      exact ⟨Nat.le_of_lt (lookup?_lt h), Nat.le_succ _⟩
  | none =>
      obtain ⟨hid, htexts⟩ := getOrAdd_of_new h
      refine ⟨Nat.le_of_eq hid, ?_⟩
      rw [size, htexts, Array.size_push, size]

/-- The second table resolves every number that the first one resolves, to the same text. -/
def Extends (names later : Names) : Prop :=
  ∀ id text, names.resolve? id = some text → later.resolve? id = some text

lemma Extends.refl (names : Names) : names.Extends names := fun _ _ h => h

lemma Extends.trans {names later last : Names} (h : names.Extends later) (h' : later.Extends last) :
    names.Extends last := fun id text htext => h' id text (h id text htext)

lemma Extends.lookup? {later : Names} (h : names.Extends later) (htext : names.lookup? text = some id) :
    later.lookup? text = some id :=
  lookup?_eq_some_iff.mpr (h id text (lookup?_eq_some_iff.mp htext))

lemma extends_getOrAdd (names : Names) (text : String) : names.Extends (names.getOrAdd text).2 := by
  intro id other hother
  cases h : names.lookup? text with
  | some known => rwa [getOrAdd_of_known h]
  | none =>
      have hlt : id < names.texts.size := (Array.getElem?_eq_some_iff.mp hother).1
      rw [resolve?, (getOrAdd_of_new h).2, Array.getElem?_push, if_neg (Nat.ne_of_lt hlt)]
      exact hother

/-- After `getOrAdd` the known texts are the old ones and the one it was asked for. -/
lemma lookup?_getOrAdd_iff {other : String} :
    (names.getOrAdd text).2.lookup? other = some id ↔
      names.lookup? other = some id ∨ (other, id) = (text, (names.getOrAdd text).1) := by
  constructor
  · intro h
    cases hknown : names.lookup? text with
    | some known =>
        rw [getOrAdd_of_known hknown] at h
        exact .inl h
    | none =>
        obtain ⟨hid, htexts⟩ := getOrAdd_of_new hknown
        rw [lookup?_eq_some_iff, resolve?, htexts, Array.getElem?_push] at h
        rw [hid]
        split at h
        · next he => exact .inr (by rw [he, Option.some.inj h]; rfl)
        · exact .inl (lookup?_eq_some_iff.mpr h)
  · rintro (h | h)
    · exact (extends_getOrAdd names text).lookup? h
    · obtain ⟨rfl, rfl⟩ := Prod.mk.inj h
      exact lookup?_eq_some_iff.mpr (resolve?_getOrAdd names _)

end Table

/-! ## Clones -/

/-- What a clone does in one stay under the lock. -/
inductive Visit
  /-- A call begins: the text is looked up under the read lock. -/
  | look (clone : Nat) (text : String)
  /-- A call that did not find its text goes on under the write lock. -/
  | add (clone : Nat)

/-- A table and the calls of its clones. -/
structure Shared where
  names : Names
  /-- The text that a clone did not find and has not added yet. -/
  missed : Nat → Option String
  /-- The calls that have returned, in order: what was interned and the number that was handed out. -/
  returned : List (String × Nat)

namespace Shared

/-- A new table, of which any number of clones may be made. -/
def fresh : Shared := ⟨empty, fun _ => none, []⟩

/-- One stay under the lock.  A clone makes one call at a time. -/
def visit (s : Shared) : Visit → Shared
  | .look clone text =>
    match s.missed clone with
    | some _ => s
    | none =>
      match s.names.lookup? text with
      | some id => { s with returned := s.returned ++ [(text, id)] }
      | none => { s with missed := Function.update s.missed clone (some text) }
  | .add clone =>
    match s.missed clone with
    | none => s
    | some text =>
      { names := (s.names.getOrAdd text).2
        missed := Function.update s.missed clone none
        returned := s.returned ++ [(text, (s.names.getOrAdd text).1)] }

/-- Any interleaving of calls. -/
def run (s : Shared) (visits : List Visit) : Shared := visits.foldl visit s

/-- The two visits of a call. -/
def wholeCall (clone : Nat) (text : String) : List Visit := [.look clone text, .add clone]

/-- A call as one step. -/
def intern (s : Shared) (text : String) : Shared :=
  { s with
    names := (s.names.intern text).2
    returned := s.returned ++ [(text, (s.names.intern text).1)] }

/-- The texts that have been interned, with repetitions. -/
def interned (s : Shared) : List String := s.returned.map Prod.fst

variable {s : Shared}

lemma run_append (s : Shared) (visits later : List Visit) : s.run (visits ++ later) = (s.run visits).run later :=
  List.foldl_append

/-- A call that is not interrupted is one step. -/
lemma run_wholeCall {clone : Nat} (h : s.missed clone = none) (text : String) :
    s.run (wholeCall clone text) = s.intern text := by
  have hlook : s.run (wholeCall clone text) = (s.visit (.look clone text)).visit (.add clone) := rfl
  rw [hlook, visit, h]
  cases hknown : s.names.lookup? text with
  | some id =>
      simp only [visit, h, intern, Names.intern, hknown]
  | none =>
      have hcleared : Function.update (Function.update s.missed clone (some text)) clone none = s.missed := by
        rw [Function.update_idem, ← h, Function.update_eq_self]
      simp only [visit, Function.update_self, hcleared, intern, Names.intern, hknown]

/-- **Whole calls in sequence** are a run, whatever clones they are made through, and each of them returns. -/
lemma run_wholeCalls (calls : List (Nat × String)) (h : ∀ clone, s.missed clone = none) :
    s.run (calls.flatMap fun call => wholeCall call.1 call.2) =
        (calls.map Prod.snd).foldl intern s ∧
      ((calls.map Prod.snd).foldl intern s).interned = s.interned ++ calls.map Prod.snd := by
  induction calls generalizing s with
  | nil => exact ⟨rfl, (List.append_nil _).symm⟩
  | cons call rest ih =>
      obtain ⟨hrun, hreturned⟩ := ih (s := s.intern call.2) h
      rw [List.flatMap_cons, run_append, run_wholeCall (h call.1), List.map_cons, List.foldl_cons, hrun, hreturned]
      refine ⟨rfl, ?_⟩
      simp only [interned, intern, List.map_append, List.map_cons, List.map_nil, List.append_assoc,
        List.cons_append, List.nil_append]

/-! ## What holds at any time -/

/-- Each call has returned the number that an earlier call returned for the same text, or the next number if
there was none; and the table knows exactly what was returned. -/
structure Orderly (s : Shared) : Prop where
  handed : ∀ (before after : List (String × Nat)) (text : String) (id : Nat),
    s.returned = before ++ (text, id) :: after →
      if text ∈ before.map Prod.fst then (text, id) ∈ before else id = (before.map Prod.fst).toFinset.card
  size : s.names.size = s.interned.toFinset.card
  known : ∀ (text : String) (id : Nat), s.names.lookup? text = some id ↔ (text, id) ∈ s.returned

lemma orderly_fresh : fresh.Orderly where
  handed := by
    intro before after text id h
    simp [fresh] at h
  size := rfl
  known := by
    intro text id
    simp [fresh, lookup?, empty]

/-- A call that returns a number of the table, the next one if its text is new, keeps everything in order. -/
lemma Orderly.returns (h : s.Orderly) (text : String) (missed : Nat → Option String) :
    Orderly ⟨(s.names.getOrAdd text).2, missed, s.returned ++ [(text, (s.names.getOrAdd text).1)]⟩ := by
  have hinterned : text ∈ s.interned ↔ ∃ id, s.names.lookup? text = some id := by
    simp [interned, h.known]
  have hnew (hmem : text ∉ s.interned) : s.names.lookup? text = none := by
    rw [Option.eq_none_iff_forall_ne_some]
    exact fun id hid => hmem (hinterned.mpr ⟨id, hid⟩)
  refine ⟨?_, ?_, ?_⟩
  · intro before after other id hsplit
    rcases List.eq_nil_or_concat after with rfl | ⟨earlier, last, rfl⟩
    · -- the call in question is the new one
      obtain ⟨rfl, hlast⟩ := List.append_inj' hsplit rfl
      obtain ⟨rfl, rfl⟩ := Prod.mk.inj (List.singleton_inj.mp hlast)
      split
      · next hmem =>
        obtain ⟨id, hid⟩ := hinterned.mp hmem
        rw [getOrAdd_of_known hid]
        exact (h.known _ _).mp hid
      · next hmem =>
        rw [(getOrAdd_of_new (hnew hmem)).1]
        exact h.size
    · rw [List.concat_eq_append, ← List.cons_append, ← List.append_assoc] at hsplit
      exact h.handed before earlier other id (List.append_inj' hsplit rfl).1
  · have hinsert : (interned ⟨(s.names.getOrAdd text).2, missed,
        s.returned ++ [(text, (s.names.getOrAdd text).1)]⟩).toFinset = insert text s.interned.toFinset := by
      rw [interned, List.map_append, List.toFinset_append, Finset.union_comm]
      rfl
    rw [hinsert]
    by_cases hmem : text ∈ s.interned
    · obtain ⟨id, hid⟩ := hinterned.mp hmem
      rw [getOrAdd_of_known hid, h.size, Finset.insert_eq_of_mem (List.mem_toFinset.mpr hmem)]
    · have hsize : (s.names.getOrAdd text).2.size = s.names.size + 1 := by
        rw [Names.size, (getOrAdd_of_new (hnew hmem)).2, Array.size_push, Names.size]
      rw [hsize, h.size, Finset.card_insert_of_notMem (by rwa [List.mem_toFinset])]
  · intro other id
    show (s.names.getOrAdd text).2.lookup? other = some id ↔ _
    rw [lookup?_getOrAdd_iff, h.known, List.mem_append, List.mem_singleton]

lemma Orderly.visit (h : s.Orderly) (v : Visit) : (s.visit v).Orderly := by
  cases v with
  | look clone text =>
      rw [Shared.visit]
      cases s.missed clone with
      | some waiting => exact h
      | none =>
          dsimp only
          cases hknown : s.names.lookup? text with
          | some id =>
              have hreturns := h.returns text s.missed
              rwa [getOrAdd_of_known hknown] at hreturns
          | none => exact ⟨h.handed, h.size, h.known⟩
  | add clone =>
      rw [Shared.visit]
      cases s.missed clone with
      | none => exact h
      | some text => exact h.returns text _

lemma Orderly.run (h : s.Orderly) (visits : List Visit) : (s.run visits).Orderly := by
  induction visits generalizing s with
  | nil => exact h
  | cons v rest ih => exact ih (h.visit v)

lemma extends_visit (s : Shared) (v : Visit) : s.names.Extends (s.visit v).names := by
  cases v with
  | look clone text =>
      rw [Shared.visit]
      split
      · exact .refl _
      · split <;> exact .refl _
  | add clone =>
      rw [Shared.visit]
      split
      · exact .refl _
      · exact extends_getOrAdd _ _

lemma extends_run (s : Shared) (visits : List Visit) : s.names.Extends (s.run visits).names := by
  induction visits generalizing s with
  | nil => exact .refl _
  | cons v rest ih => exact (extends_visit s v).trans (ih (s.visit v))

/-- **Interning is a growing bijection.**  However calls through clones of one table are interleaved, each call
returns the number that the first call with its text returned, and first calls are numbered densely in the order
in which they return.  The table knows exactly these numbers, in both directions: a number is resolved if it is
below the size, different texts have different numbers, and what is known at one time is known in the same way at
any later time.  While there are fewer texts than words, every number is a word.  Calls that follow each other
are one such interleaving, and each of them returns. -/
theorem interning_is_a_growing_bijection (visits later : List Visit) :
    let s := fresh.run visits
    (∀ (before after : List (String × Nat)) (text : String) (id : Nat), s.returned = before ++ (text, id) :: after →
      if text ∈ before.map Prod.fst then (text, id) ∈ before else id = (before.map Prod.fst).toFinset.card) ∧
    s.names.size = s.interned.toFinset.card ∧
    (∀ id, s.names.resolve? id = none ↔ s.names.size ≤ id) ∧
    (∀ text id, s.names.lookup? text = some id ↔ (text, id) ∈ s.returned) ∧
    (∀ text id, s.names.lookup? text = some id ↔ s.names.resolve? id = some text) ∧
    (∀ text id text' id', (text, id) ∈ s.returned → (text', id') ∈ s.returned → (id = id' ↔ text = text')) ∧
    (∀ text id, s.names.lookup? text = some id →
      (s.run later).names.lookup? text = some id ∧ (s.run later).names.resolve? id = some text) ∧
    (s.names.size < wordBound → ∀ text id, (text, id) ∈ s.returned → (UInt32.ofNat id).toNat = id) ∧
    ∀ calls : List (Nat × String),
      fresh.run (calls.flatMap fun call => wholeCall call.1 call.2) = (calls.map Prod.snd).foldl intern fresh ∧
        ((calls.map Prod.snd).foldl intern fresh).interned = calls.map Prod.snd := by
  intro s
  have horderly : s.Orderly := orderly_fresh.run visits
  refine ⟨horderly.handed, horderly.size, fun id => resolve?_eq_none_iff, horderly.known,
    fun text id => lookup?_eq_some_iff, ?_, ?_, ?_, fun calls => run_wholeCalls calls fun _ => rfl⟩
  · intro text id text' id' h h'
    rw [← horderly.known] at h h'
    constructor
    · rintro rfl
      exact Option.some.inj ((lookup?_eq_some_iff.mp h).symm.trans (lookup?_eq_some_iff.mp h'))
    · rintro rfl
      exact Option.some.inj (h.symm.trans h')
  · intro text id h
    have hlater := (extends_run s later).lookup? h
    exact ⟨hlater, lookup?_eq_some_iff.mp hlater⟩
  · intro hsize text id h
    have hlt := lookup?_lt ((horderly.known text id).mpr h)
    exact UInt32.toNat_ofNat_of_lt' (Nat.lt_trans hlt hsize)

/-- Two clones miss the same text before either of them adds it: both calls return the same number, and so does a
third one that comes later. -/
theorem interning_is_a_growing_bijection_race :
    (fresh.run [.look 0 "add", .look 1 "add", .add 1, .look 2 "sub", .add 0, .add 2]).returned =
        [("add", 0), ("add", 0), ("sub", 1)] ∧
      (fresh.run [.look 0 "add", .look 1 "add", .add 1, .look 2 "sub", .add 0, .add 2]).names.size = 2 ∧
      ((fresh.run [.look 0 "add", .look 1 "add", .add 1, .look 2 "sub", .add 0, .add 2]).run
        (wholeCall 1 "mul")).names.lookup? "sub" = some 1 := by
  obtain ⟨-, hsize, -, hknown, -, -, hlater, -⟩ := interning_is_a_growing_bijection
    [.look 0 "add", .look 1 "add", .add 1, .look 2 "sub", .add 0, .add 2] (wholeCall 1 "mul")
  have hreturned : (fresh.run [.look 0 "add", .look 1 "add", .add 1, .look 2 "sub", .add 0, .add 2]).returned =
      [("add", 0), ("add", 0), ("sub", 1)] := by decide +kernel
  refine ⟨hreturned, ?_, (hlater "sub" 1 ((hknown _ _).mpr ?_)).1⟩
  · rw [hsize, interned, hreturned]
    decide +kernel
  · rw [hreturned]
    simp

end Shared

end PostScriptCore.Names
