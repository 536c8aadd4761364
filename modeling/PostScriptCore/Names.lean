/-!
# Interned names

A name is known by its number.  Numbers are handed out densely, in the order in which texts are
first seen, and never change.  The table is kept twice, once for each direction.

* `Names` — the numbers by text and the texts by number, with the proof that they agree.
* `Names.intern` — the number of a text, entering it with `Names.getOrAdd` if it is new.
* `Names.lookup?`, `Names.resolve?` — between text and number, without entering anything.
-/

namespace PostScriptCore

/-- The name table. -/
structure Names where
  /-- The numbers of the texts. -/
  ids : List (String × Nat)
  /-- The text with number `i` at index `i`. -/
  texts : Array String
  /-- A text has the number under which it is kept, and no other. -/
  agree : ∀ text id, ids.lookup text = some id ↔ texts[id]? = some text

namespace Names

/-- The table without names. -/
def empty : Names := ⟨[], #[], fun _ _ => by simp⟩

/-- How many names there are. -/
def size (names : Names) : Nat := names.texts.size

/-- The number of a text, if it has one. -/
def lookup? (names : Names) (text : String) : Option Nat := names.ids.lookup text

/-- The text with a number. -/
def resolve? (names : Names) (id : Nat) : Option String := names.texts[id]?

/-- A text that has no number yet gets the next one, in both directions. -/
theorem agree_push {names : Names} {text : String} (h : names.ids.lookup text = none) (other : String)
    (id : Nat) :
    ((text, names.texts.size) :: names.ids).lookup other = some id ↔
      (names.texts.push text)[id]? = some other := by
  have hold := names.agree other id
  rw [List.lookup_cons, Array.getElem?_push]
  by_cases hother : other = text
  · -- the new text was found nowhere
    subst hother
    rw [h] at hold
    by_cases hid : id = names.texts.size
    · simp [hid]
    · simpa [hid, Ne.symm hid] using hold
  · have hkey : (other == text) = false := beq_false_of_ne hother
    by_cases hid : id = names.texts.size
    · -- the new number was handed out to nobody
      subst hid
      simpa [hkey, Ne.symm hother] using hold
    · simpa only [hkey, if_neg hid] using hold

/-- The number of a text, entering the text if it has none. -/
def getOrAdd (names : Names) (text : String) : Nat × Names :=
  match h : names.ids.lookup text with
  | some id => (id, names)
  | none =>
    (names.texts.size,
      ⟨(text, names.texts.size) :: names.ids, names.texts.push text, agree_push h⟩)

/-- The number of a text, and the table in which it has that number. -/
def intern (names : Names) (text : String) : Nat × Names :=
  match names.lookup? text with
  | some id => (id, names)
  | none => names.getOrAdd text

end Names

end PostScriptCore
