/-!
# Machine words

Sizes, addresses and entity numbers are natural numbers that have to fit in 32 bits wherever they
are stored.  This file says when they do, how a size is rounded up to a granule, and how a word is
laid out as four bytes, least significant byte first.

* `wordBound` — the first number that is no longer a word.
* `alignUp` — rounding up by clearing the bits below the granule; `none` past the word range.
* `wordBytes`, `wordOfBytes` — the byte layout of a word, inverse to each other on words.
-/

namespace PostScriptCore

/-- The first natural number that does not fit in a 32-bit word. -/
abbrev wordBound : Nat := 4294967296

/-- The granule of every arena allocation, in bytes. -/
abbrev arenaAlign : Nat := 8

/-- The operating system's page size, which every arena page size has to be a multiple of. -/
abbrev osPageSize : Nat := 4096

/-- Rounds `value` up by adding `align - 1` and clearing the bits of `align - 1`.  For a granule
that is a power of two this is the next multiple; for any other granule it is still the bit
operation, and the result is never below `value`. -/
def alignUp (value align : Nat) : Option Nat :=
  let raised := value + (align - 1)
  if raised < wordBound then some (raised - (raised &&& (align - 1))) else none

/-- The four bytes of a word, least significant first. -/
def wordBytes (word : Nat) : List UInt8 :=
  [UInt8.ofNat word, UInt8.ofNat (word / 256), UInt8.ofNat (word / 65536),
    UInt8.ofNat (word / 16777216)]

/-- The word spelled by four bytes, least significant first. -/
def wordOfBytes : List UInt8 → Nat
  | [a, b, c, d] => a.toNat + 256 * b.toNat + 65536 * c.toNat + 16777216 * d.toNat
  | _ => 0

@[simp] theorem length_wordBytes (word : Nat) : (wordBytes word).length = 4 := rfl

/-- Reading back the bytes of a word gives the word. -/
theorem wordOfBytes_wordBytes {word : Nat} (h : word < wordBound) :
    wordOfBytes (wordBytes word) = word := by
  simp only [wordBytes, wordOfBytes, UInt8.toNat_ofNat', wordBound] at *
  omega

/-- Four bytes are the bytes of the word they spell. -/
theorem wordBytes_wordOfBytes (a b c d : UInt8) :
    wordBytes (wordOfBytes [a, b, c, d]) = [a, b, c, d] := by
  have ha := a.toNat_lt
  have hb := b.toNat_lt
  have hc := c.toNat_lt
  have hd := d.toNat_lt
  simp only [wordBytes, wordOfBytes, List.cons.injEq, and_true, ← UInt8.toNat_inj,
    UInt8.toNat_ofNat']
  refine ⟨?_, ?_, ?_, ?_⟩ <;> omega

/-- A machine word that has been stored reads back. -/
theorem ofNat_wordOfBytes_wordBytes (word : UInt32) :
    UInt32.ofNat (wordOfBytes (wordBytes word.toNat)) = word := by
  rw [wordOfBytes_wordBytes word.toNat_lt, UInt32.ofNat_toNat]

/-- Rounding up never goes below the value. -/
theorem le_of_alignUp {value align rounded : Nat} (h : alignUp value align = some rounded) :
    value ≤ rounded := by
  simp only [alignUp] at h
  split at h
  · have : value + (align - 1) &&& (align - 1) ≤ align - 1 := Nat.and_le_right
    injection h with h
    omega
  · contradiction

end PostScriptCore
