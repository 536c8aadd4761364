/-!
# Binary floating point, exactly

A real object holds the bits of a 32-bit binary floating-point number, and arithmetic passes through
the 64-bit layout.  Both layouts are instances of one `Layout`; values are exact dyadic numbers
`± significand * 2 ^ exponent`, and rounding is done on natural numbers.

* `Layout.decode`, `Layout.encode` — bits to value and back.
* `Layout.round` — the nearest value of the layout, a tie going to the even significand.
* `Datum.add`, `Datum.mul` — exact sums and products; `none` where no value is defined.
-/

namespace PostScriptCore.Real

/-- The power `2 ^ n`. -/
abbrev twoPow (n : Nat) : Nat := Nat.pow 2 n

/-- The widths of the fields of a binary floating-point number. -/
structure Layout where
  fractionBits : Nat
  exponentBits : Nat

/-- The 32-bit layout. -/
def single : Layout := ⟨23, 8⟩

/-- The 64-bit layout. -/
def double : Layout := ⟨52, 11⟩

/-- What a bit pattern denotes. -/
inductive Datum
  | nan
  | infinite (negative : Bool)
  /-- The number `± significand * 2 ^ exponent`. -/
  | finite (negative : Bool) (significand : Nat) (exponent : Int)

namespace Layout

/-- What is added to an exponent before it is stored. -/
def bias (l : Layout) : Nat := twoPow (l.exponentBits - 1) - 1

/-- The exponent of the least positive number. -/
def minExponent (l : Layout) : Int := 1 - (l.bias : Int) - (l.fractionBits : Int)

/-- The exponent of a unit in the last place of the largest finite numbers. -/
def maxExponent (l : Layout) : Int := (l.bias : Int) - (l.fractionBits : Int)

/-- The stored exponent that is reserved for infinities and NaN. -/
def reservedExponent (l : Layout) : Nat := twoPow l.exponentBits - 1

/-- What a bit pattern denotes. -/
def decode (l : Layout) (bits : Nat) : Datum :=
  let fraction := bits % twoPow l.fractionBits
  let stored := bits / twoPow l.fractionBits % twoPow l.exponentBits
  let negative := decide (bits / twoPow (l.fractionBits + l.exponentBits) % 2 = 1)
  if stored = l.reservedExponent then
    if fraction = 0 then .infinite negative else .nan
  else if stored = 0 then .finite negative fraction l.minExponent
  else .finite negative (fraction + twoPow l.fractionBits) ((stored : Int) - 1 + l.minExponent)

/-- The sign bit in its place. -/
def signBit (l : Layout) (negative : Bool) : Nat :=
  if negative then twoPow (l.fractionBits + l.exponentBits) else 0

/-- The bits of a value that `round` has produced.  A NaN is written with its sign and its first
fraction bit set. -/
def encode (l : Layout) : Datum → Nat
  | .nan =>
    l.signBit true + l.reservedExponent * twoPow l.fractionBits + twoPow (l.fractionBits - 1)
  | .infinite negative => l.signBit negative + l.reservedExponent * twoPow l.fractionBits
  | .finite negative significand exponent =>
    if significand < twoPow l.fractionBits then l.signBit negative + significand
    else
      l.signBit negative + (exponent - l.minExponent + 1).toNat * twoPow l.fractionBits +
        (significand - twoPow l.fractionBits)

/-- `significand / 2 ^ shift` to the nearest integer, a tie going to the even one. -/
def roundShift (significand shift : Nat) : Nat :=
  let quotient := significand / twoPow shift
  let doubled := 2 * (significand % twoPow shift)
  if doubled < twoPow shift then quotient
  else if twoPow shift < doubled then quotient + 1
  else quotient + quotient % 2

/-- The exponent of a unit in the last place of numbers below `2 ^ bound`. -/
def unitOf (l : Layout) (bound : Int) : Int :=
  let unit := bound - ((l.fractionBits : Int) + 1)
  if unit < l.minExponent then l.minExponent else unit

/-- The value of the layout nearest to `± significand * 2 ^ exponent`.  What rounds past the
largest finite number is infinite. -/
def round (l : Layout) (negative : Bool) (significand : Nat) (exponent : Int) : Datum :=
  if significand = 0 then .finite negative 0 l.minExponent
  else
    let width : Int := Nat.log2 significand + 1
    let unit := l.unitOf (exponent + width)
    let scaled :=
      if unit ≤ exponent then significand * twoPow (exponent - unit).toNat
      else roundShift significand (unit - exponent).toNat
    let carried := scaled = twoPow (l.fractionBits + 1)
    let unit := if carried then unit + 1 else unit
    let scaled := if carried then scaled / 2 else scaled
    if l.maxExponent < unit then .infinite negative else .finite negative scaled unit

/-- Rounds a value into the layout. -/
def narrow (l : Layout) : Datum → Datum
  | .finite negative significand exponent => l.round negative significand exponent
  | special => special

end Layout

namespace Datum

/-- The whole number as an exact value. -/
def ofInt (z : Int) : Datum := .finite (decide (z < 0)) z.natAbs 0

/-- The value with the opposite sign. -/
def neg : Datum → Datum
  | .nan => .nan
  | .infinite negative => .infinite (!negative)
  | .finite negative significand exponent => .finite (!negative) significand exponent

/-- The significand with its sign. -/
def signed (negative : Bool) (significand : Nat) : Int :=
  if negative then -(significand : Int) else significand

/-- The exact sum.  A sum that is zero is negative only if both summands are. -/
def add : Datum → Datum → Option Datum
  | .nan, _ | _, .nan => none
  | .infinite a, .infinite b => if a = b then some (.infinite a) else none
  | .infinite a, .finite .. => some (.infinite a)
  | .finite .., .infinite b => some (.infinite b)
  | .finite a m e, .finite b n f =>
    let unit := if e ≤ f then e else f
    let sum := signed a (m * twoPow (e - unit).toNat) + signed b (n * twoPow (f - unit).toNat)
    some (.finite (if sum = 0 then a && b else decide (sum < 0)) sum.natAbs unit)

/-- The exact product. -/
def mul : Datum → Datum → Option Datum
  | .nan, _ | _, .nan => none
  | .infinite a, .infinite b => some (.infinite (a != b))
  | .infinite a, .finite b n _ => if n = 0 then none else some (.infinite (a != b))
  | .finite a m _, .infinite b => if m = 0 then none else some (.infinite (a != b))
  | .finite a m e, .finite b n f => some (.finite (a != b) (m * n) (e + f))

end Datum

end PostScriptCore.Real
