import PostScriptCore.Real.Binary

/-!
# Shortest decimals

A floating-point number is written with the fewest decimal digits that read back as the same
number.  The reals that round to `m * 2 ^ e` form an interval around it; for one digit, two digits
and so on, the two neighbours of the number on that decimal grid are tested against the interval in
exact arithmetic, and the first grid with a hit decides.  Of two hits the nearer is taken, and an
exact tie goes up.

* `Decimal` — a decimal number `digits * 10 ^ exponent`.
* `Interval` — a number and the ends of the interval that rounds to it, over one denominator.
* `Interval.shortest` — the shortest decimal inside the interval.
-/

namespace PostScriptCore.Real

/-- The power `10 ^ n`. -/
abbrev tenPow (n : Nat) : Nat := Nat.pow 10 n

/-- The decimal number `digits * 10 ^ exponent`. -/
structure Decimal where
  digits : Nat
  exponent : Int

namespace Decimal

/-- Moves trailing zeros of the digits into the exponent; `fuel` bounds how many. -/
def stripZeros : Nat → Decimal → Decimal
  | 0, d => d
  | fuel + 1, d =>
    if d.digits ≠ 0 ∧ d.digits % 10 = 0 then stripZeros fuel ⟨d.digits / 10, d.exponent + 1⟩
    else d

end Decimal

/-- A positive number `value / den` with the interval from `low / den` to `high / den` of the
reals that round to it; `closed` says whether the ends belong to it. -/
structure Interval where
  low : Nat
  value : Nat
  high : Nat
  den : Nat
  closed : Bool

namespace Interval

/-- The interval of `significand * 2 ^ exponent` in a layout.  The gap below a power of two is half
as wide as the gap above it, except at the least exponent. -/
def ofFinite (l : Layout) (significand : Nat) (exponent : Int) : Interval :=
  let narrowBelow := significand = twoPow l.fractionBits ∧ l.minExponent < exponent
  let scale := twoPow (exponent - 2).toNat
  { low := (4 * significand - if narrowBelow then 1 else 2) * scale
    value := 4 * significand * scale
    high := (4 * significand + 2) * scale
    den := twoPow (2 - exponent).toNat
    closed := significand % 2 = 0 }

/-- How many factors of ten are missing from `num / den` until it reaches one tenth. -/
def leadingZeros : Nat → Nat → Nat → Nat
  | 0, _, _ => 0
  | fuel + 1, num, den => if num * 10 < den then leadingZeros fuel (num * 10) den + 1 else 0

/-- The position `k` of the decimal point: the value lies in `[10 ^ (k - 1), 10 ^ k)`. -/
def pointPosition (i : Interval) : Int :=
  if i.den ≤ i.value then ((Nat.toDigits 10 (i.value / i.den)).length : Int)
  else -(leadingZeros (Nat.log2 i.den + 1) i.value i.den : Int)

/-- Whether `point` lies in the interval whose ends are `low` and `high`. -/
def holds (closed : Bool) (low point high : Nat) : Bool :=
  if closed then decide (low ≤ point ∧ point ≤ high) else decide (low < point ∧ point < high)

/-- The neighbour of the value on the grid of `10 ^ exponent` that lies in the interval, the
nearer one if both do, the upper one on a tie. -/
def onGrid? (i : Interval) (exponent : Int) : Option Decimal :=
  let step := i.den * tenPow exponent.toNat
  let finer := tenPow (-exponent).toNat
  let below := i.value * finer / step
  let rest := i.value * finer % step
  let inside := fun n => holds i.closed (i.low * finer) (n * step) (i.high * finer)
  match inside below, inside (below + 1) with
  | true, true => some ⟨if 2 * rest < step then below else below + 1, exponent⟩
  | true, false => some ⟨below, exponent⟩
  | false, true => some ⟨below + 1, exponent⟩
  | false, false => none

/-- Tries grids of `count`, `count + 1`, … digits. -/
def search (i : Interval) (point : Int) : Nat → Nat → Decimal
  | 0, count => ⟨i.value * tenPow (count - point).toNat / i.den, point - count⟩
  | fuel + 1, count =>
    match i.onGrid? (point - count) with
    | some d => d
    | none => search i point fuel (count + 1)

/-- The shortest decimal in the interval.  Seventeen digits are enough for every double. -/
def shortest (i : Interval) : Decimal :=
  (i.search i.pointPosition 17 1).stripZeros 20

end Interval

end PostScriptCore.Real
