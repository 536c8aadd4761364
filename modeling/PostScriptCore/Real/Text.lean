import PostScriptCore.Real.Single
import PostScriptCore.Real.Shortest

/-!
# Text of real numbers

Reals are written with their shortest decimal.  Numbers from `10 ^ (-4)` up to but excluding
`10 ^ 16` are written positionally with at least one digit after the point; all others have one
digit before the point and an exponent.

* `RealFormat` — where positional notation begins and ends.
* `Single.text` — the text of a single.
-/

namespace PostScriptCore.Real

/-- The choices of the format: positional notation is used for scientific exponents in
`[least, bound)`. -/
structure RealFormat where
  least : Int
  bound : Int
  notANumber : String
  infinity : String

/-- How real objects are shown. -/
def objectFormat : RealFormat := ⟨-4, 16, "NaN", "inf"⟩

/-- A run of zeros. -/
def zeros (n : Nat) : String := String.ofList (List.replicate n '0')

/-- Digits with a decimal point in the given position, counted from their left end. -/
def positional (digits : List Char) (point : Int) : String :=
  if point ≤ 0 then "0." ++ zeros (-point).toNat ++ String.ofList digits
  else if (digits.length : Int) ≤ point then
    String.ofList digits ++ zeros (point - digits.length).toNat ++ ".0"
  else String.ofList (digits.take point.toNat) ++ "." ++ String.ofList (digits.drop point.toNat)

/-- One digit, the others after a point if there are any, and the exponent. -/
def scientific (digits : List Char) (exponent : Int) : String :=
  let head := String.ofList (digits.take 1)
  let tail := digits.drop 1
  head ++ (if tail.isEmpty then "" else "." ++ String.ofList tail) ++ "e" ++ toString exponent

/-- The text of a positive decimal. -/
def RealFormat.write (f : RealFormat) (d : Decimal) : String :=
  let digits := Nat.toDigits 10 d.digits
  let point : Int := digits.length + d.exponent
  if f.least ≤ point - 1 ∧ point - 1 < f.bound then positional digits point
  else scientific digits (point - 1)

/-- The text of a value of a layout. -/
def RealFormat.text (f : RealFormat) (l : Layout) : Datum → String
  | .nan => f.notANumber
  | .infinite negative => (if negative then "-" else "") ++ f.infinity
  | .finite negative significand exponent =>
    (if negative then "-" else "") ++
      if significand = 0 then "0.0"
      else f.write (Interval.ofFinite l significand exponent).shortest

/-- The text of a single. -/
def Single.text (bits : UInt32) : String :=
  objectFormat.text single (Single.decode bits)

end PostScriptCore.Real
