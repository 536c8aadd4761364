import PostScriptCore.Real.Binary

/-!
# Arithmetic of real objects

Real objects carry the 32 bits of a single-precision number.  Operators widen their operands to
double precision, compute there and round the result back, so a result is rounded twice: once to
double and once to single.

* `Single.add`, `Single.sub`, `Single.mul`, `Single.neg` — the operators on bits.
* `Single.ofInt` — the nearest single to an integer.
* `Single.ofWideInt` — the nearest single to the nearest double, for integer results that do not
  fit in an integer object.
* `Single.toDoubleBits?` — the same number in the 64-bit layout.

A NaN operand is passed on with its first fraction bit set, the first operand before the second;
an operation without a value gives `Single.undefined`.
-/

namespace PostScriptCore.Real.Single

/-- The value of a bit pattern. -/
def decode (bits : UInt32) : Datum := single.decode bits.toNat

/-- Whether the bits denote no number. -/
def isNaN (bits : UInt32) : Bool :=
  match decode bits with
  | .nan => true
  | _ => false

/-- The bits that stand for an undefined result. -/
def undefined : UInt32 := UInt32.ofNat (single.encode .nan)

/-- A NaN with its first fraction bit set. -/
def quiet (bits : UInt32) : UInt32 := bits ||| 0x400000

/-- Rounds an exact value to double and then to single precision. -/
def ofDatum (value : Datum) : UInt32 :=
  UInt32.ofNat (single.encode (single.narrow (double.narrow value)))

/-- Lifts an exact operation to bits. -/
def lift₂ (op : Datum → Datum → Option Datum) (a b : UInt32) : UInt32 :=
  if isNaN a then quiet a
  else if isNaN b then quiet b
  else
    match op (decode a) (decode b) with
    | some value => ofDatum value
    | none => undefined

/-- The sum of two singles. -/
def add (a b : UInt32) : UInt32 := lift₂ Datum.add a b

/-- The difference of two singles. -/
def sub (a b : UInt32) : UInt32 := lift₂ (fun x y => x.add y.neg) a b

/-- The product of two singles. -/
def mul (a b : UInt32) : UInt32 := lift₂ Datum.mul a b

/-- The single with its sign bit flipped. -/
def neg (a : UInt32) : UInt32 := a ^^^ 0x80000000

/-- The single nearest to an integer. -/
def ofInt (z : Int) : UInt32 :=
  UInt32.ofNat (single.encode (single.narrow (Datum.ofInt z)))

/-- The single nearest to the double nearest to an integer. -/
def ofWideInt (z : Int) : UInt32 := ofDatum (Datum.ofInt z)

/-- The 64-bit layout of a single; `none` for a NaN. -/
def toDoubleBits? (bits : UInt32) : Option Nat :=
  match decode bits with
  | .nan => none
  | value => some (double.encode (double.narrow value))

/-- The 64-bit layout of an integer. -/
def doubleBitsOfInt (z : Int) : Nat := double.encode (double.narrow (Datum.ofInt z))

end PostScriptCore.Real.Single
