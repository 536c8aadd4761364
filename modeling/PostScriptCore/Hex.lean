/-!
# Bytes in hexadecimal

* `Hex.encode` — two lower-case digits for every byte.
* `Hex.decode` — the bytes of pairs of digits, in either case.
-/

namespace PostScriptCore.Hex

/-- The digit of a number below sixteen. -/
def digit (n : Nat) : Char := if n < 10 then Char.ofNat (48 + n) else Char.ofNat (87 + n)

/-- The number of a digit; any other character counts as zero. -/
def value (c : Char) : Nat :=
  if '0' ≤ c ∧ c ≤ '9' then c.toNat - 48
  else if 'a' ≤ c ∧ c ≤ 'f' then c.toNat - 87
  else if 'A' ≤ c ∧ c ≤ 'F' then c.toNat - 55
  else 0

/-- Appends the digits of bytes to a text. -/
def encodeOnto (text : String) : List UInt8 → String
  | [] => text
  | b :: rest => encodeOnto ((text.push (digit (b.toNat / 16))).push (digit (b.toNat % 16))) rest

/-- The digits of bytes. -/
def encode (bytes : List UInt8) : String := encodeOnto "" bytes

/-- The bytes of pairs of digits; a digit left over is dropped. -/
def decodeChars : List Char → List UInt8
  | a :: b :: rest => UInt8.ofNat (value a * 16 + value b) :: decodeChars rest
  | _ => []

/-- The bytes spelled by a text. -/
def decode (text : String) : List UInt8 := decodeChars text.toList

/-- The lowest `count` digits of a number, the highest first. -/
def ofNat (count n : Nat) : String :=
  String.ofList ((List.range count).map fun i => digit (n / Nat.pow 16 (count - 1 - i) % 16))

end PostScriptCore.Hex
