/-!
# Text from arbitrary bytes

Strings hold bytes.  To print them they are read as UTF-8, and where they are not, the longest part
that could have begun a character is replaced by one U+FFFD.

* `Utf8.decodeLossy` — the text of a byte sequence.
-/

namespace PostScriptCore.Utf8

/-- The replacement character. -/
abbrev replacement : Char := '\ufffd'

/-- Whether a byte lies in a range. -/
def within (low high : Nat) (byte : UInt8) : Bool := low ≤ byte.toNat && byte.toNat ≤ high

/-- What may follow a lead byte: the range of the second byte and how many bytes there are in
all.  `none` if the byte leads nothing. -/
def lead? (byte : UInt8) : Option (Nat × Nat × Nat) :=
  if within 0xc2 0xdf byte then some (0x80, 0xbf, 2)
  else if within 0xe0 0xe0 byte then some (0xa0, 0xbf, 3)
  else if within 0xed 0xed byte then some (0x80, 0x9f, 3)
  else if within 0xe1 0xef byte then some (0x80, 0xbf, 3)
  else if within 0xf0 0xf0 byte then some (0x90, 0xbf, 4)
  else if within 0xf1 0xf3 byte then some (0x80, 0xbf, 4)
  else if within 0xf4 0xf4 byte then some (0x80, 0x8f, 4)
  else none

/-- The leading continuation bytes of a sequence, at most `count` of them; `low` and `high` bound
the first one. -/
def continuation (low high : Nat) : Nat → List UInt8 → List UInt8
  | 0, _ => []
  | _, [] => []
  | count + 1, b :: rest =>
    if within low high b then b :: continuation 0x80 0xbf count rest else []

/-- The code point of a lead byte and its continuation. -/
def codePoint (first : UInt8) (rest : List UInt8) : Nat :=
  let payload := first.toNat % Nat.pow 2 (6 - rest.length)
  rest.foldl (fun n b => n * 64 + b.toNat % 64) payload

/-- One character from the front of a sequence, and how many bytes it takes. -/
def next (first : UInt8) (rest : List UInt8) : Char × Nat :=
  if first.toNat < 0x80 then (Char.ofNat first.toNat, 1)
  else
    match lead? first with
    | none => (replacement, 1)
    | some (low, high, width) =>
      let tail := continuation low high (width - 1) rest
      if tail.length = width - 1 then (Char.ofNat (codePoint first tail), width)
      else (replacement, tail.length + 1)

/-- The characters of the bytes after `skip` of them. -/
def decodeFrom : Nat → List UInt8 → List Char
  | _, [] => []
  | skip + 1, _ :: rest => decodeFrom skip rest
  | 0, first :: rest =>
    let (c, width) := next first rest
    c :: decodeFrom (width - 1) rest

/-- The text of a byte sequence. -/
def decodeLossy (bytes : List UInt8) : String := String.ofList (decodeFrom 0 bytes)

end PostScriptCore.Utf8
