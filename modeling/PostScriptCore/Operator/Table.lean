import PostScriptCore.Operator.Signature
import PostScriptCore.Memory.Allocate
import PostScriptCore.Names

/-!
# The operator registry

Every operator name owns an ordered list of signatures.  The entries and the lists are kept in
system entities of the global memory and are looked up there on every dispatch; only the natives, the
count of the names and their opcodes are kept beside it.

* `OperatorTable` — polymorphic in the type `ν` of natives.
* `OperatorTable.declare` — the opcode of a name; a new name has no signatures.
* `OperatorTable.cons` — appends a signature.
* `OperatorTable.entry`, `OperatorTable.signatures` — what is registered.
* `OperatorTable.select` — the first signature that the operands fit.
-/

namespace PostScriptCore

/-- Natives know how many operands they take. -/
class NativeArity (ν : Type) where
  arity : ν → Nat

/-- Bytes of an entry. -/
abbrev entrySize : Nat := 12

/-- One operator name with its list of signatures. -/
structure OperatorEntry where
  name : Nat
  /-- The entity of the signature list; zero stands for none. -/
  signatures : Nat
  count : Nat
  deriving DecidableEq

namespace OperatorEntry

/-- The stored form. -/
def encode (e : OperatorEntry) : List UInt8 :=
  wordBytes e.name ++ wordBytes e.signatures ++ wordBytes e.count

/-- The entry in twelve bytes. -/
def decode (bytes : List UInt8) : OperatorEntry where
  name := wordOfBytes (bytes.take 4)
  signatures := wordOfBytes ((bytes.drop 4).take 4)
  count := wordOfBytes ((bytes.drop 8).take 4)

end OperatorEntry

/-- The registry of operators.  That the count and the opcodes by name stay in step is a fact about
`declare`, the only operation that changes them. -/
structure OperatorTable (ν : Type) where
  /-- The entity that holds the entries. -/
  entries : Nat
  /-- How many names are declared. -/
  size : Nat
  /-- The opcodes of the declared names. -/
  byName : List (Nat × Nat)
  natives : Array ν

/-- An operation on the registry and the memory that holds it. -/
abbrev OperatorTableM (ν : Type) := EStateM Fault (OperatorTable ν × Memory)

namespace OperatorTable

variable {ν : Type}

/-- A table without storage, which stands in for a table that is being worked on. -/
def vacant : OperatorTable ν := ⟨0, 0, [], #[]⟩

/-- A fresh table; its entries get their entity in the memory. -/
def create : MemoryM (OperatorTable ν) := do
  let entries ← Memory.allocateWithoutGc (32 * entrySize) (Tag.ofKind .system)
  return ⟨entries, 0, [], #[]⟩

/-- The opcode of a name. -/
def lookup? (t : OperatorTable ν) (name : Nat) : Option Nat := t.byName.lookup name

/-! ## Reading -/

/-- The entry of an opcode. -/
def entry (t : OperatorTable ν) (m : Memory) (opcode : Nat) : Except Fault OperatorEntry :=
  if opcode < t.size then
    match m.bytesAt t.entries (opcode * entrySize) entrySize with
    | .ok bytes => .ok (OperatorEntry.decode bytes)
    | .error fault => .error fault
  else .error .unregistered

/-- The name of an opcode. -/
def nameOf (t : OperatorTable ν) (m : Memory) (opcode : Nat) : Except Fault Nat :=
  match t.entry m opcode with
  | .ok entry => .ok entry.name
  | .error fault => .error fault

/-- A signature of a list. -/
def signatureAt (m : Memory) (list index : Nat) : Except Fault Signature :=
  match m.bytesAt list (index * signatureSize) signatureSize with
  | .ok bytes => .ok (Signature.decode bytes)
  | .error fault => .error fault

/-- The signatures of a list from an index on, `count` of them. -/
def signaturesFrom (m : Memory) (list : Nat) : Nat → Nat → Except Fault (List Signature)
  | 0, _ => .ok []
  | count + 1, index =>
    match signatureAt m list index with
    | .error fault => .error fault
    | .ok signature =>
      match signaturesFrom m list count (index + 1) with
      | .ok rest => .ok (signature :: rest)
      | .error fault => .error fault

/-- The signatures of an opcode in the order of registration. -/
def signatures (t : OperatorTable ν) (m : Memory) (opcode : Nat) :
    Except Fault (List Signature) :=
  match t.entry m opcode with
  | .ok entry => signaturesFrom m entry.signatures entry.count 0
  | .error fault => .error fault

/-- The first chosen signature of a list from an index on, among `count`.  `fault` is what is
reported if there is none; it becomes an underflow once a signature wants more operands than there
are. -/
def choose (m : Memory) (list : Nat) (operands : Stack) :
    Nat → Nat → Fault → Except Fault Signature
  | 0, _, fault => .error fault
  | count + 1, index, fault =>
    match signatureAt m list index with
    | .error fault => .error fault
    | .ok signature =>
      if signature.isChosen operands then .ok signature
      else
        choose m list operands count (index + 1)
          (if signature.fits operands = .short then .stackUnderflow else fault)

/-- The first signature of an opcode that the operands fit. -/
def select (t : OperatorTable ν) (m : Memory) (operands : Stack) (opcode : Nat) :
    Except Fault Signature :=
  match t.entry m opcode with
  | .error fault => .error fault
  | .ok entry =>
    if entry.count = 0 then .error .unregistered
    else choose m entry.signatures operands entry.count 0 .typeCheck

/-! ## Registration -/

/-- Runs an operation of the memory. -/
@[inline] def onMemory {α : Type} (x : MemoryM α) : OperatorTableM ν α :=
  focus Prod.snd (fun m s => (s.1, m)) Memory.vacant x

/-- Changes what is kept beside the memory. -/
def modifyTable (f : OperatorTable ν → OperatorTable ν) : OperatorTableM ν Unit :=
  modify fun s => (f s.1, s.2)

/-- The larger of two sizes. -/
def larger (a b : Nat) : Nat := if a < b then b else a

/-- Stores the entry of an opcode. -/
def writeEntry (opcode : Nat) (entry : OperatorEntry) : OperatorTableM ν Unit := do
  let entries := (← get).1.entries
  onMemory (Memory.put entries (opcode * entrySize) entry.encode)

/-- Makes room for one more entry.  The entity of the entries doubles when it is full. -/
def reserveEntry : OperatorTableM ν Unit := do
  let t := (← get).1
  let needed := (t.size + 1) * entrySize
  if wordBound ≤ needed then throw .limitCheck
  let row ← query fun s => s.2.row t.entries
  if row.size < needed then
    let doubled := if 2 * row.size < wordBound then 2 * row.size else wordBound - 1
    let entries ← onMemory (Memory.reallocWithoutGc t.entries (larger doubled needed))
    modifyTable fun t => { t with entries }

/-- The opcode of a name, which is declared without signatures if it is new. -/
def declare (name : Nat) : OperatorTableM ν Nat := do
  match (← get).1.lookup? name with
  | some opcode => return opcode
  | none =>
    reserveEntry
    let opcode := (← get).1.size
    writeEntry opcode ⟨name, 0, 0⟩
    modifyTable fun t => { t with size := t.size + 1, byName := t.byName ++ [(name, opcode)] }
    return opcode

/-- The entity of a signature list with room for one more signature.  A full list doubles; its new
size has to be a word. -/
def reserveSignature (entry : OperatorEntry) : OperatorTableM ν Nat := do
  if entry.signatures = 0 then
    onMemory (Memory.allocateWithoutGc (2 * signatureSize) (Tag.ofKind .system))
  else
    let row ← query fun s => s.2.row entry.signatures
    if row.size < (entry.count + 1) * signatureSize then
      if wordBound ≤ 2 * row.size then throw .wordOverflow
      onMemory (Memory.reallocWithoutGc entry.signatures (2 * row.size))
    else return entry.signatures

/-- Appends a signature to a name, declaring it if needed.  The native has to take as many operands
as there are patterns. -/
def cons [NativeArity ν] (name : Nat) (native : ν) (outArity : Nat) (patterns : List Pattern) :
    OperatorTableM ν Nat := do
  if maxArity < patterns.length ∨ NativeArity.arity native ≠ patterns.length then
    throw .invalidSignature
  let opcode ← declare name
  let entry ← query fun s => s.1.entry s.2 opcode
  let list ← reserveSignature entry
  let number := (← get).1.natives.size
  let signature := Signature.ofPatterns patterns outArity number
  onMemory (Memory.put list (entry.count * signatureSize) signature.encode)
  modifyTable fun t => { t with natives := t.natives.push native }
  writeEntry opcode { entry with signatures := list, count := entry.count + 1 }
  return opcode

end OperatorTable

end PostScriptCore
