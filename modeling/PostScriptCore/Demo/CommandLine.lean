import PostScriptCore.Demo.Program

/-!
# The command line of the demonstration

Every option is a long flag with a value, written `--flag value` or `--flag=value`, and given at
most once.  Numbers are decimal, with an optional sign.

* `CommandLine.parse` — the options of an argument list, or what is wrong with it.
* `CommandLine.run` — what a call prints and the exit code it ends with.
-/

namespace PostScriptCore.CommandLine

/-- The flags. -/
inductive Flag
  | workers
  | terms
  | gcPeriod
  | segmentSize
  | maxArenaSize
  | logLevel
  deriving DecidableEq

/-- How a flag is written. -/
def Flag.name : Flag → String
  | workers => "--workers"
  | terms => "--terms"
  | gcPeriod => "--gc-period"
  | segmentSize => "--segment-size"
  | maxArenaSize => "--max-arena-size"
  | logLevel => "--log-level"

/-- All flags. -/
def Flag.all : List Flag := [.workers, .terms, .gcPeriod, .segmentSize, .maxArenaSize, .logLevel]

/-- The flag that is written like this. -/
def Flag.ofName? (name : String) : Option Flag := Flag.all.find? fun flag => flag.name == name

/-- What can be wrong with an argument list. -/
inductive Problem
  | unknownFlag (name : String)
  | strayArgument (text : String)
  | repeatedFlag (flag : Flag)
  | missingValue (flag : Flag)
  | invalidValue (flag : Flag) (text : String)
  deriving DecidableEq

/-- The sentence about a problem. -/
def Problem.message : Problem → String
  | unknownFlag name => "unexpected flag " ++ name
  | strayArgument text => "unexpected argument " ++ text
  | repeatedFlag flag => flag.name ++ " cannot be used multiple times"
  | missingValue flag => "a value is required for " ++ flag.name
  | invalidValue flag text => "invalid value " ++ text ++ " for " ++ flag.name

/-- Whether an argument begins with a hyphen and so cannot stand for a value. -/
def looksLikeFlag (arg : String) : Bool := arg.startsWith "-" && arg != "-"

/-- The part before the first `=` and, if there is one, the part after it. -/
def splitValue (arg : String) : String × Option String :=
  let name := arg.toList.takeWhile (· != '=')
  match arg.toList.drop name.length with
  | [] => (arg, none)
  | _ :: value => (String.ofList name, some (String.ofList value))

/-- The flags of an argument list with their values.  `seen` are those read so far. -/
def readFlags (seen : List (Flag × String)) : List String → Except Problem (List (Flag × String))
  | [] => .ok seen
  | ["--"] => .ok seen
  | arg :: rest =>
    if arg == "--" || !arg.startsWith "--" then .error (.strayArgument arg)
    else
      match splitValue arg with
      | (name, value) =>
        match Flag.ofName? name with
        | none => .error (.unknownFlag name)
        | some flag =>
          if seen.any fun given => given.1 == flag then .error (.repeatedFlag flag)
          else
            match value, rest with
            | some value, rest => readFlags ((flag, value) :: seen) rest
            | none, value :: rest =>
              if looksLikeFlag value then .error (.missingValue flag)
              else readFlags ((flag, value) :: seen) rest
            | none, [] => .error (.missingValue flag)

/-- The number spelled by decimal digits; there has to be one. -/
def digitsValue? (digits : List Char) : Option Nat :=
  if !digits.isEmpty && digits.all Char.isDigit then
    some (digits.foldl (fun n c => n * 10 + (c.toNat - 48)) 0)
  else none

/-- The integer spelled by an optional sign and decimal digits. -/
def integerValue? (text : String) : Option Int :=
  match text.toList with
  | '+' :: digits => (digitsValue? digits).map Int.ofNat
  | '-' :: digits => (digitsValue? digits).map fun n => -(n : Int)
  | digits => (digitsValue? digits).map Int.ofNat

/-- A number between two bounds. -/
def boundedValue? (low high : Nat) (text : String) : Option Nat :=
  match integerValue? text with
  | some z => if (low : Int) ≤ z ∧ z ≤ high then some z.toNat else none
  | none => none

/-- A number without a minus sign, up to a bound. -/
def unsignedValue? (high : Nat) (text : String) : Option Nat :=
  if text.startsWith "-" then none else boundedValue? 0 high text

/-- How the value of a numeric flag is read. -/
def Flag.value? : Flag → String → Option Nat
  | workers => boundedValue? 1 32
  | terms => boundedValue? 1 400
  | gcPeriod | maxArenaSize => boundedValue? 0 4294967295
  | segmentSize => unsignedValue? 18446744073709551615
  | logLevel => fun _ => some 0

/-- The number given for a flag, if it was given. -/
def numberFor (given : List (Flag × String)) (flag : Flag) : Except Problem (Option Nat) :=
  match given.lookup flag with
  | none => .ok none
  | some text =>
    match flag.value? text with
    | some n => .ok (some n)
    | none => .error (.invalidValue flag text)

/-- The options of an argument list. -/
def parse (args : List String) : Except Problem Demo.Options := do
  let given ← readFlags [] args
  let workers ← numberFor given .workers
  let terms ← numberFor given .terms
  let gcPeriod ← numberFor given .gcPeriod
  let segmentSize ← numberFor given .segmentSize
  let maxArenaSize ← numberFor given .maxArenaSize
  return {
    workers := workers.getD 4
    terms := terms.getD 100
    settings := { gcPeriod, segmentSize, maxArenaSize } }

/-- What a call leaves behind. -/
structure Outcome where
  exitCode : Nat
  printed : String
  complaint : Option String

/-- What a call with an argument list prints and ends with. -/
def run (args : List String) : Outcome :=
  match parse args with
  | .error problem => ⟨2, "", some ("error: " ++ problem.message)⟩
  | .ok options =>
    match Demo.run options with
    | ⟨printed, none⟩ => ⟨0, printed, none⟩
    | ⟨printed, some fault⟩ => ⟨1, printed, some ("Error: " ++ fault.message)⟩

end PostScriptCore.CommandLine
