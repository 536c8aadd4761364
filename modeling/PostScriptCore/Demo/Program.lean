import PostScriptCore.Machine.Schedule

/-!
# A demonstration: sums by many contexts

A root context forks workers that each add up `1 … terms`, handing control away after every
addition.  The root joins them in the order in which they were forked and prints each sum, then asks
for the state of its memory.

* `Demo.program` — the root's procedure.
* `Demo.run` — builds a machine, runs the program and collects what is printed.
-/

namespace PostScriptCore.Demo

/-- What the demonstration is run with. -/
structure Options where
  workers : Nat
  terms : Nat
  settings : SettingsRequest

variable {ν : Type}

/-- The executable names of texts. -/
def wordsOf : List String → EStateM Fault (Machine ν) (List Object)
  | [] => pure []
  | text :: rest => do
    let id ← Machine.intern text
    let words ← wordsOf rest
    return Object.executableName id :: words

/-- A list written several times in a row. -/
def repeated {α : Type} (n : Nat) (items : List α) : List α := (List.replicate n items).flatten

/-- The procedure of a worker: an addition and a yield for every term but the first. -/
def workerBody (terms : Nat) : EStateM Fault (Machine ν) Object := do
  let round ← wordsOf ["add", "yield"]
  Machine.onGlobalVM (Memory.newProc (repeated (terms - 1) round) [])

/-- The root's procedure: per worker a mark, the terms, the worker's procedure and a fork; per
worker, in the same order, a join and a print; and the state of the memory at the end. -/
def program (workers terms : Nat) : EStateM Fault (Machine ν) Object := do
  let body ← workerBody terms
  let mark ← wordsOf ["mark"]
  let fork ← wordsOf ["fork"]
  let receive ← wordsOf ["index", "join", "==", "pop"]
  let status ← wordsOf ["vmstatus"]
  let numbers := (List.range terms).map fun i : Nat => Object.int (i + 1 : Nat)
  let forks := repeated workers (mark ++ numbers ++ [body] ++ fork)
  let joins := (List.range workers).flatMap fun k : Nat =>
    Object.int (workers - 1 - k : Nat) :: receive
  Machine.onGlobalVM (Memory.newProc (forks ++ joins ++ status) [body])

/-- More objects and turns than the demonstration can need. -/
def budget : Nat := 4294967296

/-- The last line about the root's local memory, if the root has got that far. -/
def localLine (root : Context) : String :=
  match (root.stackSet.operands.toList.reverse.take 3).filterMap Object.asInt? with
  | [max, used, level] =>
    "local vm: level " ++ toString level ++ ", " ++ toString used ++ " of " ++ toString max ++
      " bytes\n"
  | _ => ""

/-- The last line about the global memory. -/
def globalLine (m : Memory) : String :=
  "global vm: " ++ toString m.arena.used ++ " of " ++ toString m.arena.max ++ " bytes, " ++
    toString m.entityCount ++ " entities\n"

/-- What a run prints, and the fault that ended it, if any. -/
structure Report where
  printed : String
  fault : Option Fault

/-- Runs the root's procedure in a world and reports. -/
def execute [NativeSet ν] (program : Object) (w : World ν) : Report :=
  match World.spawn program w with
  | .error fault w => ⟨w.output.text, some fault⟩
  | .ok root w =>
    match World.run budget budget w with
    | .error fault w => ⟨w.output.text, some fault⟩
    | .ok _ w =>
      match w.scheduler.find? root with
      | none => ⟨w.output.text, some .invalidContext⟩
      | some c => ⟨w.output.text ++ localLine c ++ globalLine w.globalVM, none⟩

/-- Runs the demonstration on a machine with the built-in operators. -/
def run (options : Options) : Report :=
  match Machine.start options.settings (fun native : Builtin => native) with
  | .error fault => ⟨"", some fault⟩
  | .ok machine =>
    match program options.workers options.terms machine with
    | .error fault _ => ⟨"", some fault⟩
    | .ok root machine => execute root (World.ofMachine machine true)

end PostScriptCore.Demo
