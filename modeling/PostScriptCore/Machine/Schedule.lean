import PostScriptCore.Machine.Start
import PostScriptCore.Machine.Turn

/-!
# Running all contexts

* `World.newContext`, `World.spawn` — contexts with a fresh number.
* `World.runNext` — one turn of the next runnable context.
* `World.run` — turns until no context can make progress.
-/

namespace PostScriptCore.World

variable {ν : Type}

/-- A world around a machine, without contexts. -/
def ofMachine (machine : Machine ν) (accepting : Bool) : World ν :=
  { machine with scheduler := Scheduler.empty, output := ⟨"", accepting⟩ }

/-- A fresh context.  Its number is used up even if there is no memory for it. -/
def newContext : EStateM Fault (World ν) Context := do
  let id ← modifyGet fun w =>
    let (id, scheduler) := w.scheduler.allocateId
    (id, { w with scheduler })
  query fun w => Context.create id w.settings

/-- Queues a new context that runs `program` and waits to be joined afterwards.  The program has to
be global or simple, because a fresh context has no local storage. -/
def spawn (program : Object) : EStateM Fault (World ν) Nat := do
  let c ← newContext
  let zombie := (← get).system.zombie
  match Stack.pushAll [Object.operator zombie, program] c.stackSet.exec with
  | .error fault _ => throw fault
  | .ok _ exec =>
    let c := { c with stackSet := { c.stackSet with exec } }
    modify fun w => { w with scheduler := w.scheduler.adopt c }
    return c.id

/-- Gives a context a turn and puts it back: at the end of the queue if it has something left to
do, and nowhere if it is free. -/
def giveTurn [NativeSet ν] (budget : Nat) (c : Context) (w : World ν) : World ν :=
  let (turn, s) := Session.runTurn budget { w with context := { c with state := .run } }
  let c := if turn = .finished then { s.context with state := .zombie } else s.context
  let scheduler := if c.state.isActive then s.scheduler.enqueue c.id else s.scheduler
  { s.toWorld with scheduler := (scheduler.insert c).reap }

/-- Gives the next runnable context a turn; false if there is none. -/
def runNext [NativeSet ν] (budget : Nat) : EStateM Fault (World ν) Bool := do
  let next ← focus (fun w => w.scheduler) (fun scheduler w => { w with scheduler })
    Scheduler.empty Scheduler.nextRunnable
  match next with
  | none => return false
  | some id =>
    modify fun w =>
      match w.scheduler.take? id with
      | none => w
      | some (c, scheduler) => giveTurn budget c { w with scheduler }
    return true

/-- Runs contexts until none can make progress, for at most `turns` turns of `budget` objects each.
The answer says whether that was enough.  Contexts that wait on one another are a fault. -/
def run [NativeSet ν] (budget : Nat) : Nat → EStateM Fault (World ν) Bool
  | 0 => return false
  | turns + 1 => do
    if ← runNext budget then run budget turns else return true

end PostScriptCore.World
