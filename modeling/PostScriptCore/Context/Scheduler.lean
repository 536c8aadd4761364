import PostScriptCore.Context.Basic

/-!
# The round-robin scheduler

The scheduler owns every context that is not running and a queue of those that still have something
to do.  Numbers of contexts are never reused.  They are counted without a bound here, but an object holds
a word: that a handle names the context it was made for assumes that the number is below `wordBound`.

* `Scheduler` — the contexts in the order of their numbers, the queue and the next number.
* `Scheduler.adopt`, `Scheduler.find?`, `Scheduler.update`, `Scheduler.take?`, `Scheduler.insert`.
* `Scheduler.nextRunnable` — the first queued context that can go on; contexts that wait on one
  another are a deadlock.
-/

namespace PostScriptCore

/-- The contexts that are not running, and who is next. -/
structure Scheduler where
  /-- In ascending order of their numbers. -/
  contexts : List Context
  queue : List Nat
  /-- The number of the next context, taken to be a word. -/
  nextId : Nat

namespace Scheduler

/-- A scheduler without contexts. -/
def empty : Scheduler := ⟨[], [], 1⟩

/-- How many contexts there are. -/
def size (s : Scheduler) : Nat := s.contexts.length

/-- The context with a number. -/
def find? (s : Scheduler) (id : Nat) : Option Context := s.contexts.find? fun c => c.id == id

/-- A list of contexts with one more; a context with the same number is replaced. -/
def insertOrdered (c : Context) : List Context → List Context
  | [] => [c]
  | d :: rest =>
    if c.id < d.id then c :: d :: rest
    else if c.id = d.id then c :: rest
    else d :: insertOrdered c rest

/-- Puts a context back. -/
def insert (s : Scheduler) (c : Context) : Scheduler :=
  { s with contexts := insertOrdered c s.contexts }

/-- Changes the context with a number. -/
def update (s : Scheduler) (id : Nat) (f : Context → Context) : Scheduler :=
  { s with contexts := s.contexts.map fun c => if c.id = id then f c else c }

/-- Takes the context with a number out. -/
def take? (s : Scheduler) (id : Nat) : Option (Context × Scheduler) :=
  match s.find? id with
  | some c => some (c, { s with contexts := s.contexts.filter fun d => d.id != id })
  | none => none

/-- A number that no context has had.  It does not start over at `wordBound`. -/
def allocateId (s : Scheduler) : Nat × Scheduler := (s.nextId, { s with nextId := s.nextId + 1 })

/-- Appends a number to the queue. -/
def enqueue (s : Scheduler) (id : Nat) : Scheduler := { s with queue := s.queue ++ [id] }

/-- Takes ownership of a context and queues it. -/
def adopt (s : Scheduler) (c : Context) : Scheduler := (s.insert c).enqueue c.id

/-- Forgets the contexts that are free. -/
def reap (s : Scheduler) : Scheduler :=
  { s with contexts := s.contexts.filter fun c => c.state != .free }

/-- Objects of all contexts that keep global storage alive. -/
def roots (s : Scheduler) : List Object := s.contexts.flatMap Context.roots

/-- Whether the context with a number has finished or does not exist. -/
def isSettled (s : Scheduler) (id : Nat) : Bool :=
  match s.find? id with
  | some c => !c.state.isActive
  | none => true

/-- Whether a waiting context can go on. -/
def isReady (s : Scheduler) (c : Context) : Bool :=
  match c.waitingOn with
  | some target => s.isSettled target
  | none => true

/-- What the head of the queue is good for. -/
inductive Turnout
  /-- It can run. -/
  | runnable
  /-- It waits for a context that still has something to do. -/
  | blocked
  /-- It is gone or has finished. -/
  | stale
  deriving DecidableEq

/-- What a queued number is good for. -/
def turnout (s : Scheduler) (id : Nat) : Turnout :=
  match s.find? id with
  | none => .stale
  | some c =>
    match c.state with
    | .run => .runnable
    | .wait => if s.isReady c then .runnable else .blocked
    | .zombie | .free => .stale

/-- Looks for a number that can run, from the front of a queue.  Stale numbers are dropped and
blocked ones, counted in `blocked`, go to the back.  Once more have been found blocked than there
are, all of them wait on one another. -/
def rotate (s : Scheduler) : List Nat → Nat → Except Fault (Option Nat) × List Nat
  | [], _ => (.ok none, [])
  | id :: rest, blocked =>
    match s.turnout id with
    | .runnable => (.ok (some id), rest)
    | .stale => rotate s rest blocked
    | .blocked =>
      if rest.length < blocked then (.error .invalidContext, rest ++ [id])
      else rotate s (rest ++ [id]) (blocked + 1)
termination_by queue blocked => queue.length + (queue.length - blocked)
decreasing_by
  · simp only [List.length_cons]
    omega
  · simp only [List.length_cons, List.length_append, List.length_nil]
    omega

/-- The first queued context that can run, taken off the queue. -/
def nextRunnable : EStateM Fault Scheduler (Option Nat) := fun s =>
  match s.rotate s.queue 0 with
  | (.ok next, queue) => .ok next { s with queue }
  | (.error fault, queue) => .error fault { s with queue }

end Scheduler

end PostScriptCore
