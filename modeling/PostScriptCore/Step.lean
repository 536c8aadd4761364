/-!
# Steps that keep their state when they fail

All stateful operations of the machine are written in `EStateM`: a failure carries the state reached
so far, because an operation that fails half-way may already have changed something.  Three
combinators connect the levels of the machine.

* `focus` — runs an operation of a component inside the whole.
* `query` — reads the state with a function that may fail, and changes nothing.
* `attempt` — keeps the effect of an operation and drops its answer or its failure.
-/

namespace PostScriptCore

/-- Runs `x` on the component `view s` and puts the component back, also after a failure.  While
`x` runs, `vacant` stands in for the component. -/
@[inline] def focus {ε σ τ α : Type} (view : σ → τ) (update : τ → σ → σ) (vacant : τ)
    (x : EStateM ε τ α) : EStateM ε σ α := fun s =>
  let part := view s
  let rest := update vacant s
  match x part with
  | .ok a part => .ok a (update part rest)
  | .error e part => .error e (update part rest)

/-- Reads the state with a function that may fail. -/
@[inline] def query {ε σ α : Type} (f : σ → Except ε α) : EStateM ε σ α := fun s =>
  match f s with
  | .ok a => .ok a s
  | .error e => .error e s

/-- Runs `x` for its effect on the state and drops its answer or its failure. -/
@[inline] def attempt {ε σ α : Type} (x : EStateM ε σ α) : EStateM ε σ Unit := fun s =>
  match x s with
  | .ok _ s => .ok () s
  | .error _ s => .ok () s

end PostScriptCore
