import PostScriptCore.Proofs.Machine.Scene

/-!
# Words, seen from outside

A word in a procedure takes the arguments of its first definition off the operand stack, if that definition
fits, and runs its native.  In terms of scenes nothing else of the machinery around a native matters.

* `Object.asInt?_int_of_mem`, `Action.ofExactInt_cases` — integers as far as an object holds them.
* `Stage.Calls` — the definition that a word runs.
* `Portrait.running` — a context in the middle of a procedure, and in nothing else.
* `Scene.leads_call`, `Scene.switches_call` — a word whose native goes on, or asks for a switch.
* `Scene.does_add`, `Scene.does_index`, `Scene.does_print`, `Scene.does_vmStatus`, … — natives.
-/

namespace PostScriptCore

/-! ## Integers -/

lemma Object.asInt?_int_of_mem {z : Int} (hlow : -2147483648 ≤ z) (hhigh : z ≤ 2147483647) :
    (Object.int z).asInt? = some z := by
  have hword : (z % wordBound).toNat < 4294967296 := by unfold wordBound; omega
  have hvalue : (Object.int z).value.toNat = (z % wordBound).toNat := UInt32.toNat_ofNat_of_lt' hword
  show some (Object.signedValue _) = _
  rw [Object.signedValue, hvalue]
  unfold wordBound
  split_ifs <;> congr 1 <;> omega

/-- **An exact result** is an integer if an object can hold it, and a real otherwise. -/
lemma Action.ofExactInt_cases (z : Int) :
    ((Action.ofExactInt z).asInt? = some z ↔ -2147483648 ≤ z ∧ z < 2147483648) ∧
      (¬ (-2147483648 ≤ z ∧ z < 2147483648) → (Action.ofExactInt z).ty = .real) := by
  rw [Action.ofExactInt]
  split_ifs with h
  · exact ⟨⟨fun _ => by omega, fun _ => Object.asInt?_int_of_mem h.1 h.2⟩,
      fun hnot => absurd ⟨h.1, by omega⟩ hnot⟩
  · exact ⟨⟨nofun, fun hz => absurd ⟨hz.1, by omega⟩ h⟩, fun _ => rfl⟩

lemma Object.asInt?_int {n : Nat} (h : n ≤ Action.maxInteger) : (Object.int n).asInt? = some (n : Int) := by
  unfold Action.maxInteger at h
  exact Object.asInt?_int_of_mem (by omega) (by omega)

lemma Object.text_int {n : Nat} (h : n ≤ Action.maxInteger) : (Object.int n).text = toString n := by
  show toString (Object.int n).signedValue = toString n
  have hvalue : (Object.int n).signedValue = n := Option.some.inj (Object.asInt?_int h)
  rw [hvalue]
  rfl

/-! ## Calls -/

open Session (execute dispatch releasingHold) in
/-- The object is a word, and executing it dispatches an operator with this first definition. -/
def Stage.Calls (σ : Stage) (obj : Object) (d : Definition Builtin) : Prop :=
  obj.isData = false ∧ ∃ opcode, σ.machine.Runs opcode d ∧ ∀ s : Session Builtin, s.toMachine = σ.machine →
    execute obj s = dispatch opcode (s.setCurrent (Object.operator opcode))

/-- A context in the middle of a procedure, and in nothing else. -/
def Portrait.running (id : Nat) (operands code : List Object) : Portrait :=
  ⟨id, .run, none, operands, some code, [], []⟩

namespace Stage

variable {σ : Stage} {obj : Object} {d : Definition Builtin} {below args : List Object}

/-- An executable name calls what it stands for. -/
lemma calls_of_means (h : σ.machine.Means obj d) : σ.Calls obj d := by
  obtain ⟨name, opcode, rfl, hlt, hlookup, hruns⟩ := h
  refine ⟨rfl, opcode, hruns, fun s hs => ?_⟩
  have hvalue : (Object.executableName name).value.toNat = name := UInt32.toNat_ofNat_of_lt' hlt
  refine (Session.execute_name rfl rfl ?_).trans (bind_ok rfl)
  rw [hvalue, ← hlookup]
  exact congrArg (fun machine : Machine Builtin => machine.operators.lookup? name) hs

/-- So does an operator. -/
lemma calls_of_runs {opcode : Nat} (h : σ.machine.Runs opcode d) : σ.Calls (Object.operator opcode) d :=
  ⟨rfl, opcode, h, fun _ _ => Session.execute_operator (UInt32.toNat_ofNat_of_lt' h.opcode_lt)⟩

/-- The definition accepts the arguments, and there is room for its results above the operands below. -/
structure Takes (σ : Stage) (d : Definition Builtin) (below args : List Object) : Prop where
  length : args.length = d.patterns.length
  accepts : ((d.patterns.zip args).all fun x => x.1.accepts x.2) = true
  room : below.length + d.outArity.toNat ≤ σ.machine.settings.operandStackLimit

/-- The first definition is chosen. -/
lemma Takes.resolve (h : σ.Takes d below args) {stackSet : StackSet}
    (hoperands : stackSet.operands.Lists σ.machine.settings.operandStackLimit (below ++ args))
    (hhold : stackSet.hold.Lists σ.machine.settings.operandStackLimit []) {definitions : List (Definition Builtin)}
    (hfirst : definitions.head? = some d) : stackSet.resolve definitions = .ok d := by
  obtain ⟨rest, rfl⟩ := List.head?_eq_some_iff.mp hfirst
  have haccepts : d.accepts stackSet.operands.toList = true := by
    rw [Definition.accepts, hoperands.toList_eq, Pattern.acceptTop_append h.length, h.accepts]
  have hchoice : OperatorTable.choice (d :: rest) stackSet.operands.toList = .ok d := by
    simp only [OperatorTable.choice, List.find?_cons, haccepts]
  have hcount := hoperands.wellFormed.count_le
  rw [hoperands.limit_eq, hoperands.count_eq, List.length_append, h.length] at hcount
  have hroom : stackSet.roomFor d = .ok () := by
    rw [StackSet.roomFor, hoperands.limit_eq, hoperands.count_eq, hhold.limit_eq, hhold.count_eq,
      List.length_append, h.length, if_neg, if_neg]
    · rw [List.length_nil]
      omega
    · have := h.room
      omega
  rw [StackSet.resolve, hchoice]
  simp only [hroom]
  rfl

end Stage

namespace Scene

open Session (execute dispatch dispatchNested releasingHold)

variable {σ : Stage} {v w : Scene} {Q : Scene → Prop} {obj : Object} {d : Definition Builtin}
  {rest : List Object}

/-- **A word** puts its arguments aside and runs its native. -/
lemma call_run (hcalls : σ.Calls obj d) (below args : List Object) (htakes : σ.Takes d below args)
    (hheld : v.held = []) (hoperands : v.operands = below ++ args) {s : Session Builtin} (hs : v.Depicts σ s) :
    ∃ u, Depicts σ { v with operands := below, held := d.prepare args } u ∧
      execute obj s = releasingHold d.patterns.length (d.native.run (d.prepare args)) u := by
  obtain ⟨-, opcode, ⟨start, run, hreached, hfirst⟩, hexecute⟩ := hcalls
  have hstack := hoperands ▸ hs.context.operands
  have hhold := hheld ▸ hs.context.hold
  let t := s.setCurrent (Object.operator opcode)
  have hregistry : (t.operators, t.globalVM) = OperatorTable.afterAll start run := by
    rw [← hreached.registry, ← hs.machine]
    rfl
  have hresolve : t.context.stackSet.resolve
      (OperatorTable.definitionsAt t.operators (OperatorTable.registered start run) opcode) = .ok d := by
    refine htakes.resolve hstack hhold ?_
    rw [← hfirst, ← hs.machine]
    rfl
  obtain ⟨below', args', operands, hold, hsplit, hargs, hmoved, hrun⟩ :=
    (Session.answers_of_registered (s := t) hreached.fresh hreached.spares hreached.words hregistry
      hstack.wellFormed hhold.wellFormed opcode t.context.stackSet.hold.limit).invoked d hresolve
  obtain ⟨rfl, rfl⟩ : below' = below ∧ args' = args :=
    List.append_inj' (hsplit.symm.trans hstack.toList_eq) (hargs.trans htakes.length.symm)
  refine ⟨t.running opcode d.patterns.length operands hold, ⟨hs.machine, hs.scheduler, hs.output,
    { hs.context with operands := ?_, hold := ?_ }⟩, ?_⟩
  · exact ⟨hmoved.operands_wf, hmoved.limit.trans hstack.limit_eq, hmoved.below⟩
  · refine ⟨hmoved.hold_wf, hmoved.hold_limit.trans hhold.limit_eq, ?_⟩
    exact hmoved.held.trans (congrArg (· ++ d.prepare args') hhold.toList_eq)
  · exact (hexecute s hs.machine).trans hrun

lemma length_prepare {below args : List Object} (htakes : σ.Takes d below args) :
    (d.prepare args).length = d.patterns.length := by
  rw [Definition.prepare, List.length_zipWith, htakes.length, Nat.min_self]

/-- A word goes on if its native does. -/
lemma does_call (hcalls : σ.Calls obj d) (below args : List Object) (htakes : σ.Takes d below args)
    (hheld : v.held = []) (hoperands : v.operands = below ++ args)
    (hrun : Does σ (d.native.run (d.prepare args)) { v with operands := below, held := d.prepare args } w)
    (hkept : w.held = d.prepare args) : Does σ (execute obj) v { w with held := [] } := by
  intro s hs
  obtain ⟨u, hu, hexecute⟩ := call_run hcalls below args htakes hheld hoperands hs
  rw [hexecute]
  exact hrun.releasing (hkept ▸ length_prepare htakes) u hu

/-- A word asks for a switch if its native does. -/
lemma yields_call (hcalls : σ.Calls obj d) (below args : List Object) (htakes : σ.Takes d below args)
    (hheld : v.held = []) (hoperands : v.operands = below ++ args)
    (hrun : Yields σ (d.native.run (d.prepare args)) { v with operands := below, held := d.prepare args }
      fun w => w.held = d.prepare args ∧ Q { w with held := [] }) : Yields σ (execute obj) v Q := by
  intro s hs
  obtain ⟨u, hu, hexecute⟩ := call_run hcalls below args htakes hheld hoperands hs
  rw [hexecute]
  refine hrun.releasing (fun w hw => ?_) u hu
  exact ⟨hw.1 ▸ length_prepare htakes, hw.2⟩

/-- **The next word of a procedure**, if its native goes on. -/
lemma leads_call (hexec : 3 ≤ σ.machine.settings.execStackLimit) (hretry : v.retry = [])
    (hcode : v.code = some (obj :: rest)) (hheld : v.held = []) (hcalls : σ.Calls obj d)
    (below args : List Object) (htakes : σ.Takes d below args) (hoperands : v.operands = below ++ args)
    (hrun : Does σ (d.native.run (d.prepare args))
      { v with operands := below, code := some rest, held := d.prepare args } w)
    (hkept : w.held = d.prepare args) : Leads σ 2 v { w with held := [] } :=
  leads_word hexec hretry hcode hcalls.1
    (does_call (v := { v with code := some rest }) hcalls below args htakes hheld hoperands hrun hkept)

/-- The same, if it asks for a switch. -/
lemma switches_call (hexec : 3 ≤ σ.machine.settings.execStackLimit) (hretry : v.retry = [])
    (hcode : v.code = some (obj :: rest)) (hheld : v.held = []) (hcalls : σ.Calls obj d)
    (below args : List Object) (htakes : σ.Takes d below args) (hoperands : v.operands = below ++ args)
    (hrun : Yields σ (d.native.run (d.prepare args))
      { v with operands := below, code := some rest, held := d.prepare args }
      fun w => w.held = d.prepare args ∧ Q { w with held := [] }) : Switches σ 2 v Q :=
  switches_word hexec hretry hcode hcalls.1
    (yields_call (v := { v with code := some rest }) hcalls below args htakes hheld hoperands hrun)

/-! ## Natives that go on -/

lemma does_pure (v : Scene) : Does σ (pure ()) v v := fun s hs => ⟨s, rfl, hs⟩

/-- Two integers whose sum is small enough are added. -/
lemma does_add {m n : Nat} (hsum : m + n ≤ Action.maxInteger)
    (hroom : v.operands.length < σ.machine.settings.operandStackLimit) :
    Does σ (Builtin.intAdd.run [Object.int m, Object.int n]) v
      { v with operands := v.operands ++ [Object.int (m + n : Nat)] } := by
  have hexact : Action.ofExactInt ((m : Int) + n) = Object.int (m + n : Nat) := by
    unfold Action.maxInteger at hsum
    rw [Action.ofExactInt, if_pos (by omega), Nat.cast_add]
  have hrun : (Builtin.intAdd.run [Object.int m, Object.int n] : Action Builtin Unit) =
      Session.push (Object.int (m + n : Nat)) := by
    show (Action.intBinary (· + ·) (Object.int m) (Object.int n) : Action Builtin Unit) = _
    rw [Action.intBinary, Object.asInt?_int (by omega), Object.asInt?_int (by omega)]
    simp only [hexact]
  rw [hrun]
  exact does_push _ hroom

/-- The operand at a depth is copied to the top. -/
lemma does_index {n : Nat} (hn : n ≤ Action.maxInteger) (hpicked : v.operands.reverse[n]? = some obj)
    (hroom : v.operands.length < σ.machine.settings.operandStackLimit) :
    Does σ (Action.index (Object.int n)) v { v with operands := v.operands ++ [obj] } := by
  intro s hs
  obtain ⟨t, hpush, ht⟩ := does_push obj hroom s hs
  refine ⟨t, ?_, ht⟩
  have hfound : s.context.stackSet.operands.fromTop? n = some obj := by
    rw [Stack.fromTop?_eq_getElem?, hs.context.operands.toList_eq, hpicked]
  rw [Action.index, Object.asInt?_int hn]
  dsimp only
  rw [if_neg (by omega)]
  refine (bind_ok (t := s) rfl).trans ((bind_ok (t := s) rfl).trans ?_)
  rw [Int.toNat_natCast, hfound]
  exact hpush

/-- An integer is printed in decimal, on a line of its own. -/
lemma does_print {n : Nat} (hn : n ≤ Action.maxInteger) :
    Does σ (Action.print (Object.int n)) v { v with text := v.text ++ (toString n ++ "\n") } := by
  intro s hs
  have haccepting : s.output.accepting = true := by rw [hs.output]
  refine ⟨{ s with output := { s.output with text := s.output.text ++ (toString n ++ "\n") } }, ?_,
    hs.machine, hs.scheduler, by rw [hs.output], hs.context⟩
  have hdescribe : Action.describe s Action.printDepth (Object.int n) = toString n := Object.text_int hn
  rw [Action.print]
  refine (bind_ok (t := s) rfl).trans ?_
  dsimp only
  rw [if_pos haccepting, hdescribe]
  rfl

/-- The state of the local memory is pushed. -/
lemma does_vmStatus (hroom : v.operands.length + 3 ≤ σ.machine.settings.operandStackLimit) :
    Does σ Action.vmStatus v { v with
      operands := v.operands ++ [Action.clamp σ.localVM.level, Action.clamp σ.localVM.arena.used,
        Action.clamp σ.localVM.arena.max] } := by
  intro s hs
  have hpushes := (does_push (σ := σ) (v := v) (Action.clamp σ.localVM.level) (by omega)).bind
    (f := fun _ => Session.push (Action.clamp σ.localVM.arena.used) >>= fun _ =>
      Session.push (Action.clamp σ.localVM.arena.max))
    ((does_push (Action.clamp σ.localVM.arena.used) (by simp; omega)).bind
      (f := fun _ => Session.push (Action.clamp σ.localVM.arena.max))
      (does_push (Action.clamp σ.localVM.arena.max) (by simp; omega)))
  obtain ⟨t, hrun, ht⟩ := hpushes s hs
  refine ⟨t, (bind_ok (t := s) rfl).trans ?_, ?_⟩
  · rw [hs.context.localVM]
    exact hrun
  · simpa only [List.append_assoc, List.cons_append, List.nil_append] using ht

/-! ## Natives that ask for a switch -/

lemma yields_yield (h : Q v) : Yields σ (Builtin.yield.run []) v Q := fun s hs => ⟨s, v, rfl, hs, h⟩

lemma yields_zombie (h : Q { v with state := .zombie }) : Yields σ (Builtin.zombie.run []) v Q := fun s hs =>
  ⟨_, { v with state := .zombie }, Action.finish_run .zombie s,
    ⟨hs.machine, hs.scheduler, hs.output, { hs.context with state := rfl }⟩, h⟩

end Scene

end PostScriptCore
