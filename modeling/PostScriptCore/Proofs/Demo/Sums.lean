import Mathlib.Algebra.Order.BigOperators.Group.Finset
import PostScriptCore.Proofs.Demo.Turns

/-!
# What the demonstration computes

Every turn takes the demonstration closer to its end, whoever is given it: the root forks a worker or joins
some, and a worker adds a term or ends.  So the turns may be given in any order, and the run ends with a line
for every worker.

* `Demo.State.turnsLeft` — a bound on the turns that are still to come.
* `Demo.switches_worker`, `Demo.switches_root`, `Demo.script` — each turn brings it down.
* `Demo.exists_final`, `Demo.Finished` — where the run ends.
* `Demo.computes_sums`, `Demo.run_prints` — from the start of the machine to the report.
-/

namespace PostScriptCore.Demo

open Scene (Switches)

variable {workers terms left : Nat} {σ : Stage} {body : Object} {scheduler : Scheduler} {a : State}

/-! ## The script -/

namespace State

/-- The workers that are still to be forked have all turns to go. -/
structure Valid (workers terms : Nat) (a : State) : Prop where
  left_le : a.phase.left ≤ workers
  turns_le : ∀ j, a.turns j ≤ terms
  fresh : ∀ j, a.phase.forked workers ≤ j → a.turns j = terms

/-- How many turns the root still has to go, at most. -/
def rootTurns (workers : Nat) : Phase → Nat
  | .forking left => left + workers + 1
  | .joining left => left

/-- How many turns are still to come, at most. -/
def turnsLeft (workers : Nat) (a : State) : Nat :=
  rootTurns workers a.phase + ∑ j ∈ Finset.range workers, a.turns j

/-- The root has had a turn. -/
lemma Valid.advance (ha : a.Valid workers terms) (phase : Phase) (hleft : phase.left ≤ workers)
    (hforked : a.phase.forked workers ≤ phase.forked workers)
    (hless : rootTurns workers phase < rootTurns workers a.phase) :
    Valid workers terms ⟨phase, a.turns⟩ ∧ turnsLeft workers ⟨phase, a.turns⟩ < turnsLeft workers a :=
  ⟨⟨hleft, ha.turns_le, fun j hj => ha.fresh j (Nat.le_trans hforked hj)⟩, Nat.add_lt_add_right hless _⟩

/-- A worker has had a turn. -/
lemma Valid.update (ha : a.Valid workers terms) {j n : Nat} (hforked : j < a.phase.forked workers)
    (hforked' : a.phase.forked workers ≤ workers) (hturns : a.turns j = n + 1) :
    Valid workers terms ⟨a.phase, Function.update a.turns j n⟩ ∧
      turnsLeft workers ⟨a.phase, Function.update a.turns j n⟩ < turnsLeft workers a := by
  have hle (i : Nat) : Function.update a.turns j n i ≤ a.turns i := by
    by_cases hi : i = j
    · rw [hi, Function.update_self]
      omega
    · rw [Function.update_of_ne hi]
  refine ⟨⟨ha.left_le, fun i => Nat.le_trans (hle i) (ha.turns_le i), fun i hi => ?_⟩, ?_⟩
  · have hne : i ≠ j := by
      rintro rfl
      exact absurd hforked (Nat.not_lt.mpr hi)
    exact (Function.update_of_ne hne n a.turns).trans (ha.fresh i hi)
  · have hmem : j ∈ Finset.range workers := Finset.mem_range.mpr (by omega)
    have hless : Function.update a.turns j n j < a.turns j := by
      rw [Function.update_self]
      omega
    exact Nat.add_lt_add_left (Finset.sum_lt_sum (fun i _ => hle i) ⟨j, hmem, hless⟩) _

end State

/-- Whoever has a turn leaves a state that is closer to the end. -/
def Closer (σ : Stage) (workers terms : Nat) (body : Object) (a : State) (v : Scene) : Prop :=
  ∃ b : State, b.Valid workers terms ∧ b.turnsLeft workers < a.turnsLeft workers ∧
    v.Shows σ (play σ workers terms body b)

/-- As many objects as a turn may take. -/
def turnCost (workers terms : Nat) : Nat := terms + 9 * workers + 5

/-- **Any turn of a worker.** -/
lemma switches_worker (h : Setting workers terms σ body) (ha : a.Valid workers terms) {j n : Nat}
    (hemploys : a.phase.Employs workers j) (hturns : a.turns j = n + 1)
    (hshows : scheduler.Shows σ (play σ workers terms body a) (j + 2)) :
    Switches σ 4 ⟨worker σ.machine.word terms (j + 2) (n + 1), scheduler, (play σ workers terms body a).text⟩
      (Closer σ workers terms body a) := by
  obtain ⟨hvalid, hless⟩ := ha.update hemploys.2 (a.phase.forked_le workers) hturns
  let b : State := ⟨a.phase, Function.update a.turns j n⟩
  have hothers : scheduler.Shows σ (play σ workers terms body b) (j + 2) := by
    refine ⟨hshows.nextId, fun id hne => ?_⟩
    have hcast : (play σ workers terms body b).cast id = (play σ workers terms body a).cast id := by
      by_cases hroot : id = 1
      · rw [hroot]
        rfl
      · refine cast_congr hroot fun i hi => ⟨Iff.rfl, fun _ => Function.update_of_ne ?_ n a.turns⟩
        omega
    rw [hcast]
    exact hshows.cast id hne
  have hown : (play σ workers terms body b).cast (j + 2) =
      some (worker σ.machine.word terms (j + 2) n) :=
    (cast_of_employs (a := b) hemploys).trans
      (congrArg (fun n => some (worker _ _ _ n)) (Function.update_self j n a.turns))
  cases n with
  | zero =>
      have hturn := Scene.switches_end
        (v := ⟨worker σ.machine.word terms (j + 2) 1, scheduler, (play σ workers terms body a).text⟩)
        (Q := Closer σ workers terms body a) h.zombie rfl rfl rfl
        ⟨b, hvalid, hless, hown, (by rintro ⟨⟩), rfl, hothers⟩
      exact hturn.mono (by decide) fun _ hv => hv
  | succ n =>
      have hle := ha.turns_le j
      rw [worker, repeated_succ]
      exact switches_round h (by omega) ⟨b, hvalid, hless, hown, (by rintro ⟨⟩), rfl, hothers⟩

/-- **Any turn of the root.** -/
lemma switches_root (h : Setting workers terms σ body) (ha : a.Valid workers terms)
    (hgo : (play σ workers terms body a).CanGoOn 1)
    (hshows : scheduler.Shows σ (play σ workers terms body a) 1) :
    Switches σ (turnCost workers terms)
      ⟨{ root σ workers terms body a.phase with state := .run }, scheduler, (play σ workers terms body a).text⟩
      (Closer σ workers terms body a) := by
  obtain ⟨phase, turns⟩ := a
  have hleft := ha.left_le
  unfold turnCost
  have hcloser {bound : Nat} (hbound : ∀ rest ≤ bound, rest ≤ workers ∧ rest < State.rootTurns workers phase)
      (v : Scene) (hv : ∃ rest ≤ bound, v.Shows σ (play σ workers terms body ⟨.joining rest, turns⟩)) :
      Closer σ workers terms body ⟨phase, turns⟩ v := by
    obtain ⟨rest, hrest, hv⟩ := hv
    obtain ⟨hvalid, hless⟩ := ha.advance (.joining rest) (hbound rest hrest).1 (phase.forked_le workers)
      (hbound rest hrest).2
    exact ⟨_, hvalid, hless, hv⟩
  cases phase with
  | forking left =>
      cases left with
      | zero =>
          have hjoining : scheduler.Shows σ (play σ workers terms body ⟨.joining workers, turns⟩) 1 := by
            refine ⟨hshows.nextId, fun id hne => ?_⟩
            have hcast : (play σ workers terms body ⟨.joining workers, turns⟩).cast id =
                (play σ workers terms body ⟨.forking 0, turns⟩).cast id := by
              refine cast_congr hne fun j hj => ⟨?_, fun _ => rfl⟩
              show workers - workers ≤ j ∧ j < workers ↔ 0 ≤ j ∧ j < workers - 0
              omega
            rw [hcast]
            exact hshows.cast id hne
          have hturn := switches_joins h (Nat.le_refl workers) hjoining
          rw [Nat.sub_self] at hturn
          exact hturn.mono (by omega)
            (hcloser fun rest hrest => ⟨hrest, show rest < 0 + workers + 1 by omega⟩)
      | succ left =>
          have hleft : left + 1 ≤ workers := hleft
          have hfresh : turns (workers - (left + 1)) = terms := ha.fresh _ (Nat.le_refl _)
          obtain ⟨hvalid, hless⟩ := ha.advance (.forking left) (show left ≤ workers by omega)
            (show workers - (left + 1) ≤ workers - left by omega)
            (show left + workers + 1 < left + 1 + workers + 1 by omega)
          exact (switches_fork h (by omega) hfresh hshows).mono (by omega) fun v hv => ⟨_, hvalid, hless, hv⟩
  | joining left =>
      cases left with
      | zero =>
          obtain ⟨q, hcast, hstate⟩ := hgo
          obtain rfl := Option.some.inj hcast
          rcases hstate with hstate | ⟨hstate, -⟩ <;> contradiction
      | succ left =>
          have hleft : left + 1 ≤ workers := hleft
          have hended : turns (workers - (left + 1)) = 0 := by
            obtain ⟨q, hcast, hstate⟩ := hgo
            obtain rfl := Option.some.inj hcast
            rcases hstate with hstate | ⟨-, hidle⟩
            · contradiction
            · have hworker := hidle _ _ rfl (cast_of_employs (a := ⟨.joining (left + 1), turns⟩)
                (show (Phase.joining (left + 1)).Employs workers (workers - (left + 1)) from
                  ⟨Nat.le_refl _, show _ < workers by omega⟩))
              by_contra hturns
              obtain ⟨n, hn⟩ := Nat.exists_eq_succ_of_ne_zero hturns
              simp only [hn] at hworker
              contradiction
          exact (switches_resumed h (by omega) hended hshows).mono (by omega)
            (hcloser fun rest hrest => ⟨by omega, show rest < left + 1 by omega⟩)

/-- **What is going to happen**, in whatever order the turns are given. -/
def script (h : Setting workers terms σ body) {budget : Nat} (hbudget : turnCost workers terms ≤ budget) :
    Script σ budget State where
  play := play σ workers terms body
  valid := State.Valid workers terms
  left := State.turnsLeft workers
  turn := by
    intro a ha id q scheduler hcast hgo hshows
    match id with
    | 0 => contradiction
    | 1 =>
        obtain rfl := Option.some.inj hcast
        exact (switches_root h ha hgo hshows).mono hbudget fun _ hv => hv
    | j + 2 =>
        have hemploys : a.phase.Employs workers j := by
          by_contra hnone
          rw [cast_of_not_employs hnone] at hcast
          contradiction
        rw [cast_of_employs hemploys] at hcast
        obtain rfl := Option.some.inj hcast
        obtain ⟨q, hq, hstate⟩ := hgo
        rw [cast_of_employs hemploys] at hq
        obtain rfl := Option.some.inj hq
        cases hturns : a.turns j with
        | zero =>
            rw [hturns] at hstate
            rcases hstate with hstate | ⟨hstate, -⟩ <;> contradiction
        | succ n =>
            refine (switches_worker h ha hemploys hturns hshows).mono ?_ fun _ hv => hv
            unfold turnCost at hbudget
            omega
  alive := by
    rintro ⟨phase, turns⟩ ha
    match phase with
    | .forking left => exact .inl ⟨1, _, rfl, .inl rfl⟩
    | .joining 0 =>
        refine .inr fun id q hq => ?_
        by_cases hroot : id = 1
        · rw [hroot] at hq
          obtain rfl := Option.some.inj hq
          rfl
        · rw [cast_of_nobody hroot (Phase.not_employs_joined workers)] at hq
          contradiction
    | .joining (left + 1) =>
        have hleft : left + 1 ≤ workers := ha.left_le
        have hemploys : (Phase.joining (left + 1)).Employs workers (workers - (left + 1)) :=
          ⟨Nat.le_refl _, show _ < workers by omega⟩
        have hcast : (play σ workers terms body ⟨.joining (left + 1), turns⟩).cast (workers - (left + 1) + 2) =
            some (worker σ.machine.word terms (workers - (left + 1) + 2) (turns (workers - (left + 1)))) :=
          cast_of_employs hemploys
        cases hturns : turns (workers - (left + 1)) with
        | zero =>
            refine .inl ⟨1, _, rfl, .inr ⟨rfl, fun target r htarget hr => ?_⟩⟩
            obtain rfl := Option.some.inj htarget
            rw [hcast] at hr
            obtain rfl := Option.some.inj hr
            simp only [hturns]
            rfl
        | succ n =>
            refine .inl ⟨workers - (left + 1) + 2, _, hcast, .inl ?_⟩
            simp only [hturns]
            rfl

/-! ## The end -/

/-- So many turns are enough. -/
def turnCount (workers terms : Nat) : Nat := workers * (terms + 2) + 2

/-- Nothing has happened yet. -/
def State.start (workers terms : Nat) : State := ⟨.forking workers, fun _ => terms⟩

lemma State.valid_start (workers terms : Nat) : (start workers terms).Valid workers terms :=
  ⟨Nat.le_refl _, fun _ => Nat.le_refl _, fun _ _ => rfl⟩

lemma State.turnsLeft_start (workers terms : Nat) :
    (start workers terms).turnsLeft workers < turnCount workers terms := by
  have hsum : ∑ _j ∈ Finset.range workers, terms = workers * terms := by
    rw [Finset.sum_const, Finset.card_range, smul_eq_mul]
  show workers + workers + 1 + ∑ _j ∈ Finset.range workers, terms < _
  rw [hsum, turnCount, Nat.mul_add]
  omega

/-- **The demonstration comes to its end** when nothing has happened yet. -/
lemma exists_final (h : Setting workers terms σ body) {w : World Builtin}
    (hw : w.Shows σ (play σ workers terms body (State.start workers terms))) {budget turns : Nat}
    (hbudget : turnCost workers terms ≤ budget) (hturns : turnCount workers terms ≤ turns) :
    ∃ rest final, World.run budget turns w = .ok true final ∧
      final.Shows σ (play σ workers terms body ⟨.joining 0, rest⟩) := by
  obtain ⟨⟨phase, rest⟩, final, hrun, -, hfinal, hover⟩ := (script h hbudget).run turns
    (State.valid_start workers terms) hw (Nat.lt_of_lt_of_le (State.turnsLeft_start workers terms) hturns)
  refine ⟨rest, final, hrun, ?_⟩
  have hroot : (root σ workers terms body phase).state.isActive = false := hover 1 _ rfl
  match phase with
  | .forking left => contradiction
  | .joining (left + 1) => contradiction
  | .joining 0 => exact hfinal

/-- A single context is registered: the root, which has ended, with the handles of the workers and the
status of its memory on its stack.  Each worker's sum has been printed. -/
structure Finished (workers terms : Nat) (c : Context) (w : World Builtin) : Prop where
  text : w.output.text = String.join (List.replicate workers (toString (terms * (terms + 1) / 2) ++ "\n"))
  contexts : w.scheduler.contexts = [c]
  state : c.state = .zombie
  operands : c.stackSet.operands.toList = (List.range workers).map (fun j => Object.context (j + 2)) ++
    [Object.int 0, Action.clamp c.localVM.arena.used, Action.clamp c.localVM.arena.max]

/-- What the last world looks like. -/
lemma exists_finished (h : Setting workers terms σ body) {w : World Builtin} {rest : Nat → Nat}
    (hw : w.Shows σ (play σ workers terms body ⟨.joining 0, rest⟩)) :
    ∃ c, c.id = 1 ∧ Finished workers terms c w := by
  have hcast : (play σ workers terms body ⟨.joining 0, rest⟩).cast 1 =
      some (root σ workers terms body (.joining 0)) := rfl
  obtain ⟨c, hfind, hroot⟩ := hw.find?_of_cast hcast
  have hlevel : σ.localVM.level = 0 := Memory.level_of_create h.memory
  refine ⟨c, hroot.id, ?_, ?_, hroot.state, ?_⟩
  · rw [hw.output]
    show lines terms (workers - 0) = _
    rw [Nat.sub_zero]
    rfl
  · exact hw.orderly.contexts_eq_singleton hfind fun j hj =>
      hw.find?_of_cast_none (cast_of_nobody hj (Phase.not_employs_joined workers))
  · rw [hroot.operands.toList_eq, hroot.localVM]
    show handles workers ++ status σ.localVM = _
    rw [status, hlevel]
    rfl

/-! ## From the start -/

/-- **A root that has been spawned** has everything still to do. -/
lemma shows_spawned {machine : Machine Builtin} {localVM : Memory} {program : Object}
    (hmemory : Memory.create .localVM machine.settings = .ok localVM)
    (hsegment : 0 < machine.settings.segmentSize)
    (hexec : 2 ≤ machine.settings.execStackLimit) (hproc : program.isProc = true)
    (hbank : program.bank = .globalVM)
    (hcode : machine.globalVM.arrayElements program = .ok (rootCode machine.word workers terms body)) :
    ∃ w, World.spawn program (World.ofMachine machine true) = .ok 1 w ∧
      w.Shows ⟨machine, localVM⟩ (play ⟨machine, localVM⟩ workers terms body (State.start workers terms)) := by
  let σ : Stage := ⟨machine, localVM⟩
  obtain ⟨exec, hwf, hlist, hlimit, hspawn⟩ := World.exists_spawn (w := World.ofMachine machine true) hmemory
    hsegment hexec program
  have ⟨horderly, _⟩ := World.orderly_spawn (w := World.ofMachine machine true) Scheduler.orderly_empty program
  rw [finalState_of_ok hspawn] at horderly
  let c : Context :=
    ⟨1, .run, localVM, { StackSet.create machine.settings with exec }, Object.null, none, none⟩
  have hroot : (root σ workers terms body (.forking workers)).Depicts σ c := by
    rw [root, Nat.sub_self]
    exact Portrait.depicts_new hsegment hproc hbank hcode (.create hsegment _ _) ⟨hwf, hlimit, hlist⟩ 1
  refine ⟨_, hspawn, rfl, rfl, horderly, ?_, fun id => ?_⟩
  · show 2 = workers - workers + 2
    omega
  · have hfind : (Scheduler.empty.allocateId.2.adopt c).find? id = if id = 1 then some c else none :=
      Scheduler.find?_adopt _ c id
    show Option.Rel _ _ ((Scheduler.empty.allocateId.2.adopt c).find? id)
    rw [hfind]
    by_cases hown : id = 1
    · rw [if_pos hown, hown]
      exact .some hroot
    · rw [if_neg hown, cast_of_nobody hown (Phase.not_employs_start workers)]
      exact .none

section Building

variable {machine built : Machine Builtin} {count : Nat} {program : Object} {localVM : Memory}

/-- A machine that the program was built on is a setting for it. -/
lemma Built.setting (h : Built workers terms count machine body program built)
    (hmemory : Memory.create .localVM built.settings = .ok localVM)
    (hexec : 4 ≤ built.settings.execStackLimit)
    (hlimit : workers + terms + 2 ≤ built.settings.operandStackLimit) (hpos : 0 < terms)
    (hsum : total terms ≤ Action.maxInteger) : Setting workers terms ⟨built, localVM⟩ body where
  ready := ⟨count + 2, h.ready⟩
  memory := hmemory
  exec := hexec
  limit := hlimit
  few := by
    have hwords : (workers * (terms + 8) + 1) * 16 < 4294967296 :=
      length_rootCode built.word workers terms body ▸ h.words
    have hle : workers * 8 ≤ workers * (terms + 8) := Nat.mul_le_mul_left workers (Nat.le_add_left 8 terms)
    show workers ≤ 2147483647
    omega
  terms_pos := hpos
  sum := hsum
  isProc := h.body_isProc
  bank := h.body_bank
  elements := h.body_elements

/-- **Once the program has been built**, it is spawned and runs to its end. -/
lemma Built.finishes (h : Built workers terms count machine body program built)
    (hsetting : Setting workers terms ⟨built, localVM⟩ body) :
    ∃ w, World.spawn program (World.ofMachine built true) = .ok 1 w ∧
      ∀ budget turns, turnCost workers terms ≤ budget → turnCount workers terms ≤ turns →
        ∃ c final, World.run budget turns w = .ok true final ∧ c.id = 1 ∧ Finished workers terms c final := by
  have hexec : 2 ≤ built.settings.execStackLimit := Nat.le_trans (by decide) hsetting.exec
  obtain ⟨w, hspawn, hw⟩ :=
    shows_spawned hsetting.memory hsetting.segments hexec h.isProc h.bank h.elements
  refine ⟨w, hspawn, fun budget turns hbudget hturns => ?_⟩
  obtain ⟨rest, final, hrun, hfinal⟩ := exists_final hsetting hw hbudget hturns
  obtain ⟨c, hid, hfinished⟩ := exists_finished hsetting hfinal
  exact ⟨c, final, hrun, hid, hfinished⟩

end Building

/-- The settings of the demonstration: the standard ones, apart from three of them. -/
def settings (segment period limit : Nat) : Settings :=
  { Settings.standard with gcPeriod := period, segmentSize := segment, operandStackLimit := limit }

/-- How these settings are asked for. -/
def request (segment period limit : Nat) : SettingsRequest :=
  { gcPeriod := some period, segmentSize := some segment, operandStackLimit := some limit }

/-- There is room for the operators and the program in a memory of the standard size. -/
def Fits (workers terms : Nat) : Prop :=
  Machine.startCost + cost workers terms + Settings.standard.pageSize ≤ Settings.standard.maxArenaSize

instance (workers terms : Nat) : Decidable (Fits workers terms) := inferInstanceAs (Decidable (_ ≤ _))

section Running

variable {segment period limit : Nat}

lemma resolve_request (hsegment : 1 ≤ segment) (hperiod : 1 ≤ period) (hlimit : 1 ≤ limit) :
    (request segment period limit).resolve = .ok (settings segment period limit) := by
  have hproblem : (settings segment period limit).problem? = none := by
    have hperiod' : period ≠ 0 := Nat.one_le_iff_ne_zero.mp hperiod
    have hsegment' : segment ≠ 0 := Nat.one_le_iff_ne_zero.mp hsegment
    have hlimit' : limit ≠ 0 := Nat.one_le_iff_ne_zero.mp hlimit
    simp [Settings.problem?, settings, Settings.standard, osPageSize, hperiod', hsegment', hlimit']
  have hsettings : (request segment period limit).overStandard = settings segment period limit := rfl
  rw [SettingsRequest.resolve, hsettings, hproblem]

/-- There is a local memory for every context. -/
lemma exists_localVM (segment period limit : Nat) :
    ∃ localVM, Memory.create .localVM (settings segment period limit) = .ok localVM := by
  have hsize : 65536 ≠ 0 := by decide
  have harena : 65536 + osPageSize ≤ 268435456 := by decide
  have hstorage : 0 + osPageSize ≤ 268435456 := by decide
  have hword : 268435456 < wordBound := by decide
  have htable : 1 + 0 ≤ 4194304 := by decide
  have hlimit : 4194304 ≤ wordBound := by decide
  obtain ⟨localVM, hcreate, -⟩ : ∃ m, Memory.create .localVM (settings segment period limit) = .ok m ∧
      m.Threaded ∧ m.Offers 0 0 :=
    Memory.exists_create .localVM 0 0 hsize harena hstorage hword htable hlimit
  exact ⟨localVM, hcreate⟩

/-- The machine of the demonstration starts, and if everything fits, its program can be built. -/
lemma exists_machine (workers terms : Nat) (hsegment : 1 ≤ segment) (hperiod : 1 ≤ period)
    (hlimit : 1 ≤ limit) :
    ∃ machine, Machine.start (request segment period limit) id = .ok machine ∧
      machine.settings = settings segment period limit ∧
      (Fits workers terms → ∃ program built, Demo.program workers terms machine = .ok program built) := by
  have hresolve := resolve_request hsegment hperiod hlimit
  have hstarts (bytes rows : Nat)
      (hbytes : Machine.startCost + bytes + Settings.standard.pageSize ≤ Settings.standard.maxArenaSize)
      (hrows : 1 + Machine.startRows + rows ≤ Settings.standard.maxEntities) :
      ∃ machine : Machine Builtin, Machine.start (request segment period limit) id = .ok machine ∧
        machine.settings = settings segment period limit ∧ machine.globalVM.Offers bytes rows :=
    Machine.exists_start hresolve
      { arena := by show 65536 + osPageSize ≤ 268435456; decide
        storage := hbytes
        arenaLimit := by show 268435456 < wordBound; decide
        table := hrows
        limit := by show 4194304 ≤ wordBound; decide }
  obtain ⟨machine, hstart, hsettings, -⟩ := hstarts 0 0 (by decide) (by decide)
  refine ⟨machine, hstart, hsettings, fun hfits => ?_⟩
  obtain ⟨same, hsame, -, hoffers⟩ := hstarts (cost workers terms) 2 hfits (by decide)
  obtain rfl := Except.ok.inj (hstart.symm.trans hsame)
  have hwords : cost workers terms < wordBound := by
    have hle : Machine.startCost + cost workers terms + 4096 ≤ 268435456 := hfits
    show _ < 4294967296
    omega
  exact exists_program (Machine.ready_start hstart) (by decide) hwords hoffers

/-- A program that has been built on the machine is spawned and runs to its end. -/
lemma runs_to_end {machine built : Machine Builtin} {program : Object} (hterms : 1 ≤ terms)
    (hlimit : workers + terms + 2 ≤ limit) (hsum : total terms ≤ Action.maxInteger)
    (hstart : Machine.start (request segment period limit) id = .ok machine)
    (hsettings : machine.settings = settings segment period limit)
    (hprogram : Demo.program workers terms machine = .ok program built) :
    ∃ w, World.spawn program (World.ofMachine built true) = .ok 1 w ∧
      ∀ budget turns, turnCost workers terms ≤ budget → turnCount workers terms ≤ turns →
        ∃ c final, World.run budget turns w = .ok true final ∧ c.id = 1 ∧ Finished workers terms c final := by
  obtain ⟨body, hbuilt⟩ := built_of_program (Machine.ready_start hstart) (by decide) hprogram
  have hsame : built.settings = settings segment period limit := hbuilt.settings.trans hsettings
  obtain ⟨localVM, hmemory⟩ := exists_localVM segment period limit
  rw [← hsame] at hmemory
  have hexec : 4 ≤ built.settings.execStackLimit := by
    rw [hsame]
    show 4 ≤ 250
    decide
  exact hbuilt.finishes (hbuilt.setting hmemory hexec (hsame ▸ hlimit) hterms hsum)

/-- **The demonstration computes its sums.**  Whatever the segment size and the collection period are, the
program can be built if it fits, and once it has been built, it is spawned and runs until nothing is left
to do but to look at the root. -/
theorem computes_sums (workers terms segment period limit : Nat) (hterms : 1 ≤ terms)
    (hsegment : 1 ≤ segment) (hperiod : 1 ≤ period) (hlimit : workers + terms + 2 ≤ limit)
    (hsum : terms * (terms + 1) / 2 < 2 ^ 31) :
    ∃ machine, Machine.start (request segment period limit) id = .ok machine ∧
      (Fits workers terms → ∃ program built, Demo.program workers terms machine = .ok program built) ∧
      ∀ program built, Demo.program workers terms machine = .ok program built →
        ∃ root w, World.spawn program (World.ofMachine built true) = .ok root w ∧
          ∀ budget turns, turnCost workers terms ≤ budget → turnCount workers terms ≤ turns →
            ∃ c final, World.run budget turns w = .ok true final ∧ c.id = root ∧
              Finished workers terms c final := by
  obtain ⟨machine, hstart, hsettings, hbuilds⟩ := exists_machine workers terms hsegment hperiod
    (show 1 ≤ limit by omega)
  refine ⟨machine, hstart, hbuilds, fun program built hprogram => ⟨1, ?_⟩⟩
  exact runs_to_end hterms hlimit (Nat.le_of_lt_succ hsum) hstart hsettings hprogram

/-- Two workers add up three terms each, with the smallest segments and a collection whenever the free list
is searched in vain. -/
theorem computes_sums_twice : ∃ machine program built root w c final,
    Machine.start (request 1 1 7) id = .ok machine ∧
      Demo.program 2 3 machine = .ok program built ∧
      World.spawn program (World.ofMachine built true) = .ok root w ∧
      World.run 26 12 w = .ok true final ∧ c.id = root ∧ Finished 2 3 c final := by
  obtain ⟨machine, hstart, hbuilds, hruns⟩ := computes_sums 2 3 1 1 7 (by decide) (by decide)
    (by decide) (by decide) (by decide)
  obtain ⟨program, built, hprogram⟩ := hbuilds (by decide)
  obtain ⟨root, w, hspawn, hfinishes⟩ := hruns program built hprogram
  obtain ⟨c, final, hrun, hid, hfinished⟩ := hfinishes 26 12 (by decide) (by decide)
  exact ⟨machine, program, built, root, w, c, final, hstart, hprogram, hspawn, hrun, hid, hfinished⟩

/-! ## The report -/

lemma Finished.localLine {c : Context} {w : World Builtin} (h : Finished workers terms c w) :
    ∃ used capacity : Nat, Demo.localLine c = "local vm: level 0, " ++ toString used ++ " of " ++
      toString capacity ++ " bytes\n" := by
  have hclamp (n : Nat) : ∃ k : Nat, (Action.clamp n).asInt? = some (k : Int) := by
    rw [Action.clamp]
    split
    · next hn => exact ⟨n, Object.asInt?_int hn⟩
    · exact ⟨2147483647, Object.asInt?_int (Nat.le_refl _)⟩
  obtain ⟨used, hused⟩ := hclamp c.localVM.arena.used
  obtain ⟨capacity, hcapacity⟩ := hclamp c.localVM.arena.max
  have hlevel : (Object.int 0).asInt? = some ((0 : Nat) : Int) := rfl
  refine ⟨used, capacity, ?_⟩
  rw [Demo.localLine, h.operands, List.reverse_append]
  simp only [List.reverse_cons, List.reverse_nil, List.nil_append, List.cons_append, List.take_succ_cons,
    List.take_zero, List.filterMap_cons, List.filterMap_nil, hused, hcapacity, hlevel]
  rfl

/-- **What the demonstration prints**: a line for every worker and two about the memories. -/
theorem run_prints (hterms : 1 ≤ terms) (hsegment : 1 ≤ segment) (hperiod : 1 ≤ period)
    (hlimit : workers + terms + 2 ≤ limit) (hsum : terms * (terms + 1) / 2 < 2 ^ 31)
    (hfits : Fits workers terms) :
    ∃ (used capacity : Nat) (globalVM : Memory), Demo.run ⟨workers, terms, request segment period limit⟩ =
      ⟨String.join (List.replicate workers (toString (terms * (terms + 1) / 2) ++ "\n")) ++
        ("local vm: level 0, " ++ toString used ++ " of " ++ toString capacity ++ " bytes\n") ++
        globalLine globalVM, none⟩ := by
  obtain ⟨machine, hstart, hsettings, hbuilds⟩ := exists_machine workers terms hsegment hperiod
    (show 1 ≤ limit by omega)
  obtain ⟨program, built, hprogram⟩ := hbuilds hfits
  obtain ⟨w, hspawn, hfinishes⟩ :=
    runs_to_end hterms hlimit (Nat.le_of_lt_succ hsum) hstart hsettings hprogram
  have hcost : Machine.startCost + (((terms - 1) * 2 + workers * (terms + 8) + 1) * 16 + 14) + 4096 ≤
      268435456 := hfits
  have hmul : workers * (terms + 8) = workers * (terms + 2) + workers * 6 := by
    rw [← Nat.mul_add]
  have hbudget : turnCost workers terms ≤ Demo.budget := by
    show terms + 9 * workers + 5 ≤ 4294967296
    omega
  have hturns : turnCount workers terms ≤ Demo.budget := by
    show workers * (terms + 2) + 2 ≤ 4294967296
    omega
  obtain ⟨c, final, hrun, hid, hfinished⟩ := hfinishes Demo.budget Demo.budget hbudget hturns
  obtain ⟨used, capacity, hline⟩ := hfinished.localLine
  have hfind : final.scheduler.find? 1 = some c := by
    rw [Scheduler.find?, hfinished.contexts, List.find?_cons, hid]
    rfl
  refine ⟨used, capacity, final.globalVM, ?_⟩
  have hstart' : Machine.start (request segment period limit) (fun native : Builtin => native) =
      .ok machine := hstart
  rw [Demo.run]
  dsimp only
  rw [hstart']
  dsimp only
  rw [hprogram]
  dsimp only
  rw [execute, hspawn]
  dsimp only
  rw [hrun]
  dsimp only
  rw [hfind]
  dsimp only
  rw [hfinished.text, hline]

end Running

end PostScriptCore.Demo
